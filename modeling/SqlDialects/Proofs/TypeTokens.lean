import SqlDialects.Proofs.Boundaries

/-! Types as lists of tokens. A type is a name and, between two signs, numbers, inner types and named members with
commas between them; in front of anything that ends a type such tokens are read as the type. -/

namespace SqlDialects

/-! ### Types without their places -/

theorem bareElems_eq (ts : List TypeSpec) : bareElems ts = ts.map TypeSpec.bare := by
  induction ts with
  | nil => rfl
  | cons t ts ih => rw [bareElems, ih, List.map_cons]

theorem bareFields_eq (fields : List TypeField) : bareFields fields = fields.map fun f => ⟨f.name, f.type.bare⟩ := by
  induction fields with
  | nil => rfl
  | cons f fields ih =>
    obtain ⟨name, t⟩ := f
    rw [bareFields, ih, List.map_cons]

theorem TypeSpec.elems_bare (t : TypeSpec) : t.bare.elems = t.elems.map TypeSpec.bare := by
  cases t
  rw [bare, bareElems_eq]

mutual

/-- Two types are equal if they are the same without their places. -/
theorem TypeSpec.equal_iff : ∀ t u : TypeSpec, t.equal u = true ↔ t.bare = u.bare
  | ⟨_, name, params, elems, fields, native⟩, ⟨_, name', params', elems', fields', native'⟩ => by
    simp only [TypeSpec.equal, Bool.and_eq_true, beq_iff_eq, equalElems_iff elems elems',
      equalFields_iff fields fields',
      TypeSpec.bare, TypeSpec.mk.injEq, true_and, and_assoc]
    exact ⟨fun ⟨name, native, rest, elems, fields⟩ => ⟨name, rest, elems, fields, native⟩,
      fun ⟨name, rest, elems, fields, native⟩ => ⟨name, native, rest, elems, fields⟩⟩

theorem equalElems_iff : ∀ ts us : List TypeSpec, equalElems ts us = true ↔ bareElems ts = bareElems us
  | [], [] => by simp [equalElems]
  | [], _ :: _ => by simp [equalElems, bareElems]
  | _ :: _, [] => by simp [equalElems, bareElems]
  | t :: ts, u :: us => by
    simp only [equalElems, Bool.and_eq_true, t.equal_iff u, equalElems_iff ts us, bareElems, List.cons.injEq]

theorem equalFields_iff : ∀ fields others : List TypeField,
    equalFields fields others = true ↔ bareFields fields = bareFields others
  | [], [] => by simp [equalFields]
  | [], ⟨_, _⟩ :: _ => by simp [equalFields, bareFields]
  | ⟨_, _⟩ :: _, [] => by simp [equalFields, bareFields]
  | ⟨name, t⟩ :: fields, ⟨name', u⟩ :: others => by
    simp only [equalFields, Bool.and_eq_true, beq_iff_eq, t.equal_iff u, equalFields_iff fields others, bareFields,
      List.cons.injEq, TypeField.mk.injEq]

end

/-- The spelling without its places. -/
def NativeType.bare (n : NativeType) : NativeType :=
  { n with pos := {}, args := bareElems n.args, fields := bareFields n.fields }

/-- What stands between the signs of a type. -/
inductive Element
  | number (n : Int)
  | inner (t : TypeSpec)
  | field (name : String) (t : TypeSpec)

/-- The spelling with one more element. -/
def NativeType.add (n : NativeType) : Element → NativeType
  | .number m => { n with params := n.params ++ [m.repr] }
  | .inner t => { n with args := n.args ++ [t] }
  | .field name t => { n with fields := n.fields ++ [⟨name, t⟩] }

theorem NativeType.bare_add {n m : NativeType} (same : n.bare = m.bare) (e : Element) :
    (n.add e).bare = (m.add e).bare := by
  simp only [bare, NativeType.mk.injEq, bareElems_eq, bareFields_eq] at same
  cases e <;> simp [add, bare, bareElems_eq, bareFields_eq, same]

theorem NativeType.bare_foldl {n m : NativeType} (same : n.bare = m.bare) (es : List Element) :
    (es.foldl add n).bare = (es.foldl add m).bare := by
  induction es generalizing n m with
  | nil => exact same
  | cons e es ih => exact ih (bare_add same e)

namespace Parser

open Token

variable {d : Dialect} {c : Cursor} {t : TypeSpec} {n : NativeType} {e : Element} {es : List Element}
  {ts us tail : List Token} {w : String} {depth fuel : Nat} {close : TypeClose} {type : Parser TypeSpec}

/-! ### The end of a type -/

/-- The sign that opens a list of elements. -/
def opening : TypeClose → Token
  | .paren => punctuation "("
  | .angle => operator "<"

/-- The sign that closes a list of elements. -/
def closing : TypeClose → Token
  | .paren => punctuation ")"
  | .angle => operator ">"

/-- Words that go on with the name of a type or qualify it. -/
def typeFollowers : List String := ["PRECISION", "VARYING", "VARCHAR", "RAW", "WITH", "WITHOUT", "YEAR", "MONTH", "DAY",
  "HOUR", "MINUTE", "SECOND", "TO", "UNSIGNED", "SIGNED", "ZEROFILL"]

theorem continuation_follows {name w : String} (continues : w ∈ continuationsOf name) : w ∈ typeFollowers := by
  have all : ∀ entry ∈ typeContinuations, ∀ w ∈ entry.2, w ∈ typeFollowers := by decide
  cases found : typeContinuations.lookup name with
  | none => simp [continuationsOf, found] at continues
  | some words =>
    obtain ⟨before, after, shape, _⟩ := List.lookup_eq_some_iff.mp found
    refine all (name, words) (by simp [shape]) w ?_
    simpa [continuationsOf, found] using continues

/-- Nothing goes on with a type here. -/
def EndsType (tail : List Token) : Prop :=
  ∃ t rest, tail = t :: rest ∧ (∀ w ∈ typeFollowers, t.is w = false) ∧ ∀ mark ∈ ["<", "(", "["], t.isOp mark = false

namespace EndsType

theorem nonempty (ends : EndsType tail) : tail ≠ [] := by
  obtain ⟨t, rest, rfl, _⟩ := ends
  exact List.cons_ne_nil t rest

theorem is (ends : EndsType tail) (shown : c.Shows tail) {w : String} (known : w ∈ typeFollowers) :
    c.current.is w = false := by
  obtain ⟨t, rest, rfl, words, _⟩ := ends
  rw [← is_bare, shown.current, words w known]

theorem isOp (ends : EndsType tail) (shown : c.Shows tail) {mark : String} (known : mark ∈ ["<", "(", "["]) :
    c.current.isOp mark = false := by
  obtain ⟨t, rest, rfl, _, marks⟩ := ends
  rw [← isOp_bare, shown.current, marks mark known]

end EndsType

/-- Nothing goes on with an element or with a type here. -/
def EndsElement (tail : List Token) : Prop :=
  ∃ t rest, tail = t :: rest ∧ t ∈ [finish, punctuation ",", punctuation ")", operator ">"]

theorem endsElement_cons {t : Token} (rest : List Token)
    (known : t ∈ [finish, punctuation ",", punctuation ")", operator ">"]) :
    EndsElement (t :: rest) :=
  ⟨t, rest, rfl, known⟩

theorem endsElement_closing (close : TypeClose) (tail : List Token) : EndsElement (closing close :: tail) := by
  cases close <;> exact endsElement_cons tail (by decide)

namespace EndsElement

theorem endsType (ends : EndsElement tail) : EndsType tail := by
  obtain ⟨t, rest, rfl, known⟩ := ends
  refine ⟨t, rest, rfl, ?_⟩
  revert t
  decide

theorem nonempty (ends : EndsElement tail) : tail ≠ [] := ends.endsType.nonempty

theorem isWord (ends : EndsElement tail) (shown : c.Shows tail) : c.current.isWord = false := by
  obtain ⟨t, rest, rfl, known⟩ := ends
  rw [← isWord_bare, shown.current]
  clear shown
  revert t
  decide

theorem is (ends : EndsElement tail) (shown : c.Shows tail) (w : String) : c.current.is w = false := by
  rw [Token.is, ends.isWord shown, Bool.false_and]

end EndsElement

/-! ### Elements -/

theorem loop_none {α : Type} {step : α → Parser (Option α)} {a : α} {c' : Cursor}
    (stepped : step a c = .ok (none, c')) :
    loop step a c = .ok (a, c') := by
  rw [loop_apply, iterate_none stepped]

theorem peekOp_apply (op : String) : peekOp op c = .ok (c.peek.isOp op, c) := rfl

theorem skipWhile_stop {p : Token → Bool} (stops : p c.current = false) : skipWhile p c = .ok ((), c) := by
  have stepped : (do
      let t ← current
      if t.isFinish || !p t then return none
      advance
      return some () : Parser (Option Unit)) c = .ok (none, c) := by
    simp only [bind_apply, current_apply, ok_bind, stops, Bool.not_false, Bool.or_true, if_true, pure_apply]
  rw [skipWhile, bind_apply, loop_none stepped, ok_bind]
  rfl

/-- The tokens are read as the type in front of whatever ends a type. -/
def ReadsType (d : Dialect) (t : TypeSpec) (ts : List Token) : Prop :=
  ∀ ⦃depth c tail⦄, ts.length ≤ depth → EndsType tail → c.Shows (ts ++ tail) →
    ∃ read next, typeAt d depth c = .ok (read, next) ∧ next.Shows tail ∧ read.bare = t.bare

/-- The tokens are read as the element in front of whatever ends one, and none of them closes the list. -/
structure ReadsElement (d : Dialect) (e : Element) (ts : List Token) : Prop where
  head : ∃ t rest, ts = t :: rest ∧ ∀ close, closesType close t = false
  reads : ∀ ⦃depth c tail⦄ n, ts.length ≤ depth → EndsElement tail → c.Shows (ts ++ tail) →
    ∃ m next, typeElement (typeAt d depth) n c = .ok (m, next) ∧ next.Shows tail ∧ m.bare = (n.add e).bare

theorem readsElement_number (m : Int) : ReadsElement d (.number m) (integer m) := by
  unfold integer
  split
  · next natural =>
    refine ⟨⟨_, _, rfl, fun close => by cases close <;> rfl⟩, ?_⟩
    intro depth c tail n _ ends shown
    have isNumber : c.current.kind = .number := by rw [← kind_bare, shown.current]; rfl
    have text : c.current.text = m.repr := by
      rw [← text_bare, shown.current, Int.repr_eq_if, if_pos natural]
      rfl
    have after : c.advance.Shows tail := shown.advance' ends.nonempty
    refine ⟨n.add (.number m), c.advance, ?_, after, rfl⟩
    simp only [typeElement, bind_apply, current_apply, ok_bind, isNumber, if_true, advance_apply,
      skipWhile_stop (ends.isWord after), text]
    rfl
  · next negative =>
    refine ⟨⟨_, _, rfl, fun close => by cases close <;> rfl⟩, ?_⟩
    intro depth c tail n _ ends shown
    have isMinus : c.current.isOp "-" = true := by rw [← isOp_bare, shown.current]; rfl
    have noNumber : c.current.kind ≠ .number := by rw [← kind_bare, shown.current]; decide
    have isNumber : c.peek.kind = .number := by rw [← kind_bare, shown.peek]; rfl
    have middle := shown.advance
    have text : "-" ++ c.advance.current.text = m.repr := by
      rw [← text_bare, middle.current, Int.repr_eq_if, if_neg negative]
      rfl
    refine ⟨n.add (.number m), c.advance.advance, ?_, middle.advance' ends.nonempty, rfl⟩
    simp only [typeElement, bind_apply, current_apply, ok_bind, noNumber, if_false, isMinus, peek_apply, isNumber,
      Bool.true_and, decide_true, if_true, advance_apply, text]
    rfl

/-- A token for a name: a name in quotes, or a word other than the one for the greatest length. -/
def IsLabel (d : Dialect) (name : String) (t : Token) : Prop :=
  t = quotedWord name ∨ t = word d.toLexicon name ∧ Text.upper name ≠ "MAX"

namespace IsLabel

variable {name : String} {label : Token} (named : IsLabel d name label)

include named

theorem text : label.text = name := by
  obtain rfl | ⟨rfl, _⟩ := named <;> rfl

theorem isName : (label.isWord || label.isQuoted) = true := by
  obtain rfl | ⟨rfl, _⟩ := named
  · rfl
  · rw [isWord_word, Bool.true_or]

theorem isOp (mark : String) : label.isOp mark = false := by
  obtain rfl | ⟨rfl, _⟩ := named
  · rfl
  · rw [isOp_word]

theorem kind : label.kind ≠ .number ∧ label.kind ≠ .string := by
  have isName := named.isName
  constructor <;> (intro kind; simp [isWord, isQuoted, kind] at isName)

theorem noMax : label.is "MAX" = false := by
  obtain rfl | ⟨rfl, plain⟩ := named
  · rfl
  · rw [is_word, beq_eq_false_iff_ne]
    exact plain

theorem head (rest : List Token) : ∃ t ts, label :: rest = t :: ts ∧ ∀ close, closesType close t = false :=
  ⟨label, rest, rfl, fun close => by cases close <;> simp [closesType, named.isOp]⟩

theorem typeElement_field (current : c.current.bare = label) (colon : c.peek.isOp ":" = true)
    (same : c.advance.current.isOp ":" = true) : typeElement type n c = (type c.advance.advance).bind fun r =>
      .ok (n.add (.field name r.1), if r.2.current.is "COMMENT" then r.2.advance.advance else r.2) := by
  have isField : isFieldName c = true := by simp [isFieldName, colon]
  have noNumber : c.current.kind ≠ .number := by rw [← kind_bare, current]; exact named.kind.1
  have noString : c.current.kind ≠ .string := by rw [← kind_bare, current]; exact named.kind.2
  have noMinus : c.current.isOp "-" = false := by rw [← isOp_bare, current]; exact named.isOp "-"
  have noMax : c.current.is "MAX" = false := by rw [← is_bare, current]; exact named.noMax
  have isName : (c.current.isWord || c.current.isQuoted) = true := by
    rw [← isWord_bare, ← isQuoted_bare, current]
    exact named.isName
  have text : c.current.text = name := by rw [← text_bare, current]; exact named.text
  simp only [typeElement, bind_apply, current_apply, ok_bind, noNumber, noString, noMinus, noMax,
    isName, isField, if_false,
    peek_apply, Bool.false_and, Bool.and_self, Bool.false_eq_true, get_apply, if_true,
    advance_apply, acceptOp_apply, same,
    accept_apply, text]
  cases type c.advance.advance with
  | error e => rfl
  | ok r => 
    simp only [ok_bind]
    split <;> rfl

theorem typeElement_inner (current : c.current.bare = label) (next : c.peek.isWord = false ∧ c.peek.isOp ":" = false) :
    typeElement type n c = (type c).bind fun r => .ok (n.add (.inner r.1), r.2) := by
  have noField : isFieldName c = false := by simp [isFieldName, next]
  have noNumber : c.current.kind ≠ .number := by rw [← kind_bare, current]; exact named.kind.1
  have noString : c.current.kind ≠ .string := by rw [← kind_bare, current]; exact named.kind.2
  have noMinus : c.current.isOp "-" = false := by rw [← isOp_bare, current]; exact named.isOp "-"
  have noMax : c.current.is "MAX" = false := by rw [← is_bare, current]; exact named.noMax
  simp only [typeElement, bind_apply, current_apply, ok_bind, noNumber, noString, noMinus, noMax, noField, if_false,
    peek_apply, Bool.false_and, Bool.and_false, Bool.false_eq_true, get_apply]
  rfl

end IsLabel

theorem ReadsType.element (reads : ReadsType d t (word d.toLexicon w :: us)) (plain : Text.upper w ≠ "MAX")
    (next : ∀ u ∈ us.head?, u.isWord = false ∧ u.isOp ":" = false) :
    ReadsElement d (.inner t) (word d.toLexicon w :: us) := by
  have named : IsLabel d w (word d.toLexicon w) := .inr ⟨rfl, plain⟩
  refine ⟨named.head us, ?_⟩
  intro depth c tail n enough ends shown
  obtain ⟨read, c', done, after, same⟩ := reads enough ends.endsType shown
  have second : c.peek.isWord = false ∧ c.peek.isOp ":" = false := by
    cases us with
    | nil =>
      obtain ⟨u, rest, rfl, known⟩ := ends
      have peek : c.peek.bare = u := shown.peek
      rw [← isWord_bare, ← isOp_bare, peek]
      clear done after shown peek
      revert u
      decide
    | cons u us =>
      have peek : c.peek.bare = u := shown.peek
      rw [← isWord_bare, ← isOp_bare, peek]
      exact next u rfl
  refine ⟨n.add (.inner read), c', ?_, after, ?_⟩
  · rw [named.typeElement_inner shown.current second, done, ok_bind]
  · simp [NativeType.add, NativeType.bare, bareElems_eq, same]

theorem ReadsType.field (reads : ReadsType d t us) {name : String} {label : Token} (named : IsLabel d name label) :
    ReadsElement d (.field name t) (label :: punctuation ":" :: us) := by
  refine ⟨named.head _, ?_⟩
  intro depth c tail n enough ends shown
  simp only [List.length_cons] at enough
  have colon : c.peek.isOp ":" = true := by rw [← isOp_bare, shown.peek]; rfl
  have atColon := shown.advance
  have isColon : c.advance.current.isOp ":" = true := by rw [← isOp_bare, atColon.current]; rfl
  have inside : c.advance.advance.Shows (us ++ tail) := atColon.advance' (by simp [ends.nonempty])
  obtain ⟨read, c', done, after, same⟩ := reads (show us.length ≤ depth by omega) ends.endsType inside
  refine ⟨n.add (.field name read), c', ?_, after, ?_⟩
  · rw [named.typeElement_field shown.current colon isColon, done, ok_bind, ends.is after, if_neg Bool.false_ne_true]
  · simp [NativeType.add, NativeType.bare, bareFields_eq, same]

/-! ### Lists of elements -/

/-- One round of the loop over the elements: it stops at the closing sign and after an element without a comma. -/
def elementRound (type : Parser TypeSpec) (close : TypeClose) (state : NativeType × Bool) :
    Parser (Option (NativeType × Bool)) := do
  if state.2 || closesType close (← current) then return none
  let n ← typeElement type state.1
  return some (n, !(← acceptOp ","))

/-- The rest of the elements, in at most `fuel` rounds. -/
def elementsWithin (type : Parser TypeSpec) (close : TypeClose) (fuel : Nat) (n : NativeType) : Parser NativeType := do
  let (n, _) ← iterate fuel (elementRound type close) (n, false)
  if closesType close (← current) then
    takeTypeClose close
    return n
  expected (Text.quote close.text)

theorem typeElements_apply : typeElements type close n c = elementsWithin type close (c.bound + 1) n c := rfl

theorem elementRound_apply (closes : closesType close c.current = false) : elementRound type close (n, false) c =
    (typeElement type n c).bind fun r => .ok (if r.2.current.isOp "," then (some (r.1, false), r.2.advance)
      else (some (r.1, true), r.2)) := by
  simp only [elementRound, bind_apply, current_apply, ok_bind, closes, Bool.or_self, Bool.false_eq_true, if_false,
    acceptOp_apply]
  cases typeElement type n c with
  | error e => rfl
  | ok r =>
    simp only [ok_bind]
    split <;> rfl

theorem elementsWithin_comma {m : NativeType} {c' : Cursor} (closes : closesType close c.current = false)
    (read : typeElement type n c = .ok (m, c')) (comma : c'.current.isOp "," = true)
    (shorter : c'.advance.rest.length < c.rest.length) :
    elementsWithin type close (fuel + 1) n c = elementsWithin type close fuel m c'.advance := by
  have round : elementRound type close (n, false) c = .ok (some (m, false), c'.advance) := by
    rw [elementRound_apply closes, read, ok_bind, if_pos comma]
  rw [elementsWithin, bind_apply, iterate_some round shorter, elementsWithin, bind_apply]

theorem elementsWithin_last {m : NativeType} {c' : Cursor} (closes : closesType close c.current = false)
    (read : typeElement type n c = .ok (m, c')) (comma : c'.current.isOp "," = false)
    (shorter : c'.rest.length < c.rest.length) :
    elementsWithin type close (fuel + 2) n c =
      if closesType close c'.current then (takeTypeClose close c').bind fun r => .ok (m, r.2)
      else expected (Text.quote close.text) c' := by
  have round : elementRound type close (n, false) c = .ok (some (m, true), c') := by
    rw [elementRound_apply closes, read, ok_bind, comma, if_neg Bool.false_ne_true]
  have stop : elementRound type close (m, true) c' = .ok (none, c') := rfl
  rw [elementsWithin, bind_apply, iterate_some round shorter, iterate_none stop]
  simp only [ok_bind, bind_apply, current_apply]
  split <;> rfl

theorem takeTypeClose_closing (current : c.current.bare = closing close) :
    takeTypeClose close c = .ok ((), c.advance) := by
  cases close with
  | paren => rfl
  | angle =>
    have short : ¬c.current.text.length > 1 := by rw [← text_bare, current]; decide
    simp only [takeTypeClose, bind_apply, current_apply, ok_bind, if_neg short, advance_apply]

/-- The tokens are read as the elements, with commas between them. -/
inductive ReadsElements (d : Dialect) : List Element → List Token → Prop
  | single {e : Element} {ts : List Token} (reads : ReadsElement d e ts) : ReadsElements d [e] ts
  | cons {e : Element} {es : List Element} {ts us : List Token} (reads : ReadsElement d e ts)
    (later : ReadsElements d es us) : ReadsElements d (e :: es) (ts ++ punctuation "," :: us)

theorem ReadsElement.closes (reads : ReadsElement d e ts) (shown : c.Shows (ts ++ tail)) (close : TypeClose) :
    closesType close c.current = false := by
  obtain ⟨t, rest, rfl, open'⟩ := reads.head
  have current : c.current.bare = t := shown.current
  rw [← open' close, ← current]
  rfl

theorem ReadsElements.within (reads : ReadsElements d es us) (enough : us.length ≤ depth) (rounds : us.length < fuel)
    (shown : c.Shows (us ++ closing close :: tail)) (more : tail ≠ []) :
    ∃ m next, elementsWithin (typeAt d depth) close fuel n c = .ok (m, next) ∧ next.Shows tail ∧
      m.bare = (es.foldl NativeType.add n).bare := by
  induction reads generalizing fuel n c with
  | @single e ts reads =>
    obtain ⟨m, c', done, after, same⟩ := reads.reads n enough (endsElement_closing close tail) shown
    obtain ⟨t, rest, rfl, _⟩ := reads.head
    obtain ⟨fuel, rfl⟩ : ∃ k, fuel = k + 2 := ⟨fuel - 2, by simp only [List.length_cons] at rounds; omega⟩
    have comma : c'.current.isOp "," = false := by
      rw [← isOp_bare, after.current]
      cases close <;> rfl
    have closed : closesType close c'.current = true := by
      have current : c'.current.bare = closing close := after.current
      rw [show closesType close c'.current = closesType close c'.current.bare from rfl, current]
      cases close <;> rfl
    have shorter : c'.rest.length < c.rest.length :=
      shown.shorter after (by simp only [List.length_append, List.length_cons]; omega)
    refine ⟨m, c'.advance, ?_, after.advance' more, same⟩
    rw [elementsWithin_last (reads.closes shown close) done comma shorter, if_pos closed,
      takeTypeClose_closing after.current, ok_bind]
  | @cons e es ts us reads later ih =>
    simp only [List.length_append, List.length_cons] at enough rounds
    rw [List.append_assoc] at shown
    have comma : EndsElement (punctuation "," :: us ++ closing close :: tail) := endsElement_cons _ (by decide)
    obtain ⟨m, c', done, after, same⟩ := reads.reads n (show ts.length ≤ depth by omega) comma shown
    obtain ⟨fuel, rfl⟩ := Nat.exists_eq_succ_of_ne_zero (show fuel ≠ 0 by omega)
    have isComma : c'.current.isOp "," = true := by rw [← isOp_bare, after.current]; rfl
    have atNext : c'.advance.Shows (us ++ closing close :: tail) := after.advance' (by simp)
    have shorter : c'.advance.rest.length < c.rest.length := shown.shorter atNext (by grind)
    obtain ⟨m', next, finished, left, equal⟩ := ih (n := m) (show us.length ≤ depth by omega)
      (show us.length < fuel by omega) atNext
    refine ⟨m', next, ?_, left, equal.trans (NativeType.bare_foldl same es)⟩
    rw [elementsWithin_comma (reads.closes shown close) done isComma shorter, finished]

theorem readsElements_numbers {params : List Int} (nonempty : params ≠ []) :
    ReadsElements d (params.map .number) ([punctuation ","].intercalate (params.map integer)) := by
  induction params with
  | nil => exact absurd rfl nonempty
  | cons n params ih =>
    cases params with
    | nil => simpa using .single (readsElement_number n)
    | cons m params =>
      have tokens : [punctuation ","].intercalate ((n :: m :: params).map integer) =
          integer n ++ punctuation "," :: [punctuation ","].intercalate ((m :: params).map integer) := by
        simp [List.intercalate_cons_cons]
      rw [tokens]
      exact .cons (readsElement_number n) (ih (List.cons_ne_nil m params))

theorem foldl_numbers (n : NativeType) (params : List Int) :
    (params.map Element.number).foldl NativeType.add n = { n with params := n.params ++ params.map Int.repr } := by
  induction params generalizing n with
  | nil => simp
  | cons m params ih =>
    rw [List.map_cons, List.foldl_cons, ih]
    simp [NativeType.add]

/-! ### Types -/

/-- The name of a type with the word that continues it. -/
def typeWords : Parser NativeType := do
  let t ← current
  if !t.isWord && !t.isQuoted then expected "type name"
  advance
  let n : NativeType := { pos := t.pos, name := t.upper }
  let next ← current
  match (continuationsOf n.name).find? next.is with
  | some word =>
    advance
    return { n with name := n.name ++ " " ++ word }
  | none => return n

/-- The elements after the name. -/
def typeGroup (type : Parser TypeSpec) (n : NativeType) : Parser NativeType := do
  if ← acceptOp "<" then typeElements type .angle n
  else if ← acceptOp "(" then typeElements type .paren n
  else return n

/-- The words for the sign of a number, after the fields of an interval. -/
def typeSigns (n : NativeType) : Parser NativeType := do
  if n.name = "INTERVAL" then intervalFields
  loop (fun n => do
    if ← accept "UNSIGNED" then return some { n with unsigned := true }
    if ← acceptAny ["SIGNED", "ZEROFILL"] then return some n
    return none) n

/-- The words after the elements. -/
def typeSuffix (n : NativeType) : Parser NativeType := do
  if n.name = "TIMESTAMP" || n.name = "TIME" then
    let zone ← zoneWords
    typeSigns { n with name := n.name ++ zone }
  else typeSigns n

theorem nativeType_eq : nativeType type = typeWords >>= fun n => typeGroup type n >>= typeSuffix := by
  have start : nativeType type = current >>= fun t => _ := rfl
  rw [start, typeWords, bind_assoc]
  refine congrArg (current >>= ·) (funext fun t => ?_)
  -- The stages from the last one back: the signs, the zone, the elements and the name.
  extract_lets start signs zone inside name after
  have zoned (n : NativeType) : zone () n = typeSuffix n := rfl
  have grouped (n : NativeType) : inside () n = typeGroup type n >>= typeSuffix := by
    unfold inside typeGroup
    rw [bind_assoc]
    refine congrArg (acceptOp "<" >>= ·) (funext fun angle => ?_)
    split
    · exact congrArg _ (funext zoned)
    rw [bind_assoc]
    refine congrArg (acceptOp "(" >>= ·) (funext fun paren => ?_)
    split
    · exact congrArg _ (funext zoned)
    · rw [pure_bind, zoned]
  have named : name () = after () >>= fun n => typeGroup type n >>= typeSuffix := by
    unfold name after
    simp only [bind_assoc]
    refine congrArg (advance >>= ·) (funext fun _ => congrArg (current >>= ·) (funext fun next => ?_))
    cases (continuationsOf start.name).find? next.is with
    | some word => exact congrArg (advance >>= ·) (funext fun _ => grouped _)
    | none => exact grouped start
  split
  · rfl
  · exact named

theorem startsWith_false {word : String} {words : List String} (different : c.current.is word = false) :
    startsWith c (word :: words) = false := by
  simp [startsWith, Cursor.ahead, different]

theorem typeSuffix_end (ends : EndsType tail) (shown : c.Shows tail) : typeSuffix n c = .ok (n, c) := by
  have is (w : String) (known : w ∈ typeFollowers) : c.current.is w = false := ends.is shown known
  have noSeq (word : String) (words : List String) (known : word ∈ typeFollowers) :
      acceptSeq (word :: words) c = .ok (false, c) := by
    simp only [acceptSeq, bind_apply, get_apply, ok_bind, startsWith_false (is word known),
      Bool.false_eq_true, if_false, pure_apply]
  have noZone : zoneWords c = .ok ("", c) := by
    simp only [zoneWords, bind_apply, noSeq "WITH" _ (by decide), noSeq "WITHOUT" _ (by decide), ok_bind,
      Bool.false_eq_true, if_false, pure_apply]
  have noFields : intervalFields c = .ok ((), c) := by
    have fields : ∀ w ∈ ["YEAR", "MONTH", "DAY", "HOUR", "MINUTE", "SECOND", "TO"], w ∈ typeFollowers := by decide
    have noField : ["YEAR", "MONTH", "DAY", "HOUR", "MINUTE", "SECOND", "TO"].any c.current.is = false :=
      List.any_eq_false.mpr fun w member => Bool.eq_false_iff.mp (is w (fields w member))
    rw [intervalFields, bind_apply, @loop_none c Unit _ () c, ok_bind]
    · rfl
    · simp only [bind_apply, curAny_apply, ok_bind, noField, Bool.not_false, if_true, pure_apply]
  have noSigns (n : NativeType) : typeSigns n c = .ok (n, c) := by
    have stop (n : NativeType) : (do
        if ← accept "UNSIGNED" then return some { n with unsigned := true }
        if ← acceptAny ["SIGNED", "ZEROFILL"] then return some n
        return none : Parser (Option NativeType)) c = .ok (none, c) := by
      simp [bind_apply, accept_apply, acceptAny_apply, ok_bind, is "UNSIGNED" (by decide), is "SIGNED" (by decide),
        is "ZEROFILL" (by decide), pure_apply]
    unfold typeSigns
    split
    · rw [bind_apply, noFields, ok_bind]
      exact loop_none (stop n)
    · exact loop_none (stop n)
  unfold typeSuffix
  split
  · rw [bind_apply, noZone, ok_bind, String.append_empty]
    exact noSigns n
  · exact noSigns n

/-- The words of a name: one word, or one with a word that continues it. -/
inductive SpellsName (d : Dialect) : String → List Token → Prop
  | single (w : String) : SpellsName d (Text.upper w) [word d.toLexicon w]
  | continued {first next : String} (continues : Text.upper next ∈ continuationsOf (Text.upper first)) :
    SpellsName d (Text.upper first ++ " " ++ Text.upper next) [word d.toLexicon first, word d.toLexicon next]

/-- The elements between their signs, or nothing. -/
inductive ReadsGroup (d : Dialect) : List Element → List Token → Prop
  | none : ReadsGroup d [] []
  | some {es : List Element} {us : List Token} (close : TypeClose) (reads : ReadsElements d es us) :
    ReadsGroup d es (opening close :: (us ++ [closing close]))

/-- What follows a name continues it by no word. -/
theorem ReadsGroup.is (group : ReadsGroup d es us) (ends : EndsType tail) (shown : c.Shows (us ++ tail)) {w : String}
    (known : w ∈ typeFollowers) : c.current.is w = false := by
  cases group with
  | none => exact ends.is shown known
  | some close reads =>
    rw [← is_bare, shown.current]
    cases close <;> rfl

/-- Elements begin with their sign. -/
theorem ReadsGroup.head (group : ReadsGroup d es us) : ∀ u ∈ us.head?, u.isWord = false ∧ u.isOp ":" = false := by
  rintro u held
  cases group with
  | none => cases held
  | some close reads =>
    cases held
    cases close <;> exact ⟨rfl, rfl⟩

theorem SpellsName.read {name : String} {words : List Token} (named : SpellsName d name words)
    (shown : c.Shows (words ++ us)) (more : us ≠ [])
    (stops : ∀ c : Cursor, c.Shows us → ∀ w ∈ typeFollowers, c.current.is w = false) :
    ∃ next, typeWords c = .ok ({ pos := c.current.pos, name }, next) ∧ next.Shows us := by
  cases named with
  | single w =>
    have current : c.current.bare = word d.toLexicon w := shown.current
    have isName : (!c.current.isWord && !c.current.isQuoted) = false := by
      rw [← isWord_bare, current, isWord_word, Bool.not_true, Bool.false_and]
    have upper : c.current.upper = Text.upper w := by rw [← upper_bare, current, upper_word]
    have after : c.advance.Shows us := shown.advance' more
    have none : (continuationsOf (Text.upper w)).find? c.advance.current.is = none := by
      apply List.find?_eq_none.mpr
      intro word continues
      rw [stops c.advance after word (continuation_follows continues)]
      exact Bool.false_ne_true
    refine ⟨c.advance, ?_, after⟩
    simp only [typeWords, bind_apply, current_apply, ok_bind, isName, Bool.false_eq_true, if_false,
      advance_apply, upper, none,
      pure_apply]
  | @continued first next continues =>
    have current : c.current.bare = word d.toLexicon first := shown.current
    have isName : (!c.current.isWord && !c.current.isQuoted) = false := by
      rw [← isWord_bare, current, isWord_word, Bool.not_true, Bool.false_and]
    have upper : c.current.upper = Text.upper first := by rw [← upper_bare, current, upper_word]
    have second : c.advance.Shows (word d.toLexicon next :: us) := shown.advance
    have is : c.advance.current.is = (Text.upper next == ·) := by
      funext w
      rw [← is_bare, second.current, is_word]
    have found : (continuationsOf (Text.upper first)).find? c.advance.current.is = some (Text.upper next) := by
      obtain ⟨w, held⟩ := Option.isSome_iff_exists.mp
        (List.find?_isSome.mpr ⟨_, continues, beq_self_eq_true (Text.upper next)⟩)
      rw [is, held, beq_iff_eq.mp (List.find?_some held)]
    refine ⟨c.advance.advance, ?_, second.advance' more⟩
    simp only [typeWords, bind_apply, current_apply, ok_bind, isName, Bool.false_eq_true, if_false,
      advance_apply, upper, found,
      pure_apply]

theorem ReadsGroup.read (group : ReadsGroup d es us) (enough : us.length ≤ depth + 1) (ends : EndsType tail)
    (shown : c.Shows (us ++ tail)) : ∃ m next, typeGroup (typeAt d depth) n c = .ok (m, next) ∧ next.Shows tail ∧
      m.bare = (es.foldl NativeType.add n).bare := by
  cases group with
  | none =>
    have angle : c.current.isOp "<" = false := ends.isOp shown (by decide)
    have paren : c.current.isOp "(" = false := ends.isOp shown (by decide)
    refine ⟨n, c, ?_, shown, rfl⟩
    simp only [typeGroup, bind_apply, acceptOp_apply, ok_bind, angle, paren, Bool.false_eq_true, if_false, pure_apply]
  | @some es us close reads =>
    simp only [List.length_cons, List.length_append, List.length_nil] at enough
    rw [List.cons_append, List.append_assoc, List.singleton_append] at shown
    have inside : c.advance.Shows (us ++ closing close :: tail) := shown.advance' (by simp)
    have rounds : us.length < c.advance.bound + 1 := by
      rw [inside.bound_eq, List.length_append]
      omega
    obtain ⟨m, next, done, after, same⟩ := reads.within (n :=
      n) (show us.length ≤ depth by omega) rounds inside ends.nonempty
    refine ⟨m, next, ?_, after, same⟩
    rw [← typeElements_apply] at done
    cases close with
    | angle =>
      have angle : c.current.isOp "<" = true := by rw [← isOp_bare, shown.current]; rfl
      simp only [typeGroup, bind_apply, acceptOp_apply, ok_bind, angle, if_true, done]
    | paren =>
      have angle : c.current.isOp "<" = false := by rw [← isOp_bare, shown.current]; rfl
      have paren : c.current.isOp "(" = true := by rw [← isOp_bare, shown.current]; rfl
      simp only [typeGroup, bind_apply, acceptOp_apply, ok_bind, angle, paren, if_true,
        Bool.false_eq_true, if_false, done]

/-- The type that a spelling means: that of its rule, or a native one. -/
def spelled (d : Dialect) (n : NativeType) : Except Error TypeSpec :=
  match d.types.find? n.name with
  | some rule => rule n
  | none => .ok
      { pos := n.pos, name := n.name, params := n.intParams, elems := n.args, fields := n.fields, native := true }

theorem typeStep_apply : typeStep d type c = (nativeType type c).bind fun r =>
    (within (spelled d r.1) r.2).bind fun r =>
    loop (fun t => do
      if (← curOp "[") && (← peekOp "]") then
        advance
        advance
        return some { pos := t.pos, name := "ARRAY", elems := [t] }
      return none) r.1 r.2 := by
  rw [typeStep, bind_apply]
  refine congrArg _ (funext fun r => ?_)
  unfold spelled
  cases d.types.find? r.1.name <;> rfl

theorem SpellsName.reads {name : String} {words : List Token} (named : SpellsName d name words)
    (group : ReadsGroup d es us)
    (means : ∀ n : NativeType, n.bare = (es.foldl NativeType.add { pos := {}, name }).bare →
      ∃ read, spelled d n = .ok read ∧ read.bare = t.bare) : ReadsType d t (words ++ us) := by
  intro depth c tail enough ends shown
  rw [List.append_assoc] at shown
  have some : 0 < words.length := by cases named <;> simp
  rw [List.length_append] at enough
  obtain ⟨depth, rfl⟩ := Nat.exists_eq_succ_of_ne_zero (show depth ≠ 0 by omega)
  obtain ⟨start, begun, atGroup⟩ :=
    named.read shown (by simp [ends.nonempty]) fun c shown w known => group.is ends shown known
  obtain ⟨n, next, grouped, after, same⟩ :=
    group.read (n := { pos := c.current.pos, name }) (show us.length ≤ depth + 1 by omega) ends atGroup
  have native : nativeType (typeAt d depth) c = .ok (n, next) := by
    rw [nativeType_eq, bind_apply, begun, ok_bind, bind_apply, grouped, ok_bind, typeSuffix_end ends after]
  have placed : ({ pos := c.current.pos, name } : NativeType).bare = ({ pos := {}, name } : NativeType).bare := rfl
  obtain ⟨read, meant, equal⟩ := means n (same.trans (NativeType.bare_foldl placed es))
  refine ⟨read, next, ?_, after, equal⟩
  rw [typeAt, typeStep_apply, native, ok_bind, meant]
  have noBracket : next.current.isOp "[" = false := ends.isOp after (by decide)
  refine loop_none ?_
  simp [bind_apply, curOp_apply, peekOp_apply, ok_bind, noBracket, pure_apply]

theorem ReadsType.parse {text : String} (reads : ReadsType d t ts) (spells : Spells d.toLexicon text.toList ts) :
    ∃ read, parseType d text = .ok read ∧ read.bare = t.bare := by
  obtain ⟨c, loaded, shown⟩ := spells.cursor
  have enough : ts.length ≤ c.bound + 1 := by
    rw [shown.bound_eq, List.length_append]
    omega
  obtain ⟨read, next, done, after, same⟩ := reads enough (endsElement_cons [] (by decide)).endsType shown
  have ended : next.current.isFinish = true := by rw [← isFinish_bare, after.current]; rfl
  refine ⟨read, ?_, same⟩
  have parsed : type d c = .ok (read, next) := done
  have whole : wholeType d c = .ok (read, next) := by
    simp only [wholeType, bind_apply, parsed, ok_bind, atEnd_apply, ended]
    rfl
  rw [parseType, loaded]
  change (wholeType d c).map Prod.fst = _
  rw [whole]
  rfl

/-! ### Texts -/

theorem spellsBefore_params (regular : d.toLexicon.Regular) {name : String} {words : List Token}
    (spells : SpellsBefore d.toLexicon (StopsAt isIdentChar) name.toList words) (params : List Int) :
    ∃ us, ReadsGroup d (params.map .number) us ∧
      SpellsBefore d.toLexicon Closes (name ++ Printer.typeParams params).toList (words ++ us) := by
  cases params with
  | nil =>
    refine ⟨[], .none, ?_⟩
    rw [Printer.typeParams, List.isEmpty_nil, if_pos rfl, String.append_empty, List.append_nil]
    refine spells.weaken fun tail closes c held => ?_
    have facts : ∀ c ∈ [' ', '\t', '\n', '\r', ')', ',', '>'], isIdentChar c = false := forall_of_all (by decide)
    exact facts c (by simpa [isBreak, or_assoc] using closes c held)
  | cons n params =>
    let inside := [punctuation ","].intercalate ((n :: params).map integer)
    refine ⟨opening .paren :: (inside ++ [closing .paren]),
      .some .paren (readsElements_numbers (List.cons_ne_nil n params)), ?_⟩
    have shape : (name ++ Printer.typeParams (n :: params)).toList =
        name.toList ++ (['('] ++ ((Printer.commas ((n :: params).map Int.repr)).toList ++ [')'])) := by
      simp [Printer.typeParams, String.toList_append]
    have numbers : SpellsBefore d.toLexicon Closes ((Printer.commas ((n :: params).map Int.repr)).toList ++ [')'])
        (inside ++ [punctuation ")"]) := by
      refine (spellsBefore_integers regular (List.cons_ne_nil n params)).append
        ((spellsBefore_bracket regular (c := ')') (by decide)).weaken fun _ _ => trivial) fun tail _ => ?_
      rintro c ⟨⟩
      decide
    rw [shape]
    refine spells.append ((spellsBefore_bracket regular (c := '(') (by decide)).append numbers fun _ _ =>
      trivial) fun tail _ => ?_
    rintro c ⟨⟩
    decide

end Parser

end SqlDialects
