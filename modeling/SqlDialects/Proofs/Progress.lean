import SqlDialects.Proofs.Reader

/-! Parsers come to an end by themselves. Where the outcome does not depend on the answer to a reading without end, no
loop has gone a round without taking a token and no nesting was deeper than the tokens. A place is measured by the
tokens after the one at hand: a parser that takes a token leads from a place with at most `k` of them to one with
fewer than `k`. A sign that is cut in two stays at hand and is not counted, and the cursor never leaves the end token.
-/

namespace SqlDialects

namespace Token

variable {t : Token}

theorem solid_of_kind {kind : TokenKind} (held : t.kind = kind) (other : kind ≠ .finish) : t.isFinish = false := by
  simp [isFinish, held, other]

theorem solid_of_isWord (word : t.isWord = true) : t.isFinish = false := by
  simp only [isWord, Bool.or_eq_true, beq_iff_eq] at word
  obtain keyword | plain := word
  · exact solid_of_kind keyword (by decide)
  · exact solid_of_kind plain (by decide)

theorem solid_of_is {w : String} (word : t.is w = true) : t.isFinish = false :=
  solid_of_isWord (Bool.and_eq_true_iff.mp word).1

theorem solid_of_any {words : List String} (listed : words.any t.is = true) : t.isFinish = false := by
  obtain ⟨w, _, word⟩ := List.any_eq_true.mp listed
  exact solid_of_is word

theorem solid_of_pair {one other : String} {x y : Bool} (starts : (t.is one && x || t.is other && y) = true) :
    t.isFinish = false := by
  simp only [Bool.or_eq_true, Bool.and_eq_true] at starts
  obtain ⟨word, _⟩ | ⟨word, _⟩ := starts <;> exact solid_of_is word

theorem solid_of_isOp {op : String} (mark : t.isOp op = true) : t.isFinish = false := by
  simp only [isOp, Bool.and_eq_true, Bool.or_eq_true, beq_iff_eq] at mark
  obtain ⟨operator | punctuation, _⟩ := mark
  · exact solid_of_kind operator (by decide)
  · exact solid_of_kind punctuation (by decide)

theorem solid_of_isQuoted (quoted : t.isQuoted = true) : t.isFinish = false :=
  solid_of_kind (beq_iff_eq.mp quoted) (by decide)

theorem solid_of_isTemplate (template : t.isTemplate = true) : t.isFinish = false :=
  solid_of_kind (beq_iff_eq.mp (Bool.and_eq_true_iff.mp template).1) (by decide)

end Token

namespace Cursor

variable {c : Cursor} {j k : Nat}

/-- The same place with another answer to a reading without end. -/
def halting (c : Cursor) (e : Error) : Cursor := { c with halt := e }

/-- The last token is the end token. -/
def Ended (c : Cursor) : Prop := (c.rest.getLast?.getD c.current).isFinish = true

/-- A place before an end token with fewer than `k` tokens after the one at hand. -/
structure Within (c : Cursor) (k : Nat) : Prop where
  ended : c.Ended
  short : c.rest.length < k

theorem Within.mono (place : c.Within j) (fewer : j ≤ k) : c.Within k :=
  ⟨place.ended, Nat.lt_of_lt_of_le place.short fewer⟩

theorem Within.step (place : c.Within k) : c.Within (k + 1) := place.mono k.le_succ

theorem Within.here (place : c.Within k) : c.Within (c.rest.length + 1) := ⟨place.ended, Nat.lt_succ_self _⟩

theorem advance_halting (c : Cursor) (e : Error) : (c.halting e).advance = c.advance.halting e := by
  cases left : c.rest <;> simp [advance, halting, left]

/-- Where a token other than the end is at hand, one can be taken. -/
theorem Within.ready (place : c.Within (k + 1)) (solid : c.current.isFinish = false) : c.advance.Within k := by
  have ended := place.ended
  have short := place.short
  cases left : c.rest with
  | nil =>
    rw [Ended, left, List.getLast?_nil, Option.getD_none, solid] at ended
    cases ended
  | cons t ts =>
    rw [left, List.length_cons] at short
    rw [Ended, left, List.getLast?_cons, Option.getD_some] at ended
    simp only [advance, left]
    exact ⟨ended, Nat.lt_of_succ_lt_succ short⟩

theorem Within.back (ready : c.advance.Within k) : c.Within (k + 1) := by
  cases left : c.rest with
  | nil =>
    rw [show c.advance = c by simp [advance, left]] at ready
    exact ready.step
  | cons t ts =>
    have ended := ready.ended
    have short := ready.short
    simp only [advance, left] at ended short
    refine ⟨?_, by rw [left]; exact Nat.succ_lt_succ short⟩
    rw [Ended, left, List.getLast?_cons, Option.getD_some]
    exact ended

theorem Within.skip (place : c.Within k) : c.advance.Within k := by
  by_cases solid : c.current.isFinish = false
  · exact place.step.ready solid
  cases left : c.rest with
  | nil => simpa [advance, left] using place
  | cons t ts =>
    have ended := place.ended
    have short := place.short
    rw [left, List.length_cons] at short
    rw [Ended, left, List.getLast?_cons, Option.getD_some] at ended
    simp only [advance, left]
    exact ⟨ended, Nat.lt_of_succ_lt short⟩

end Cursor

namespace Parser

open Cursor Token

variable {α β : Type} {c : Cursor} {j k : Nat} {p : Parser α} {f : α → Parser β}

/-- What was read, with another answer to a reading without end. -/
def rehalt (e : Error) (r : α × Cursor) : α × Cursor := (r.1, r.2.halting e)

/-- The parser comes to an end by itself: the answer to a reading without end could be any other. -/
def Terminates (p : Parser α) (c : Cursor) : Prop := ∀ e, p (c.halting e) = (p c).map (rehalt e)

/-- The parser comes to an end by itself, with `good` results. -/
structure Concludes (c : Cursor) (p : Parser α) (good : α → Cursor → Prop) : Prop where
  terminates : Terminates p c
  ends : ∀ {a next}, p c = .ok (a, next) → good a next

/-- The parser stops where fewer than `k` tokens are left. -/
def Leaves (k : Nat) (_ : α) (next : Cursor) : Prop := next.Within k

/-- A parser that has found something has taken a token; otherwise it has not moved. -/
def Tries (c : Cursor) (k : Nat) (found : Bool) (next : Cursor) : Prop :=
  match found with
  | true => next.Within k
  | false => next = c

theorem Tries.cases {found : Bool} {next : Cursor} (tried : Tries c k found next) :
    found = true ∧ next.Within k ∨ found = false ∧ next = c := by
  cases found with
  | true => exact .inl ⟨rfl, tried⟩
  | false => exact .inr ⟨rfl, tried⟩

/-- A round of a loop that goes on has taken a token. -/
def Round (k : Nat) (more : Option α) (next : Cursor) : Prop :=
  match more with
  | some _ => next.Within k
  | none => next.Within (k + 1)

namespace Concludes

variable {good : α → Cursor → Prop} {good' : β → Cursor → Prop}

protected theorem mono (concludes : Concludes c p good) {weak : α → Cursor → Prop}
    (implied : ∀ a next, good a next → weak a next) : Concludes c p weak :=
  ⟨concludes.terminates, fun done => implied _ _ (concludes.ends done)⟩

protected theorem weaken (concludes : Concludes c p (Leaves j)) (fewer : j ≤ k) : Concludes c p (Leaves k) :=
  concludes.mono fun _ _ place => place.mono fewer

protected theorem pure {a : α} (holds : good a c) : Concludes c (pure a) good :=
  ⟨fun _ => rfl, by rintro _ _ ⟨⟩; exact holds⟩

protected theorem expected (what : String) : Concludes c (expected what) good :=
    ⟨fun _ => rfl, fun done => nomatch done⟩

protected theorem failAt (pos : Position) (what found : String) : Concludes c (failAt pos what found) good :=
  ⟨fun _ => rfl, fun done => nomatch done⟩

/-- A step that reads no tokens gives what it gives. -/
protected theorem within {outcome : Except Error α} (holds : ∀ a, good a c) : Concludes c (within outcome) good := by
  cases outcome with
  | error e => cases e <;> exact ⟨fun _ => rfl, fun done => nomatch done⟩
  | ok a => exact .pure (holds a)

protected theorem lift {outcome : Except Error α} (holds : ∀ a, good a c) :
    Concludes c (liftM outcome : Parser α) good := by
  cases outcome with
  | error e => exact ⟨fun _ => rfl, fun done => nomatch done⟩
  | ok a => exact .pure (holds a)

protected theorem bind (first : Concludes c p good) (rest : ∀ a next, good a next → Concludes next (f a) good') :
    Concludes c (p >>= f) good' := by
  refine ⟨fun e => ?_, fun done => ?_⟩
  · rw [bind_apply, bind_apply, first.terminates]
    cases read : p c with
    | error _ => rfl
    | ok r => exact (rest r.1 r.2 (first.ends read)).terminates e
  · obtain ⟨a, middle, read, done⟩ := bind_eq_ok done
    exact (rest a middle (first.ends read)).ends done

protected theorem map {g : α → β} (first : Concludes c p good) (holds : ∀ a next, good a next → good' (g a) next) :
    Concludes c (g <$> p) good' :=
  first.bind fun a next found => .pure (holds a next found)

/-! ### Looking -/

/-- To look at the cursor moves nothing; what is seen does not depend on the answer to a reading without end. -/
protected theorem look {look : Cursor → α} (blind : ∀ e, f (look (c.halting e)) = f (look c))
    (rest : Concludes c (f (look c)) good') : Concludes c ((fun c => .ok (look c, c) : Parser α) >>= f) good' := by
  refine ⟨fun e => ?_, rest.ends⟩
  change f (look (c.halting e)) (c.halting e) = _
  rw [blind e]
  exact rest.terminates e

protected theorem get {f : Cursor → Parser β} (blind : ∀ e, f (c.halting e) = f c) (rest : Concludes c (f c) good') :
    Concludes c (get >>= f) good' :=
  .look blind rest

protected theorem current {f : Token → Parser β} (rest : Concludes c (f c.current) good') :
    Concludes c (current >>= f) good' :=
  .look (fun _ => rfl) rest

protected theorem peek {f : Token → Parser β} (rest : Concludes c (f c.peek) good') : Concludes c (peek >>= f) good' :=
  .look (fun _ => rfl) rest

protected theorem position {f : Position → Parser β} (rest : Concludes c (f c.current.pos) good') :
    Concludes c (position >>= f) good' :=
  .look (fun _ => rfl) rest

variable {f : Bool → Parser β}

protected theorem curIs {w : String} (rest : Concludes c (f (c.current.is w)) good') :
    Concludes c (curIs w >>= f) good' :=
  .look (fun _ => rfl) rest

protected theorem curAny {words : List String} (rest : Concludes c (f (words.any c.current.is)) good') :
    Concludes c (curAny words >>= f) good' :=
  .look (fun _ => rfl) rest

protected theorem curOp {op : String} (rest : Concludes c (f (c.current.isOp op)) good') :
    Concludes c (curOp op >>= f) good' :=
  .look (fun _ => rfl) rest

protected theorem peekIs {w : String} (rest : Concludes c (f (c.peek.is w)) good') :
    Concludes c (peekIs w >>= f) good' :=
  .look (fun _ => rfl) rest

protected theorem peekOp {op : String} (rest : Concludes c (f (c.peek.isOp op)) good') :
    Concludes c (peekOp op >>= f) good' :=
  .look (fun _ => rfl) rest

protected theorem atEnd (rest : Concludes c (f c.current.isFinish) good') : Concludes c (atEnd >>= f) good' :=
  .look (fun _ => rfl) rest

/-! ### Branching -/

variable {tried : Parser Bool} {yes no : Parser β}

protected theorem branch (tries : Concludes c tried (Tries c k))
    (taken : ∀ next, next.Within k → Concludes next yes good')
    (left : Concludes c no good') : Concludes c (tried >>= fun found => if found = true then yes else no) good' := by
  refine tries.bind fun found next moved => ?_
  obtain ⟨rfl, place⟩ | ⟨rfl, rfl⟩ := moved.cases
  · exact taken next place
  · exact left

protected theorem otherwise (tries : Concludes c tried (Tries c k)) (left : Concludes c no good')
    (taken : ∀ next, next.Within k → Concludes next yes good') :
    Concludes c (tried >>= fun found => if (!found) = true then no else yes) good' := by
  refine tries.bind fun found next moved => ?_
  obtain ⟨rfl, place⟩ | ⟨rfl, rfl⟩ := moved.cases
  · exact taken next place
  · exact left

protected theorem find {p : Parser (Option α)} {f : Option α → Parser β}
    (tries : Concludes c p fun a => Tries c k a.isSome)
    (found : ∀ a next, next.Within k → Concludes next (f (some a)) good') (left : Concludes c (f none) good') :
    Concludes c (p >>= f) good' := by
  refine tries.bind fun read next moved => ?_
  cases read with
  | some a => exact found a next moved
  | none =>
    cases moved
    exact left

/-- A failure ends the reading where its condition holds. -/
protected theorem guard {wrong : Prop} [Decidable wrong] {what : String} {f : α → Parser β}
    (rest : ¬wrong → Concludes c yes good') : Concludes c (if wrong then expected what >>= f else yes) good' := by
  split
  · exact (Concludes.expected what).bind fun _ _ held => held
  · next right => exact rest right

protected theorem ite {cond : Prop} [Decidable cond] (held : cond → Concludes c yes good')
    (failed : ¬cond → Concludes c no good') : Concludes c (if cond then yes else no) good' := by
  split
  · next holds => exact held holds
  · next fails => exact failed fails

protected theorem known {a : α} {f : α → Parser β} (rest : Concludes c (f a) good') :
    Concludes c (pure a >>= f) good' :=
  ⟨rest.terminates, rest.ends⟩

protected theorem some (read : Concludes c p (Leaves k)) : Concludes c (some <$> p) (Leaves k) :=
  read.map fun _ _ place => place

protected theorem choice {cond : Prop} [Decidable cond] {one other : Parser α} {f : α → Parser β}
    (chosen : Concludes c one (Leaves k)) (spared : Concludes c other (Leaves k))
    (rest : ∀ a next, next.Within k → Concludes next (f a) good') :
    Concludes c (if cond then one >>= f else other >>= f) good' := by
  split
  · exact chosen.bind rest
  · exact spared.bind rest

/-- A part that is read for nothing but to be taken. -/
protected theorem extra {cond : Prop} [Decidable cond] {part : Parser α} (place : c.Within k)
    (inner : Concludes c part (Leaves k)) (rest : ∀ next, next.Within k → Concludes next yes good') :
    Concludes c (if cond then part >>= fun _ => yes else yes) good' := by
  split
  · exact inner.bind fun _ next place => rest next place
  · exact rest c place

/-- A part that may be there, after a word that says so. -/
protected theorem option {part : Parser α} {f : Option α → Parser β} (tries : Concludes c tried (Tries c k))
    (place : c.Within k) (inner : ∀ next, next.Within k → Concludes next part (Leaves k))
    (rest : ∀ a next, next.Within k → Concludes next (f a) good') :
    Concludes c (tried >>= fun found => if found = true then some <$> part >>= f else pure none >>= f) good' :=
  tries.branch (fun next place => (inner next place).some.bind rest) (.known (rest none c place))

protected theorem leaves {p : Parser Bool} (tries : Concludes c p (Tries c k)) (place : c.Within k) :
    Concludes c p (Leaves k) := by
  refine tries.mono fun found next moved => ?_
  obtain ⟨-, place⟩ | ⟨-, rfl⟩ := moved.cases <;> exact place

end Concludes

/-- The parser takes a token wherever fewer than `k` tokens follow the one at hand. -/
def Advances (k : Nat) (p : Parser α) : Prop := ∀ j < k, ∀ ⦃c⦄, c.Within (j + 1) → Concludes c p (Leaves j)

theorem Advances.zero : Advances 0 p := fun j below => absurd below (Nat.not_lt_zero j)

theorem Advances.mono (advances : Advances k p) (fewer : j ≤ k) : Advances j p :=
  fun i below _ place => advances i (Nat.lt_of_lt_of_le below fewer) place

theorem Advances.leaves (advances : Advances k p) (place : c.Within k) : Concludes c p (Leaves k) :=
  (advances _ place.short place.here).weaken (Nat.le_of_lt place.short)

/-! ### Words and marks -/

theorem concludes_advance (ready : c.advance.Within k) : Concludes c advance (Leaves k) := by
  refine ⟨fun e => ?_, by rintro _ _ ⟨⟩; exact ready⟩
  rw [advance_apply, advance_halting]
  rfl

theorem tries_acceptAny (place : c.Within (k + 1)) (words : List String) :
    Concludes c (acceptAny words) (Tries c k) := by
  refine .curAny ?_
  split
  · next listed =>
    exact (concludes_advance (place.ready (solid_of_any listed))).bind fun _ _ place => .pure place
  · exact .pure rfl

theorem tries_accept (place : c.Within (k + 1)) (word : String) : Concludes c (accept word) (Tries c k) :=
  tries_acceptAny place [word]

/-- Where a token can be taken, one can still be taken after a word that may be there. -/
theorem concludes_accept_ready (place : c.Within (k + 1)) (ready : c.advance.Within k) (word : String) :
    Concludes c (accept word) fun _ next => next.advance.Within k := by
  refine (tries_accept place word).mono fun found next moved => ?_
  obtain ⟨-, place⟩ | ⟨-, rfl⟩ := moved.cases
  · exact place.skip
  · exact ready

theorem tries_acceptOp (place : c.Within (k + 1)) (op : String) : Concludes c (acceptOp op) (Tries c k) := by
  refine .curOp ?_
  split
  · next mark =>
    exact (concludes_advance (place.ready (solid_of_isOp mark))).bind fun _ _ place => .pure place
  · exact .pure rfl

theorem tries_acceptSeq (place : c.Within (k + 1)) (word : String) (words : List String) :
    Concludes c (acceptSeq (word :: words)) (Tries c k) := by
  have skips : ∀ (words : List String) (c : Cursor), c.Within k → Concludes c
      (modify fun c => words.foldl (fun c _ => c.advance) c) (Leaves k) := by
    intro words
    induction words with
    | nil => exact fun c place => .pure place
    | cons _ words ih => exact fun c place => (concludes_advance place.skip).bind fun _ next place => ih next place
  refine .get (fun _ => rfl) ?_
  split
  · next starts =>
    have first : c.current.is word = true := by
      simp only [startsWith, List.zipIdx_cons, List.all_cons, Bool.and_eq_true] at starts
      exact starts.1
    have taken : Concludes c (modify fun c => (word :: words).foldl (fun c _ => c.advance) c) (Leaves k) :=
      (concludes_advance (place.ready (solid_of_is first))).bind fun _ next place => skips words next place
    exact taken.bind fun _ _ place => .pure place
  · exact .pure rfl

section Optional

variable (place : c.Within k)

include place

theorem concludes_acceptAny {words : List String} : Concludes c (acceptAny words) (Leaves k) :=
  (tries_acceptAny place.step words).leaves place

theorem concludes_accept {word : String} : Concludes c (accept word) (Leaves k) := concludes_acceptAny place

theorem concludes_acceptOp {op : String} : Concludes c (acceptOp op) (Leaves k) :=
    (tries_acceptOp place.step op).leaves place

theorem concludes_acceptSeq {word : String} {words : List String} :
    Concludes c (acceptSeq (word :: words)) (Leaves k) :=
  (tries_acceptSeq place.step word words).leaves place

end Optional

theorem concludes_expect (place : c.Within (k + 1)) (word : String) : Concludes c (expect word) (Leaves k) := by
  refine .curIs ?_
  split
  · next found => exact concludes_advance (place.ready (solid_of_is found))
  · exact .expected _

theorem concludes_expectOp (place : c.Within (k + 1)) (op : String) : Concludes c (expectOp op) (Leaves k) := by
  refine .curOp ?_
  split
  · next found => exact concludes_advance (place.ready (solid_of_isOp found))
  · exact .expected _

/-! ### Loops -/

/-- The rounds of a loop, from what is in hand at one place to what is in hand at another. Each round takes a token,
but for the last, which finds nothing to do. -/
inductive Rounds (step : α → Parser (Option α)) : α → Cursor → α → Cursor → Prop
  | last {a c next} (stepped : step a c = .ok (none, next)) : Rounds step a c a next
  | more {a b r c middle next} (stepped : step a c = .ok (some b, middle))
      (shorter : middle.rest.length < c.rest.length)
      (later : Rounds step b middle r next) : Rounds step a c r next

/-- A loop that succeeds has gone through such rounds. -/
theorem loop_rounds {step : α → Parser (Option α)} {a r : α} {next : Cursor} (done : loop step a c = .ok (r, next)) :
    Rounds step a c r next := by
  rw [loop_apply] at done
  generalize c.bound + 1 = fuel at done
  induction fuel generalizing a c with
  | zero => cases done
  | succ fuel ih =>
    obtain ⟨_, _, ⟨⟩, done⟩ := bind_eq_ok done
    obtain ⟨more, middle, stepped, done⟩ := bind_eq_ok done
    cases more with
    | none =>
      cases done
      exact .last stepped
    | some b =>
      obtain ⟨_, _, ⟨⟩, done⟩ := bind_eq_ok done
      split at done
      · next shorter => exact .more stepped shorter (ih done)
      · cases done

section Loops

variable {step : α → Parser (Option α)}
  (rounds : ∀ j < k, ∀ ⦃c⦄, c.Within (j + 1) → ∀ a, Concludes c (step a) (Round j))

include rounds

/-- Rounds that take tokens never use up their number, which is that of the tokens. -/
private theorem concludes_iterate (fuel : Nat) (enough : c.Within fuel) (place : c.Within k) (a : α) :
    Concludes c (iterate fuel step a) (Leaves k) := by
  induction fuel generalizing c a with
  | zero => exact absurd enough.short (Nat.not_lt_zero _)
  | succ fuel ih =>
    refine .get (fun _ => rfl) ((rounds _ place.short place.here a).bind fun more next moved => ?_)
    cases more with
    | none => exact .pure (moved.mono place.short)
    | some b =>
      refine .get (fun _ => rfl) ?_
      rw [if_pos moved.short]
      exact ih (moved.mono (Nat.le_of_lt_succ enough.short)) (moved.mono (Nat.le_of_lt place.short)) b

/-- A loop whose rounds take tokens comes to an end. -/
theorem concludes_loop (place : c.Within k) (a : α) : Concludes c (loop step a) (Leaves k) :=
  .get (fun _ => rfl) (concludes_iterate rounds _ place.here.step place a)

/-- A loop whose first round goes on takes a token. -/
theorem concludes_loop_some (place : c.Within (k + 1)) (a : α)
    (first : Concludes c (step a) fun more next => more.isSome = true ∧ next.Within c.rest.length) :
    Concludes c (loop step a) (Leaves k) := by
  refine .get (fun _ => rfl) (.get (fun _ => rfl) (first.bind fun more next ⟨goes, moved⟩ => ?_))
  obtain ⟨b, rfl⟩ := Option.isSome_iff_exists.mp goes
  refine .get (fun _ => rfl) ?_
  rw [if_pos moved.short]
  exact concludes_iterate rounds _ (moved.mono (Nat.le_succ _)) (moved.mono (Nat.le_of_lt_succ place.short)) b

end Loops

section Lists

variable {item : Parser α} (items : ∀ j ≤ k, ∀ ⦃c⦄, c.Within j → Concludes c item (Leaves j))

include items

theorem concludes_commaList (place : c.Within k) : Concludes c (commaList item) (Leaves k) := by
  refine (items k (Nat.le_refl k) place).bind fun first _ place => Concludes.bind ?_ fun list _ place => .pure place
  refine concludes_loop (fun j below c place list => ?_) place [first]
  refine .branch (tries_acceptOp place _) (fun _ place => ?_) (.pure place)
  exact (items j (Nat.le_of_lt below) place).bind fun a _ place => .pure place

end Lists

/-! ### Names -/

theorem concludes_takeIdent (ready : c.advance.Within k) : Concludes c takeIdent (Leaves k) :=
  .current ((concludes_advance ready).bind fun _ _ place => .pure place)

theorem concludes_anyIdent (place : c.Within (k + 1)) : Concludes c anyIdent (Leaves k) := by
  refine .current ?_
  split
  · next named =>
    simp only [Bool.or_eq_true] at named
    obtain (word | quoted) | template := named
    · exact concludes_takeIdent (place.ready (solid_of_isWord word))
    · exact concludes_takeIdent (place.ready (solid_of_isQuoted quoted))
    · exact concludes_takeIdent (place.ready (solid_of_isTemplate template))
  · exact .expected _

theorem solid_of_isName {lexicon : Lexicon} {t : Token} (named : isName lexicon t = true) : t.isFinish = false := by
  unfold isName at named
  split at named
  · next kind => exact solid_of_kind kind (by decide)
  · next kind => exact solid_of_kind kind (by decide)
  · next kind => exact solid_of_kind kind (by decide)
  · cases named

theorem concludes_ident (place : c.Within (k + 1)) (lexicon : Lexicon) : Concludes c (ident lexicon) (Leaves k) := by
  refine .current ?_
  split
  · next named =>
    obtain template | named := Bool.or_eq_true_iff.mp named
    · exact concludes_takeIdent (place.ready (solid_of_isTemplate template))
    · exact concludes_takeIdent (place.ready (solid_of_isName named))
  · exact .expected _

private theorem concludes_dottedName {head : Parser Ident} (first : Concludes c head (Leaves k)) :
    Concludes c (dottedName head) (Leaves k) := by
  refine first.bind fun id _ place => Concludes.bind ?_ fun path _ place => .pure place
  refine concludes_loop (fun j below c place path => ?_) place [id]
  refine .branch (tries_acceptOp place _) (fun _ place => ?_) (.pure place)
  exact (concludes_anyIdent place.step).bind fun id _ place => .pure place

theorem concludes_qualifiedName (place : c.Within (k + 1)) (lexicon : Lexicon) :
    Concludes c (qualifiedName lexicon) (Leaves k) :=
  concludes_dottedName (concludes_ident place lexicon)

theorem concludes_tableName (place : c.Within (k + 1)) (lexicon : Lexicon) :
    Concludes c (tableName lexicon) (Leaves k) := by
  refine concludes_dottedName (.get (fun _ => rfl) ?_)
  split
  · exact concludes_anyIdent place
  · exact concludes_ident place lexicon

theorem concludes_identList (place : c.Within (k + 1)) : Concludes c identList (Leaves k) := by
  refine (concludes_expectOp place _).bind fun _ _ place => ?_
  refine (concludes_commaList (fun j _ c place => concludes_anyIdent place.step) place).bind fun ids _ place => ?_
  exact (concludes_expectOp place.step _).bind fun _ _ place => .pure place

/-! ### Skipping -/

theorem concludes_rawFrom (place : c.Within k) (start : Nat) : Concludes c (rawFrom start) (Leaves k) :=
  .get (fun _ => rfl) (.pure place)

theorem concludes_skipGroup (place : c.Within (k + 1)) : Concludes c skipGroup (Leaves k) := by
  refine .position ((concludes_expectOp place _).bind fun _ _ place => Concludes.bind ?_ fun _ _ place =>
    concludes_rawFrom place _)
  refine concludes_loop (fun j below c place depth => ?_) place 1
  split
  · exact .pure place
  refine .current (.guard fun solid => ?_)
  refine (concludes_advance (place.ready (Bool.eq_false_iff.mpr solid))).bind fun _ _ place => ?_
  split
  · exact .pure place
  split <;> exact .pure place

theorem concludes_skipWhile (place : c.Within k) (wanted : Token → Bool) :
    Concludes c (skipWhile wanted) (Leaves k) := by
  refine Concludes.bind (concludes_loop (fun j below c place _ => .current ?_) place ()) fun _ _ place => .pure place
  split
  · exact .pure place
  · next goes =>
    have solid : c.current.isFinish = false := by simp_all
    exact (concludes_advance (place.ready solid)).bind fun _ _ place => .pure place

private theorem concludes_skipRound (place : c.Within (k + 1)) (solid : c.current.isFinish = false) :
    Concludes c (do
      if c.current.isOp "(" then
        let _ ← skipGroup
        return some ()
      advance
      return some () : Parser (Option Unit)) fun more next => more.isSome = true ∧ next.Within k := by
  split
  · exact (concludes_skipGroup place).bind fun _ _ place => .pure ⟨rfl, place⟩
  · exact (concludes_advance (place.ready solid)).bind fun _ _ place => .pure ⟨rfl, place⟩

private theorem concludes_skipRounds (stop : Token → Bool) (j : Nat) ⦃c : Cursor⦄ (place : c.Within (j + 1))
    (_ : Unit) : Concludes c (do
      let t ← current
      if t.isFinish || stop t then return none
      if t.isOp "(" then
        let _ ← skipGroup
        return some ()
      advance
      return some () : Parser (Option Unit)) (Round j) := by
  refine .current ?_
  split
  · exact .pure place
  · next goes =>
    have solid : c.current.isFinish = false := by simp_all
    refine (concludes_skipRound place solid).mono fun more next ⟨goes, moved⟩ => ?_
    obtain ⟨_, rfl⟩ := Option.isSome_iff_exists.mp goes
    exact moved

theorem concludes_skipGroupsUntil (place : c.Within k) (stop : Token → Bool) :
    Concludes c (skipGroupsUntil stop) (Leaves k) :=
  (concludes_loop (fun j _ => concludes_skipRounds stop j) place ()).bind fun _ _ place => .pure place

theorem concludes_skipGroupsUntil_going (place : c.Within (k + 1)) {stop : Token → Bool}
    (solid : c.current.isFinish = false) (goes : stop c.current = false) :
    Concludes c (skipGroupsUntil stop) (Leaves k) := by
  refine (concludes_loop_some (fun j _ => concludes_skipRounds stop j) place () (.current ?_)).bind
    fun _ _ place => .pure place
  rw [solid, goes]
  exact concludes_skipRound place.here solid

end Parser

end SqlDialects
