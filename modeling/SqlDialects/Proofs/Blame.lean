import SqlDialects.Proofs.Coverage
import SqlDialects.Proofs.TypeTokens

/-! The places that errors point to. A reading goes over tokens that stand in the text, and what it blames is the
token at hand, a place that it has kept, or one that a call of a function passes on. What a parser reads is of no
interest for most parsers, and for these an instance says that their errors point into the text. -/

namespace SqlDialects

open SqlDialects.Parser

/-- The text of a string. -/
def Expr.stringText? : Expr → Option String
  | .literal _ .string text => some text
  | _ => none

/-- What is known of a text that is read: its places, what an error may name as its source, the texts of its strings
and of its numbers, and the errors of other texts that a call passes on. -/
structure Ground where
  place : Position → Prop
  source : String → Prop
  quoted : String → Prop
  number : String → Prop
  foreign : String → Position → Prop

namespace Ground

variable (s : Ground)

/-- The error points to a place of the text, or it is one of another text. -/
def Blames (e : ParseError) : Prop := s.place e.pos ∧ s.source e.source ∨ s.foreign e.source e.pos

/-- The token stands at a place of the text, and so does what is left of a closing sign without its first character. -/
structure Holds (t : Token) : Prop where
  place : s.place t.pos
  quoted : t.kind = .string → s.quoted t.text
  number : t.kind = .number → s.number t.text
  rest : closesType .angle t = true → 1 < t.text.length → s.place (splitToken t).pos

/-- A call can blame the expression, and can read a text in it. -/
structure Rooted (e : Expr) : Prop where
  place : s.place e.pos
  quoted : ∀ text ∈ e.stringText?, s.quoted text

variable {s} in
theorem Rooted.of {e : Expr} (place : s.place e.pos) (plain : e.stringText? = none) : s.Rooted e :=
  ⟨place, by simp [plain]⟩

/-- A call whose place and arguments can be blamed. -/
structure Called (f : Call) : Prop where
  place : s.place f.pos
  args : ∀ e ∈ f.args, s.Rooted e

end Ground

variable {s : Ground} {c : Cursor}

/-- The tokens from here on stand in the text. -/
structure Cursor.On (c : Cursor) (s : Ground) : Prop where
  source : s.source c.source
  tokens : ∀ t ∈ c.current :: c.rest, s.Holds t
  halt : ∀ e, c.halt = .parse e → s.Blames e

namespace Cursor.On

theorem current (on : c.On s) : s.Holds c.current := on.tokens _ List.mem_cons_self

theorem ahead (on : c.On s) (n : Nat) : s.Holds (c.ahead n) := by
  cases n with
  | zero => exact on.current
  | succ n =>
    rw [Cursor.ahead]
    cases found : c.rest[n]? with
    | some t => exact on.tokens t (List.mem_cons_of_mem _ (List.mem_of_getElem? found))
    | none =>
      cases last : c.rest.getLast? with
      | none => exact on.current
      | some t => exact on.tokens t (List.mem_cons_of_mem _ (List.mem_of_getLast? last))

theorem peek (on : c.On s) : s.Holds c.peek := on.ahead 1

theorem advance (on : c.On s) : c.advance.On s := by
  unfold Cursor.advance
  split
  · exact on
  · next t ts shape =>
    refine ⟨on.source, fun u member => on.tokens u (List.mem_cons_of_mem _ ?_), on.halt⟩
    rwa [shape]

/-- The error at the token at hand. -/
theorem blames (on : c.On s) (expected found : String) :
    s.Blames { pos := c.current.pos, expected, found, source := c.source } := .inl ⟨on.current.place, on.source⟩

end Cursor.On

namespace Parser

variable {α β : Type} {good : α → Prop} {good' : β → Prop} {p : Parser α} {f : α → Parser β} {yes no : Parser β}

/-- Over tokens of the text the parser takes tokens, reads what is good, and blames what stands in the text. -/
structure Locates (s : Ground) (good : α → Prop) (p : Parser α) : Prop where
  reads : ∀ ⦃c a next⦄, c.On s → p c = .ok (a, next) → next.On s ∧ good a
  blames : ∀ ⦃c e⦄, c.On s → p c = .error (.parse e) → s.Blames e

/-- The errors of the parser point into the text, whatever it reads. -/
class Located (s : Ground) (p : Parser α) : Prop where
  locates : Locates s (fun _ => True) p

namespace Locates

protected theorem located (locates : Locates s good p) : Located s p :=
  ⟨fun _ _ _ on done => ⟨(locates.reads on done).1, trivial⟩, locates.blames⟩

protected theorem weaken (locates : Locates s good p) {weak : α → Prop}
    (implied : ∀ a, good a → weak a) : Locates s weak p :=
  ⟨fun _ _ _ on done => (locates.reads on done).imp_right (implied _), locates.blames⟩

protected theorem pure {a : α} (holds : good a) : Locates s good (pure a) := by
  refine ⟨?_, by rintro _ _ _ ⟨⟩⟩
  rintro c _ _ on ⟨⟩
  exact ⟨on, holds⟩

protected theorem look {look : Cursor → α} (holds : ∀ c : Cursor, c.On s → good (look c)) :
    Locates s good (fun c => .ok (look c, c)) := by
  refine ⟨?_, by rintro _ _ _ ⟨⟩⟩
  rintro c _ _ on ⟨⟩
  exact ⟨on, holds c on⟩

protected theorem expected (what : String) : Locates s good (expected what) := by
  refine ⟨by rintro _ _ _ _ ⟨⟩, ?_⟩
  rintro c _ on ⟨⟩
  exact on.blames _ _

protected theorem failAt {pos : Position} (placed : s.place pos) (what found : String) :
    Locates s good (failAt pos what found) := by
  refine ⟨by rintro _ _ _ _ ⟨⟩, ?_⟩
  rintro c _ on ⟨⟩
  exact .inl ⟨placed, on.source⟩

protected theorem stall : Locates s good stall := by
  refine ⟨by rintro _ _ _ _ ⟨⟩, fun c e on done => ?_⟩
  exact on.halt e (Except.error.inj done)

protected theorem bind (first : Locates s good p) (rest : ∀ a, good a → Locates s good' (f a)) :
    Locates s good' (p >>= f) := by
  refine ⟨fun c b next on done => ?_, fun c e on failed => ?_⟩
  · obtain ⟨a, middle, read, later⟩ := bind_eq_ok done
    obtain ⟨still, held⟩ := first.reads on read
    exact (rest a held).reads still later
  · rw [bind_apply] at failed
    cases outcome : p c with
    | error other =>
      rw [outcome] at failed
      cases failed
      exact first.blames on outcome
    | ok r =>
      rw [outcome] at failed
      obtain ⟨still, held⟩ := first.reads on outcome
      exact (rest r.1 held).blames still failed

/-- A part that says nothing about what is read. -/
protected theorem skip [first : Located s p] (rest : ∀ a, Locates s good' (f a)) : Locates s good' (p >>= f) :=
  first.locates.bind fun a _ => rest a

protected theorem map {g : α → β} (read : Locates s good p) (holds : ∀ a, good a → good' (g a)) :
    Locates s good' (g <$> p) :=
  read.bind fun a held => .pure (holds a held)

protected theorem some (read : Locates s good p) : Locates s (fun found => ∀ a ∈ found, good a) (some <$> p) := by
  refine read.map fun a held b same => ?_
  cases same
  exact held

protected theorem found {a : α} (held : good a) : Locates s (fun found => ∀ b ∈ found, good b) (pure (some a)) :=
  .pure fun _ same => Option.some.inj same ▸ held

protected theorem none : Locates s (fun found : Option α => ∀ a ∈ found, good a) (pure none) :=
  .pure (by rintro _ ⟨⟩)

protected theorem within {outcome : Except Error α} (holds : ∀ a, outcome = .ok a → good a)
    (fails : ∀ e, outcome = .error (.parse e) → e.source = "" ∧ s.place e.pos ∨ e.source ≠ "" ∧
      s.foreign e.source e.pos) :
    Locates s good (within outcome) := by
  refine ⟨fun c a next on done => ?_, fun c e on failed => ?_⟩
  · cases outcome with
    | ok a =>
      cases done
      exact ⟨on, holds a rfl⟩
    | error other => cases other <;> cases done
  · cases outcome with
    | ok a => cases failed
    | error other =>
      cases other <;> cases failed
      obtain ⟨bare, placed⟩ | ⟨named, foreign⟩ := fails _ rfl
      · rw [if_pos bare]
        exact .inl ⟨placed, on.source⟩
      · rw [if_neg named]
        exact .inr foreign

protected theorem lift {outcome : Except Error α} (holds : ∀ a, outcome = .ok a → good a)
    (fails : ∀ e, outcome = .error (.parse e) → s.Blames e) : Locates s good (liftM outcome : Parser α) := by
  cases outcome with
  | ok a => exact .pure (holds a rfl)
  | error other =>
    refine ⟨by rintro _ _ _ _ ⟨⟩, ?_⟩
    rintro c e on ⟨⟩
    exact fails e rfl

/-! ### What is at hand -/

protected theorem get {f : Cursor → Parser β} (rest : ∀ c : Cursor, c.On s → Locates s good' (f c)) :
    Locates s good' (get >>= f) :=
  (Locates.look fun _ on => on : Locates s (·.On s) get).bind rest

protected theorem current {f : Token → Parser β} (rest : ∀ t, s.Holds t → Locates s good' (f t)) :
    Locates s good' (current >>= f) :=
  (Locates.look fun _ on => on.current : Locates s s.Holds Parser.current).bind rest

protected theorem position {f : Position → Parser β} (rest : ∀ pos, s.place pos → Locates s good' (f pos)) :
    Locates s good' (position >>= f) :=
  (Locates.look fun _ on => on.current.place : Locates s s.place Parser.position).bind rest

/-! ### Branching -/

protected theorem ite {cond : Prop} [Decidable cond] (held : Locates s good' yes) (failed : Locates s good' no) :
    Locates s good' (if cond then yes else no) := by
  split
  · exact held
  · exact failed

protected theorem branch {tried : Parser Bool} [Located s tried]
    (taken : Locates s good' yes) (left : Locates s good' no) :
    Locates s good' (tried >>= fun found => if found = true then yes else no) :=
  .skip fun _ => .ite taken left

protected theorem otherwise {tried : Parser Bool} [Located s tried] (left : Locates s good' no)
    (taken : Locates s good' yes) :
    Locates s good' (tried >>= fun found => if (!found) = true then no else yes) :=
  .skip fun _ => .ite left taken

/-- A failure ends the reading where its condition holds. -/
protected theorem guard {wrong : Prop} [Decidable wrong] {what : String} (rest : ¬wrong → Locates s good' yes) :
    Locates s good' (if wrong then expected what >>= f else yes) := by
  split
  · exact (Locates.expected what : Locates s (fun _ => False) _).bind fun _ no => no.elim
  · next right => exact rest right

protected theorem choice {cond : Prop} [Decidable cond] {one other : Parser α} (chosen : Locates s good one)
    (spared : Locates s good other) (rest : ∀ a, good a → Locates s good' (f a)) :
    Locates s good' (if cond then one >>= f else other >>= f) :=
  .ite (chosen.bind rest) (spared.bind rest)

/-- One of two parts that say nothing about what is read. -/
protected theorem either {cond : Prop} [Decidable cond] {one other : Parser α} [Located s one] [Located s other]
    (rest : ∀ a, Locates s good' (f a)) : Locates s good' (if cond then one >>= f else other >>= f) :=
  .ite (.skip rest) (.skip rest)

/-- A part that is read for nothing but to be taken. -/
protected theorem extra {cond : Prop} [Decidable cond] [Located s p] (rest : Locates s good' yes) :
    Locates s good' (if cond then p >>= fun _ => yes else yes) :=
  .ite (.skip fun _ => rest) rest

protected theorem known {a : α} {f : α → Parser β} (rest : Locates s good' (f a)) : Locates s good' (pure a >>= f) := by
  rw [pure_bind]
  exact rest

/-- A part that may be there, after a word that says so. -/
protected theorem option {tried : Parser Bool} [Located s tried] {f : Option α → Parser β} (inner : Locates s good p)
    (rest : ∀ found, (∀ a ∈ found, good a) → Locates s good' (f found)) :
    Locates s good' (tried >>= fun found => if found = true then some <$> p >>= f else pure none >>= f) :=
  .branch (inner.some.bind rest) (Locates.none.bind rest)

/-! ### Loops -/

protected theorem loop {step : α → Parser (Option α)} {a : α} (initial : good a)
    (kept : ∀ a, good a → Locates s (fun next => ∀ b ∈ next, good b) (step a)) : Locates s good (loop step a) := by
  suffices rounds : ∀ fuel a, good a → Locates s good (iterate fuel step a) from
    .get fun c _ => rounds (c.bound + 1) a initial
  intro fuel
  induction fuel with
  | zero => exact fun a _ => .stall
  | succ fuel ih =>
    refine fun a held => .get fun before _ => (kept a held).bind fun next good => ?_
    cases next with
    | none => exact .pure held
    | some b => exact .get fun after _ => .ite (ih b (good b rfl)) .stall

protected theorem rounds (good : α → Prop) {step : α → Parser (Option α)} {a : α} (initial : good a)
    (kept : ∀ a, good a → Locates s (fun next => ∀ b ∈ next, good b) (step a))
      (rest : ∀ a, good a → Locates s good' (f a)) :
    Locates s good' (loop step a >>= f) :=
  (Locates.loop initial kept).bind rest

end Locates

/-! ### Parsers of which only the errors count -/

instance located_pure {a : α} : Located s (pure a : Parser α) := ⟨.pure trivial⟩

instance located_expected {what : String} : Located s (expected what : Parser α) := ⟨.expected what⟩

instance located_stall : Located s (stall : Parser α) := ⟨.stall⟩

instance located_get : Located s (get : Parser Cursor) := ⟨.look fun _ _ => trivial⟩

instance located_bind [first : Located s p] [rest : ∀ a, Located s (f a)] : Located s (p >>= f) :=
  ⟨first.locates.bind fun a _ => (rest a).locates⟩

instance located_map {g : α → β} [read : Located s p] : Located s (g <$> p) := ⟨read.locates.map fun _ _ => trivial⟩

instance located_ite {cond : Prop} [Decidable cond] [held : Located s yes] [failed : Located s no] :
    Located s (if cond then yes else no) :=
  ⟨.ite held.locates failed.locates⟩

instance located_loop {step : α → Parser (Option α)} {a : α} [round : ∀ a, Located s (step a)] :
    Located s (loop step a) :=
  ⟨.loop trivial fun a _ => (round a).locates.weaken fun _ _ _ _ => trivial⟩

instance located_advance : Located s advance := by
  refine ⟨⟨?_, by rintro _ _ _ ⟨⟩⟩⟩
  rintro c _ _ on ⟨⟩
  exact ⟨on.advance, trivial⟩

instance located_current : Located s current := ⟨.look fun _ _ => trivial⟩

instance located_peek : Located s peek := ⟨.look fun _ _ => trivial⟩

instance located_position : Located s position := ⟨.look fun _ _ => trivial⟩

instance located_atEnd : Located s atEnd := ⟨.look fun _ _ => trivial⟩

instance located_curIs {w : String} : Located s (curIs w) := ⟨.look fun _ _ => trivial⟩

instance located_curAny {words : List String} : Located s (curAny words) := ⟨.look fun _ _ => trivial⟩

instance located_curOp {op : String} : Located s (curOp op) := ⟨.look fun _ _ => trivial⟩

instance located_peekIs {w : String} : Located s (peekIs w) := ⟨.look fun _ _ => trivial⟩

instance located_peekOp {op : String} : Located s (peekOp op) := ⟨.look fun _ _ => trivial⟩

instance located_acceptAny {words : List String} : Located s (acceptAny words) := by
  unfold acceptAny
  infer_instance

instance located_accept {w : String} : Located s (accept w) := by
  unfold accept
  infer_instance

instance located_acceptOp {op : String} : Located s (acceptOp op) := by
  unfold acceptOp
  infer_instance

instance located_acceptSeq {words : List String} : Located s (acceptSeq words) := by
  have skips : Located s (modify fun c => words.foldl (fun c _ => c.advance) c : Parser PUnit) := by
    refine ⟨⟨?_, by rintro _ _ _ ⟨⟩⟩⟩
    rintro c _ _ on ⟨⟩
    refine ⟨?_, trivial⟩
    dsimp only
    induction words generalizing c with
    | nil => exact on
    | cons w words ih => exact ih on.advance
  unfold acceptSeq
  infer_instance

instance located_expect {w : String} : Located s (expect w) := by
  unfold expect
  infer_instance

instance located_expectOp {op : String} : Located s (expectOp op) := by
  unfold expectOp
  infer_instance

instance located_commaList [Located s p] : Located s (commaList p) := by
  unfold commaList
  infer_instance

instance located_takeIdent : Located s takeIdent := by
  unfold takeIdent
  infer_instance

instance located_anyIdent : Located s anyIdent := by
  unfold anyIdent
  infer_instance

instance located_ident {lexicon : Lexicon} : Located s (Parser.ident lexicon) := by
  unfold Parser.ident
  infer_instance

instance located_dottedName {head : Parser Ident} [Located s head] : Located s (dottedName head) := by
  unfold dottedName
  infer_instance

instance located_qualifiedName {lexicon : Lexicon} : Located s (qualifiedName lexicon) := by
  unfold qualifiedName
  infer_instance

instance located_tableName {lexicon : Lexicon} : Located s (tableName lexicon) := by
  unfold tableName
  infer_instance

instance located_identList : Located s identList := by
  unfold identList
  infer_instance

instance located_rawFrom {start : Nat} : Located s (rawFrom start) := by
  unfold rawFrom
  infer_instance

set_option synthInstance.maxSize 1024 in
instance located_skipGroup : Located s skipGroup := by
  unfold skipGroup
  dsimp only
  infer_instance

instance located_skipWhile {stop : Token → Bool} : Located s (skipWhile stop) := by
  unfold skipWhile
  infer_instance

instance located_skipGroupsUntil {stop : Token → Bool} : Located s (skipGroupsUntil stop) := by
  unfold skipGroupsUntil
  infer_instance

theorem locates_commaList {item : Parser α} (each : Locates s good item) :
    Locates s (fun list => list ≠ [] ∧ ∀ a ∈ list, good a) (commaList item) := by
  refine each.bind fun first held => ?_
  refine .rounds (fun list => list ≠ [] ∧ ∀ a ∈ list, good a) ?_ (fun list kept => ?_) fun list kept => .pure ⟨?_, ?_⟩
  · exact ⟨List.cons_ne_nil _ _, List.forall_mem_singleton.mpr held⟩
  · refine .branch (each.bind fun a held => .found ?_) .none
    exact ⟨List.cons_ne_nil _ _, List.forall_mem_cons.mpr ⟨held, kept.2⟩⟩
  · exact List.reverse_eq_nil_iff.not.mpr kept.1
  · exact fun a member => kept.2 a (List.mem_reverse.mp member)

end Parser

end SqlDialects
