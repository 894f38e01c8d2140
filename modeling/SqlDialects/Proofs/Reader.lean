import SqlDialects.Parser.Statement
import SqlDialects.Proofs.Spelling

/-! Parsers as functions of the cursor. Each primitive has one equation, by which longer parsers
are run on the tokens at hand; what a token is depends on its kind and text, never on its place. -/

namespace SqlDialects

namespace Token

variable (t : Token)

@[simp] theorem isWord_bare : t.bare.isWord = t.isWord := rfl
@[simp] theorem is_bare (w : String) : t.bare.is w = t.is w := rfl
@[simp] theorem isOp_bare (op : String) : t.bare.isOp op = t.isOp op := rfl
@[simp] theorem isFinish_bare : t.bare.isFinish = t.isFinish := rfl
@[simp] theorem isQuoted_bare : t.bare.isQuoted = t.isQuoted := rfl
@[simp] theorem isTemplate_bare : t.bare.isTemplate = t.isTemplate := rfl
@[simp] theorem kind_bare : t.bare.kind = t.kind := rfl
@[simp] theorem text_bare : t.bare.text = t.text := rfl
@[simp] theorem upper_bare : t.bare.upper = t.upper := rfl
@[simp] theorem bare_bare : t.bare.bare = t.bare := rfl

variable {t}

theorem is_unique {w other : String} (word : t.is w = true) (apart : w ≠ other) : t.is other = false := by
  simp only [is, Bool.and_eq_true, beq_iff_eq] at word
  simp [is, word.2, apart]

theorem is_of_isOp {op : String} (mark : t.isOp op = true) (w : String) : t.is w = false := by
  simp only [isOp, Bool.and_eq_true, Bool.or_eq_true, beq_iff_eq] at mark
  obtain ⟨isOperator | isPunctuation, _⟩ := mark
  · simp [is, isWord, isOperator]
  · simp [is, isWord, isPunctuation]

theorem is_of_isFinish (ended : t.isFinish = true) (w : String) : t.is w = false := by
  simp only [isFinish, beq_iff_eq] at ended
  simp [is, isWord, ended]

end Token

namespace Cursor

/-- The tokens from here on, without their places. -/
def Shows (c : Cursor) (ts : List Token) : Prop := c.current.bare :: c.rest.map Token.bare = ts

variable {c : Cursor} {t u : Token} {ts : List Token}

theorem Shows.current (shown : c.Shows (t :: ts)) : c.current.bare = t := (List.cons.inj shown).1

theorem Shows.peek (shown : c.Shows (t :: u :: ts)) : c.peek.bare = u := by
  have rest := (List.cons.inj shown).2
  cases left : c.rest with
  | nil => simp [left] at rest
  | cons next more =>
    simp only [left, List.map_cons, List.cons.injEq] at rest
    simpa [Cursor.peek, ahead, left] using rest.1

theorem Shows.advance (shown : c.Shows (t :: u :: ts)) : c.advance.Shows (u :: ts) := by
  have rest := (List.cons.inj shown).2
  cases left : c.rest with
  | nil => simp [left] at rest
  | cons next more => simpa [Cursor.advance, left, Shows] using rest

theorem Shows.advance' (shown : c.Shows (t :: ts)) (more : ts ≠ []) : c.advance.Shows ts := by
  obtain ⟨u, rest, rfl⟩ := List.exists_cons_of_ne_nil more
  exact shown.advance

theorem Shows.mem_front {front back : List Token} (shown : c.Shows (front ++ back)) (nonempty : front ≠ []) :
    c.current.bare ∈ front := by
  obtain ⟨t, rest, rfl⟩ := List.exists_cons_of_ne_nil nonempty
  rw [shown.current]
  exact List.mem_cons_self

/-- What the tokens are like without their places, they are like with them. -/
theorem Shows.forall {p : Token → Prop} (shown : c.Shows ts) (blind : ∀ t : Token, p t.bare → p t)
    (each : ∀ t ∈ ts, p t) : ∀ t ∈ c.current :: c.rest, p t := by
  intro t member
  apply blind
  apply each
  rw [← shown, ← List.map_cons]
  exact List.mem_map_of_mem member

theorem Shows.bound_eq (shown : c.Shows ts) : c.bound = ts.length := by
  have sizes := congrArg List.length shown
  simpa [bound] using sizes

theorem Shows.shorter {c' : Cursor} {us : List Token} (shown : c.Shows ts) (later : c'.Shows us)
    (fewer : us.length < ts.length) : c'.rest.length < c.rest.length := by
  rw [← shown.bound_eq, ← later.bound_eq] at fewer
  exact Nat.lt_of_succ_lt_succ fewer

end Cursor

theorem Token.Spells.cursor {lexicon : Lexicon} {text : String} {ts : List Token}
    (spelled : Token.Spells lexicon text.toList ts) :
    ∃ c, Cursor.ofText lexicon text = .ok c ∧ c.Shows (ts ++ [Token.finish]) := by
  obtain ⟨tokens, read, equal⟩ := spelled.tokenize
  match tokens with
  | [] => simp at equal
  | t :: rest => exact ⟨{ source := text, current := t, rest }, by rw [Cursor.ofText, read]; rfl, equal⟩

namespace Parser

variable {α β : Type} (c : Cursor)

theorem pure_apply (a : α) : (pure a : Parser α) c = .ok (a, c) := rfl

theorem bind_apply (p : Parser α) (f : α → Parser β) :
    (p >>= f) c = (p c).bind fun r => f r.1 r.2 := rfl

theorem map_apply (f : α → β) (p : Parser α) :
    (f <$> p) c = (p c).bind fun r => .ok (f r.1, r.2) := rfl

theorem ok_bind {ε γ δ : Type} (a : γ) (f : γ → Except ε δ) : (Except.ok a).bind f = f a := rfl

theorem error_bind {ε γ δ : Type} (e : ε) (f : γ → Except ε δ) : (Except.error e : Except ε γ).bind f = .error e := rfl

theorem get_apply : (get : Parser Cursor) c = .ok (c, c) := rfl

theorem current_apply : current c = .ok (c.current, c) := rfl

theorem position_apply : position c = .ok (c.current.pos, c) := rfl

theorem peek_apply : Parser.peek c = .ok (c.peek, c) := rfl

theorem advance_apply : advance c = .ok ((), c.advance) := rfl

theorem atEnd_apply : atEnd c = .ok (c.current.isFinish, c) := rfl

theorem curIs_apply (w : String) : curIs w c = .ok (c.current.is w, c) := rfl

theorem curAny_apply (ws : List String) : curAny ws c = .ok (ws.any c.current.is, c) := rfl

theorem curOp_apply (op : String) : curOp op c = .ok (c.current.isOp op, c) := rfl

theorem acceptAny_apply (ws : List String) : acceptAny ws c =
    .ok (if ws.any c.current.is then (true, c.advance) else (false, c)) := by
  simp only [acceptAny, bind_apply, curAny_apply, ok_bind]
  split <;> rfl

theorem accept_apply (w : String) : accept w c =
    .ok (if c.current.is w then (true, c.advance) else (false, c)) := by
  simp [accept, acceptAny_apply]

theorem acceptOp_apply (op : String) : acceptOp op c =
    .ok (if c.current.isOp op then (true, c.advance) else (false, c)) := by
  simp only [acceptOp, bind_apply, curOp_apply, ok_bind]
  split <;> rfl

theorem expect_apply (w : String) : expect w c =
    if c.current.is w then .ok ((), c.advance) else expected w c := by
  simp only [expect, bind_apply, curIs_apply, ok_bind]
  split <;> rfl

theorem expectOp_apply (op : String) : expectOp op c =
    if c.current.isOp op then .ok ((), c.advance) else expected (Text.quote op) c := by
  simp only [expectOp, bind_apply, curOp_apply, ok_bind]
  split <;> rfl

theorem anyIdent_apply : anyIdent c =
    if c.current.isWord || c.current.isQuoted || c.current.isTemplate then
      .ok (⟨c.current.text, c.current.isQuoted⟩, c.advance)
    else expected "identifier" c := by
  simp only [anyIdent, bind_apply, current_apply, ok_bind]
  split <;> rfl

theorem loop_apply (step : α → Parser (Option α)) (a : α) :
    loop step a c = iterate (c.bound + 1) step a c := rfl

theorem run_eq {d : Dialect} {c : Cursor} {sql : String} (loaded : Cursor.ofText d.toLexicon sql = .ok c)
    (p : Grammar → Parser α) : run d p sql = (p (grammarFor d c) c).map Prod.fst := by
  rw [run, loaded]
  rfl

variable {c} {c' : Cursor}

/-- A loop goes on with what its step made, if that took a token. -/
theorem iterate_some {step : α → Parser (Option α)} {a b : α} {fuel : Nat}
    (stepped : step a c = .ok (some b, c')) (shorter : c'.rest.length < c.rest.length) :
    iterate (fuel + 1) step a c = iterate fuel step b c' := by
  simp only [iterate, bind_apply, get_apply, stepped, ok_bind, shorter, if_true]

/-- A loop ends where its step has nothing to do. -/
theorem iterate_none {step : α → Parser (Option α)} {a : α} {fuel : Nat}
    (stepped : step a c = .ok (none, c')) : iterate (fuel + 1) step a c = .ok (a, c') := by
  simp only [iterate, bind_apply, get_apply, stepped, ok_bind, pure_apply]

/-! ### Success -/

theorem ok_of_any {ε γ : Type} {x : Except ε γ} {p : γ → Bool} (found : x.toOption.any p = true) :
    ∃ a, x = .ok a ∧ p a = true := by
  cases x with
  | error e => cases found
  | ok a => exact ⟨a, rfl, found⟩

theorem ok_of_bind {ε γ δ : Type} {x : Except ε γ} {f : γ → Except ε δ} {b : δ} (done : x.bind f = .ok b) :
    ∃ a, x = .ok a ∧ f a = .ok b := by
  cases x with
  | error e => cases done
  | ok a => exact ⟨a, rfl, done⟩

/-- A parser that succeeds has succeeded step by step. -/
theorem bind_eq_ok {p : Parser α} {f : α → Parser β} {b : β} (done : (p >>= f) c = .ok (b, c')) :
    ∃ a middle, p c = .ok (a, middle) ∧ f a middle = .ok (b, c') := by
  obtain ⟨⟨a, middle⟩, first, second⟩ := ok_of_bind done
  exact ⟨a, middle, first, second⟩

theorem iterate_keeps {step : α → Parser (Option α)} {holds : α → Prop}
    (kept : ∀ a b c c', holds a → step a c = .ok (some b, c') → holds b) {fuel : Nat} {a b : α} (initial : holds a)
    (done : iterate fuel step a c = .ok (b, c')) : holds b := by
  induction fuel generalizing a c with
  | zero => cases done
  | succ fuel ih =>
    obtain ⟨_, _, ⟨⟩, done⟩ := bind_eq_ok done
    obtain ⟨next, middle, stepped, rest⟩ := bind_eq_ok done
    cases next with
    | none =>
      cases rest
      exact initial
    | some next =>
      obtain ⟨_, _, ⟨⟩, rest⟩ := bind_eq_ok rest
      split at rest
      · exact ih (kept a next c middle initial stepped) rest
      · cases rest

theorem expressionStatement_ok {g : Grammar} {s : Statement} (done : expressionStatement g c = .ok (s, c')) :
    ∃ pos e, s = .expression pos e := by
  obtain ⟨first, _, _, rest⟩ := bind_eq_ok done
  split at rest
  · cases rest
  obtain ⟨e, _, _, rest⟩ := bind_eq_ok rest
  obtain ⟨t, _, _, rest⟩ := bind_eq_ok rest
  split at rest
  · cases rest
    exact ⟨first.pos, e, rfl⟩
  · split at rest <;> cases rest

end Parser

/-- Whether the tokens at hand start a query. -/
def Cursor.startsQuery (c : Cursor) : Bool :=
  c.current.is "SELECT" || c.current.is "WITH" ||
    (c.current.isOp "(" && (c.peek.is "SELECT" || c.peek.is "WITH" || c.peek.isOp "("))

open SqlDialects.Parser in
/-- A text that does not begin with a word for another statement is a query or an expression. -/
theorem Statement.parse_plain {d : Dialect} {sql : String} {c : Cursor} {s : Statement}
    (loaded : Cursor.ofText d.toLexicon sql = .ok c)
    (plain : ∀ w ∈ ["DROP", "EXPLAIN", "INSERT", "CREATE"], c.current.is w = false)
    (parsed : Statement.parse d sql = .ok s) :
    (∃ q next, s = .query q ∧ (grammarFor d c).query c = .ok (q, next)) ∨
      c.startsQuery = false ∧ ∃ pos e, s = .expression pos e := by
  rw [Statement.parse, run_eq loaded] at parsed
  obtain ⟨⟨s, last⟩, done, rfl⟩ : ∃ r, oneStatement d (grammarFor d c) c = .ok r ∧ r.1 = s := by
    cases outcome : oneStatement d (grammarFor d c) c with
    | error e => simp [outcome, Except.map] at parsed
    | ok r => exact ⟨r, rfl, by simpa [outcome, Except.map] using parsed⟩
  obtain ⟨read, middle, stated, rest⟩ := bind_eq_ok done
  obtain ⟨semicolon, after, _, rest⟩ := bind_eq_ok rest
  obtain ⟨ended, next, _, rest⟩ := bind_eq_ok rest
  obtain rfl : read = s := by
    cases ended <;> cases rest
    rfl
  simp only [statement, bind_apply, curIs_apply, ok_bind, plain "DROP" (by decide), plain "EXPLAIN" (by decide),
    Bool.false_eq_true, if_false, plainStatement, get_apply, plain "INSERT" (by decide),
    plain "CREATE" (by decide)] at stated
  split at stated
  · obtain ⟨q, next, queried, same⟩ := bind_eq_ok stated
    cases same
    exact .inl ⟨q, _, rfl, queried⟩
  · next noQuery => exact .inr ⟨Bool.eq_false_iff.mpr noQuery, expressionStatement_ok stated⟩

end SqlDialects
