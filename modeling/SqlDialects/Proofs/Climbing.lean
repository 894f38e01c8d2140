import SqlDialects.Proofs.OperatorTree

/-! How the parser climbs through a tree of the operator language, one lemma for each way to build
the tree. An expression is read by a loop that takes operators from left to right; what a lemma says
of the tokens of a tree is that they bring this loop to the state in which the tree is in hand. -/

namespace SqlDialects.Parser

open Token Cursor

variable {d : Dialect}

/-! ### Tokens after an operand -/

/-- How tightly the first of the tokens binds after an operand. -/
def tailPrec (d : Dialect) : List Token → Nat
  | [] => Prec.lowest
  | t :: ts => infixPrecedence d { source := "", current := t, rest := ts }

theorem infixPrecedence_shows {c : Cursor} {ts : List Token} (shown : c.Shows ts) :
    infixPrecedence d c = tailPrec d ts := by
  subst shown
  have next : ({ source := "", current := c.current.bare, rest := c.rest.map bare } : Cursor).peek = c.peek.bare := by
    cases left : c.rest <;> simp [Cursor.peek, Cursor.ahead, left]
  simp only [tailPrec, infixPrecedence, next, infixOp?, isOp_bare, is_bare, isWord_bare, kind_bare,
    text_bare, upper_bare]
  rfl

/-- Tokens that end an operand: no part of a name, no arguments, no text and no body of a lambda follow. -/
def Continues (d : Dialect) (ts : List Token) : Prop := ∃ t rest, ts = t :: rest ∧ t.kind ≠ .number ∧ t.kind ≠ .string ∧
  (∀ op ∈ [".", "(", "["], t.isOp op = false) ∧ (d.lambdas && t.isOp "->") = false

/-! ### Reading -/

/-- One round of the loop over operators. -/
def round (d : Dialect) (g : Grammar) (level : Nat) (left : Expr) : Parser (Option Expr) := do
  let prec := infixPrecedence d (← get)
  if prec ≤ level then return none
  return some (← infixTail d g left prec)

theorem exprStep_apply (g : Grammar) (level : Nat) (c : Cursor) : exprStep d g level c =
    (operandStep d g c).bind fun r => iterate (r.2.bound + 1) (round d g level) r.1 r.2 := rfl

/-- The tokens are read as an operand when what follows binds at most as tightly as `high`. -/
def ReadsOperand (d : Dialect) (high : Nat) (e : Expr) (ts : List Token) : Prop :=
  ∀ (depth : Nat) (c : Cursor) (tail : List Token), ts.length ≤ depth → Continues d tail →
    tailPrec d tail ≤ high → c.Shows (ts ++ tail) →
    ∃ read next, operandStep d (grammar d depth) c = .ok (read, next) ∧ next.Shows tail ∧
      read.bare = e.bare

/-- The tokens lead an expression below the level `low` to the loop over operators with the tree in
hand. The operators of its left spine have been taken by that loop. -/
def Reads (d : Dialect) (low high : Nat) (e : Expr) (ts : List Token) : Prop :=
  ∀ (depth level : Nat) (c : Cursor) (tail : List Token), ts.length ≤ depth → level < low →
    Continues d tail → tailPrec d tail ≤ high → c.Shows (ts ++ tail) →
    ∃ fuel read next, exprStep d (grammar d depth) level c =
        iterate fuel (round d (grammar d depth) level) read next ∧
      next.Shows tail ∧ next.bound < fuel ∧ read.bare = e.bare

theorem ReadsOperand.reads {high : Nat} {e : Expr} {ts : List Token} (operand : ReadsOperand d high e ts)
    (low : Nat) : Reads d low high e ts := by
  intro depth level c tail enough _ continues binds shown
  obtain ⟨read, next, done, left, same⟩ := operand depth c tail enough continues binds shown
  exact ⟨next.bound + 1, read, next, by rw [exprStep_apply, done, ok_bind], left, by omega, same⟩

theorem Reads.mono {low high low' high' : Nat} {e : Expr} {ts : List Token} (reads : Reads d low high e ts)
    (below : low' ≤ low) (above : high' ≤ high) : Reads d low' high' e ts := by
  intro depth level c tail enough under continues binds shown
  exact reads depth level c tail enough (by omega) continues (by omega) shown

theorem Reads.ends {low high level : Nat} {e : Expr} {c : Cursor} {ts tail : List Token}
    (reads : Reads d low high e ts) (depth : Nat) (enough : ts.length ≤ depth) (under : level < low)
    (continues : Continues d tail) (binds : tailPrec d tail ≤ high) (stops : tailPrec d tail ≤ level)
    (shown : c.Shows (ts ++ tail)) :
    ∃ read next, exprStep d (grammar d depth) level c = .ok (read, next) ∧ next.Shows tail ∧
      read.bare = e.bare := by
  obtain ⟨fuel, read, next, done, left, bounded, same⟩ := reads depth level c tail enough under continues binds shown
  obtain ⟨fuel, rfl⟩ := Nat.exists_eq_succ_of_ne_zero (show fuel ≠ 0 by omega)
  refine ⟨read, next, ?_, left, same⟩
  rw [done]
  apply iterate_none
  simp only [round, bind_apply, get_apply, ok_bind, infixPrecedence_shows left, if_pos stops, pure_apply]

/-! ### Operands -/

theorem reads_number (pos : Position) (value : String) (high : Nat) :
    ReadsOperand d high (.literal pos .number value)
      [{ kind := .number, text := value, pos := {}, stop := 0 }] := by
  rintro depth c tail _ ⟨t, rest, rfl, _⟩ _ shown
  have current := shown.current
  have kind : c.current.kind = .number := congrArg Token.kind current
  have text : c.current.text = value := congrArg Token.text current
  refine ⟨.literal c.current.pos .number c.current.text, c.advance, ?_, shown.advance, by rw [text]; rfl⟩
  simp only [operandStep, bind_apply, current_apply, ok_bind, kind, advance_apply, pure_apply]

theorem reads_string (pos : Position) (value : String) (high : Nat) :
    ReadsOperand d high (.literal pos .string value)
      [{ kind := .string, text := value, pos := {}, stop := 0 }] := by
  rintro depth c tail _ ⟨t, rest, rfl, _⟩ _ shown
  have current := shown.current
  have kind : c.current.kind = .string := congrArg Token.kind current
  have text : c.current.text = value := congrArg Token.text current
  refine ⟨.literal c.current.pos .string c.current.text, c.advance, ?_, shown.advance, by rw [text]; rfl⟩
  simp only [operandStep, bind_apply, current_apply, ok_bind, kind, advance_apply, pure_apply]

/-- A word without arguments has no syntax of its own unless it is one of six keywords. -/
private theorem specialWord_none {g : Grammar} {c : Cursor}
    (ordinary : c.current.upper ∉ ["NULL", "TRUE", "FALSE", "NOT", "CASE", "INTERVAL"])
    (noCall : c.peek.isOp "(" = false) (noArray : c.peek.isOp "[" = false) :
    specialWord d g c = .ok (none, c) := by
  simp only [List.mem_cons, List.not_mem_nil, or_false, not_or] at ordinary
  obtain ⟨_, _, _, _, _, _⟩ := ordinary
  simp only [specialWord, bind_apply, get_apply, ok_bind, noCall, noArray, Bool.false_and, Bool.false_eq_true,
    Bool.not_false, if_true, if_false]
  refine congrFun (a := c) (g := (pure none : Parser (Option Expr))) ?_
  split <;> first | contradiction | rfl

/-- A name that is no call without parentheses begins a column, unless a call, an array, a text or a lambda follows. -/
theorem wordExpr_column {g : Grammar} {c : Cursor}
    (ordinary : c.current.upper ∉ ["NULL", "TRUE", "FALSE", "NOT", "CASE", "INTERVAL"])
    (name : isName d.toLexicon c.current = true) (niladic : d.niladic.find? c.current.upper = none)
    (noString : c.peek.kind ≠ .string) (noOp : ∀ op ∈ ["(", "["], c.peek.isOp op = false)
    (noLambda : (d.lambdas && c.peek.isOp "->") = false) : wordExpr d g c = columnExpr d g c := by
  have noCall : c.peek.isOp "(" = false := noOp "(" (by decide)
  simp only [wordExpr, bind_apply, specialWord_none ordinary noCall (noOp "[" (by decide)), ok_bind, get_apply,
    noCall, Bool.false_eq_true, if_false, noString, niladic, noLambda, name, Bool.not_true, Bool.false_and]

theorem reads_column (regular : d.Regular) (pos : Position) {name : String} (plain : PlainWord d name) (high : Nat) :
    ReadsOperand d high (.column pos [⟨name, false⟩]) [word d.toLexicon name] := by
  rintro depth c tail _ ⟨t, rest, rfl, noNumber, noString, noOp, noArrow⟩ _ shown
  have current := shown.current
  have peeked := shown.peek
  have kind : c.current.kind = .word := by
    have held := congrArg Token.kind current
    simpa [word, plain.keyword] using held
  have text : c.current.text = name := congrArg Token.text current
  have upper : c.current.upper = Text.upper name := congrArg Token.upper current
  have ordinary : c.current.upper ∉ ["NULL", "TRUE", "FALSE", "NOT", "CASE", "INTERVAL"] := by
    intro member
    have known := regular.keywords c.current.upper (List.mem_append_left statementWords member)
    rw [upper, plain.keyword] at known
    cases known
  have named : columnExpr d (grammar d depth) c = .ok (.column c.current.pos [⟨name, false⟩], c.advance) := by
    have left : c.advance.Shows (t :: rest) := shown.advance
    have shape := left.current
    have ident : anyIdent c = .ok (⟨name, false⟩, c.advance) := by
      simp [anyIdent_apply, Token.isWord, Token.isQuoted, kind, text]
    have stop : pathStep ([⟨name, false⟩], false) c.advance = .ok (none, c.advance) := by
      have noDot : c.advance.current.isOp "." = false := by
        rw [← isOp_bare, shape]
        exact noOp "." (by decide)
      have notNumber : c.advance.current.kind ≠ .number := by
        rw [← kind_bare, shape]
        exact noNumber
      simp only [pathStep, bind_apply, acceptOp_apply, ok_bind, noDot, get_apply, notNumber, Bool.false_eq_true,
        if_false, decide_false, Bool.false_and, pure_apply]
    have noCall : c.advance.current.isOp "(" = false := by
      rw [← isOp_bare, shape]
      exact noOp "(" (by decide)
    simp only [columnExpr, bind_apply, position_apply, ok_bind, ident, loop_apply, iterate_none stop,
      List.reverse_singleton, Bool.false_eq_true, if_false, curOp_apply, noCall, Bool.false_and, pure_apply]
  have column : wordExpr d (grammar d depth) c = columnExpr d (grammar d depth) c := by
    refine wordExpr_column ordinary (by simp [Parser.isName, kind]) (upper ▸ plain.niladic) ?_ ?_ ?_
    · rw [← kind_bare, peeked]
      exact noString
    · intro op member
      rw [← isOp_bare, peeked]
      exact noOp op (List.mem_cons_of_mem "." member)
    · rw [← isOp_bare, peeked, noArrow]
  refine ⟨.column c.current.pos [⟨name, false⟩], c.advance, ?_, shown.advance, by simp [Expr.bare]⟩
  simp only [operandStep, bind_apply, current_apply, ok_bind, kind, column]
  exact named

/-! ### Lists and parentheses -/

/-- Expressions with a comma before each of them. -/
inductive Listed (d : Dialect) : List Expr → List Token → Prop
  | nil : Listed d [] []
  | cons {e : Expr} {es : List Expr} {ts us : List Token} (reads : Reads d 1 0 e ts) (rest : Listed d es us) :
    Listed d (e :: es) (punctuation "," :: (ts ++ us))

/-- One round of a list: a comma and an item. -/
def commaStep {α : Type} (item : Parser α) (items : List α) : Parser (Option (List α)) := do
  if ← acceptOp "," then return some ((← item) :: items) else return none

theorem commaList_apply {α : Type} (item : Parser α) (c : Cursor) : commaList item c =
    ((item c).bind fun r => iterate (r.2.bound + 1) (commaStep item) [r.1] r.2).bind fun r =>
      .ok (r.1.reverse, r.2) := by
  simp only [commaList, bind_apply]
  cases item c <;> rfl

private theorem continues_punctuation {mark : String} (known : mark ∈ [",", ")"]) (rest : List Token) :
    Continues d (punctuation mark :: rest) := by
  refine ⟨_, _, rfl, by simp [punctuation], by simp [punctuation], ?_⟩
  simp only [List.mem_cons, List.not_mem_nil, or_false] at known
  obtain rfl | rfl := known <;> exact ⟨by decide, Bool.and_eq_false_iff.mpr (.inr (by decide))⟩

private theorem tailPrec_punctuation {mark : String} (known : mark ∈ [",", ")"]) (rest : List Token) :
    tailPrec d (punctuation mark :: rest) = 0 := by
  simp only [List.mem_cons, List.not_mem_nil, or_false] at known
  obtain rfl | rfl := known <;> rfl

private theorem Reads.ends_item {e : Expr} {c : Cursor} {ts tail : List Token} {mark : String}
    (reads : Reads d 1 0 e ts) (depth : Nat) (enough : ts.length ≤ depth) (known : mark ∈ [",", ")"])
    (shown : c.Shows (ts ++ punctuation mark :: tail)) :
    ∃ read next, exprStep d (grammar d depth) 0 c = .ok (read, next) ∧
      next.Shows (punctuation mark :: tail) ∧ read.bare = e.bare := by
  have binds : tailPrec d (punctuation mark :: tail) ≤ 0 := Nat.le_of_eq (tailPrec_punctuation known tail)
  exact reads.ends depth enough (by decide) (continues_punctuation known tail) binds binds shown

/-- A comma or the closing parenthesis follows every item. -/
private theorem Listed.next {es : List Expr} {us : List Token} (listed : Listed d es us) (tail : List Token) :
    ∃ mark rest, mark ∈ [",", ")"] ∧ us ++ punctuation ")" :: tail = punctuation mark :: rest := by
  cases listed with
  | nil => exact ⟨")", tail, by decide, rfl⟩
  | cons reads rest => exact ⟨",", _, by decide, rfl⟩

/-- The rest of a list ends where no comma follows. The items may be read in any way that agrees with the reading of
expressions at these tokens. -/
private theorem Listed.loop {es : List Expr} {us : List Token} (listed : Listed d es us) (depth : Nat)
    (enough : us.length ≤ depth) {item : Parser Expr}
    (agrees : ∀ c : Cursor, c.current.bare ∈ us ++ [punctuation ")"] → item c = exprStep d (grammar d depth) 0 c)
    (tail : List Token) {c : Cursor} (shown : c.Shows (us ++ punctuation ")" :: tail))
    (fuel : Nat) (bounded : us.length < fuel) (seen : List Expr) :
    ∃ list next, iterate fuel (commaStep item) seen c = .ok (list.reverse ++ seen, next) ∧
      next.Shows (punctuation ")" :: tail) ∧ bareExprs list = bareExprs es := by
  obtain ⟨fuel, rfl⟩ := Nat.exists_eq_succ_of_ne_zero (show fuel ≠ 0 by omega)
  induction listed generalizing c fuel seen with
  | nil =>
    have noComma : c.current.isOp "," = false := by rw [← isOp_bare, shown.current]; decide
    refine ⟨[], c, ?_, shown, rfl⟩
    apply iterate_none
    simp only [commaStep, bind_apply, acceptOp_apply, ok_bind, noComma, Bool.false_eq_true, if_false, pure_apply]
  | @cons e es ts us reads rest ih =>
    simp only [List.length_append, List.length_cons] at enough bounded
    obtain ⟨fuel, rfl⟩ := Nat.exists_eq_succ_of_ne_zero (show fuel ≠ 0 by omega)
    have comma : c.current.isOp "," = true := by rw [← isOp_bare, shown.current]; decide
    have start : c.advance.Shows (ts ++ us ++ [punctuation ")"] ++ tail) := by simpa using shown.advance' (by simp)
    have same := agrees c.advance (List.mem_cons_of_mem (punctuation ",") (start.mem_front (by simp)))
    have atItem : c.advance.Shows (ts ++ (us ++ punctuation ")" :: tail)) := by simpa using start
    obtain ⟨mark, follow, known, next⟩ := rest.next tail
    rw [next] at atItem
    obtain ⟨read, after, done, left, equal⟩ := reads.ends_item depth (by omega) known atItem
    rw [← next] at left
    have later (c : Cursor) (member : c.current.bare ∈ us ++ [punctuation ")"]) :
        item c = exprStep d (grammar d depth) 0 c := by
      apply agrees
      rw [List.cons_append, List.append_assoc]
      exact List.mem_cons_of_mem _ (List.mem_append_right ts member)
    obtain ⟨list, last, finished, shut, equals⟩ := ih (by omega) later left (read :: seen) fuel (by omega)
    refine ⟨read :: list, last, ?_, shut, by simp [bareExprs, equal, equals]⟩
    rw [List.reverse_cons, List.append_assoc, List.singleton_append, ← finished]
    refine iterate_some ?_ (shown.shorter left (by grind))
    simp only [commaStep, bind_apply, acceptOp_apply, ok_bind, comma, if_true, same, done, pure_apply]

/-- A list is read up to the parenthesis that closes it, by any reader of items that agrees with the reading of
expressions at its tokens. -/
theorem Reads.items {e : Expr} {es : List Expr} {ts us : List Token} (reads : Reads d 1 0 e ts)
    (listed : Listed d es us) (depth : Nat) (enough : (ts ++ us).length ≤ depth) {item : Parser Expr}
    (agrees : ∀ c : Cursor, c.current.bare ∈ ts ++ us ++ [punctuation ")"] → item c = exprStep d (grammar d depth) 0 c)
    (tail : List Token) {c : Cursor} (shown : c.Shows (ts ++ us ++ punctuation ")" :: tail)) :
    ∃ list next, commaList item c = .ok (list, next) ∧
      next.Shows (punctuation ")" :: tail) ∧ bareExprs list = bareExprs (e :: es) := by
  rw [List.length_append] at enough
  have start : c.Shows (ts ++ us ++ [punctuation ")"] ++ tail) := by simpa using shown
  have same := agrees c (start.mem_front (by simp))
  obtain ⟨mark, follow, known, next⟩ := listed.next tail
  rw [List.append_assoc, next] at shown
  obtain ⟨read, after, done, left, equal⟩ := reads.ends_item depth (by omega) known shown
  rw [← next] at left
  have bounded : us.length < after.bound + 1 := by
    rw [left.bound_eq, List.length_append]
    omega
  have later (c : Cursor) (member : c.current.bare ∈ us ++ [punctuation ")"]) :
      item c = exprStep d (grammar d depth) 0 c := by
    apply agrees
    rw [List.append_assoc]
    exact List.mem_append_right ts member
  obtain ⟨list, last, finished, shut, equals⟩ :=
    listed.loop depth (by omega) later tail left (after.bound + 1) bounded [read]
  refine ⟨read :: list, last, ?_, shut, by simp [bareExprs, equal, equals]⟩
  simp only [commaList_apply, same, done, ok_bind, finished]
  simp

theorem Reads.values {e : Expr} {es : List Expr} {ts us : List Token} (reads : Reads d 1 0 e ts)
    (listed : Listed d es us) (depth : Nat) (enough : (ts ++ us).length ≤ depth) (tail : List Token) {c : Cursor}
    (shown : c.Shows (ts ++ us ++ punctuation ")" :: tail)) :
    ∃ list next, (grammar d (depth + 1)).values c = .ok (list, next) ∧
      next.Shows (punctuation ")" :: tail) ∧ bareExprs list = bareExprs (e :: es) :=
  reads.items listed depth enough (fun _ _ => rfl) tail shown

/-- The first two tokens of an expression. They tell a parenthesis from a subquery and a lambda. -/
def Headed (ts : List Token) : Prop :=
  ∃ t rest, ts = t :: rest ∧ (t.Ordinary) ∧
    (∀ mark ∈ [",", ")"], t.isOp mark = false) ∧ ∀ u ∈ rest.head?, ∀ mark ∈ [",", ")"], u.isOp mark = false

theorem startsLambda_bare (ts : List Token) : startsLambda (ts.map bare) = startsLambda ts := by
  fun_induction startsLambda ts with
  | case1 t sep rest named close =>
    cases rest <;> simp_all [startsLambda]
  | case2 t sep rest named close comma ih => simp_all [startsLambda]
  | case3 t sep rest named close comma => simp_all [startsLambda]
  | case4 t sep rest named => simp_all [startsLambda]
  | case5 ts few =>
    match ts with
    | [] | [_] => rfl
    | t :: sep :: rest => exact absurd rfl (few t sep rest)

theorem Headed.noLambda {ts : List Token} (headed : Headed ts) (several : 2 ≤ ts.length) (tail : List Token) :
    startsLambda (ts ++ tail) = false := by
  obtain ⟨t, rest, rfl, _, _, second⟩ := headed
  cases rest with
  | nil => simp at several
  | cons u rest =>
    have noClose := second u rfl ")" (by decide)
    have noComma := second u rfl "," (by decide)
    simp [startsLambda, noClose, noComma]

/-- Parentheses around an expression leave no trace in the tree. -/
theorem Reads.paren {e : Expr} {ts : List Token} (reads : Reads d 1 0 e ts) (headed : Headed ts)
    (several : 2 ≤ ts.length) (high : Nat) :
    ReadsOperand d high e (punctuation "(" :: (ts ++ [punctuation ")"])) := by
  intro depth c tail enough continues binds shown
  simp only [List.length_cons, List.length_append, List.length_nil] at enough
  obtain ⟨depth, rfl⟩ := Nat.exists_eq_succ_of_ne_zero (show depth ≠ 0 by omega)
  have opened : c.current.bare = punctuation "(" := shown.current
  have inside : c.advance.Shows (ts ++ [] ++ punctuation ")" :: tail) := by
    simpa using shown.advance' (by simp)
  have lambda : startsLambda c.rest = false := by
    have rest : c.rest.map bare = ts ++ ([punctuation ")"] ++ tail) := by
      simpa using (List.cons.inj shown).2
    rw [← startsLambda_bare, rest]
    exact headed.noLambda several _
  have noQuery (w : String) (member : w ∈ statementWords) : c.peek.is w = false := by
    obtain ⟨t, rest, rfl, words, _⟩ := headed
    rw [← is_bare, shown.peek]
    exact words w member
  obtain ⟨list, last, done, shut, equal⟩ := reads.values .nil depth (by simp; omega) tail inside
  obtain ⟨read, rfl, same⟩ : ∃ read, list = [read] ∧ read.bare = e.bare := by
    match list with
    | [] | _ :: _ :: _ => simp [bareExprs] at equal
    | [read] => exact ⟨read, rfl, by simpa [bareExprs] using equal⟩
  have nonempty : tail ≠ [] := by
    obtain ⟨t, rest, rfl, _⟩ := continues
    simp
  have close : last.current.isOp ")" = true := by rw [← isOp_bare, shut.current]; decide
  refine ⟨read, last.advance, ?_, shut.advance' nonempty, same⟩
  have isOpen : c.current.isOp "(" = true := by rw [← isOp_bare, opened]; decide
  have kind : c.current.kind = .punctuation := congrArg Token.kind opened
  have noWords : (c.peek.is "SELECT" || c.peek.is "WITH") = false := by
    rw [noQuery "SELECT" (by decide), noQuery "WITH" (by decide)]
    rfl
  simp only [operandStep, bind_apply, current_apply, ok_bind, kind, isOpen, if_true, parenthesized, position_apply,
    get_apply, advance_apply, noWords, lambda, Bool.and_false, Bool.false_eq_true, if_false, done, expectOp_apply,
    close, pure_apply]

/-! ### Prefix operators -/

theorem upper_words :
    ∀ w ∈ ["IN", "BETWEEN", "IS", "NOT", "AND", "NULL", "TRUE", "FALSE"], Text.upper w = w := by
  intro w member
  apply Text.upper_eq
  revert w
  decide

/-- `NOT` takes all that binds tighter. -/
theorem Reads.negation {e : Expr} {ts : List Token} (reads : Reads d (Prec.negation + 1) Prec.negation e ts)
    (pos : Position) (value : ∀ at' query negated, e.bare ≠ .existsQuery at' query negated) :
    ReadsOperand d Prec.negation (.unary pos "NOT" e) (word d.toLexicon "NOT" :: ts) := by
  intro depth c tail enough continues binds shown
  simp only [List.length_cons] at enough
  obtain ⟨depth, rfl⟩ := Nat.exists_eq_succ_of_ne_zero (show depth ≠ 0 by omega)
  have current : c.current.bare = word d.toLexicon "NOT" := shown.current
  have upper : c.current.upper = "NOT" := by
    rw [← upper_bare, current, upper_word, upper_words "NOT" (by decide)]
  have nonempty : ts ++ tail ≠ [] := by
    obtain ⟨t, rest, rfl, _⟩ := continues
    simp
  obtain ⟨read, next, done, left, same⟩ :=
    reads.ends depth (by omega) (Nat.lt_succ_self _) continues binds binds (shown.advance' nonempty)
  refine ⟨.unary c.current.pos "NOT" read, next, ?_, left, by simp [Expr.bare, same]⟩
  have negated : Parser.negation (grammar d (depth + 1)) c.current.pos c.advance =
      .ok (.unary c.current.pos "NOT" read, next) := by
    simp only [Parser.negation, bind_apply]
    change (exprStep d (grammar d depth) Prec.negation c.advance).bind _ = _
    rw [done, ok_bind]
    cases read
    case existsQuery at' query negated => exact absurd same.symm (value _ _ _)
    all_goals rfl
  have special : specialWord d (grammar d (depth + 1)) c = .ok (some (.unary c.current.pos "NOT" read), next) := by
    simp only [specialWord, bind_apply, get_apply, ok_bind, upper, advance_apply, map_apply, negated]
  have kind : c.current.kind = .word ∨ c.current.kind = .keyword := by
    have isWord : c.current.isWord = true := by rw [← isWord_bare, current, isWord_word]
    simpa [Token.isWord, or_comm] using isWord
  obtain kind | kind := kind <;>
    simp only [operandStep, bind_apply, current_apply, ok_bind, kind, wordExpr, special, pure_apply]

/-- A sign takes all that binds tighter. -/
theorem Reads.sign {mark : String} (known : mark ∈ ["-", "+"]) {e : Expr} {ts : List Token}
    (reads : Reads d (Prec.sign + 1) Prec.sign e ts) (pos : Position) :
    ReadsOperand d Prec.sign (if mark = "-" then .unary pos "-" e else e) (operator mark :: ts) := by
  intro depth c tail enough continues binds shown
  simp only [List.length_cons] at enough
  obtain ⟨depth, rfl⟩ := Nat.exists_eq_succ_of_ne_zero (show depth ≠ 0 by omega)
  have current : c.current.bare = operator mark := shown.current
  have isOp (op : String) : c.current.isOp op = (operator mark).isOp op := by rw [← isOp_bare, current]
  have kind : c.current.kind = .operator := congrArg Token.kind current
  have nonempty : ts ++ tail ≠ [] := by
    obtain ⟨t, rest, rfl, _⟩ := continues
    simp
  obtain ⟨read, next, done, left, same⟩ :=
    reads.ends depth (by omega) (Nat.lt_succ_self _) continues binds binds (shown.advance' nonempty)
  have entered (e : Parser Expr) (expr : (grammar d (depth + 1)).expr Prec.sign = e) :
      operandStep d (grammar d (depth + 1)) c =
        (e c.advance).bind fun r => .ok (if mark = "-" then .unary c.current.pos "-" r.1 else r.1, r.2) := by
    have others : ∀ mark ∈ ["-", "+"], ∀ op ∈ ["(", "[", "\x7b"], (operator mark).isOp op = false := by decide
    have others := others mark known
    have minus : (operator "-").isOp "-" = true := by decide
    have plus : (operator "+").isOp "-" = false ∧ (operator "+").isOp "+" = true := by decide
    simp only [operandStep, bind_apply, current_apply, ok_bind, kind, isOp, others "(" (by decide),
      others "[" (by decide),
      others "\x7b" (by decide), Bool.false_eq_true, if_false, expr]
    simp only [List.mem_cons, List.not_mem_nil, or_false] at known
    obtain rfl | rfl := known
    · simp only [minus, if_true, bind_apply, advance_apply, ok_bind]
      rfl
    · simp only [plus, Bool.false_eq_true, if_false, if_true, bind_apply, advance_apply, ok_bind]
      cases e c.advance <;> rfl
  refine ⟨if mark = "-" then .unary c.current.pos "-" read else read, next, ?_, left, ?_⟩
  · rw [entered _ rfl]
    change (exprStep d (grammar d depth) Prec.sign c.advance).bind _ = _
    rw [done]
    rfl
  · split <;> simp [Expr.bare, same]

/-! ### What follows an operand -/

/-- The tokens bind at level `prec` and turn the operand `first` in hand into `e`, when what follows binds at most as
tightly as `high`. -/
structure Extends (d : Dialect) (prec high : Nat) (first e : Expr) (us : List Token) : Prop where
  binds : ∀ tail, tailPrec d (us ++ tail) = prec
  continues : ∀ tail, Continues d (us ++ tail)
  reads : ∀ (depth : Nat) (c : Cursor) (tail : List Token) (left : Expr), us.length ≤ depth → Continues d tail →
    tailPrec d tail ≤ high → c.Shows (us ++ tail) → left.bare = first.bare →
    ∃ read next, infixTail d (grammar d depth) left prec c = .ok (read, next) ∧ next.Shows tail ∧
      read.bare = e.bare

/-- The loop takes an operator that binds tighter than its level. -/
theorem Reads.extend {low high prec last : Nat} {first e : Expr} {ts us : List Token}
    (reads : Reads d low high first ts)
    (extends' : Extends d prec last first e us) (below : prec ≤ low) (above : prec ≤ high) :
    Reads d prec last e (ts ++ us) := by
  intro depth level c tail enough under continues binds shown
  rw [List.length_append] at enough
  rw [List.append_assoc] at shown
  have headed : tailPrec d (us ++ tail) = prec := extends'.binds tail
  obtain ⟨fuel, left, middle, done, ready, bounded, same⟩ :=
    reads depth level c (us ++ tail) (by omega) (by omega) (extends'.continues tail) (by omega) shown
  obtain ⟨read, next, taken, after, equal⟩ :=
    extends'.reads depth middle tail left (by omega) continues binds ready same
  obtain ⟨fuel, rfl⟩ := Nat.exists_eq_succ_of_ne_zero (show fuel ≠ 0 by omega)
  have nonempty : us.length ≠ 0 := by
    intro empty
    have nothing := extends'.continues []
    simp [List.length_eq_zero_iff.mp empty, Continues] at nothing
  have shorter : next.rest.length < middle.rest.length := ready.shorter after (by grind)
  refine ⟨fuel, read, next, ?_, after, ?_, equal⟩
  · rw [done]
    refine iterate_some ?_ shorter
    have prec_eq : infixPrecedence d middle = prec := by rw [infixPrecedence_shows ready, headed]
    simp only [round, bind_apply, get_apply, ok_bind, prec_eq, if_neg (Nat.not_le.mpr under), taken, pure_apply]
  · rw [Cursor.bound] at bounded ⊢
    omega

/-- The tokens of `NOT` where it is asked for. -/
def maybeNot (d : Dialect) (negated : Bool) : List Token := if negated then [word d.toLexicon "NOT"] else []

/-- A binary operator takes a right operand that binds tighter. -/
theorem Reads.binary {op : String} {t : Token} {right : Expr} {ts : List Token} (keeps : d.Keeps op)
    (joins : Joins d op t) (pos : Position) (left : Expr)
    (reads : Reads d (binaryPrec op + 1) (binaryPrec op) right ts) :
    Extends d (binaryPrec op) (binaryPrec op) left (.binary pos op left right) (t :: ts) := by
  have noWord (w : String) (member : w ∈ ["NOT", "IS", "IN", "BETWEEN", "GLOBAL"] ++ statementWords) :
      t.is w = false := joins.words w member
  have noMark (mark : String) (member : mark ∈ [".", "(", "[", "->", "::", ",", ")"]) : t.isOp mark = false :=
    joins.marks mark member
  have readOp : infixOp? d t = some { prec := binaryPrec op, op } := joins.read.trans keeps
  refine ⟨?_, ?_, ?_⟩
  · intro tail
    simp [tailPrec, infixPrecedence, noMark "[" (by decide), noMark "::" (by decide), noWord "NOT" (by decide),
      noWord "IS" (by decide), noWord "IN" (by decide), noWord "BETWEEN" (by decide),
      noWord "GLOBAL" (by decide), readOp]
  · intro tail
    refine ⟨t, ts ++ tail, rfl, ?_, ?_, ?_, by rw [noMark "->" (by decide), Bool.and_false]⟩
    · intro isNumber
      obtain isOperator | isWord := joins.kind
      · simp [isOperator] at isNumber
      · simp [Token.isWord, isNumber] at isWord
    · intro isString
      obtain isOperator | isWord := joins.kind
      · simp [isOperator] at isString
      · simp [Token.isWord, isString] at isWord
    · intro mark member
      exact noMark mark (List.mem_append_left ["->", "::", ",", ")"] member)
  · intro depth c tail first enough continues binds shown same
    simp only [List.length_cons] at enough
    obtain ⟨depth, rfl⟩ := Nat.exists_eq_succ_of_ne_zero (show depth ≠ 0 by omega)
    have current : c.current.bare = t := shown.current
    have nonempty : ts ++ tail ≠ [] := by
      obtain ⟨t, rest, rfl, _⟩ := continues
      simp
    obtain ⟨read, next, done, after, equal⟩ :=
      reads.ends depth (by omega) (Nat.lt_succ_self _) continues binds binds (shown.advance' nonempty)
    refine ⟨.binary c.current.pos op first read, next, ?_, after, by simp [Expr.bare, same, equal]⟩
    have is (w : String) : c.current.is w = t.is w := by rw [← is_bare, current]
    have isOp (mark : String) : c.current.isOp mark = t.isOp mark := by rw [← isOp_bare, current]
    have op_eq : infixOp? d c.current = some { prec := binaryPrec op, op } := by
      rw [← readOp, ← current]
      rfl
    simp only [infixTail, bind_apply, accept_apply, ok_bind, is, noWord "GLOBAL" (by decide),
      Bool.false_eq_true, if_false,
      position_apply, acceptOp_apply, isOp, noMark "[" (by decide), noMark "::" (by decide), curIs_apply,
      noWord "IS" (by decide), noWord "NOT" (by decide), curAny_apply, List.any_cons, List.any_nil,
      noWord "IN" (by decide), noWord "BETWEEN" (by decide), Bool.or_false, current_apply, op_eq, Option.getD_some,
      advance_apply]
    change ((exprStep d (grammar d depth) (binaryPrec op) c.advance).bind _) = _
    rw [done]
    rfl

private theorem is_upper {c : Cursor} {w : String} (known : Text.upper w = w)
    (current : c.current.bare = word d.toLexicon w)
    (other : String) : c.current.is other = (w == other) := by
  rw [← is_bare, current, is_word, known]

private theorem isOp_word' {c : Cursor} {w : String} (current : c.current.bare = word d.toLexicon w)
    (mark : String) : c.current.isOp mark = false := by
  rw [← isOp_bare, current, isOp_word]

private theorem continues_word (w : String) (rest : List Token) : Continues d (word d.toLexicon w :: rest) := by
  have isWord := isWord_word d.toLexicon w
  refine ⟨_, _, rfl, ?_, ?_, fun mark _ => isOp_word .., by rw [isOp_word, Bool.and_false]⟩
  · intro isNumber
    simp [Token.isWord, isNumber] at isWord
  · intro isString
    simp [Token.isWord, isString] at isWord

private theorem tailPrec_negatable {w : String} (known : w ∈ ["IN", "BETWEEN"]) (negated : Bool) (rest : List Token) :
    tailPrec d (maybeNot d negated ++ word d.toLexicon w :: rest) = Prec.comparison := by
  have upper : Text.upper w = w := upper_words w (List.mem_append_left _ known)
  have upperNot := upper_words "NOT" (by decide)
  simp only [List.mem_cons, List.not_mem_nil, or_false] at known
  obtain rfl | rfl := known <;> cases negated <;>
    simp [maybeNot, tailPrec, infixPrecedence, isOp_word, is_word, upper, upperNot, Cursor.peek,
      Cursor.ahead, negatable]

/-- `IN` and `BETWEEN` are read alike, with and without `NOT`. -/
private theorem infixTail_negatable {w : String} (known : w ∈ ["IN", "BETWEEN"]) {negated : Bool} {c : Cursor}
    {rest : List Token} (shown : c.Shows (maybeNot d negated ++ word d.toLexicon w :: rest))
      (g : Grammar) (left : Expr) :
    ∃ pos next, infixTail d g left Prec.comparison c = negatableTail d g left pos negated next ∧
      next.Shows (word d.toLexicon w :: rest) := by
  have upper : Text.upper w = w := upper_words w (List.mem_append_left _ known)
  have upperNot := upper_words "NOT" (by decide)
  cases negated with
  | true =>
    have current : c.current.bare = word d.toLexicon "NOT" := shown.current
    refine ⟨c.current.pos, c.advance, ?_, shown.advance⟩
    simp [infixTail, bind_apply, accept_apply, ok_bind, is_upper upperNot current, position_apply,
      acceptOp_apply, isOp_word' current, curIs_apply]
  | false =>
    have current : c.current.bare = word d.toLexicon w := shown.current
    refine ⟨c.current.pos, c, ?_, shown⟩
    simp only [List.mem_cons, List.not_mem_nil, or_false] at known
    obtain rfl | rfl := known <;>
      simp [infixTail, bind_apply, accept_apply, ok_bind, is_upper upper current, position_apply, acceptOp_apply,
        isOp_word' current, curIs_apply, curAny_apply]

private theorem tailPrec_and (keeps : d.Keeps "AND") (rest : List Token) :
    tailPrec d (word d.toLexicon "AND" :: rest) = Prec.conjunction := by
  have upper := upper_words "AND" (by decide)
  have read : infixOp? d (word d.toLexicon "AND") = some { prec := binaryPrec "AND", op := "AND" } := by
    rw [infixOp?, if_neg (kind_word d.toLexicon "AND"), if_pos (isWord_word ..), upper_word, upper]
    exact keeps
  simp [tailPrec, infixPrecedence, isOp_word, is_word, upper, read, binaryPrec]

/-- `BETWEEN` takes one `AND` for itself. -/
theorem Reads.between {low high : Expr} {ts us : List Token} (keeps : d.Keeps "AND") (pos : Position)
    (operand : Expr) (negated : Bool) (least : Reads d (Prec.comparison + 1) Prec.comparison low ts)
    (most : Reads d (Prec.comparison + 1) Prec.comparison high us) :
    Extends d Prec.comparison Prec.comparison operand (.between pos operand low high negated)
      (maybeNot d negated ++ word d.toLexicon "BETWEEN" :: (ts ++ word d.toLexicon "AND" :: us)) := by
  refine ⟨?_, ?_, ?_⟩
  · intro tail
    rw [List.append_assoc, List.cons_append]
    exact tailPrec_negatable (by decide) negated _
  · intro tail
    cases negated <;> exact continues_word ..
  · intro depth c tail left enough continues binds shown same
    simp only [List.length_append, List.length_cons] at enough
    obtain ⟨depth, rfl⟩ := Nat.exists_eq_succ_of_ne_zero (show depth ≠ 0 by omega)
    rw [List.append_assoc, List.cons_append, List.append_assoc, List.cons_append] at shown
    obtain ⟨place, start, entered, ready⟩ := infixTail_negatable (by decide) shown (grammar d (depth + 1)) left
    have between : start.current.bare = word d.toLexicon "BETWEEN" := ready.current
    have andBinds : tailPrec d (word d.toLexicon "AND" :: (us ++ tail)) ≤ Prec.comparison := by
      rw [tailPrec_and keeps]
      decide
    obtain ⟨first, middle, firstDone, atAnd, firstSame⟩ :=
      least.ends depth (by omega) (Nat.lt_succ_self _) (continues_word ..) andBinds andBinds
        (ready.advance' (by simp))
    have and : middle.current.bare = word d.toLexicon "AND" := atAnd.current
    have nonempty : us ++ tail ≠ [] := by
      obtain ⟨t, rest, rfl, _⟩ := continues
      simp
    obtain ⟨second, last, secondDone, after, secondSame⟩ :=
      most.ends depth (by omega) (Nat.lt_succ_self _) continues binds binds (atAnd.advance' nonempty)
    refine ⟨.between place left first second negated, last, ?_, after, by simp [Expr.bare, same, firstSame, secondSame]⟩
    rw [entered]
    simp only [negatableTail, bind_apply, accept_apply, ok_bind, is_upper (upper_words "BETWEEN" (by decide)) between,
      String.reduceBEq, Bool.false_eq_true, if_false, if_true]
    change ((exprStep d (grammar d depth) Prec.comparison start.advance).bind _) = _
    simp only [firstDone, ok_bind, expect_apply, is_upper (upper_words "AND" (by decide)) and, BEq.rfl,
      if_true]
    change ((exprStep d (grammar d depth) Prec.comparison middle.advance).bind _) = _
    rw [secondDone]
    rfl

/-- `IN` takes a list in parentheses. -/
theorem Reads.inList {e : Expr} {es : List Expr} {ts us : List Token}
    (reads : Reads d 1 0 e ts) (listed : Listed d es us)
    (headed : Headed ts) (pos : Position) (operand : Expr) (negated : Bool) :
    Extends d Prec.comparison Prec.comparison operand (.inList pos operand (e :: es) negated)
      (maybeNot d negated ++ word d.toLexicon "IN" :: punctuation "(" :: (ts ++ us ++ [punctuation ")"])) := by
  refine ⟨?_, ?_, ?_⟩
  · intro tail
    rw [List.append_assoc, List.cons_append]
    exact tailPrec_negatable (by decide) negated _
  · intro tail
    cases negated <;> exact continues_word ..
  · intro depth c tail left enough continues binds shown same
    simp only [List.length_append, List.length_cons, List.length_nil] at enough
    obtain ⟨depth, rfl⟩ := Nat.exists_eq_succ_of_ne_zero (show depth ≠ 0 by omega)
    rw [List.append_assoc, List.cons_append, List.cons_append, List.append_assoc (ts ++ us)] at shown
    obtain ⟨place, start, entered, ready⟩ := infixTail_negatable (by decide) shown (grammar d (depth + 1)) left
    have isIn : start.current.bare = word d.toLexicon "IN" := ready.current
    have atOpen := ready.advance
    have isOpen : start.advance.current.isOp "(" = true := by rw [← isOp_bare, atOpen.current]; decide
    have inside : start.advance.advance.Shows (ts ++ us ++ punctuation ")" :: tail) := atOpen.advance' (by simp)
    obtain ⟨list, last, done, shut, equal⟩ := reads.values listed depth (by simp; omega) tail inside
    have noQuery (w : String) (member : w ∈ statementWords) : start.advance.advance.current.is w = false := by
      obtain ⟨t, rest, rfl, words, _⟩ := headed
      rw [← is_bare, Shows.current inside]
      exact words w member
    have close : last.current.isOp ")" = true := by rw [← isOp_bare, shut.current]; decide
    have nonempty : tail ≠ [] := by
      obtain ⟨t, rest, rfl, _⟩ := continues
      simp
    refine ⟨.inList place left list negated, last.advance, ?_, shut.advance' nonempty, by simp [Expr.bare, same, equal]⟩
    rw [entered]
    simp only [negatableTail, bind_apply, accept_apply, ok_bind, is_upper (upper_words "IN" (by decide)) isIn,
      BEq.rfl, if_true, expectOp_apply, isOpen, curAny_apply, List.any_cons, List.any_nil,
      noQuery "SELECT" (by decide), noQuery "WITH" (by decide), Bool.or_false, Bool.false_eq_true,
      if_false, done, close,
      pure_apply]

/-- `IS` takes one of three words. -/
theorem extends_isValue {value : String} (known : value ∈ ["NULL", "TRUE", "FALSE"]) (pos : Position) (operand : Expr)
    (negated : Bool) :
    Extends d Prec.comparison Prec.comparison operand (.isValue pos operand negated value)
      (word d.toLexicon "IS" :: (maybeNot d negated ++ [word d.toLexicon value])) := by
  have upperIs := upper_words "IS" (by decide)
  have upper : Text.upper value = value := upper_words value
    (List.mem_append_right ["IN", "BETWEEN", "IS", "NOT", "AND"] known)
  refine ⟨?_, fun tail => continues_word .., ?_⟩
  · intro tail
    simp [tailPrec, infixPrecedence, isOp_word, is_word, upperIs]
  · intro depth c tail left _ continues _ shown same
    have current : c.current.bare = word d.toLexicon "IS" := shown.current
    have nonempty : tail ≠ [] := by
      obtain ⟨t, rest, rfl, _⟩ := continues
      simp
    obtain ⟨next, accepted, atValue⟩ : ∃ next, accept "NOT" c.advance = .ok (negated, next) ∧
        next.Shows (word d.toLexicon value :: tail) := by
      cases negated with
      | true =>
        have after : c.advance.Shows (word d.toLexicon "NOT" :: word d.toLexicon value :: tail) := shown.advance
        refine ⟨c.advance.advance, ?_, after.advance⟩
        rw [accept_apply, is_upper (upper_words "NOT" (by decide)) after.current]
        rfl
      | false =>
        have after : c.advance.Shows (word d.toLexicon value :: tail) := shown.advance
        refine ⟨c.advance, ?_, after⟩
        have different : (value == "NOT") = false := by
          rw [beq_eq_false_iff_ne]
          rintro rfl
          exact absurd known (by decide)
        rw [accept_apply, is_upper upper after.current, different]
        rfl
    have atWord : next.current.bare = word d.toLexicon value := atValue.current
    have value_eq : next.current.upper = value := by rw [← upper_bare, atWord, upper_word, upper]
    have noGlobal : accept "GLOBAL" c = .ok (false, c) := by
      simp [accept_apply, is_upper upperIs current]
    have isTail_eq : isTail (grammar d depth) left c =
      .ok (.isValue c.current.pos left negated value, next.advance) := by
      simp only [List.mem_cons, List.not_mem_nil, or_false] at known
      obtain rfl | rfl | rfl := known <;>
        simp [isTail, bind_apply, position_apply, ok_bind, advance_apply, accepted, accept_apply next,
          is_upper upper atWord, current_apply, value_eq] <;> rfl
    refine ⟨.isValue c.current.pos left negated value, next.advance, ?_, atValue.advance' nonempty,
      by simp [Expr.bare, same]⟩
    simp [infixTail, bind_apply, noGlobal, ok_bind, position_apply, acceptOp_apply, isOp_word' current, curIs_apply,
      is_upper upperIs current, isTail_eq]

end SqlDialects.Parser
