import SqlDialects.Proofs.Canonical

/-! Texts of calls. A name, and numbers and plain words with commas between them in parentheses, are read as a call
under the name that the dialect's table gives it. -/

namespace SqlDialects

open Token SqlDialects.Parser Cursor

/-- The text of a call. -/
def callText (name : String) (args : List String) : String := name ++ "(" ++ Printer.commas args ++ ")"

/-- A number or a plain word. -/
def PlainArgument (d : Dialect) (text : String) : Prop := IsNumber text ∨ PlainWord d text

/-- The tree of a number or a plain word. -/
def argumentTree (text : String) : Expr :=
  if text.toList.head?.any fun c => c.isDigit || c == '.' then .literal {} .number text else .column {} [⟨text, false⟩]

variable {d : Dialect}

/-! ### Arguments -/

/-- A token inside the parentheses of a call: none that opens or closes a group or stands for all columns, and no word
that a construct with parentheses of its own asks for. -/
structure Token.Inner (t : Token) : Prop where
  words : ∀ w ∈ ["DISTINCT", "FROM", "IN"] ++ statementWords, t.is w = false
  marks : ∀ mark ∈ ["(", ")", "*"], t.isOp mark = false

theorem registered_keywords {entry : Entry} (member : entry ∈ Registry.standard.entries) :
    ∀ w ∈ ["DISTINCT", "FROM", "IN"] ++ statementWords, entry.dialect.isKeyword w = true := by
  obtain ⟨profile, known, rfl⟩ := List.mem_map.mp member
  clear member
  change ∀ w ∈ ["DISTINCT", "FROM", "IN"] ++ statementWords, profile.dialect.isKeyword w = true
  revert profile
  decide +kernel

theorem argumentTree_number {text : String} (number : IsNumber text) :
    argumentTree text = .literal {} .number text := by
  obtain ⟨⟨c, cs, shape, starts⟩, _⟩ := number
  rw [argumentTree, if_pos]
  rw [shape, List.head?_cons, Option.any_some, Bool.or_eq_true, beq_iff_eq]
  exact starts.imp id And.left

theorem argumentTree_word {text : String} (plain : PlainWord d text) :
    argumentTree text = .column {} [⟨text, false⟩] := by
  obtain ⟨c, cs, shape, starts, _⟩ := plain.shape
  rw [argumentTree, if_neg]
  rw [shape, List.head?_cons, Option.any_some, Bool.or_eq_true, beq_iff_eq, not_or]
  refine ⟨by simp [not_digit starts], ?_⟩
  rintro rfl
  exact absurd starts (by decide)

theorem PlainArgument.written {entry : Entry} (member : entry ∈ Registry.standard.entries) {text : String}
    (argument : PlainArgument entry.dialect text) :
    ∃ t, Written entry.dialect (argumentTree text) (argumentTree text) text [t] ∧ t.Inner := by
  have regular := registered_regular member
  obtain number | plain := argument
  · rw [argumentTree_number number]
    exact ⟨_, written_number regular number {}, ⟨fun _ _ => rfl, fun _ _ => rfl⟩⟩
  · rw [argumentTree_word plain]
    refine ⟨_, written_column regular plain {}, ⟨fun w known => ?_, fun mark _ => isOp_word ..⟩⟩
    rw [is_word, beq_eq_false_iff_ne]
    rintro rfl
    have keyword := registered_keywords member _ known
    rw [plain.keyword] at keyword
    cases keyword

/-- Arguments with their tokens: those of the first one and those after it. -/
structure WrittenArguments (d : Dialect) (first : String) (rest : List String) (t : Token)
    (us : List Token) : Prop where
  spelled : Spells d.toLexicon (Printer.commas (first :: rest)).toList (t :: us)
  reads : Reads d 1 0 (argumentTree first) [t]
  listed : Listed d (rest.map argumentTree) us
  inner : ∀ u ∈ t :: us, u.Inner

theorem written_arguments {entry : Entry} (member : entry ∈ Registry.standard.entries) {first : String}
    {rest : List String} (each : ∀ a ∈ first :: rest, PlainArgument entry.dialect a) :
    ∃ t us, WrittenArguments entry.dialect first rest t us := by
  induction rest generalizing first with
  | nil =>
    obtain ⟨t, written, inner⟩ := (each first (by simp)).written member
    refine ⟨t, [], ?_, written.whole, .nil, by simpa using inner⟩
    simpa [Printer.commas] using written.spelled
  | cons second rest ih =>
    obtain ⟨t, written, inner⟩ := (each first (by simp)).written member
    obtain ⟨u, us, others⟩ := ih fun a inside => each a (List.mem_cons_of_mem first inside)
    refine ⟨t, punctuation "," :: u :: us, ?_, written.whole, .cons others.reads others.listed, ?_⟩
    · have spelled := written.spelled.comma (registered_regular member).lexicon others.spelled
      simpa [Printer.commas, String.intercalate_cons_cons] using spelled
    · intro v inside
      rw [List.mem_cons, List.mem_cons] at inside
      obtain rfl | rfl | later := inside
      · exact inner
      · exact ⟨by decide, by decide⟩
      · exact others.inner v later

/-! ### From the parenthesis on -/

/-- Nothing follows a call at the end. -/
private theorem callTail_finish {g : Grammar} {f : Call} {c : Cursor} (finished : c.current.isFinish = true) :
    callTail g f c = .ok (f, c) := by
  have kind : c.current.kind = .finish := by simpa [isFinish] using finished
  have noWord (w : String) : c.current.is w = false := by simp [Token.is, Token.isWord, kind]
  have noOp (op : String) : c.current.isOp op = false := by simp [Token.isOp, kind]
  simp [callTail, bind_apply, acceptOp_apply, noOp, ok_bind, acceptSeq, get_apply, startsWith, Cursor.ahead, noWord,
    curIs_apply, peekOp, pure_apply]

/-- Arguments up to the parenthesis that closes the call. There may be none. -/
structure ClosedArguments (d : Dialect) (args : List String) (ws : List Token) : Prop where
  spelled : Spells d.toLexicon ((Printer.commas args).toList ++ [')']) (ws ++ [punctuation ")"])
  inner : ∀ t ∈ ws, t.Inner
  reads : ∀ (depth : Nat) (c : Cursor) (tail : List Token), ws.length ≤ depth →
  c.Shows (ws ++ punctuation ")" :: tail) →
    ∃ list next, callArgs (grammar d (depth + 1)) c = .ok (list, next) ∧ next.Shows (punctuation ")" :: tail) ∧
      bareExprs list = bareExprs (args.map argumentTree)

private theorem spells_shut {lexicon : Lexicon} (regular : lexicon.Regular) : Spells lexicon [')'] [punctuation ")"] :=
  Spells.bracket regular (by decide) spells_nil

private theorem WrittenArguments.closed {first : String} {rest : List String} {t : Token} {us : List Token}
    (regular : d.toLexicon.Regular) (written : WrittenArguments d first rest t us) :
    ClosedArguments d (first :: rest) (t :: us) := by
  refine ⟨written.spelled.append (breaks_cons (by decide)) (by simp) (spells_shut regular), written.inner, ?_⟩
  intro depth c tail enough shown
  have notStar : ∀ u ∈ [t] ++ us ++ [punctuation ")"], u.isOp "*" = false := by
    intro u member
    obtain inside | last := List.mem_append.mp member
    · exact (written.inner u inside).marks "*" (by decide)
    · rw [List.mem_singleton.mp last]
      decide
  have notShut : c.current.isOp ")" = false := by
    rw [← isOp_bare, shown.current]
    exact (written.inner t (by simp)).marks ")" (by decide)
  simp only [callArgs, bind_apply, curOp_apply, ok_bind, notShut, Bool.false_eq_true, if_false]
  refine written.reads.items written.listed depth enough (fun c member => ?_) tail shown
  have star : c.current.isOp "*" = false := by
    rw [← isOp_bare]
    exact notStar _ member
  simp only [bind_apply, get_apply, ok_bind, star, Bool.false_and, Bool.false_eq_true, if_false]
  rfl

theorem closed_arguments {entry : Entry} (member : entry ∈ Registry.standard.entries) {args : List String}
    (each : ∀ a ∈ args, PlainArgument entry.dialect a) : ∃ ws, ClosedArguments entry.dialect args ws := by
  have regular := (registered_regular member).lexicon
  cases args with
  | nil =>
    refine ⟨[], by simpa [Printer.commas] using spells_shut regular, by simp, fun depth c tail _ shown => ?_⟩
    have isShut : c.current.isOp ")" = true := by
      rw [← isOp_bare, shown.current]
      decide
    refine ⟨[], c, ?_, shown, rfl⟩
    simp only [callArgs, bind_apply, curOp_apply, ok_bind, isShut, if_true, pure_apply]
  | cons first rest =>
    obtain ⟨t, us, written⟩ := written_arguments member each
    exact ⟨_, written.closed regular⟩

/-- No order and no separator stand before the closing parenthesis. -/
private theorem argsTail_shut {g : Grammar} {f : Call} {c : Cursor} {rest : List Token}
    (shut : c.Shows (punctuation ")" :: rest)) (unordered : f.orderBy = []) : argsTail g f c = .ok (f, c) := by
  have noWord (w : String) : c.current.is w = false := by
    rw [← is_bare, shut.current]
    rfl
  obtain ⟨pos, name, args, distinct, orderBy, filter⟩ := f
  obtain rfl : orderBy = [] := unordered
  simp [argsTail, bind_apply, curIs_apply, ok_bind, noWord, accept_apply, pure_apply]

private theorem functionCall_finish {g : Grammar} {name canonical : String} (pos : Position) {list : List Expr}
    {c last : Cursor} (resolves : ∀ f c, resolveCall d f name c = .ok (.call { f with name := canonical }, c))
    (opened : c.current.isOp "(" = true) (noDistinct : c.advance.current.is "DISTINCT" = false)
    (reads : callArgs g c.advance = .ok (list, last)) (shut : last.Shows [punctuation ")", finish]) :
    ∃ next, functionCall d g pos name c = .ok (.call { pos, name := canonical, args := list }, next) ∧
      next.current.isFinish = true := by
  have isShut : last.current.isOp ")" = true := by
    rw [← isOp_bare, shut.current]
    decide
  have ended : last.advance.current.isFinish = true := by
    rw [← isFinish_bare, shut.advance.current]
    rfl
  have noOver : last.advance.current.is "OVER" = false := by
    rw [← is_bare, shut.advance.current]
    rfl
  refine ⟨last.advance, ?_, ended⟩
  have closes (f : Call) : (do
      expectOp ")"
      let f ← callTail g f
      let e ← resolveCall d f name
      if ← curIs "OVER" then windowTail g e else return e : Parser Expr) last =
        .ok (.call { f with name := canonical }, last.advance) := by
    simp only [bind_apply, expectOp_apply, isShut, if_true, ok_bind, callTail_finish ended,
      resolves, curIs_apply, noOver,
      Bool.false_eq_true, if_false, pure_apply]
  simp only [functionCall, bind_apply, expectOp_apply, opened, if_true, ok_bind, accept_apply, noDistinct,
    Bool.false_eq_true, if_false, curOp_apply]
  cases empty : c.advance.current.isOp ")" with
  | true =>
    simp only [callArgs, bind_apply, curOp_apply, ok_bind, empty, if_true, pure_apply, Except.ok.injEq,
      Prod.mk.injEq] at reads
    obtain ⟨rfl, rfl⟩ := reads
    exact closes _
  | false =>
    simp only [Bool.not_false, if_true, bind_apply, reads, ok_bind, argsTail_shut shut]
    exact closes _

/-! ### From the name on -/

/-- Words with a syntax of their own even where arguments without clauses follow. -/
def ownSyntax : List String :=
  ["NULL", "TRUE", "FALSE", "NOT", "CASE", "INTERVAL", "CAST", "TRY_CAST", "SAFE_CAST", "EXISTS", "EXTRACT", "TRIM"]

private theorem hasWordInGroup_none {w : String} {ts : List Token} (absent : ∀ t ∈ ts, t.is w = false) (depth : Nat) :
    hasWordInGroup w depth ts = false := by
  fun_induction hasWordInGroup w depth ts with
  | case6 depth t ts _ _ _ found =>
    rw [absent t (by simp), Bool.and_false] at found
    cases found
  | case1 | case2 | case4 => rfl
  | case3 _ _ _ _ _ ih | case5 _ _ _ _ _ _ _ ih | case7 _ _ _ _ _ _ _ ih =>
    exact ih fun u member => absent u (List.mem_cons_of_mem _ member)

private theorem specialWord_call {g : Grammar} {c : Cursor} (ordinary : c.current.upper ∉ ownSyntax)
    (noArray : c.peek.isOp "[" = false) (absent : ∀ w ∈ ["FROM", "IN"], ∀ t ∈ c.rest, t.is w = false) :
    specialWord d g c = .ok (none, c) := by
  simp only [ownSyntax, List.mem_cons, List.not_mem_nil, or_false, not_or] at ordinary
  obtain ⟨_, _, _, _, _, _, _, _, _, _, _, _⟩ := ordinary
  have noFrom := hasWordInGroup_none (absent "FROM" (by decide)) 0
  have noIn := hasWordInGroup_none (absent "IN" (by decide)) 0
  simp only [specialWord, bind_apply, get_apply, ok_bind, noArray, noFrom, noIn, Bool.and_false, Bool.false_eq_true,
    Bool.not_false, if_true, if_false]
  refine congrFun (a := c) (g := (pure none : Parser (Option Expr))) ?_
  split <;> first | contradiction | rfl

section

variable {args : List String} {ws : List Token} {name canonical : String} {c : Cursor}

private theorem ClosedArguments.first (closed : ClosedArguments d args ws)
    (shown : c.Shows (ws ++ [punctuation ")", finish])) : c.current.is "DISTINCT" = false := by
  have member : c.current.bare ∈ ws ++ [punctuation ")"] := by
    have all : c.Shows (ws ++ [punctuation ")"] ++ [finish]) := by simpa using shown
    exact all.mem_front (by simp)
  rw [← is_bare]
  obtain argument | close := List.mem_append.mp member
  · exact (closed.inner _ argument).words "DISTINCT" (by decide)
  · rw [List.mem_singleton.mp close]
    rfl

private theorem ClosedArguments.special {g : Grammar} (closed : ClosedArguments d args ws)
    (ordinary : Text.upper name ∉ ownSyntax)
    (shown : c.Shows (word d.toLexicon name :: punctuation "(" :: (ws ++ [punctuation ")", finish]))) :
    specialWord d g c = .ok (none, c) := by
  have upper : c.current.upper = Text.upper name := by rw [← upper_bare, shown.current, upper_word]
  have noArray : c.peek.isOp "[" = false := by rw [← isOp_bare, shown.peek]; decide
  refine specialWord_call (upper ▸ ordinary) noArray fun w known t member => ?_
  have each : ∀ u ∈ c.rest.map bare, u.is w = false := by
    rw [(List.cons.inj shown).2]
    simp only [List.mem_cons, List.mem_append, List.not_mem_nil, or_false]
    rintro u (rfl | argument | rfl | rfl)
    · rfl
    · exact (closed.inner u argument).words w (by revert w known; decide)
    · rfl
    · rfl
  rw [← is_bare]
  exact each _ (List.mem_map_of_mem member)

private theorem ClosedArguments.operand (closed : ClosedArguments d args ws) (ordinary : Text.upper name ∉ ownSyntax)
    (resolves : ∀ f c, resolveCall d f name c = .ok (.call { f with name := canonical }, c))
    (shown : c.Shows (word d.toLexicon name :: punctuation "(" :: (ws ++ [punctuation ")", finish]))) (depth : Nat)
    (enough : ws.length ≤ depth) : ∃ list next,
      operandStep d (grammar d (depth + 1)) c = .ok (.call ⟨c.current.pos, canonical, list, false, [], none⟩, next) ∧
        next.current.isFinish = true ∧ bareExprs list = bareExprs (args.map argumentTree) := by
  have named : c.current.bare = word d.toLexicon name := shown.current
  have text : c.current.text = name := by rw [← text_bare, named]; rfl
  have kind : c.current.kind = .word ∨ c.current.kind = .keyword := by
    rw [← kind_bare, named, word]
    split <;> simp
  have peeked : c.peek.isOp "(" = true := by rw [← isOp_bare, shown.peek]; decide
  have opened : c.advance.current.isOp "(" = true := by rw [← isOp_bare, shown.advance.current]; decide
  have inside : c.advance.advance.Shows (ws ++ [punctuation ")", finish]) := shown.advance.advance' (by simp)
  obtain ⟨list, last, reads, shut, same⟩ := closed.reads depth c.advance.advance [finish] enough inside
  obtain ⟨next, called, ended⟩ :=
    functionCall_finish c.current.pos resolves opened (closed.first inside) reads shut
  have words : wordExpr d (grammar d (depth + 1)) c =
      .ok (.call ⟨c.current.pos, canonical, list, false, [], none⟩, next) := by
    simp only [wordExpr, bind_apply, closed.special ordinary shown, ok_bind, get_apply, peeked, if_true, advance_apply,
      text]
    exact called
  refine ⟨list, next, ?_, ended, same⟩
  obtain kind | kind := kind <;> simp only [operandStep, bind_apply, current_apply, ok_bind, kind, words]

private theorem ClosedArguments.value (closed : ClosedArguments d args ws) (ordinary : Text.upper name ∉ ownSyntax)
    (resolves : ∀ f c, resolveCall d f name c = .ok (.call { f with name := canonical }, c))
    (shown : c.Shows (word d.toLexicon name :: punctuation "(" :: (ws ++ [punctuation ")", finish]))) :
    ∃ read next, (grammarFor d c).value c = .ok (read, next) ∧ next.current.isFinish = true ∧
      read.bare = (Expr.fn canonical (args.map argumentTree)).bare := by
  obtain ⟨list, next, operand, ended, same⟩ := closed.operand ordinary resolves shown (ws.length + 3) (by omega)
  have kind : next.current.kind = .finish := by simpa [isFinish] using ended
  have low : infixPrecedence d next = 0 := by
    simp [infixPrecedence, Token.isOp, Token.is, Token.isWord, kind, infixOp?, Prec.lowest]
  refine ⟨_, next, ?_, ended, show (Expr.call ⟨c.current.pos, canonical, list, false, [], none⟩).bare = _ from ?_⟩
  · change exprStep d (grammar d c.bound) 0 c = _
    have size : c.bound = ws.length + 3 + 1 := by simp [shown.bound_eq]
    rw [size, exprStep_apply, operand, ok_bind]
    apply iterate_none
    simp only [Parser.round, bind_apply, get_apply, ok_bind, low, Nat.le_refl, if_true, pure_apply]
  · simp [Expr.fn, Expr.bare, Call.bare, same, bareOrder, bareOption]

theorem parse_callText {entry : Entry} (member : entry ∈ Registry.standard.entries) (isWord : IsWord name)
    (ordinary : Text.upper name ∉ ownSyntax ++ statementWords)
    (resolves : ∀ f c, resolveCall entry.dialect f name c = .ok (.call { f with name := canonical }, c))
    (each : ∀ a ∈ args, PlainArgument entry.dialect a) :
    ∃ pos read, Statement.parse entry.dialect (callText name args) = .ok (.expression pos read) ∧
      read.bare = (Expr.fn canonical (args.map argumentTree)).bare := by
  have regular := (registered_regular member).lexicon
  rw [List.mem_append, not_or] at ordinary
  obtain ⟨ws, closed⟩ := closed_arguments member each
  obtain ⟨first, more, shape, starts, all⟩ := isWord
  have spelled : Spells entry.dialect.toLexicon (callText name args).toList
      (word entry.dialect.toLexicon name :: punctuation "(" :: (ws ++ [punctuation ")"])) := by
    have whole := Spells.named regular shape starts all (by decide)
      (Spells.bracket regular (c := '(') (by decide) closed.spelled)
    simpa [callText] using whole
  have isNamed : (word entry.dialect.toLexicon name).Ordinary := by
    intro w known
    rw [is_word, beq_eq_false_iff_ne]
    rintro rfl
    exact ordinary.2 known
  refine statement_of_value spelled ?_ (by simp [isOp_word]) fun c shown => ?_
  · simp only [List.take_succ_cons, List.take_zero, List.mem_cons, List.not_mem_nil, or_false]
    rintro t (rfl | rfl)
    · exact isNamed
    · decide
  · exact closed.value ordinary.1 resolves (by simpa using shown)

end

end SqlDialects
