import SqlDialects.Proofs.Aliases
import SqlDialects.Proofs.JsonPaths

/-! JSON accesses that Postgres writes as arrows. An arrow is read like a subscript, more tightly than any operator,
but is printed at the level of comparisons. So it is put in parentheses wherever it stands, and what stands on its
left is only if it binds no tighter than a comparison. -/

namespace SqlDialects

open Token SqlDialects.Parser Cursor

/-- An arrow behind the tree takes the whole tree: it is put in parentheses there, or it is one operand. -/
def Expr.Closed (e : Expr) : Prop := e.prec ≤ Prec.comparison ∨ Prec.access < e.prec

namespace Postgres

/-- The arrows with the functions that they call. -/
def arrows : List (String × String) := [("->", "JSON_EXTRACT"), ("->>", "JSON_EXTRACT_STRING")]

variable {op function : String}

theorem operator_prec (known : (op, function) ∈ arrows) :
    binaryPrec op = Prec.comparison ∧ leftLevel op = Prec.comparison + 1 := by
  simp only [arrows, List.mem_cons, Prod.mk.injEq, List.not_mem_nil, or_false] at known
  obtain ⟨rfl, _⟩ | ⟨rfl, _⟩ := known <;> decide

private theorem arrow_marks (known : (op, function) ∈ arrows) :
    ∀ mark ∈ [".", "(", "[", "::", ",", ")"], (operator op).isOp mark = false := by
  simp only [arrows, List.mem_cons, Prod.mk.injEq, List.not_mem_nil, or_false] at known
  obtain ⟨rfl, _⟩ | ⟨rfl, _⟩ := known <;> decide

theorem profile_regular : profile.dialect.Regular := registered_regular registered_postgres

theorem arrow_spelled (known : (op, function) ∈ arrows) :
    Spells profile.dialect.toLexicon op.toList [operator op] := by
  have regular := profile_regular.lexicon
  have listed : op ∈ Lexicon.baseOperators ++ profile.dialect.operators ∧ op.toList.head? = some '-' ∧
      op.toList.tail.head? = some '>' := by
    simp only [arrows, List.mem_cons, Prod.mk.injEq, List.not_mem_nil, or_false] at known
    obtain ⟨rfl, _⟩ | ⟨rfl, _⟩ := known <;> decide
  obtain ⟨listed, first, second⟩ := listed
  match shape : op.toList with
  | [] => simp [shape] at first
  | c :: cs =>
    obtain rfl : c = '-' := by simpa [shape] using first
    rw [← shape]
    refine spells_long regular shape (by decide) ?_ ?_ listed
    · intro _ dash
      rw [shape, List.tail_cons, dash] at second
      cases second
    · intro slash
      exact absurd slash (by decide)

private theorem arrow_read (known : (op, function) ∈ arrows) :
    profile.dialect.infixOps.find? op = some { prec := Prec.access, function, jsonPath := true } := by
  simp only [arrows, List.mem_cons, Prod.mk.injEq, List.not_mem_nil, or_false] at known
  obtain ⟨rfl, rfl⟩ | ⟨rfl, rfl⟩ := known <;> decide +kernel

private theorem operatorCall_arrow (known : (op, function) ∈ arrows) (pos : Position) (left right : Expr) :
    operatorCall pos { prec := Prec.access, function, jsonPath := true } left right =
      .call { pos, name := function, args := [left, jsonPath right] } := by
  have other : function ≠ "CONCAT" := by
    rintro rfl
    exact absurd known (by simp [arrows])
  cases left <;> simp [operatorCall, other]

/-! ### Keys -/

/-- The key of an arrow, its text and tokens, and what the parser makes of them. -/
structure Keyed (key read : Expr) (text : String) (ts : List Token) : Prop where
  operand : key.prec = Prec.access + 1
  printed : Prints profile.dialect key text
  spelled : Spells profile.dialect.toLexicon text.toList ts
  reads : Reads profile.dialect (Prec.access + 1) Prec.sign read ts
  words : ∀ t ∈ ts, t.Ordinary

theorem keyed_operand {key : Expr} {text : String} {ts : List Token} (written : Written profile.dialect key key text ts)
    (operand : key.prec = Prec.access + 1 ∧ key.opening = Prec.access + 1) : Keyed key key text ts :=
  ⟨operand.1, written.printed, written.spelled,
    written.reads.mono (Nat.le_of_eq operand.2.symm) (by rw [operand.1]; decide), written.begins.words⟩

/-- An index with a sign is read as a sign with its operand, and a plus as nothing. -/
theorem keyed_signed (place : Position) {mark : Char} (known : mark ∈ ['-', '+'])
    {digits : String} (number : IsNumber digits) :
    ∃ ts, Keyed (.literal place .number (String.ofList [mark] ++ digits))
      (if String.ofList [mark] = "-" then .unary place "-" (.literal place .number digits)
        else .literal place .number digits)
      (String.ofList [mark] ++ digits) ts := by
  have written := written_number profile_regular number place
  have above : Prec.sign + 1 ≤ Prec.access + 1 := by decide
  have clear := written.clear above
  have listed : String.ofList [mark] ∈ ["-", "+"] ∧ (operator (String.ofList [mark])).Ordinary := by
    simp only [List.mem_cons, List.not_mem_nil, or_false] at known
    obtain rfl | rfl := known <;> decide
  refine ⟨_, rfl, fun p _ _ => by simp [Printer.expr_literal, Printer.literal], ?_,
    ((written.reads.mono above (Nat.le_of_succ_le above)).sign listed.1 place).reads _, ?_⟩
  · simpa using written.spelled.sign profile_regular.lexicon known clear
  · intro t member
    obtain rfl | inside := List.mem_cons.mp member
    · exact listed.2
    · exact written.begins.words t inside

theorem written_key {place : Position} {path : String} {key : Expr}
    (found : jsonKey? (.literal place .string path) = some key) : ∃ read text ts, Keyed key read text ts ∧
      ((jsonPath read).bare = .literal {} .string path ↔ KeepsPath path) := by
  have regular := profile_regular
  have same : path = String.ofList path.toList := (String.ofList_toList).symm
  obtain ⟨step, shape, plain, rfl⟩ | ⟨index, shape, isIndex, rfl⟩ := jsonKey_cases found
  · refine ⟨_, _, _, keyed_operand (written_string regular _ place) ⟨rfl, rfl⟩, ?_⟩
    have joined : path = "$." ++ String.ofList step := by
      rw [← String.toList_inj, shape]
      simp
    have keeps : KeepsPath path ↔ IsStep (String.ofList step) := by simp only [KeepsPath, shape]
    rw [keeps, ← keyPath_eq_iff (by rwa [String.toList_ofList]), ← joined]
    simp only [jsonPath_string, Expr.bare, Expr.literal.injEq, true_and]
  · have keeps : KeepsPath path ↔ (index ++ [']']).head?.any Char.isDigit := by simp only [KeepsPath, shape]
    rw [keeps]
    obtain ⟨starts, number⟩ | ⟨mark, digits, rfl, known, number⟩ := isIndex_cases isIndex
    · refine ⟨_, _, _, keyed_operand (written_number regular number place) ⟨rfl, rfl⟩, ?_⟩
      have kept : (jsonPath (.literal place .number (String.ofList index))).bare = .literal {} .string path := by
        rw [same, shape]
        simp [jsonPath, Expr.bare, ← String.toList_inj]
      have digit : (index ++ [']']).head?.any Char.isDigit := by
        cases index with
        | nil => cases starts
        | cons c cs => exact starts
      exact iff_of_true kept digit
    · obtain ⟨ts, keyed⟩ := keyed_signed place known number
      have joined : String.ofList [mark] ++ String.ofList digits = String.ofList (mark :: digits) := by
        rw [← String.ofList_append]
        rfl
      rw [joined] at keyed
      refine ⟨_, _, _, keyed, iff_of_false ?_ ?_⟩
      · intro kept
        split at kept
        · simp [jsonPath, Expr.bare] at kept
        · have lengths := congrArg List.length shape
          simp only [jsonPath, Expr.bare, Expr.literal.injEq, true_and] at kept
          simp [← kept] at lengths
      · simp only [List.mem_cons, List.not_mem_nil, or_false] at known
        obtain rfl | rfl := known <;> simp

/-! ### Arrows -/

theorem suffix_arrow (known : (op, function) ∈ arrows) {key : Expr} {ts : List Token}
    (reads : Reads profile.dialect (Prec.access + 1) Prec.sign key ts) :
    Suffix profile.dialect (operator op :: ts) fun left =>
    .call { name := function, args := [left, jsonPath key] } := by
  intro left
  have marks := arrow_marks known
  have noWord (w : String) : (operator op).is w = false := rfl
  have readOp : infixOp? profile.dialect (operator op) = some { prec := Prec.access, function, jsonPath := true } :=
    arrow_read known
  refine ⟨?_, ?_, ?_⟩
  · intro tail
    simp [tailPrec, infixPrecedence, marks, noWord, readOp]
  · intro tail
    exact ⟨operator op, ts ++ tail, rfl, by simp [operator], by simp [operator],
      fun mark member => marks mark (List.mem_append_left ["::", ",", ")"] member), rfl⟩
  · intro depth c tail first enough continues binds shown same
    simp only [List.length_cons] at enough
    obtain ⟨depth, rfl⟩ := Nat.exists_eq_succ_of_ne_zero (show depth ≠ 0 by omega)
    have current : c.current.bare = operator op := shown.current
    have nonempty : ts ++ tail ≠ [] := by
      obtain ⟨t, rest, rfl, _⟩ := continues
      simp
    obtain ⟨read, next, done, after, equal⟩ := reads.ends depth (by omega) (Nat.lt_succ_self _) continues binds
      (Nat.le_trans binds (by decide)) (shown.advance' nonempty)
    refine ⟨.call { pos := c.current.pos, name := function, args := [first, jsonPath read] }, next, ?_, after, ?_⟩
    · have is (w : String) : c.current.is w = false := by rw [← is_bare, current, noWord]
      have isOp (mark : String) : c.current.isOp mark = (operator op).isOp mark := by rw [← isOp_bare, current]
      have op_eq : infixOp? profile.dialect c.current = some { prec := Prec.access, function, jsonPath := true } := by
        rw [← readOp, ← current]
        rfl
      have calls : function ≠ "" := by
        rintro rfl
        exact absurd known (by simp [arrows])
      simp only [infixTail, bind_apply, accept_apply, ok_bind, is, Bool.false_eq_true, if_false, position_apply,
        acceptOp_apply, isOp, marks "[" (by decide), marks "::" (by decide), curIs_apply, curAny_apply, List.any_cons,
        List.any_nil, Bool.or_false, current_apply, op_eq, Option.getD_some, advance_apply]
      change ((exprStep profile.dialect (grammar profile.dialect depth) Prec.access c.advance).bind _) = _
      rw [done]
      simp only [ok_bind, calls, if_false, operatorCall_arrow known]
      rfl
    · simp [Expr.bare, Call.bare, bareExprs, same, jsonPath_bare, equal]

/-- An arrow calls its function with the tree on its left, unless a part of that tree takes the arrow. -/
theorem written_arrow (known : (op, function) ∈ arrows) (pos : Position) {operand operand' key key' : Expr}
    {text keyText : String} {ts us : List Token} (written : Written profile.dialect operand operand' text ts)
    (keyed : Keyed key key' keyText us) :
    ∃ read text vs, Written profile.dialect (.binary pos op operand key) read text vs ∧
      (operand.Closed → read = .call { name := function, args := [operand', jsonPath key'] }) ∧
      (¬operand.Closed → read.IsOperator) := by
  obtain ⟨level, left⟩ := operator_prec known
  obtain ⟨vs, first⟩ := written.placed profile_regular (show leftLevel op ≤ Prec.access + 1 by rw [left]; decide)
  obtain ⟨read, reads, whole, part⟩ := first.grows (by rw [left]; decide) (by rw [left]; decide) _ _
    (suffix_arrow known keyed.reads)
  rw [left] at reads whole part
  have closed (operand : operand.Closed) : read = .call { name := function, args := [operand', jsonPath key'] } := by
    refine whole (operand.imp_left ?_)
    exact Nat.lt_succ_of_le
  have opened (operand : ¬operand.Closed) : read.IsOperator := by
    rw [Expr.Closed, not_or] at operand
    exact part (by omega) (by omega)
  have noQuery (pos : Position) (query : Query) (negated : Bool) : read.bare ≠ .existsQuery pos query negated := by
    by_cases operand : operand.Closed
    · simp [closed operand, Expr.bare]
    · have isOperator := opened operand
      cases read with
      | binary | unary => simp [Expr.bare]
      | _ => exact isOperator.elim
  have plain : key.atLevel (binaryPrec op + 1) keyText = keyText := by
    rw [Expr.atLevel, keyed.operand, level]
    rfl
  obtain ⟨text, ws, arrow⟩ := written_infix profile_regular (arrow_spelled known)
    (fun mark member => arrow_marks known mark (by revert mark; decide)) (fun _ _ => rfl) pos first keyed.printed
    (plain.symm ▸ keyed.spelled) keyed.words (reads.mono (by rw [level]; decide) (by rw [level]; decide)) noQuery
    (fun above => absurd above (by rw [level]; decide))
  exact ⟨read, text, ws, arrow, closed, opened⟩

/-! ### Trees with accesses -/

/-- Trees of the operator language with JSON accesses by paths that are written as keys. The accesses are such that
`allowed` holds of the operand and the path. -/
inductive JsonTree (allowed : Expr → String → Prop) : Expr → Prop
  | column {name : String} (pos : Position) (plain : PlainWord profile.dialect name) :
    JsonTree allowed (.column pos [⟨name, false⟩])
  | number {value : String} (pos : Position) (number : IsNumber value) : JsonTree allowed (.literal pos .number value)
  | string (pos : Position) (value : String) : JsonTree allowed (.literal pos .string value)
  | binary {op : String} {left right : Expr} (pos : Position) (known : op ∈ ansiOperators)
    (first : JsonTree allowed left) (second : JsonTree allowed right) : JsonTree allowed (.binary pos op left right)
  | unary {op : String} {operand : Expr} (pos : Position) (known : op ∈ ["NOT", "-"])
      (inner : JsonTree allowed operand) :
    JsonTree allowed (.unary pos op operand)
  | between {operand low high : Expr} (pos : Position) (negated : Bool) (inner : JsonTree allowed operand)
    (least : JsonTree allowed low) (most : JsonTree allowed high) :
    JsonTree allowed (.between pos operand low high negated)
  | inList {operand : Expr} {members : List Expr} (pos : Position) (negated : Bool) (inner : JsonTree allowed operand)
    (nonempty : members ≠ []) (each : ∀ member ∈ members, JsonTree allowed member) :
    JsonTree allowed (.inList pos operand members negated)
  | isValue {operand : Expr} {value : String} (pos : Position) (negated : Bool) (inner : JsonTree allowed operand)
    (known : value ∈ ["NULL", "TRUE", "FALSE"]) : JsonTree allowed (.isValue pos operand negated value)
  | access {op function path : String} {operand key : Expr} (pos place : Position) (known : (op, function) ∈ arrows)
    (inner : JsonTree allowed operand) (written : jsonKey? (.literal place .string path) = some key)
    (held : allowed operand path) :
    JsonTree allowed (.call { pos, name := function, args := [operand, .literal place .string path] })

/-- The arrow for the access takes the whole operand, and its key stands for the path. -/
def Safe (operand : Expr) (path : String) : Prop := operand.Closed ∧ KeepsPath path

theorem arrow_foreign (known : (op, function) ∈ arrows) : function ∉ ClickHouse.ownFunctions := by
  rw [ClickHouse.ownFunctions_eq]
  simp only [arrows, List.mem_cons, Prod.mk.injEq, List.not_mem_nil, or_false] at known
  obtain ⟨_, rfl⟩ | ⟨_, rfl⟩ := known <;> decide

/-- Rules that write accesses as arrows and leave the other nodes of such trees as they are. -/
structure WritesArrows (step : Step) : Prop where
  spares : step.Spares ansiOperators
  access : ∀ op function, (op, function) ∈ arrows → ∀ pos operand path key, jsonKey? path = some key →
    step.Turns (.call { pos, name := function, args := [operand, path] }) (.binary pos op operand key)

private theorem outbound_rules : profile.outbound =
    [arrow "JSON_EXTRACT" "->", arrow "JSON_EXTRACT_STRING" "->>", regexp,
    .format "postgres" "DATE_FORMAT" "TO_CHAR" 1 .postgres, .format "postgres" "STR_TO_DATE" "TO_TIMESTAMP" 1 .postgres,
    .native "postgres" "LOCATE" "STRPOS" [1, 0], .native "postgres" "ARRAY_PUSHFRONT" "ARRAY_PREPEND" [1, 0]] := rfl

private theorem arrow_outbound (known : (op, function) ∈ arrows) :
    arrow function op ∈ (Entry.ofProfile profile).rules.inPhase .outbound := by
  rw [Entry.mem_outbound registered_postgres, show (Entry.ofProfile profile).profile = profile from rfl, outbound_rules]
  simp only [arrows, List.mem_cons, Prod.mk.injEq, List.not_mem_nil, or_false] at known
  obtain ⟨rfl, rfl⟩ | ⟨rfl, rfl⟩ := known <;> simp

theorem outbound_arrow (known : (op, function) ∈ arrows) {r : Rule} (inside : r ∈ profile.outbound) :
    r = arrow function op ∨ r.pattern.kind ≠ "FunctionCall" ∨ r.pattern.name ≠ "" ∧ r.pattern.name ≠ function := by
  rw [outbound_rules] at inside
  simp only [arrows, List.mem_cons, Prod.mk.injEq, List.not_mem_nil, or_false] at known inside
  obtain ⟨rfl, rfl⟩ | ⟨rfl, rfl⟩ := known
  · obtain rfl | rfl | rfl | rfl | rfl | rfl | rfl := inside
    · exact .inl rfl
    all_goals exact .inr (by decide)
  · obtain rfl | rfl | rfl | rfl | rfl | rfl | rfl := inside
    · exact .inr (by decide)
    · exact .inl rfl
    all_goals exact .inr (by decide)

private theorem fire_arrow {ctx : Context} (target : ctx.target = profile.dialect)
    (op function : String) (pos : Position)
    (operand : Expr) {path key : Expr} (written : jsonKey? path = some key) :
    (arrow function op).fire? ctx (.expr (.call { pos, name := function, args := [operand, path] })) =
      .ok (some (.expr (.binary pos op operand key))) := by
  have name : ctx.target.name = "postgres" := by rw [target]; rfl
  simp [Rule.fire?, arrow, Rule.callPattern, Pattern.matches, Pattern.matchesArity, Node.kind,
    Expr.kind, Node.name, name,
    written]

theorem outbound_writesArrows {engine : Engine} (target : engine.target = profile.dialect) :
    WritesArrows (engine.step ((Entry.ofProfile profile).rules.inPhase .outbound)) := by
  refine ⟨phase_spares registered_postgres (fun _ => by decide +kernel) _ _, ?_⟩
  intro op function known pos operand path key written
  let call : Node := .expr (.call { pos, name := function, args := [operand, path] })
  let out : Node := .expr (.binary pos op operand key)
  unfold Step.Turns Engine.step
  generalize context : Context.mk engine.source engine.target _ = ctx
  have goal : ctx.target = profile.dialect := by rw [← context, target]
  have still : ∀ r ∈ profile.outbound, r.fire? ctx out = .ok none := by
    intro r inside
    have operators : ∀ r ∈ profile.outbound, r.pattern.kind ≠ "BinaryOp" ∨ r.pattern.name = "REGEXP" := by decide
    obtain kind | name := operators r inside
    · exact Rule.fire_unmatched (Pattern.matches_kind (Ne.symm kind) ctx)
    · have other : op ≠ "REGEXP" := by
        rintro rfl
        exact absurd known (by simp [arrows])
      exact Rule.fire_unmatched (by simp [out, Pattern.matches, Node.name, name, other])
  refine ⟨some out, Rule.settle_once ⟨_, arrow_outbound known, fire_arrow goal op function pos operand written⟩
    (fun r inside => ?_) (fun r inside => still r ((Entry.mem_outbound registered_postgres).mp inside)), rfl⟩
  obtain rfl | kind | ⟨named, other⟩ := outbound_arrow known ((Entry.mem_outbound registered_postgres).mp inside)
  · exact .inr (fire_arrow goal op function pos operand written)
  · exact .inl (Rule.fire_unmatched (Pattern.matches_kind (Ne.symm kind) ctx))
  · exact .inl (Rule.fire_unmatched (by simp [Pattern.matches, Node.name, named, Ne.symm other]))

/-! ### Translating such trees -/

variable {allowed : Expr → String → Prop}

/-- Rules that leave the accesses as they are leave the whole tree. -/
theorem JsonTree.adapt_eq {e : Expr} (tree : JsonTree allowed e) {p : Pass} (spares : p.step.Spares ansiOperators)
    (still : ∀ f : Call, (∃ op, (op, f.name) ∈ arrows) → p.step (.expr (.call f)) = .ok none) : e.adapt p = .ok e := by
  induction tree generalizing p with
  | column | number | string => exact Pass.expr_eq (spares.operand _ (by simp [Node.kind, Expr.kind, operandKinds]))
  | binary pos known _ _ first second =>
    rw [Expr.adapt, first (p := p.inner) spares still, second (p := p.inner) spares still]
    exact Pass.expr_eq (spares.operator _ known pos _ _)
  | unary _ _ _ inner | isValue _ _ _ _ inner =>
    rw [Expr.adapt, inner (p := p.inner) spares still]
    exact Pass.expr_eq (spares.operand _ (by simp [Node.kind, Expr.kind, operandKinds]))
  | between _ _ _ _ _ inner least most =>
    rw [Expr.adapt, inner (p := p.inner) spares still, least (p := p.inner) spares still,
      most (p := p.inner) spares still]
    exact Pass.expr_eq (spares.operand _ (by simp [Node.kind, Expr.kind, operandKinds]))
  | inList _ _ _ _ _ inner each =>
    rw [Expr.adapt, inner (p := p.inner) spares still,
      adaptExprs_eq fun e member => each e member (p := p.inner) spares still]
    exact Pass.expr_eq (spares.operand _ (by simp [Node.kind, Expr.kind, operandKinds]))
  | @access op function path operand key pos place known _ _ _ inner =>
    have literal : (Expr.literal place .string path).adapt p.inner = .ok (.literal place .string path) :=
      Pass.expr_eq (p := p.inner) (spares.operand _ (by simp [Node.kind, Expr.kind, operandKinds]))
    rw [Expr.adapt, Call.adaptParts, adaptExprs_eq (List.forall_mem_cons.mpr
      ⟨inner (p := p.inner) spares still, List.forall_mem_singleton.mpr literal⟩)]
    exact Pass.expr_eq (still _ ⟨op, known⟩)

/-- What becomes of a tree on the way to the dialect and back. -/
structure Rewrites (e shown read : Expr) : Prop where
  adapts : ∀ p : Pass, WritesArrows p.step → p.skip = 0 → e.adapt p = .ok shown
  closed : shown.Closed ↔ e.Closed
  written : ∃ text ts, Written profile.dialect shown read text ts
  same : read.bare = e.bare ↔ JsonTree Safe e

/-- The tree is rewritten alike below a node. -/
theorem Rewrites.inner {e shown read : Expr} (rewrites : Rewrites e shown read)
    {p : Pass} (arrows : WritesArrows p.step)
    (all : p.skip = 0) : e.adapt p.inner = .ok shown :=
  rewrites.adapts p.inner arrows (by rw [Pass.inner, all])

theorem rewrites_leaf {e : Expr} (kind : (Node.expr e).kind ∈ operandKinds) (leaf : e.IsLeaf) (tree : JsonTree Safe e)
    (written : ∃ text ts, Written profile.dialect e e text ts) : Rewrites e e e := by
  refine ⟨fun p arrows all => ?_, Iff.rfl, written, iff_of_true rfl tree⟩
  have spared := Pass.expr_eq (arrows.spares.operand _ kind)
  cases e with
  | column | literal => exact spared
  | _ => exact leaf.elim

variable {left left' left'' right right' right'' : Expr}

theorem rewrites_binary (known : op ∈ ansiOperators) (pos : Position) (first : Rewrites left left' left'')
    (second : Rewrites right right' right'') :
    Rewrites (.binary pos op left right) (.binary pos op left' right') (.binary pos op left'' right'') := by
  refine ⟨?_, Iff.rfl, ?_, ?_⟩
  · intro p arrows all
    rw [Expr.adapt, first.inner arrows all, second.inner arrows all]
    exact Pass.expr_eq (arrows.spares.operator _ known pos _ _)
  · obtain ⟨_, _, one⟩ := first.written
    obtain ⟨_, _, two⟩ := second.written
    exact written_binary profile_regular (profile_regular.ansi op known) pos one two
  · have both : (Expr.binary pos op left'' right'').bare = (Expr.binary pos op left right).bare ↔
        left''.bare = left.bare ∧ right''.bare = right.bare := by simp [Expr.bare]
    rw [both, first.same, second.same]
    constructor
    · rintro ⟨one, two⟩
      exact .binary pos known one two
    · intro tree
      cases tree with
      | binary _ _ one two => exact ⟨one, two⟩

theorem rewrites_access (known : (op, function) ∈ arrows) (pos place : Position)
    {path : String} {operand shown read key : Expr}
    (written : jsonKey? (.literal place .string path) = some key) (inner : Rewrites operand shown read) :
    ∃ read, Rewrites (.call { pos, name := function, args := [operand, .literal place .string path] })
      (.binary pos op shown key) read := by
  obtain ⟨text, ts, shownWritten⟩ := inner.written
  obtain ⟨key', keyText, us, keyed, kept⟩ := written_key written
  obtain ⟨back, text', vs, arrow, whole, part⟩ := written_arrow known pos shownWritten keyed
  have level : binaryPrec op ≤ Prec.comparison := Nat.le_of_eq (operator_prec known).1
  refine ⟨back, ?_, iff_of_true (.inl level) (.inr (Nat.lt_succ_self _)), ⟨text', vs, arrow⟩, ?_⟩
  · intro p arrows all
    have literal : (Expr.literal place .string path).adapt p.inner = .ok (.literal place .string path) :=
      Pass.expr_eq (p := p.inner) (arrows.spares.operand _ (by simp [Node.kind, Expr.kind, operandKinds]))
    rw [Expr.adapt, Call.adaptParts, adaptExprs, inner.inner arrows all, adaptExprs, literal]
    exact Pass.expr_turns (arrows.access op function known pos shown _ key written) all
  · by_cases operandClosed : operand.Closed
    · rw [whole (inner.closed.mpr operandClosed)]
      have both : (Expr.call { name := function, args := [read, jsonPath key'] }).bare =
          (Expr.call { pos, name := function, args := [operand, .literal place .string path] }).bare ↔
          read.bare = operand.bare ∧ (jsonPath key').bare = .literal {} .string path := by
        simp [Expr.bare, Call.bare, bareExprs]
      rw [both, inner.same, kept]
      constructor
      · rintro ⟨tree, keeps⟩
        exact .access pos place known tree written ⟨operandClosed, keeps⟩
      · intro tree
        cases tree with
        | access _ _ _ tree _ safe => exact ⟨tree, safe.2⟩
    · have operator := part (mt inner.closed.mp operandClosed)
      refine iff_of_false ?_ ?_
      · intro same
        cases back with
        | binary | unary => simp [Expr.bare] at same
        | _ => exact operator.elim
      · intro tree
        cases tree with
        | access _ _ _ _ _ safe => exact operandClosed safe.1

theorem rewrites_unary (known : op ∈ ["NOT", "-"]) (pos : Position) (inner : Rewrites left left' left'') :
    Rewrites (.unary pos op left) (.unary pos op left') (.unary pos op left'') := by
  refine ⟨?_, Iff.rfl, ?_, ?_⟩
  · intro p arrows all
    rw [Expr.adapt, inner.inner arrows all]
    exact Pass.expr_eq (arrows.spares.operand _ (by simp [Node.kind, Expr.kind, operandKinds]))
  · obtain ⟨_, _, written⟩ := inner.written
    simp only [List.mem_cons, List.not_mem_nil, or_false] at known
    obtain rfl | rfl := known
    · exact written_negation profile_regular pos written
    · exact written_minus profile_regular pos written
  · have same : (Expr.unary pos op left'').bare = (Expr.unary pos op left).bare ↔ left''.bare = left.bare := by
      simp [Expr.bare]
    rw [same, inner.same]
    refine ⟨.unary pos known, fun tree => ?_⟩
    cases tree with
    | unary _ _ tree => exact tree

theorem rewrites_isValue (pos : Position) (negated : Bool) {value : String} (known : value ∈ ["NULL", "TRUE", "FALSE"])
    (inner : Rewrites left left' left'') : Rewrites (.isValue pos left negated value) (.isValue pos left' negated value)
      (.isValue pos left'' negated value) := by
  refine ⟨?_, Iff.rfl, ?_, ?_⟩
  · intro p arrows all
    rw [Expr.adapt, inner.inner arrows all]
    exact Pass.expr_eq (arrows.spares.operand _ (by simp [Node.kind, Expr.kind, operandKinds]))
  · obtain ⟨_, _, written⟩ := inner.written
    exact written_isValue profile_regular pos negated written known
  · have same : (Expr.isValue pos left'' negated value).bare = (Expr.isValue pos left negated value).bare ↔
        left''.bare = left.bare := by simp [Expr.bare]
    rw [same, inner.same]
    refine ⟨(.isValue pos negated · known), fun tree => ?_⟩
    cases tree with
    | isValue _ _ tree => exact tree

theorem rewrites_between (pos : Position) (negated : Bool) {operand operand' operand'' : Expr}
    (inner : Rewrites operand operand' operand'') (least : Rewrites left left' left'')
    (most : Rewrites right right' right'') : Rewrites (.between pos operand left right negated)
      (.between pos operand' left' right' negated) (.between pos operand'' left'' right'' negated) := by
  refine ⟨?_, Iff.rfl, ?_, ?_⟩
  · intro p arrows all
    rw [Expr.adapt, inner.inner arrows all, least.inner arrows all, most.inner arrows all]
    exact Pass.expr_eq (arrows.spares.operand _ (by simp [Node.kind, Expr.kind, operandKinds]))
  · obtain ⟨_, _, written⟩ := inner.written
    obtain ⟨_, _, low⟩ := least.written
    obtain ⟨_, _, high⟩ := most.written
    exact written_between profile_regular (profile_regular.ansi "AND" (by decide)) pos negated written low high
  · have all : (Expr.between pos operand'' left'' right'' negated).bare =
      (Expr.between pos operand left right negated).bare ↔
        operand''.bare = operand.bare ∧ left''.bare = left.bare ∧ right''.bare = right.bare := by simp [Expr.bare]
    rw [all, inner.same, least.same, most.same]
    constructor
    · rintro ⟨tree, low, high⟩
      exact .between pos negated tree low high
    · intro tree
      cases tree with
      | between _ _ tree low high => exact ⟨tree, low, high⟩

theorem rewrites_members {members : List Expr} (each : ∀ member ∈ members, ∃ shown read, Rewrites member shown read) :
    ∃ showns reads, showns.length = members.length ∧
      (∀ p : Pass, WritesArrows p.step → p.skip = 0 → adaptExprs p.inner members = .ok showns) ∧
      List.Forall₂ (fun shown read => ∃ text ts, Written profile.dialect shown read text ts) showns reads ∧
      (bareExprs reads = bareExprs members ↔ ∀ member ∈ members, JsonTree Safe member) := by
  induction members with
  | nil => exact ⟨[], [], rfl, fun _ _ _ => rfl, .nil, by simp⟩
  | cons e members ih =>
    obtain ⟨⟨shown, read, first⟩, others⟩ := List.forall_mem_cons.mp each
    obtain ⟨showns, reads, lengths, adapts, written, same⟩ := ih others
    refine ⟨shown :: showns, read :: reads, congrArg Nat.succ lengths, ?_, .cons first.written written, ?_⟩
    · intro p arrows all
      rw [adaptExprs, first.inner arrows all, adapts p arrows all]
      rfl
    · rw [List.forall_mem_cons, bareExprs, bareExprs, List.cons.injEq, first.same, same]

theorem rewrites_inList (pos : Position) (negated : Bool) {members : List Expr} (nonempty : members ≠ [])
    (inner : Rewrites left left' left'') (each : ∀ member ∈ members, ∃ shown read, Rewrites member shown read) :
    ∃ shown read, Rewrites (.inList pos left members negated) shown read := by
  obtain ⟨showns, reads, lengths, adapts, written, same⟩ := rewrites_members each
  refine ⟨.inList pos left' showns negated, .inList pos left'' reads negated, ?_, Iff.rfl, ?_, ?_⟩
  · intro p arrows all
    rw [Expr.adapt, inner.inner arrows all, adapts p arrows all]
    exact Pass.expr_eq (arrows.spares.operand _ (by simp [Node.kind, Expr.kind, operandKinds]))
  · obtain ⟨_, _, operand⟩ := inner.written
    cases written with
    | nil => exact absurd (List.length_eq_zero_iff.mp lengths.symm) nonempty
    | cons first rest =>
      obtain ⟨_, _, _, list⟩ := written_list profile_regular (.cons first rest)
      exact written_inList profile_regular pos negated operand list
  · have both : (Expr.inList pos left'' reads negated).bare = (Expr.inList pos left members negated).bare ↔
        left''.bare = left.bare ∧ bareExprs reads = bareExprs members := by simp [Expr.bare]
    rw [both, inner.same, same]
    constructor
    · rintro ⟨tree, trees⟩
      exact .inList pos negated tree nonempty trees
    · intro tree
      cases tree with
      | inList _ _ tree _ trees => exact ⟨tree, trees⟩

/-- Every tree with accesses is rewritten, and read back as it was exactly if its accesses are safe. -/
theorem JsonTree.rewrites {e : Expr} (tree : JsonTree (fun _ _ => True) e) : ∃ shown read, Rewrites e shown read := by
  induction tree with
  | column pos plain =>
    exact ⟨_, _, rewrites_leaf (by simp [Node.kind, Expr.kind, operandKinds]) trivial (.column pos plain)
      ⟨_, _, written_column profile_regular plain pos⟩⟩
  | number pos number =>
    exact ⟨_, _, rewrites_leaf (by simp [Node.kind, Expr.kind, operandKinds]) trivial (.number pos number)
      ⟨_, _, written_number profile_regular number pos⟩⟩
  | string pos value =>
    exact ⟨_, _, rewrites_leaf (by simp [Node.kind, Expr.kind, operandKinds]) trivial (.string pos value)
      ⟨_, _, written_string profile_regular value pos⟩⟩
  | binary pos known _ _ first second =>
    obtain ⟨_, _, first⟩ := first
    obtain ⟨_, _, second⟩ := second
    exact ⟨_, _, rewrites_binary known pos first second⟩
  | unary pos known _ inner =>
    obtain ⟨_, _, inner⟩ := inner
    exact ⟨_, _, rewrites_unary known pos inner⟩
  | between pos negated _ _ _ inner least most =>
    obtain ⟨_, _, inner⟩ := inner
    obtain ⟨_, _, least⟩ := least
    obtain ⟨_, _, most⟩ := most
    exact ⟨_, _, rewrites_between pos negated inner least most⟩
  | inList pos negated _ nonempty _ inner each =>
    obtain ⟨_, _, inner⟩ := inner
    exact rewrites_inList pos negated nonempty inner each
  | isValue pos negated _ known inner =>
    obtain ⟨_, _, inner⟩ := inner
    exact ⟨_, _, rewrites_isValue pos negated known inner⟩
  | access pos place known _ written _ inner =>
    obtain ⟨_, _, inner⟩ := inner
    obtain ⟨_, inner⟩ := rewrites_access known pos place written inner
    exact ⟨_, _, inner⟩

/-- The text that any dialect's tree with accesses gets is read as the tree that its rewriting is read as. -/
theorem Rewrites.translated {source : Entry} (member : source ∈ Registry.standard.entries) {e shown back : Expr}
    (tree : JsonTree allowed e) (rewrites : Rewrites e shown back) (pos : Position) :
    ∃ engine text read, Engine.build source (Entry.ofProfile profile) [] = .ok engine ∧
      engine.apply (.expression pos e) = .ok (.expression pos shown) ∧
      Transpiler.print source.dialect profile.dialect (.expression pos shown) = .ok text ∧
      Expr.parse profile.dialect text = .ok read ∧ read.bare = back.bare := by
  obtain ⟨text, ts, written⟩ := rewrites.written
  obtain ⟨read, parsed, same⟩ := written.parse
  let engine : Engine := ⟨source.dialect, profile.dialect, source.rules.inPhase .inbound,
    (Entry.ofProfile profile).rules.inPhase .outbound⟩
  have inbound : engine.phase engine.inbound (.statement (.expression pos e)) =
    .ok (.statement (.expression pos e)) := by
    have spares : (engine.step engine.inbound).Spares ansiOperators :=
      phase_spares member (fun outbound => by cases outbound) _ _
    refine Engine.phase_expression spares (fun p stepped _ => tree.adapt_eq (by rw [stepped]; exact spares) ?_) pos
    rintro f ⟨op, known⟩
    rw [stepped]
    exact inbound_none member (fun _ => arrow_foreign known) _ _
  have outbound : engine.phase engine.outbound (.statement (.expression pos e)) =
    .ok (.statement (.expression pos shown)) := by
    have arrows : WritesArrows (engine.step engine.outbound) := outbound_writesArrows rfl
    refine Engine.phase_expression arrows.spares (fun p stepped all => rewrites.adapts p ?_ all) pos
    rw [stepped]
    exact arrows
  have printed := written.printed { dialect := profile.dialect, source := some source.dialect.name } rfl rfl
  exact ⟨engine, text, read, rfl, Engine.apply_expression inbound outbound, printed, parsed, same⟩

/-- A tree of operators, columns, literals and JSON accesses that are written as arrows is read back from its text in
Postgres exactly if each arrow takes the whole operand of its access, and each key stands for the path of its access. -/
theorem arrow_tree_read_back_iff {source : Entry} (member : source ∈ Registry.standard.entries) {e : Expr}
    (tree : JsonTree (fun _ _ => True) e) (pos : Position) :
    ∃ engine shown text read, Engine.build source (Entry.ofProfile profile) [] = .ok engine ∧
      engine.apply (.expression pos e) = .ok (.expression pos shown) ∧
      Transpiler.print source.dialect profile.dialect (.expression pos shown) = .ok text ∧
      Expr.parse profile.dialect text = .ok read ∧ (read.bare = e.bare ↔ JsonTree Safe e) := by
  obtain ⟨shown, back, rewrites⟩ := tree.rewrites
  obtain ⟨engine, text, read, built, applied, printed, parsed, same⟩ := rewrites.translated member tree pos
  refine ⟨engine, shown, text, read, built, applied, printed, parsed, ?_⟩
  rw [same]
  exact rewrites.same

private theorem plain_letter {name : String} (letter : name ∈ ["a", "b"]) : PlainWord profile.dialect name := by
  simp only [List.mem_cons, List.not_mem_nil, or_false] at letter
  obtain rfl | rfl := letter <;> exact ⟨⟨_, _, rfl, by decide, by decide⟩, by decide +kernel, by decide +kernel⟩

/-- An access to an element of what another access finds. -/
theorem nested_access_read_back : ∃ e engine shown text read,
    e = .binary {} "=" (.call { name := "JSON_EXTRACT_STRING", args :=
      [.call { name := "JSON_EXTRACT", args := [.col "a", .str "$.k"] }, .str "$[0]"] }) (.str "b") ∧
    Engine.build (Entry.ofProfile profile) (Entry.ofProfile profile) [] = .ok engine ∧
    engine.apply (.expression {} e) = .ok (.expression {} shown) ∧
    Transpiler.print profile.dialect profile.dialect (.expression {} shown) = .ok text ∧
    Expr.parse profile.dialect text = .ok read ∧ read.bare = e.bare := by
  have tree (allowed : Expr → String → Prop) (inner : allowed (.col "a") "$.k")
      (outer : allowed (.call { name := "JSON_EXTRACT", args := [.col "a", .str "$.k"] }) "$[0]") :=
    JsonTree.binary {} (show "=" ∈ ansiOperators by decide)
      (.access {} {} (show ("->>", "JSON_EXTRACT_STRING") ∈ arrows by decide)
        (.access {} {} (show ("->", "JSON_EXTRACT") ∈ arrows by decide)
          (.column {} (plain_letter (by decide))) rfl inner)
        rfl outer)
      (.string {} "b")
  obtain ⟨engine, shown, text, read, built, applied, printed, parsed, same⟩ :=
    arrow_tree_read_back_iff registered_postgres (tree (fun _ _ => True) trivial trivial) {}
  refine ⟨_, engine, shown, text, read, rfl, built, applied, printed, parsed, same.mpr ?_⟩
  refine tree Safe ⟨.inr ?_, ?_⟩ ⟨.inr ?_, ?_⟩
  · decide
  · decide +kernel
  · decide
  · rfl

/-- An access to a sum, which is written without parentheses, is read as an access to its last term. -/
theorem sum_access_regrouped : ∃ e engine shown read,
    e = .call { name := "JSON_EXTRACT", args := [.binary {} "+" (.col "a") (.col "b"), .str "$.k"] } ∧
    JsonTree (fun _ _ => True) e ∧ Engine.build (Entry.ofProfile profile) (Entry.ofProfile profile) [] = .ok engine ∧
    engine.apply (.expression {} e) = .ok (.expression {} shown) ∧
    Transpiler.print profile.dialect profile.dialect (.expression {} shown) = .ok "a + b -> 'k'" ∧
    Expr.parse profile.dialect "a + b -> 'k'" = .ok read ∧ read.bare ≠ e.bare := by
  have leaf {name : String} (letter : name ∈ ["a", "b"]) : Rewrites (.col name) (.col name) (.col name) :=
    rewrites_leaf (by simp [Expr.col, Node.kind, Expr.kind, operandKinds]) trivial (.column {} (plain_letter letter))
      ⟨_, _, written_column profile_regular (plain_letter letter) {}⟩
  have known : ("->", "JSON_EXTRACT") ∈ arrows := by decide
  have plus : "+" ∈ ansiOperators := by decide
  have key : jsonKey? (.literal {} .string "$.k") = some (.str "k") := by rfl
  have a : "a" ∈ ["a", "b"] := by decide
  have b : "b" ∈ ["a", "b"] := by decide
  obtain ⟨back, rewrites⟩ := rewrites_access known {} {} key (rewrites_binary plus {} (leaf a) (leaf b))
  have tree : JsonTree (fun _ _ => True) (.call { name := "JSON_EXTRACT", args := [.binary {} "+" (.col "a") (.col "b"),
      .str "$.k"] }) :=
    .access {} {} known (.binary {} plus (.column {} (plain_letter a)) (.column {} (plain_letter b))) key trivial
  obtain ⟨engine, text, read, built, applied, printed, parsed, same⟩ := rewrites.translated registered_postgres tree {}
  have shown : (Transpiler.print profile.dialect profile.dialect
      (.expression {} (.binary {} "->" (.binary {} "+" (.col "a") (.col "b")) (.str "k")))).toOption =
      some "a + b -> 'k'" := by
    decide +kernel
  obtain rfl : text = "a + b -> 'k'" := by
    have both := shown.symm.trans (congrArg Except.toOption printed)
    exact (Option.some.inj both).symm
  refine ⟨_, engine, _, read, rfl, tree, built, applied, printed, parsed, ?_⟩
  intro equal
  cases rewrites.same.mp (same.symm.trans equal) with
  | access _ _ _ _ _ safe => exact absurd safe.1 (by unfold Expr.Closed; decide)

end Postgres

end SqlDialects
