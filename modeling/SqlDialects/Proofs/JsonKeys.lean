import SqlDialects.Proofs.Columns
import SqlDialects.Proofs.JsonArrows

/-! Keys behind the arrows of Postgres. The parser turns a key into a path, and the rules turn a path back into a key
where they can. The second step keeps paths apart, the first one does not keep keys apart: a key in braces is read as
an array of steps, and one that begins with a dollar as a path. -/

namespace SqlDialects

open Token SqlDialects.Parser

variable {first : Ident} {rest : List Ident}

namespace Postgres

variable {op function : String}

/-! ### Reading a key -/

/-- A column with an arrow and a key behind it. -/
def arrowText (first : Ident) (rest : List Ident) (op key : String) : String :=
  columnText profile.dialect.toLexicon first rest ++ " " ++ op ++ " " ++
  Printer.quoteString profile.dialect.toLexicon key

theorem arrow_parsed (known : (op, function) ∈ arrows) (names : ∀ id ∈ first :: rest, id.IsName)
    (column : first.quoted = false → first.IsColumn profile.dialect) (key : String) :
    ∃ pos e, Statement.parse profile.dialect (arrowText first rest op key) = .ok (.expression pos e) ∧
      e.bare = (Expr.call { name := function, args :=
        [.column {} (first :: rest), .literal {} .string (keyPath key)] }).bare := by
  have regular := profile_regular.lexicon
  have keyed := keyed_operand (written_string profile_regular key {}) ⟨rfl, rfl⟩
  have spelled := spells_column regular (registered_quotesNames registered_postgres) names
  have text : Spells profile.dialect.toLexicon (arrowText first rest op key).toList
      (columnTokens profile.dialect.toLexicon first rest ++ operator op ::
        [{ kind := .string, text := key, pos := {}, stop := 0 }]) := by
    have joined := spelled.spaced regular ((arrow_spelled known).spaced regular keyed.spelled)
    simpa [arrowText] using joined
  have operand : ReadsOperand profile.dialect Prec.access (.column {} (first :: rest))
      (columnTokens profile.dialect.toLexicon first rest) := reads_columnPath column {} Prec.access
  have reads := (operand.reads Prec.access).extend (suffix_arrow known keyed.reads _) (Nat.le_refl _) (Nat.le_refl _)
  rw [jsonPath_string] at reads
  refine statement_of_value text ?_ ?_ fun c shown => reads.value (by decide) shown
  · -- behind the first name there is a point or the arrow
    have own : (first.token profile.dialect.toLexicon).Ordinary := Ident.token_ordinary column
    cases rest with
    | nil =>
      simp only [columnTokens, List.flatMap_nil, List.cons_append, List.nil_append, List.take_succ_cons, List.take_zero,
        List.forall_mem_cons, List.not_mem_nil, false_imp_iff, implies_true, and_true]
      exact ⟨own, fun _ _ => rfl⟩
    | cons =>
      simp only [columnTokens, List.flatMap_cons, List.cons_append, List.nil_append,
        List.take_succ_cons, List.take_zero,
        List.forall_mem_cons, List.not_mem_nil, false_imp_iff, implies_true, and_true]
      exact ⟨own, fun _ _ => rfl⟩
  · have noParen : (first.token profile.dialect.toLexicon).isOp "(" = false := by
      unfold Ident.token
      split
      · rfl
      · exact isOp_word ..
    simp [columnTokens, noParen]

/-- A tree that is an access up to positions. -/
theorem access_of_bare {e : Expr} {names : List Ident} {path : String}
    (same : e.bare = (Expr.call { name := function, args := [.column {} names, .literal {} .string path] }).bare) :
    ∃ p q r, e = .call { pos := p, name := function, args := [.column q names, .literal r .string path] } := by
  have leaves : ∀ arg ∈ [Expr.column {} names, .literal {} .string path], arg.IsLeaf := by simp [Expr.IsLeaf]
  obtain ⟨⟨p, _⟩, alike⟩ := (PlainCall.mk {} leaves).of_bare same
  obtain ⟨_, _, _, _, each⟩ := alike.of_call
  obtain _ | ⟨operand, _ | ⟨path, _ | _⟩⟩ := each
  cases operand
  cases path
  exact ⟨p, _, _, rfl⟩

/-! ### Translating an access -/

/-- An access that is not written as an arrow is left as it is. -/
theorem outbound_keeps {engine : Engine} (known : (op, function) ∈ arrows) (pos : Position) {operand path : Expr}
    (unwritten : jsonKey? path = none) : engine.step ((Entry.ofProfile profile).rules.inPhase .outbound)
      (.expr (.call { pos, name := function, args := [operand, path] })) = .ok none := by
  refine Rule.settle_none (fun r inside => ?_) _
  obtain rfl | kind | ⟨named, other⟩ := outbound_arrow known ((Entry.mem_outbound registered_postgres).mp inside)
  · simp [Rule.fire?, arrow, unwritten]
  · exact Rule.fire_unmatched (Pattern.matches_kind (Ne.symm kind) _)
  · exact Rule.fire_unmatched (by simp [Pattern.matches, Node.name, named, Ne.symm other])

/-- What is written for an access. -/
def accessText (op function column path : String) : String :=
  match jsonKey? (.literal {} .string path) with
  | some (.literal _ .string key) => column ++ " " ++ op ++ " " ++ Printer.quoteString profile.dialect.toLexicon key
  | some (.literal _ .number index) => column ++ " " ++ op ++ " " ++ index
  | _ => function ++ "(" ++ column ++ ", " ++ Printer.quoteString profile.dialect.toLexicon path ++ ")"

/-- The printer of translations within the dialect. -/
def printer : Printer := { dialect := profile.dialect, source := some profile.dialect.name }

theorem access_applied (known : (op, function) ∈ arrows) (pos p q r : Position) (names : List Ident) (path : String) :
    ∃ engine, Engine.build (Entry.ofProfile profile) (Entry.ofProfile profile) [] = .ok engine ∧
      engine.apply (.expression pos (.call { pos := p, name := function, args :=
        [.column q names, .literal r .string path] })) =
        .ok (.expression pos (match jsonKey? (.literal r .string path) with
          | some key => .binary p op (.column q names) key
          | none => .call { pos := p, name := function, args := [.column q names, .literal r .string path] })) := by
  have leaves : ∀ arg ∈ [Expr.column q names, .literal r .string path], arg.IsLeaf := by simp [Expr.IsLeaf]
  have spares (phase : Phase) (ctx : Context) (rounds : Nat) :
      Step.Spares (Rule.settle ctx rounds ((Entry.ofProfile profile).rules.inPhase phase)) [] :=
    phase_spares registered_postgres (fun _ _ listed => absurd listed List.not_mem_nil) ctx rounds
  let engine : Engine := ⟨profile.dialect, profile.dialect, (Entry.ofProfile profile).rules.inPhase .inbound,
    (Entry.ofProfile profile).rules.inPhase .outbound⟩
  have call : PlainCall function (.call { pos := p, name := function, args :=
    [.column q names, .literal r .string path] }) :=
    .mk p leaves
  have still : (engine.step ((Entry.ofProfile profile).rules.inPhase .inbound)).Turns
      (.call { pos := p, name := function, args := [.column q names, .literal r .string path] }) _ :=
    Step.turns_none (inbound_none registered_postgres (fun _ => arrow_foreign known) _ _)
  refine ⟨engine, rfl, Engine.apply_expression (call.phase (spares .inbound) still pos)
    (call.phase (spares .outbound) ?_ pos)⟩
  cases found : jsonKey? (.literal r .string path) with
  | none => exact Step.turns_none (outbound_keeps known p found)
  | some key => exact (outbound_writesArrows rfl).access op function known p _ _ key found

theorem jsonKey_bare (place : Position) (path : String) :
    (jsonKey? (.literal place .string path)).map Expr.bare = jsonKey? (.literal {} .string path) := by
  simp only [jsonKey?]
  split
  · split <;> rfl
  · split <;> rfl
  · rfl

theorem access_printed (known : (op, function) ∈ arrows) (p q r : Position) (names : List Ident) (path : String) :
    printer.expr (match jsonKey? (.literal r .string path) with
      | some key => .binary p op (.column q names) key
      | none => .call { pos := p, name := function, args := [.column q names, .literal r .string path] }) =
      .ok (accessText op function (printer.path names) path) := by
  have level := operator_prec known
  have native : printer.functionName function = function := by
    simp only [arrows, List.mem_cons, Prod.mk.injEq, List.not_mem_nil, or_false] at known
    obtain ⟨_, rfl⟩ | ⟨_, rfl⟩ := known <;> rfl
  have infixed (kind : LiteralKind) (key : String) :
    printer.expr (.binary p op (.column q names) (.literal r kind key)) =
      .ok (printer.path names ++ " " ++ op ++ " " ++ printer.literal kind key) := by
    have column (text : String) : (Expr.column q names).atLevel (leftLevel op) text = text := by
      rw [Expr.atLevel, level.2]
      rfl
    have literal (text : String) : (Expr.literal r kind key).atLevel (binaryPrec op + 1) text = text := by
      rw [Expr.atLevel, level.1]
      rfl
    rw [Printer.expr_binary, Printer.expr_column, Printer.expr_literal]
    simp only [bind, Except.bind, column, literal]
    rfl
  have bare := jsonKey_bare r path
  unfold accessText
  cases found : jsonKey? (.literal r .string path) with
  | none =>
    rw [found] at bare
    rw [← bare]
    have each : printer.exprs [.column q names, .literal r .string path] =
        .ok [printer.path names, Printer.quoteString profile.dialect.toLexicon path] := rfl
    have available : printer.dialect.unavailable = [] := registered_available registered_postgres
    rw [Printer.expr_call, Printer.call, available, each]
    have unkeyed : printer.keyed = false := rfl
    simp [Printer.orderItems, Printer.exprOption, Printer.listClause, Printer.clause, Printer.commas, native, unkeyed,
      String.intercalate_cons_cons, bind, Except.bind, pure, Except.pure, ← String.append_assoc]
  | some key =>
    rw [found] at bare
    rw [← bare]
    obtain ⟨step, _, _, rfl⟩ | ⟨index, _, _, rfl⟩ := jsonKey_cases found
    · exact infixed .string _
    · exact infixed .number _

theorem arrow_translated {t : Transpiler} (plain : t.Plain) (known : (op, function) ∈ arrows)
    (names : ∀ id ∈ first :: rest, id.IsName)
      (column : first.quoted = false → first.IsColumn profile.dialect) (key : String) :
    ∃ next, Transpiler.transpile (arrowText first rest op key) "postgres" "postgres" t =
      (.ok (accessText op function (printer.path (first :: rest)) (keyPath key)), next) := by
  obtain ⟨pos, e, parsed, same⟩ := arrow_parsed known names column key
  obtain ⟨p, q, r, rfl⟩ := access_of_bare same
  obtain ⟨engine, built, applied⟩ := access_applied known pos p q r (first :: rest) (keyPath key)
  obtain ⟨next, translated, _⟩ := plain.transpile registered_postgres registered_postgres parsed built applied
    (access_printed known p q r (first :: rest) (keyPath key))
  refine ⟨next, ?_⟩
  rwa [show (Entry.ofProfile profile).name = "postgres" from rfl] at translated

/-! ### Telling accesses apart -/

theorem quoteString_injective {lexicon : Lexicon} (regular : lexicon.Regular) {a b : String}
    (same : Printer.quoteString lexicon a = Printer.quoteString lexicon b) : a = b := by
  obtain ⟨tokens, read, first⟩ := (spells_string regular a).tokenize
  obtain ⟨tokens', read', second⟩ := (spells_string regular b).tokenize
  rw [same, read', Except.ok.injEq] at read
  subst read
  have both := first.symm.trans second
  simpa using both

/-- The first character that no word has. -/
def firstMark (cs : List Char) : Option Char := cs.find? fun c => !isIdentChar c

private theorem firstMark_word {word : List Char} (all : word.all isIdentChar) (cs : List Char) :
    firstMark (word ++ cs) = firstMark cs := by
  have none : word.find? (fun c => !isIdentChar c) = none := by
    rw [List.find?_eq_none]
    intro c member mark
    rw [List.all_eq_true.mp all c member] at mark
    cases mark
  rw [firstMark, List.find?_append, none, Option.none_or]
  rfl

private theorem firstMark_found {word : List Char} (all : word.all isIdentChar) {mark : Char}
    (stops : isIdentChar mark = false) (cs : List Char) : firstMark (word ++ mark :: cs) = some mark := by
  rw [firstMark_word all]
  simp [firstMark, stops]

/-- What is written without quotes is a word or a number. -/
private theorem unquoted_all {name : String} (plain : Printer.needsQuotes profile.dialect.toLexicon name = false) :
    name.toList.all isIdentChar := by
  simp only [Printer.needsQuotes, Bool.or_eq_false_iff] at plain
  cases shape : name.toList with
  | nil => rfl
  | cons c cs =>
    rw [shape] at plain
    by_cases digit : c.isDigit
    · have digits : cs.all Char.isDigit = true := by simpa [digit] using plain.2
      rw [List.all_cons, List.all_eq_true.mpr fun d member =>
        by simp [isIdentChar, List.all_eq_true.mp digits d member]]
      simp [isIdentChar, digit]
    · have word : isIdentStart c = true ∧ cs.all isIdentChar = true := by simpa [digit] using plain.2
      rw [List.all_cons, word.2]
      simp [isIdentChar, word.1]

private theorem firstMark_ident (id : Ident) {cs : List Char} (apart : firstMark cs ≠ some '(') :
    firstMark ((printer.ident id).toList ++ cs) ≠ some '(' := by
  have unkeyed : printer.keyed = false := rfl
  unfold Printer.ident
  rw [unkeyed, Bool.or_false]
  split
  · next template =>
    obtain ⟨left, shape⟩ := String.startsWith_string_iff.mp (Bool.and_eq_true_iff.mp template).2
    have found : firstMark (['$'] ++ '\x7b' :: (left ++ cs)) = some '\x7b' := firstMark_found (by decide) (by decide) _
    rw [← shape]
    exact fun same => absurd (found.symm.trans same) (by decide)
  split
  · have quotes : printer.dialect.identQuotes.headD '\x22' = '\x22' := rfl
    have found (cs : List Char) : firstMark ([] ++ '\x22' :: cs) = some '\x22' :=
      firstMark_found (by decide) (by decide) cs
    rw [Printer.quoteIdent, quotes, String.toList_ofList, List.cons_append]
    exact fun same => absurd ((found _).symm.trans same) (by decide)
  · next plain =>
    rw [Bool.not_eq_true, Bool.or_eq_false_iff] at plain
    rwa [firstMark_word (unquoted_all plain.2)]

private theorem firstMark_path (names : List Ident) {cs : List Char} (apart : firstMark cs ≠ some '(') :
    firstMark ((printer.path names).toList ++ cs) ≠ some '(' := by
  unfold Printer.path
  induction names with
  | nil => simpa using apart
  | cons id names ih =>
    cases names with
    | nil => simpa using firstMark_ident id apart
    | cons second names =>
      have shape : (".".intercalate ((id :: second :: names).map printer.ident)).toList ++ cs =
          (printer.ident id).toList ++ ('.' :: ((".".intercalate
            ((second :: names).map printer.ident)).toList ++ cs)) := by
        simp [String.intercalate_cons_cons]
      rw [shape]
      have found (cs : List Char) : firstMark ([] ++ '.' :: cs) = some '.' := firstMark_found rfl (by decide) cs
      exact firstMark_ident id fun same => absurd ((found _).symm.trans same) (by decide)

/-- The three forms of an access: with a key, with an index and as a call. -/
theorem accessText_cases (op function column path : String) :
    (∃ step, path = "$." ++ step ∧ accessText op function column path =
      column ++ " " ++ op ++ " " ++ Printer.quoteString profile.dialect.toLexicon step) ∨
    (∃ index, path = "$[" ++ index ++ "]" ∧ isIndex index.toList ∧
      accessText op function column path = column ++ " " ++ op ++ " " ++ index) ∨
    accessText op function column path =
      function ++ "(" ++ column ++ ", " ++ Printer.quoteString profile.dialect.toLexicon path ++ ")" := by
  unfold accessText
  cases found : jsonKey? (.literal {} .string path) with
  | none => exact .inr (.inr rfl)
  | some key =>
    obtain ⟨step, shape, _, rfl⟩ | ⟨index, shape, isIndex, rfl⟩ := jsonKey_cases found
    · refine .inl ⟨String.ofList step, ?_, rfl⟩
      rw [← String.toList_inj, shape]
      simp
    · refine .inr (.inl ⟨String.ofList index, ?_, by rwa [String.toList_ofList], rfl⟩)
      rw [← String.toList_inj, shape]
      simp

theorem accessText_inj (known : (op, function) ∈ arrows) (names : List Ident) (path path' : String) :
    accessText op function (printer.path names) path =
    accessText op function (printer.path names) path' ↔ path = path' := by
  refine ⟨fun same => ?_, fun same => by rw [same]⟩
  have call (text path : String) : printer.path names ++ " " ++ op ++ " " ++ text ≠
      function ++ "(" ++ printer.path names ++ ", " ++ Printer.quoteString profile.dialect.toLexicon path ++ ")" := by
    intro same
    have word : function.toList.all isIdentChar := by
      simp only [arrows, List.mem_cons, Prod.mk.injEq, List.not_mem_nil, or_false] at known
      obtain ⟨_, rfl⟩ | ⟨_, rfl⟩ := known <;> decide
    have blank (cs : List Char) : firstMark ([] ++ ' ' :: cs) ≠ some '(' := by
      rw [firstMark_found (by decide) (by decide)]
      decide
    have left := firstMark_path names (blank (op ++ " " ++ text).toList)
    have right := firstMark_found word (show isIdentChar '(' = false by decide)
      (printer.path names ++ ", " ++ Printer.quoteString profile.dialect.toLexicon path ++ ")").toList
    have chars : (printer.path names).toList ++ ([] ++ ' ' :: (op ++ " " ++ text).toList) =
        function.toList ++ '(' :: (printer.path names ++ ", " ++
          Printer.quoteString profile.dialect.toLexicon path ++ ")").toList := by
      simpa using congrArg String.toList same
    rw [chars] at left
    exact left right
  have index (index step : String) (isIndex : isIndex index.toList) :
      index ≠ Printer.quoteString profile.dialect.toLexicon step := by
    rintro rfl
    have quotes : profile.dialect.stringQuotes.headD '\x27' = '\x27' := rfl
    have shape : (Printer.quoteString profile.dialect.toLexicon step).toList =
        '\x27' :: (Printer.stringBody '\x27' profile.dialect.backslashEscapes step.toList ++ ['\x27']) := by
      simp only [Printer.quoteString, quotes, String.toList_ofList, List.cons_append]
    rw [shape] at isIndex
    obtain ⟨digit, _⟩ | ⟨mark, ds, same, sign, _⟩ := isIndex_cases isIndex
    · simp at digit
    · cases same
      exact absurd sign (by decide)
  obtain ⟨step, rfl, text⟩ | ⟨n, rfl, isIndex, text⟩ | text :=
    accessText_cases op function (printer.path names) path <;>
    obtain ⟨step', rfl, text'⟩ | ⟨n', rfl, isIndex', text'⟩ | text' :=
      accessText_cases op function (printer.path names) path' <;>
    rw [text, text'] at same
  · rw [quoteString_injective profile_regular.lexicon (String.append_right_inj _ |>.mp same)]
  · exact absurd (String.append_right_inj _ |>.mp same).symm (index n' step isIndex')
  · exact absurd same (call _ _)
  · exact absurd (String.append_right_inj _ |>.mp same) (index n step' isIndex)
  · rw [String.append_right_inj _ |>.mp same]
  · exact absurd same (call _ _)
  · exact absurd same.symm (call _ _)
  · exact absurd same.symm (call _ _)
  · refine quoteString_injective profile_regular.lexicon
      (String.append_right_inj _ |>.mp (String.append_left_inj _ |>.mp same))

/-- Accesses to one column by two keys become different texts exactly if the keys stand for different paths. Keys that
are one step stand for different paths. -/
theorem arrow_keys_apart_iff {t u : Transpiler} (plain : t.Plain) (plain' : u.Plain) (known : op ∈ ["->", "->>"])
    (names : ∀ id ∈ first :: rest, id.IsName) (column : first.quoted = false → first.IsColumn profile.dialect)
    (key key' : String) :
    ∃ text text' next next', Transpiler.transpile (arrowText first rest op key)
    "postgres" "postgres" t = (.ok text, next) ∧
      Transpiler.transpile (arrowText first rest op key') "postgres" "postgres" u = (.ok text', next') ∧
      (text ≠ text' ↔ keyPath key ≠ keyPath key') ∧ (IsStep key → IsStep key' → (text ≠ text' ↔ key ≠ key')) := by
  obtain ⟨function, known⟩ : ∃ function, (op, function) ∈ arrows := by
    simp only [List.mem_cons, List.not_mem_nil, or_false] at known
    obtain rfl | rfl := known
    · exact ⟨"JSON_EXTRACT", by decide⟩
    · exact ⟨"JSON_EXTRACT_STRING", by decide⟩
  obtain ⟨next, translated⟩ := arrow_translated plain known names column key
  obtain ⟨next', translated'⟩ := arrow_translated plain' known names column key'
  have apart := not_congr (accessText_inj known (first :: rest) (keyPath key) (keyPath key'))
  refine ⟨_, _, next, next', translated, translated', apart, fun step step' => ?_⟩
  rw [ne_eq, apart, step.keyPath_eq, step'.keyPath_eq, String.append_right_inj]

private theorem name_c : (⟨"c", false⟩ : Ident).IsName :=
  fun _ => ⟨_, _, rfl, by decide, by decide⟩

private theorem column_c : Ident.IsColumn profile.dialect ⟨"c", false⟩ :=
  ⟨by decide +kernel, by decide +kernel, by decide +kernel, by decide +kernel⟩

theorem letters_apart : ∃ text text' next next', Transpiler.transpile "c -> 'a'" "postgres" "postgres"
    {} = (.ok text, next) ∧
    Transpiler.transpile "c -> 'b'" "postgres" "postgres" {} = (.ok text', next') ∧ text ≠ text' := by
  obtain ⟨text, text', next, next', translated, translated', _, steps⟩ :=
    arrow_keys_apart_iff Transpiler.plain_initial Transpiler.plain_initial (show "->" ∈ ["->", "->>"] by decide)
      (List.forall_mem_singleton.mpr name_c) (fun _ => column_c) "a" "b"
  have source (key : String) (known : key ∈ ["a", "b"]) :
    arrowText ⟨"c", false⟩ [] "->" key = "c -> '" ++ key ++ "'" := by
    simp only [List.mem_cons, List.not_mem_nil, or_false] at known
    obtain rfl | rfl := known <;> decide
  rw [source "a" (by decide)] at translated
  rw [source "b" (by decide)] at translated'
  have step : IsStep "a" ∧ IsStep "b" := by decide +kernel
  exact ⟨text, text', next, next', translated, translated', (steps step.1 step.2).mpr (by decide)⟩

/-- A key in braces is taken for an array of one step, so that its translation is that of the step. -/
theorem braces_dropped : ∃ next next', Transpiler.transpile "c -> '\x7ba\x7d'" "postgres" "postgres" {} =
    (.ok "c -> 'a'", next) ∧
    Transpiler.transpile "c -> 'a'" "postgres" "postgres" {} = (.ok "c -> 'a'", next') := by
  have translated (key : String) := arrow_translated Transpiler.plain_initial
    (show ("->", "JSON_EXTRACT") ∈ arrows by decide)
    (List.forall_mem_singleton.mpr name_c) (fun _ => column_c) key
  obtain ⟨next, first⟩ := translated "\x7ba\x7d"
  obtain ⟨next', second⟩ := translated "a"
  have array : pathSteps "\x7ba\x7d" = ".a" := by
    rw [pathSteps, show "," = String.ofList [','] by decide, splitOn_char]
    decide +kernel
  have paths : keyPath "\x7ba\x7d" = "$.a" ∧ keyPath "a" = "$.a" := by
    rw [keyPath, array]
    decide +kernel
  have text : accessText "->" "JSON_EXTRACT" (printer.path [⟨"c", false⟩]) "$.a" = "c -> 'a'" := by decide +kernel
  have sources : arrowText ⟨"c", false⟩ [] "->" "\x7ba\x7d" = "c -> '\x7ba\x7d'" ∧
      arrowText ⟨"c", false⟩ [] "->" "a" = "c -> 'a'" := by decide
  rw [sources.1, paths.1, text] at first
  rw [sources.2, paths.2, text] at second
  exact ⟨next, next', first, second⟩

end Postgres

end SqlDialects
