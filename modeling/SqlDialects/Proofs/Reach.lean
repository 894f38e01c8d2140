import SqlDialects.Engine
import SqlDialects.Proofs.Renaming

/-! How far rules reach. A phase whose only rule renames the calls of one function makes of a statement the same
statement with those calls renamed: node by node the result is the statement's own list of nodes under the new
name, and a statement without such calls stays what it is. Values of table properties are no nodes. -/

namespace SqlDialects

/-! ### A phase with one rename -/

/-- Calls of one function under another name. -/
def renameOne (old new name : String) : String := if name = old then new else name

private theorem renameOne_settled (old new : String) : renameOne old new ∘ renameOne old new = renameOne old new := by
  funext name
  by_cases called : name = old
  · by_cases same : new = old <;> simp [renameOne, called, same]
  · simp [renameOne, called]

private theorem renameOne_ne {old new : String} (distinct : old ≠ new) (name : String) :
    renameOne old new name ≠ old := by
  unfold renameOne
  split
  · exact distinct.symm
  · assumption

section

variable {ctx : Context} {target old new : String}

theorem Rule.fire_rename_call (toward : target = "" ∨ target = ctx.target.name) (named : old ≠ "") (c : Call) :
    (Rule.rename target old new).fire? ctx (.expr (.call c)) =
      .ok (if c.name = old then some (.expr (.call { c with name := new })) else none) := by
  have direction : (target == "" || ctx.target.name == target) = true := by
    obtain rfl | rfl := toward <;> simp
  have matched : (Rule.rename target old new).pattern.matches (.expr (.call c)) ctx = (c.name == old) := by
    simp [Pattern.matches, Pattern.matchesArity, Rule.rename, Rule.callPattern, Node.kind, Expr.kind, Node.name, named,
      direction]
  change (if (Rule.rename target old new).pattern.matches (.expr (.call c)) ctx then
    Except.ok (some (Node.expr (.call { c with name := new }))) else .ok none) = _
  rw [matched]
  by_cases called : c.name = old <;> simp [called]

/-- It fires nowhere else. -/
theorem Rule.fire_rename_other {n : Node} (other : ∀ c, n ≠ .expr (.call c)) :
    (Rule.rename target old new).fire? ctx n = .ok none := by
  simp only [Rule.fire?, Rule.rename]
  split <;> rfl

/-- The one round that a single rule has gives every call of the function its new name. -/
private theorem Rule.settle_rename (toward : target = "" ∨ target = ctx.target.name) (named : old ≠ "") :
    Step.Renames (Rule.settle ctx 1 [Rule.rename target old new]) (renameOne old new) fun _ => True where
  call c _ := by
    by_cases called : c.name = old
    · have renamed : c.named (renameOne old new) = { c with name := new } := by simp [Call.named, renameOne, called]
      refine .inr ?_
      rw [Rule.settle, Rule.firstChange, Rule.fire_rename_call toward named, if_pos called, renamed]
      rfl
    · refine .inl ⟨?_, if_neg called⟩
      rw [Rule.settle, Rule.firstChange, Rule.fire_rename_call toward named, if_neg called]
      rfl
  other n other _ := by
    rw [Rule.settle, Rule.firstChange, Rule.fire_rename_other other]
    rfl
  marked _ _ _ := trivial

end

/-- A phase whose only rule renames the calls of one function renames them wherever they stand: the nodes of the
result are those of the statement under the new name, so no call of the function is left, and a statement that
does not call it stays what it is. A rule without a name would be one for all functions. -/
theorem Engine.phase_renames_calls (e : Engine) (target old new : String) (s : Statement)
    (toward : target = "" ∨ target = e.target.name) (named : old ≠ "") (distinct : old ≠ new) :
    e.phase [Rule.rename target old new] (.statement s) = .ok (.statement (s.rename (renameOne old new))) ∧
      (s.rename (renameOne old new)).nodes = s.nodes.map (Node.rename (renameOne old new)) ∧
      (∀ c : Call, .expr (.call c) ∈ (s.rename (renameOne old new)).nodes → c.name ≠ old) ∧
      ((∀ c : Call, .expr (.call c) ∈ s.nodes → c.name ≠ old) → s.rename (renameOne old new) = s) := by
  refine ⟨?_, s.nodes_rename _, ?_, ?_⟩
  · -- The rule is spent at a call once it has fired there, so one round is all that a node gets.
    exact (Rule.settle_rename toward named).adapt_statement (renameOne_settled old new) _ fun _ _ => trivial
  · intro c held
    rw [s.nodes_rename] at held
    obtain ⟨n, _, renamed⟩ := List.mem_map.mp held
    obtain ⟨name, called⟩ := Node.rename_call renamed
    rw [called]
    exact renameOne_ne distinct name
  · intro free
    refine s.rename_keeps fun n held => ?_
    rintro c rfl
    exact if_neg (free c held)

/-- A table whose definition calls a function wherever a definition can. The value of its property calls `NVL`. -/
def Statement.tableOver (name : String) : Statement :=
  let call : Expr := .fn name [.col "a"]
  let counted : Expr := .call { name, args := [.fn name []], orderBy := [{ expr := call }], filter := some call }
  let inner : Query := .select { items := [{ expr := .lambda {} [⟨"x", false⟩] call }], condition := some call }
  let query : Query := .select {
    ctes := [{ name := ⟨"v", false⟩, body := .scalar call }, { name := ⟨"q", false⟩, body := .query inner }]
    items := [{ expr := .window {} counted [call] [{ expr := call }] (some ⟨"ROWS", ⟨"PRECEDING", some call⟩, none⟩) },
      { expr := .caseWhen {} (some call) [⟨call, call⟩] (some call) }]
    source := some (.join {} "JOIN" (.function {} { name } none) (.derived {} inner none) (some call) [])
    lateralViews := [{ function := { name, args := [call] }, table := ⟨"w", false⟩ }] }
  .explain {} "" (.createTable {
    name := [⟨"t", false⟩]
    columns := [{ name := ⟨"a", false⟩, type := { name := "INT" }, defaultValue := some call }]
    constraints := [{ kind := .check, condition := some call }]
    sortKey := [call]
    partitioning := some { exprs := [call] }
    query := some query
    properties := [{ group := .list, key := "default", value := some (.fn "NVL" []) }] })

theorem Engine.table_calls_renamed :
    (⟨Ansi.dialect "old", Ansi.dialect "new", [], []⟩ : Engine).phase [Rule.rename "new" "NVL" "COALESCE"]
      (.statement (Statement.tableOver "NVL")) = .ok (.statement (Statement.tableOver "COALESCE")) := by
  obtain ⟨renamed, -⟩ := Engine.phase_renames_calls ⟨Ansi.dialect "old", Ansi.dialect "new", [], []⟩ "new" "NVL"
    "COALESCE" (Statement.tableOver "NVL") (.inr rfl) (by decide) (by decide)
  have whole : (Statement.tableOver "NVL").rename (renameOne "NVL" "COALESCE") = Statement.tableOver "COALESCE" := rfl
  rw [renamed, whole]

end SqlDialects
