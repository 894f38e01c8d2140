import SqlDialects.Registry
import SqlDialects.Tree.Adapt

/-! Adapting a statement on its way from one dialect to another: the source's inbound rules, then
the target's outbound rules, each over the whole tree from the leaves up. -/

namespace SqlDialects

namespace Rule

def fire? (r : Rule) (ctx : Context) (n : Node) : Except Error (Option Node) :=
  match r.transform with
  | some transform => if r.pattern.matches n ctx then transform ctx n else .ok none
  | none => .ok none

def firstChange (ctx : Context) (n : Node) :
    List Rule → Except Error (Option (Replacement × List Rule))
  | [] => .ok none
  | r :: rs => do
    match ← r.fire? ctx n with
    | some m => return some (⟨m, r.keeps⟩, rs)
    | none =>
      match ← firstChange ctx n rs with
      | some (m, rest) => return some (m, r :: rest)
      | none => return none

/-- Applies rules to a node until none changes it. A rule is spent once it has fired, so there are
at most as many rounds as rules. -/
def settle (ctx : Context) : Nat → List Rule → Step
  | 0, _, _ => .ok none
  | rounds + 1, rules, n => do
    match ← firstChange ctx n rules with
    | none => return none
    | some (m, rest) =>
      match ← settle ctx rounds rest m.node with
      | none => return some m
      | some last => return some ⟨last.node, m.kept.andThen last.kept⟩

end Rule

/-- The rules between two dialects. -/
structure Engine where
  source : Dialect
  target : Dialect
  inbound : List Rule
  outbound : List Rule

namespace Engine

def outboundWith (target : Entry) (extra : List Rule) : Except RuleFault (List Rule) := do
  if extra.isEmpty then return target.rules.inPhase .outbound
  let set ← RuleSet.ofList (target.profile.outbound ++ extra)
  match extra.find? (·.phase == .inbound) with
  | some r => throw (.notOutbound r.name)
  | none => return set.inPhase .outbound

def build (source target : Entry) (extra : List Rule) : Except RuleFault Engine := do
  let outbound ← outboundWith target extra
  return { source := source.dialect, target := target.dialect,
           inbound := source.rules.inPhase .inbound, outbound }

/-- How deep rules may send trees they have built through the rules again, and how deep operands
may be repeated in one another. -/
def againDepth : Nat := 256

/-- Runs rules over a tree. Beyond the depth a tree stays as it is. -/
def run (e : Engine) (rules : List Rule) : Nat → Node → Except Error Node
  | 0, n => .ok n
  | depth + 1, n =>
    let step := Rule.settle ⟨e.source, e.target, e.run rules depth⟩ rules.length rules
    n.adapt (step.pass depth)

def phase (e : Engine) (rules : List Rule) (n : Node) : Except Error Node :=
  e.run rules againDepth n

def apply (e : Engine) (s : Statement) : Except Error Statement := do
  let n ← e.phase e.inbound (.statement s)
  match ← e.phase e.outbound n with
  | .statement s => return s
  | n => throw (.notStatement n.kind)

end Engine

end SqlDialects
