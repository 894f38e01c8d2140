import SqlDialects.Rule

/-! Validated collections of rules. Within one phase no two rules of equal priority and specificity
may match the same node, so the first match is the only candidate of its rank. -/

namespace SqlDialects

namespace Rule

/-- Whether two rules compete for some node at the same rank. -/
def conflicts (a b : Rule) : Bool :=
  a.phase == b.phase && a.priority == b.priority &&
    a.pattern.specificity == b.pattern.specificity && a.pattern.overlaps b.pattern

/-- The order of application: higher priority first, then the more specific pattern, then the
name. -/
def before (a b : Rule) : Bool :=
  if a.priority ≠ b.priority then a.priority > b.priority
  else if a.pattern.specificity ≠ b.pattern.specificity then
    a.pattern.specificity > b.pattern.specificity
  else a.name ≤ b.name

def fault? (seen : List String) (r : Rule) : Option RuleFault :=
  if r.name = "" then some .unnamed
  else if r.pattern.kind = "" then some (.noKind r.name)
  else if r.transform.isNone then some (.noTransform r.name)
  else if seen.contains r.name then some (.duplicate r.name)
  else none

end Rule

structure RuleSet where
  rules : List Rule := []

namespace RuleSet

def firstFault (seen : List String) : List Rule → Option RuleFault
  | [] => none
  | r :: rs => (r.fault? seen).orElse fun _ => firstFault (r.name :: seen) rs

def firstConflict : List Rule → Option RuleFault
  | [] => none
  | a :: rest =>
    match rest.find? a.conflicts with
    | some b => some (.ambiguous a.name b.name a.pattern.kind a.phase.name)
    | none => firstConflict rest

def fault? (rules : List Rule) : Option RuleFault :=
  (firstFault [] rules).orElse fun _ => firstConflict rules

/-- Rules put in order, whatever they are. -/
def arrange (rules : List Rule) : RuleSet := ⟨rules.mergeSort Rule.before⟩

def ofList (rules : List Rule) : Except RuleFault RuleSet :=
  match fault? rules with
  | some fault => .error fault
  | none => .ok (arrange rules)

def inPhase (set : RuleSet) (phase : Phase) : List Rule := set.rules.filter (·.phase == phase)

def size (set : RuleSet) : Nat := set.rules.length

def names (set : RuleSet) : List String := set.rules.map Rule.name

end RuleSet

end SqlDialects
