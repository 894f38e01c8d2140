import SqlDialects.Engine
import SqlDialects.Parser.Statement
import SqlDialects.Printer.Statement

/-! Converting statements between dialects, with further rules that can be exchanged while the
transpiler is in use. Engines are kept for the pairs of dialects that have been used. -/

namespace SqlDialects

/-- `rules` apply on top of every target's own; `engines` were built from them. -/
structure Transpiler where
  registry : Registry := .standard
  rules : List Rule := []
  engines : List (String × Engine) := []

/-- What is logged when a statement was read but cannot be converted. -/
structure Notice where
  event : String
  source : String
  target : String
  error : Error

/-- Why a conversion failed, with what is to be logged. -/
structure Failure where
  error : Error
  notice : Option Notice := none

def Rule.forTarget (rules : List Rule) (target : String) : List Rule :=
  rules.filter fun r => r.pattern.target == "" || r.pattern.target == target

namespace Transpiler

abbrev Work := ExceptT Failure (StateM Transpiler)

/-! The steps that see or change the shared state, each at once. -/

def view (t : Transpiler) (key : String) : Option Engine × List Rule :=
  (t.engines.lookup key, t.rules)

def store (t : Transpiler) (key : String) (e : Engine) : Transpiler :=
  { t with engines := (key, e) :: t.engines.filter (·.1 != key) }

def swap (t : Transpiler) (rules : List Rule) : Transpiler := { t with rules, engines := [] }

/-! Rules. -/

/-- What is wrong with rules on the way to one of the dialects. -/
def rulesFault? (r : Registry) (rules : List Rule) : Option RuleFault :=
  r.sorted.findSome? fun entry =>
    match Engine.build entry entry (Rule.forTarget rules entry.name) with
    | .ok _ => none
    | .error fault => some fault

/-- Exchanges the rules, or leaves everything as it is if some dialect cannot take them. -/
def setRules (t : Transpiler) (rules : List Rule) : Except Error Transpiler :=
  match rulesFault? t.registry rules with
  | some fault => .error (.rules fault)
  | none => .ok (t.swap rules)

def ruleNames (t : Transpiler) : List String := t.rules.map Rule.name

/-! Conversion. -/

def pairKey (source target : String) : String := source ++ ">" ++ target

/-- The engine of a pair, built on first use. -/
def engine (source target : Entry) : Work Engine := do
  let key := pairKey source.name target.name
  let (kept, rules) := (← get).view key
  match kept with
  | some e => return e
  | none =>
    match Engine.build source target (Rule.forTarget rules target.name) with
    | .ok e =>
      modify (·.store key e)
      return e
    | .error fault => throw { error := .rules fault }

def print (source target : Dialect) (s : Statement) : Except Error String :=
  ({ dialect := target, source := some source.name } : Printer).statement s

def convert (source target : Entry) (s : Statement) : Work String := do
  let e ← engine source target
  let failed (event : String) (error : Error) : Work String :=
    throw { error, notice := some ⟨event, source.name, target.name, error⟩ }
  match e.apply s with
  | .error error => failed "rewrite failed" error
  | .ok s =>
    match print source.dialect target.dialect s with
    | .error error => failed "generate failed" error
    | .ok text => return text

/-- A step that may fail without anything to log. -/
def plain {α : Type} (outcome : Except Error α) : Work α :=
  match outcome with
  | .ok a => return a
  | .error error => throw { error }

/-- The two dialects by name. -/
def pair (source target : String) : Work (Entry × Entry) := do
  let registry := (← get).registry
  let source ← plain (registry.lookup source)
  let target ← plain (registry.lookup target)
  return (source, target)

/-- Converts one statement. -/
def transpile (sql source target : String) : Work String := do
  let (source, target) ← pair source target
  let s ← plain (Statement.parse source.dialect sql)
  convert source target s

def convertAll (source target : Entry) (index : Nat) : List Statement → Work (List String)
  | [] => return []
  | s :: rest => do
    let text ← tryCatch (convert source target s) fun failure =>
      throw { failure with error := .statement index failure.error }
    return text :: (← convertAll source target (index + 1) rest)

/-- Converts a script; the first statement that fails ends it. -/
def transpileAll (sql source target : String) : Work (List String) := do
  let (source, target) ← pair source target
  let statements ← plain (Statement.parseAll source.dialect sql)
  convertAll source target 1 statements

end Transpiler

/-! Renames that users write. -/

/-- Calls of the neutral function `function` are printed as `newName` for the dialect `target`. -/
structure Rename where
  target : String := ""
  function : String := ""
  newName : String := ""
deriving Repr, DecidableEq

namespace Rename

/-- Users' rules come before the built-in ones. -/
def priority : Int := 100

def rule (registry : Registry) (r : Rename) : Except Error Rule := do
  let entry ← registry.lookup r.target
  let function := Text.upper (Text.trim r.function)
  let native := Text.trim r.newName
  if function = "" || native = "" then throw (.emptyRename entry.name)
  let base := Rule.rename entry.name function native
  return { base with name := "override:" ++ base.name, priority }

def rulesFrom (registry : Registry) (index : Nat) : List Rename → Except Error (List Rule)
  | [] => .ok []
  | r :: rest =>
    match r.rule registry with
    | .error e => .error (.rename index e)
    | .ok first => do return first :: (← rulesFrom registry (index + 1) rest)

def rules (registry : Registry) (renames : List Rename) : Except Error (List Rule) :=
  rulesFrom registry 1 renames

end Rename

end SqlDialects
