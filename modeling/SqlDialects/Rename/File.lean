import SqlDialects.Config.File
import SqlDialects.Transpiler

/-! Reading renames from a file: a table per rename, with a target, a function and its name there.
-/

namespace SqlDialects.Rename

/-- Why no rules can be read. -/
inductive LoadError
  | file (error : FileError)
  | format (fault : Toml.Fault)
  | unknownKey (path : String) (key : List String)
  | rule (error : Error)

def LoadError.message : LoadError → String
  | .file error => "rules: " ++ error.message
  | .format fault => "rules: " ++ fault.message
  | .unknownKey path key => "rules: unknown key " ++ Toml.keyText key ++ " in " ++ path
  | .rule error => error.message

def LoadError.kindName : LoadError → String
  | .rule error => error.kindName
  | _ => "internal_error"

def isTable (name : String) : Bool := Text.equalFold name "rename"

def fieldNames : List String := ["target", "function", "to"]

def known : List String → Bool
  | [table] => isTable table
  | [table, name] => isTable table && fieldNames.any (Text.equalFold name ·)
  | _ => false

/-- Sets one field. -/
def put (r : Rename) (name : String) : Toml.Value → Rename
  | .string s =>
    if Text.equalFold name "target" then { r with target := s }
    else if Text.equalFold name "function" then { r with function := s }
    else if Text.equalFold name "to" then { r with newName := s }
    else r
  | _ => r

/-- The rename that a table between braces gives. -/
def ofFields (fields : List (List String × Toml.Value)) : Rename :=
  fields.foldl (fun r (names, v) => match names with
    | [name] => r.put name v
    | _ => r) {}

def ofValue : Toml.Value → Rename
  | .table fields => ofFields fields
  | _ => {}

def addItem (done : List Rename) : Toml.Item → List Rename
  | .element [table] => if isTable table then {} :: done else done
  | .value [table] (.array items) =>
    if isTable table then (items.map ofValue).reverse ++ done else done
  | .value [table, name] v =>
    match done with
    | r :: rest => if isTable table then r.put name v :: rest else done
    | [] => done
  | _ => done

def ofItems (items : List Toml.Item) : List Rename := (items.foldl addItem []).reverse

def rulesOfText (registry : Registry) (path text : String) : Except LoadError (List Rule) :=
  match Toml.read text with
  | .error fault => .error (.format fault)
  | .ok items =>
    match (items.flatMap Toml.Item.keys).find? (!known ·) with
    | some key => .error (.unknownKey path key)
    | none =>
      match Rename.rules registry (ofItems items) with
      | .ok rules => .ok rules
      | .error e => .error (.rule e)

def load (registry : Registry) (path : String) :
    Except FileError String → Except LoadError (List Rule)
  | .ok text => rulesOfText registry path text
  | .error e => .error (.file e)

end SqlDialects.Rename
