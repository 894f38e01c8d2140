import SqlDialects.Command.Spec

/-! The help that commands give about themselves. -/

namespace SqlDialects.Command

def trimEnd (s : String) : String :=
  String.ofList (s.toList.reverse.dropWhile Char.isWhitespace).reverse

def padTo (width : Nat) (s : String) : String :=
  s ++ String.ofList (List.replicate (width - s.length) ' ')

def FlagKind.valueName : FlagKind → String
  | .text => " string"
  | .switch => ""
  | .int => " int"
  | .duration => " duration"

/-- A default is worth saying unless it is nothing. -/
def Flag.defaultText (f : Flag) : String :=
  if ["", "false", "0", "0s"].contains f.default then ""
  else match f.kind with
    | .text => " (default " ++ Text.quote f.default ++ ")"
    | _ => " (default " ++ f.default ++ ")"

def Flag.head (f : Flag) : String :=
  (match f.short with
   | some c => "  -" ++ String.singleton c ++ ", --"
   | none => "      --") ++ f.name ++ f.kind.valueName

def flagLines (flags : List Flag) : String :=
  let flags := flags.mergeSort fun a b => a.name ≤ b.name
  let width := (flags.map (·.head.length)).foldl max 0
  "\n".intercalate (flags.map fun f =>
    padTo (width + 3) f.head ++ f.usage ++ f.defaultText)

namespace Branch

/-- How a command is called. -/
def useLine (c : Branch) : String :=
  " ".intercalate (c.parents.map Spec.name ++ [c.spec.use]) ++ " [flags]"

def usage (c : Branch) : String :=
  let children := c.children
  let own := flagLines c.ownFlags
  let inherited := flagLines c.inheritedFlags
  "Usage:" ++
    (if c.spec.isRunnable then "\n  " ++ c.useLine else "") ++
    (if children.isEmpty then ""
     else "\n  " ++ c.path ++ " [command]\n\nAvailable Commands:" ++
       String.join (children.map fun child =>
         "\n  " ++ padTo 11 child.spec.name ++ " " ++ child.spec.short)) ++
    "\n\nFlags:\n" ++ own ++
    (if inherited = "" then "" else "\n\nGlobal Flags:\n" ++ inherited) ++
    (if children.isEmpty then ""
     else "\n\nUse \"" ++ c.path ++
       " [command] --help\" for more information about a command.") ++ "\n"

def help (c : Branch) : String :=
  let about := trimEnd (if c.spec.long = "" then c.spec.short else c.spec.long)
  (if about = "" then "" else about ++ "\n\n") ++ c.usage

end Branch

end SqlDialects.Command
