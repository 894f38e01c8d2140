import SqlDialects.Dialect
import SqlDialects.Parser.Basic

/-! Types as a dialect spells them. A spelling without a rule becomes a native type. -/

namespace SqlDialects.Parser

/-- Words that extend a type name, by the word before them. -/
def typeContinuations : List (String × List String) := [
  ("DOUBLE", ["PRECISION"]), ("CHARACTER", ["VARYING"]), ("CHAR", ["VARYING"]),
  ("LONG", ["VARCHAR", "RAW"])]

def continuationsOf (name : String) : List String := (typeContinuations.lookup name).getD []

inductive TypeClose
  | paren
  | angle

def TypeClose.text : TypeClose → String
  | .paren => ")"
  | .angle => ">"

def closesType (close : TypeClose) (t : Token) : Bool :=
  match close with
  | .paren => t.isOp ")"
  | .angle => t.isOp ">" || t.isOp ">>" || t.isOp ">="

/-- The token without its first character. -/
def splitToken (t : Token) : Token :=
  { t with
    text := String.ofList (t.text.toList.drop 1)
    kind := .operator
    pos := { t.pos with offset := t.pos.offset + 1, column := t.pos.column + 1 } }

def takeTypeClose (close : TypeClose) : Parser Unit := do
  let t ← current
  match close with
  | .paren => advance
  | .angle =>
    if t.text.length > 1 then modify fun c => { c with current := splitToken t } else advance

/-- Whether the word at hand names a field: a colon or another type word follows it. -/
def isFieldName (c : Cursor) : Bool :=
  let next := c.peek
  if next.isOp ":" then true
  else if !next.isWord then false
  else if (continuationsOf c.current.upper).contains next.upper then false
  else if c.current.upper == "TIMESTAMP" || c.current.upper == "TIME" then
    !next.is "WITH" && !next.is "WITHOUT"
  else !next.is "UNSIGNED" && !next.is "SIGNED"

def typeElement (type : Parser TypeSpec) (n : NativeType) : Parser NativeType := do
  let t ← current
  if t.kind = .number then
    advance
    skipWhile Token.isWord
    return { n with params := n.params ++ [t.text] }
  if t.isOp "-" && (← peek).kind = .number then
    advance
    let number ← current
    advance
    return { n with params := n.params ++ ["-" ++ number.text] }
  if t.kind = .string then
    advance
    return { n with params := n.params ++ ["'" ++ t.text ++ "'"] }
  if t.is "MAX" then
    advance
    return { n with params := n.params ++ ["MAX"] }
  if (t.isWord || t.isQuoted) && isFieldName (← get) then
    advance
    let _ ← acceptOp ":"
    let fieldType ← type
    if ← accept "COMMENT" then advance
    return { n with fields := n.fields ++ [⟨t.text, fieldType⟩] }
  let arg ← type
  return { n with args := n.args ++ [arg] }

/-- The parameters after the opening sign, through the closing one. -/
def typeElements (type : Parser TypeSpec) (close : TypeClose) (n : NativeType) :
    Parser NativeType := do
  let step := fun (state : NativeType × Bool) => do
    if state.2 || closesType close (← current) then return none
    let n ← typeElement type state.1
    return some (n, !(← acceptOp ","))
  let (n, _) ← loop step (n, false)
  if closesType close (← current) then
    takeTypeClose close
    return n
  expected (Text.quote close.text)

/-- A zone after `TIMESTAMP` or `TIME`. -/
def zoneWords : Parser String := do
  if ← acceptSeq ["WITH", "TIME", "ZONE"] then return " WITH TIME ZONE"
  if ← acceptSeq ["WITHOUT", "TIME", "ZONE"] then return " WITHOUT TIME ZONE"
  if ← acceptSeq ["WITH", "LOCAL", "TIME", "ZONE"] then return " WITH TIME ZONE"
  return ""

def intervalFields : Parser Unit := do
  let _ ← loop (fun () => do
    if !(← curAny ["YEAR", "MONTH", "DAY", "HOUR", "MINUTE", "SECOND", "TO"]) then return none
    advance
    if ← curOp "(" then
      let _ ← skipGroup
    return some ()) ()

def nativeType (type : Parser TypeSpec) : Parser NativeType := do
  let t ← current
  if !t.isWord && !t.isQuoted then expected "type name"
  advance
  let mut n : NativeType := { pos := t.pos, name := t.upper }
  let next ← current
  if let some word := (continuationsOf n.name).find? next.is then
    advance
    n := { n with name := n.name ++ " " ++ word }
  if ← acceptOp "<" then n ← typeElements type .angle n
  else if ← acceptOp "(" then n ← typeElements type .paren n
  if n.name = "TIMESTAMP" || n.name = "TIME" then
    let zone ← zoneWords
    n := { n with name := n.name ++ zone }
  if n.name = "INTERVAL" then intervalFields
  loop (fun n => do
    if ← accept "UNSIGNED" then return some { n with unsigned := true }
    if ← acceptAny ["SIGNED", "ZEROFILL"] then return some n
    return none) n

def typeStep (d : Dialect) (type : Parser TypeSpec) : Parser TypeSpec := do
  let n ← nativeType type
  let t ← match d.types.find? n.name with
    | some rule => within (rule n)
    | none => pure { pos := n.pos, name := n.name, params := n.intParams, elems := n.args,
                     fields := n.fields, native := true : TypeSpec }
  loop (fun t => do
    if (← curOp "[") && (← peekOp "]") then
      advance
      advance
      return some { pos := t.pos, name := "ARRAY", elems := [t] }
    return none) t

def typeAt (d : Dialect) : Nat → Parser TypeSpec
  | 0 => stall
  | depth + 1 => typeStep d (typeAt d depth)

/-- A type. Each level of nesting takes a token, so the tokens that are left bound the depth. -/
def type (d : Dialect) : Parser TypeSpec := do
  typeAt d ((← get).bound + 1)

def wholeType (d : Dialect) : Parser TypeSpec := do
  let t ← type d
  if !(← atEnd) then expected "end of type"
  return t

def parseType (d : Dialect) (sql : String) : Except Error TypeSpec := do
  let c ← Cursor.ofText d.toLexicon sql
  (wholeType d).run' c

end SqlDialects.Parser
