import SqlDialects.Function.Basic

/-! Reshaping steps that more than one dialect uses. -/

namespace SqlDialects

namespace Expr

def asDatetime (e : Expr) : Expr :=
  match e with
  | .cast _ _ type _ => if type.is "DATETIME" then e else .cast e.pos e (.named "DATETIME") false
  | _ => .cast e.pos e (.named "DATETIME") false

/-- A regular expression in a group, so that extracting its matches yields whole matches. -/
def grouped : Expr → Expr
  | .literal pos .string value =>
    if value.toList.contains '(' then .literal pos .string value
    else .literal pos .string ("(" ++ value ++ ")")
  | e => e

end Expr

namespace Reshape

/-- A binary operation written as a call. -/
def operator (op : String) : Reshape := fun f =>
  match f.args with
  | x :: y :: _ => .ok (.binary f.pos op x y)
  | _ => f.arityError "2 arguments"

def nvl2 : Reshape := fun f =>
  match f.args with
  | x :: a :: b :: _ => .ok (f.become "IF" [.isValue f.pos x true "NULL", a, b])
  | _ => f.arityError "3 arguments"

def truncModels : List (String × String) := [
  ("YEAR", "YYYY"), ("QUARTER", "Q"), ("MONTH", "MM"), ("WEEK", "IW"), ("DAY", "DD"),
  ("HOUR", "HH"), ("MINUTE", "MI")]

def modelUnit? (model : String) : Option String :=
  let model := Text.upper model
  DateUnit.ofText? (((truncModels.find? (·.2 == model)).map (·.1)).getD model)

def truncDateOrNumber : Reshape := fun f =>
  match f.args with
  | x :: .literal pos .string model :: _ =>
    match modelUnit? model with
    | some unit => .ok (f.become "DATE_TRUNC" [x, .literal pos .string (Text.lower unit)])
    | none => .ok (f.become "TRUNCATE" f.args)
  | _ => .ok (f.become "TRUNCATE" f.args)

def daysInterval (name : String) : Reshape := fun f =>
  match f.args with
  | x :: .interval pos value unit :: rest =>
    .ok (f.become name (x :: .interval pos value unit :: rest))
  | x :: n :: rest => .ok (f.become name (x :: .interval n.pos n "DAY" :: rest))
  | _ => f.arityError "2 arguments"

/-- `sequence(start, stop)`, which includes its stop, as a range that does not. -/
def sequence : Reshape := fun f =>
  match f.args with
  | first :: last :: rest => .ok (f.become "ARRAY_RANGE" (first :: last.plus 1 :: rest))
  | _ => f.arityError "2 arguments"

/-- An access by index written as a call. -/
def elementAt : Reshape := fun f =>
  match f.args with
  | x :: i :: _ => .ok (.subscript f.pos x i)
  | _ => f.arityError "2 arguments"

/-- How many digits a number template keeps after the point; `none` for other templates. -/
def templateScale? (template : String) : Option Nat :=
  let shown := (Text.upper template).toList
  let body := if ['F', 'M'].isPrefixOf shown then shown.drop 2 else shown
  let isDigit := fun c => c == '9' || c == '0'
  let isPoint := fun c => c == 'D' || c == '.'
  let isFiller := fun c => ['G', ',', 'S', 'L', '$', ' ', '-'].contains c
  if body.any isDigit && body.all (fun c => isDigit c || isPoint c || isFiller c) then
    some ((body.dropWhile fun c => !isPoint c).countP isDigit)
  else none

def toChar (pattern : DatePattern) : Reshape := fun f =>
  match f.args with
  | [x] => .ok (.cast f.pos x (.named "STRING") false)
  | x :: .literal _ .string template :: _ =>
    match templateScale? template with
    | some scale => .ok (f.become "ROUND" [x, .num scale.repr])
    | none => formatArg "DATE_FORMAT" 1 pattern f
  | _ => formatArg "DATE_FORMAT" 1 pattern f

def toText (pattern : DatePattern) : Reshape := fun f =>
  match f.args with
  | [x] => .ok (.cast f.pos x (.named "STRING") false)
  | _ => formatArg "DATE_FORMAT" 1 pattern f

def toDatetime (pattern : DatePattern) : Reshape := fun f =>
  match f.args with
  | [x] => .ok x.asDatetime
  | _ => formatArg "STR_TO_DATE" 1 pattern f

/-- A regular expression's matches; with two arguments the whole match. -/
def regexpExtract : Reshape := fun f =>
  match f.args with
  | [x, pattern] => .ok (f.become "REGEXP_EXTRACT" [x, pattern, .num "0"])
  | _ => .ok (f.become "REGEXP_EXTRACT" f.args)

/-- All matches of a regular expression. -/
def regexpExtractAll : Reshape := fun f =>
  match f.args with
  | x :: pattern :: _ => .ok (f.become "REGEXP_EXTRACT_ALL" [x, pattern.grouped])
  | _ => f.arityError "2 arguments"

def nested (outer inner : String) : Reshape := fun f =>
  .ok (f.become outer [f.become inner f.args])

def firstAnd (name : String) (extra : Expr) : Reshape := fun f =>
  .ok (f.become name (f.args.take 1 ++ [extra]))

def jsonSteps : List Expr → Option String
  | [] => some ""
  | .literal _ .number value :: rest => do return "[" ++ value ++ "]" ++ (← jsonSteps rest)
  | .literal _ _ value :: rest => do return "." ++ value ++ (← jsonSteps rest)
  | _ :: _ => none

end Reshape

/-- A path literal: an integer that fits 64 bits, with an optional sign. -/
def isIndex (s : List Char) : Bool :=
  match Decimal.readInt? s with
  | some n => Decimal.fits 64 n
  | none => false

end SqlDialects
