import SqlDialects.DatePattern
import SqlDialects.Decimal
import SqlDialects.Dictionary
import SqlDialects.Error
import SqlDialects.Tree.Statement

/-! How a dialect's functions read as neutral ones. A function rule renames a call, reshapes it, or
marks it as one that no other dialect has. The reshaping steps that several dialects share are
defined here. -/

namespace SqlDialects

abbrev Reshape := Call → Except Error Expr

/-- How one spelling is read: under another name when `name` is not empty, with at least `minArgs`
arguments, and then reshaped. An unmappable function is kept for its own dialect only. -/
structure FunctionRule where
  name : String := ""
  minArgs : Nat := 0
  reshape : Option Reshape := none
  unmappable : Bool := false

namespace FunctionRule

def rename (name : String) : FunctionRule := { name }

/-- A reshaping step for calls with at least `minArgs` arguments. -/
def shape (minArgs : Nat) (reshape : Reshape) : FunctionRule :=
  { minArgs, reshape := some reshape }

def unmapped : FunctionRule := { unmappable := true }

end FunctionRule

def argumentCount (n : Nat) : String := if n = 1 then "1 argument" else s!"{n} arguments"

namespace Call

def moved (f : Call) (name : String) (args : List Expr) : Call := { pos := f.pos, name, args }

def become (f : Call) (name : String) (args : List Expr) : Expr := .call (f.moved name args)

/-- The fault of a call whose number of arguments is wrong. -/
def arityError {α : Type} (f : Call) (expected : String) : Except Error α :=
  .error (.parse { pos := f.pos, expected, found := argumentCount f.args.length })

def argumentError {α : Type} (pos : Position) (expected found : String) : Except Error α :=
  .error (.parse { pos, expected, found })

end Call

/-! Units of date arithmetic. -/

namespace DateUnit

def spellings : List (String × String) := [
  ("YEAR", "YEAR"), ("YEARS", "YEAR"), ("YYYY", "YEAR"), ("YY", "YEAR"),
  ("QUARTER", "QUARTER"), ("QUARTERS", "QUARTER"), ("QQ", "QUARTER"), ("Q", "QUARTER"),
  ("MONTH", "MONTH"), ("MONTHS", "MONTH"), ("MM", "MONTH"), ("MON", "MONTH"), ("MONS", "MONTH"),
  ("WEEK", "WEEK"), ("WEEKS", "WEEK"), ("WK", "WEEK"), ("WW", "WEEK"),
  ("DAY", "DAY"), ("DAYS", "DAY"), ("DD", "DAY"), ("D", "DAY"),
  ("HOUR", "HOUR"), ("HOURS", "HOUR"), ("HH", "HOUR"),
  ("MINUTE", "MINUTE"), ("MINUTES", "MINUTE"), ("MI", "MINUTE"), ("MIN", "MINUTE"),
  ("MINS", "MINUTE"),
  ("SECOND", "SECOND"), ("SECONDS", "SECOND"), ("SS", "SECOND"), ("SEC", "SECOND"),
  ("SECS", "SECOND"),
  ("MILLISECOND", "MILLISECOND"), ("MILLISECONDS", "MILLISECOND"), ("MS", "MILLISECOND"),
  ("MICROSECOND", "MICROSECOND"), ("MICROSECONDS", "MICROSECOND")]

/-- The neutral unit that a spelling means, quotes and blanks around it aside. -/
def ofText? (s : String) : Option String :=
  let isEdge := fun c => c == '\x27' || c == '\x22' || c == ' '
  let inner := ((s.toList.dropWhile isEdge).reverse.dropWhile isEdge).reverse
  spellings.lookup (Text.upper (String.ofList inner))

/-- Units that have functions of their own, with the stem of their names. -/
def stems : List (String × String) := [
  ("YEAR", "YEARS"), ("MONTH", "MONTHS"), ("WEEK", "WEEKS"), ("DAY", "DAYS"), ("HOUR", "HOURS"),
  ("MINUTE", "MINUTES"), ("SECOND", "SECONDS"), ("MILLISECOND", "MILLISECONDS"),
  ("MICROSECOND", "MICROSECONDS")]

/-- For a unit the next finer one and how many of it make one. -/
def finer : List (String × String × Int) := [
  ("YEAR", "MONTH", 12), ("WEEK", "DAY", 7), ("DAY", "HOUR", 24), ("HOUR", "MINUTE", 60),
  ("MINUTE", "SECOND", 60), ("SECOND", "MILLISECOND", 1000)]

def ofExpr? : Expr → Option String
  | .literal _ .string value => ofText? value
  | .column _ [ident] => ofText? ident.name
  | _ => none

end DateUnit

/-! Arithmetic on expressions, folding numbers exactly. -/

namespace Expr

def scale (e : Expr) (factor : Int) : Expr :=
  let product := .binary {} "*" e (num factor.repr)
  match e with
  | .literal pos .number value =>
    match Decimal.ofText? value with
    | some d => .literal pos .number (d.mul (.ofInt factor)).toText
    | none => product
  | _ => product

def negate : Expr → Expr
  | .literal pos .number value =>
    match value.toList with
    | '-' :: rest => .literal pos .number (String.ofList rest)
    | _ => .literal pos .number ("-" ++ value)
  | .unary _ "-" operand => operand
  | e => .unary e.pos "-" e

/-- The expression plus a number. An earlier offset is merged: `x + 1` less one is `x`. -/
def plus (e : Expr) (delta : Int) : Expr :=
  let sum := if delta > 0 then .binary e.pos "+" e (num delta.repr)
    else .binary e.pos "-" e (num (-delta).repr)
  if delta = 0 then e
  else match e with
    | .literal pos .number value =>
      match Decimal.ofText? value with
      | some d => .literal pos .number (d.add (.ofInt delta)).toText
      | none => sum
    | .binary pos op left (.literal litPos .number value) =>
      if op = "+" || op = "-" then
        match Decimal.ofText? value with
        | some d =>
          let d := (if op = "-" then d.neg else d).add (.ofInt delta)
          if d.digits = 0 then left
          else if d.digits > 0 then .binary pos "+" left (.literal litPos .number d.toText)
          else .binary pos "-" left (.literal litPos .number d.neg.toText)
        | none => sum
      else sum
    | _ => sum

/-- Follows finer units until the value is integral. There are fewer units than `fuel`. -/
def refine (fuel : Nat) (value : Decimal) (unit : String) : Option (Decimal × String) :=
  match fuel with
  | 0 => none
  | fuel + 1 =>
    if value.isIntegral then some (value, unit)
    else match DateUnit.finer.lookup unit with
      | some (next, factor) => refine fuel (value.mul (.ofInt factor)) next
      | none => none

/-- An interval with a fractional number as an equal one of a finer unit: one and a half hours are
ninety minutes. -/
def integralInterval? (pos : Position) (value : Expr) (unit : String) : Option Expr :=
  match value with
  | .literal litPos _ text => do
    let v ← Decimal.ofText? text
    if v.isIntegral then none
    let (v, unit) ← refine (DateUnit.finer.length + 1) v unit
    some (.interval pos (.literal litPos .number v.toText) unit)
  | _ => none

end Expr

namespace Reshape

/-- Renames the call and picks arguments by index; the others follow in their order. -/
def reorder (name : String) (order : List Nat) : Reshape := fun f =>
  let picked := order.filterMap (f.args[·]?)
  let rest := (f.args.zipIdx.filter fun (_, i) => !order.contains i).map (·.1)
  .ok (.call { f with name, args := picked ++ rest })

/-- Renames a call and swaps its first two arguments. -/
def swapped (name : String) : Reshape := reorder name [1, 0]

/-- Renames the call and appends constant arguments. -/
def withArgs (name : String) (extra : List Expr) : Reshape := fun f =>
  .ok (f.become name (f.args ++ extra))

/-- Renames the call and keeps its first arguments only. -/
def firstArgs (name : String) (n : Nat) : Reshape := fun f => .ok (f.become name (f.args.take n))

/-- Renames the call and drops its first arguments, of which more must follow. -/
def skipArgs (name : String) (n : Nat) : Reshape := fun f =>
  if f.args.length ≤ n then f.arityError s!"more than {argumentCount n} to {f.name}"
  else .ok (f.become name (f.args.drop n))

def castTo (type : TypeSpec) : Reshape := fun f =>
  match f.args with
  | [] => f.arityError "1 argument"
  | x :: _ => .ok (.cast f.pos x type false)

/-- A conversion to `DECIMAL` with the scale as second argument. -/
def decimalCast (precision : Int) : Reshape := fun f =>
  let cast (x : Expr) (scale : Int) : Except Error Expr :=
    .ok (.cast f.pos x (.named "DECIMAL" [precision, scale]) false)
  match f.args with
  | [] => f.arityError "1 argument"
  | [x] => cast x 0
  | x :: .literal pos .number value :: _ =>
    match Decimal.ofText? value with
    | some scale => cast x (wrap64 scale.truncate)
    | none => Call.argumentError pos "numeric scale" value
  | _ :: scale :: _ => Call.argumentError scale.pos "numeric scale" scale.kind

def interval (unit : String) : Reshape := fun f =>
  match f.args with
  | [n] => .ok (.interval f.pos n unit)
  | _ => f.arityError "1 argument"

/-- The function of one unit; quarters count as three months. -/
def unitCall (f : Call) (unit op : String) (date n : Expr) : Except Error Expr :=
  let (unit, n) := if unit = "QUARTER" then ("MONTH", n.scale 3) else (unit, n)
  match DateUnit.stems.lookup unit with
  | some stem => .ok (f.become (stem ++ "_" ++ op) [date, n])
  | none => Call.argumentError f.pos "date unit" unit

def unitArith (unit op : String) : Reshape := fun f =>
  match f.args with
  | date :: n :: _ => unitCall f unit op date n
  | _ => f.arityError "2 arguments"

def intervalArith (unit name : String) : Reshape := fun f =>
  match f.args with
  | date :: n :: _ => .ok (f.become name [date, .interval n.pos n unit])
  | _ => f.arityError "2 arguments"

def unitOf (e : Expr) : Except Error String :=
  match DateUnit.ofExpr? e with
  | some unit => .ok unit
  | none => Call.argumentError e.pos "date unit" e.kind

/-- `diff(unit, start, end)` through the unit's function, which takes the end first. -/
def unitDiff : Reshape := fun f =>
  match f.args with
  | word :: first :: last :: _ => do
    let unit ← unitOf word
    if unit = "QUARTER" then
      return .binary {} "/" (f.become "MONTHS_DIFF" [last, first]) (.num "3")
    match DateUnit.stems.lookup unit with
    | some stem => return f.become (stem ++ "_DIFF") [last, first]
    | none => Call.argumentError word.pos "date unit" unit
  | _ => f.arityError "3 arguments"

/-- `add(unit, n, x)` through an interval. With two arguments the second is an interval or a
number of days. -/
def unitInterval (name : String) : Reshape := fun f =>
  match f.args with
  | [x, .interval pos value unit] => .ok (f.become name [x, .interval pos value unit])
  | [x, n] => .ok (f.become name [x, .interval n.pos n "DAY"])
  | word :: n :: x :: _ => do
    let unit ← unitOf word
    return f.become name [x, .interval n.pos n unit]
  | _ => f.arityError "2 arguments"

def unitAdd : Reshape := fun f =>
  match f.args with
  | word :: n :: x :: _ => do
    let unit ← unitOf word
    unitCall f unit "ADD" x n
  | _ => f.arityError "3 arguments"

/-- `date_trunc('unit', x)` with the unit last and spelled as a lower-case word. A call with a
string in second place has its unit last already. -/
def truncUnit : Reshape := fun f =>
  match f.args with
  | _ :: .literal _ .string _ :: _ => .ok (f.become "DATE_TRUNC" f.args)
  | word :: x :: _ =>
    match DateUnit.ofExpr? word with
    | none => .ok (f.become "DATE_TRUNC" f.args)
    | some unit => .ok (f.become "DATE_TRUNC" [x, .literal word.pos .string (Text.lower unit)])
  | _ => f.arityError "2 arguments"

def truncTo (unit : String) : Reshape := fun f =>
  match f.args with
  | x :: _ => .ok (f.become "DATE_TRUNC" [x, .str unit])
  | [] => f.arityError "1 argument"

def formatArg (name : String) (i : Nat) (pattern : DatePattern) : Reshape := fun f =>
  let args := match f.args[i]? with
    | some (.literal pos .string value) =>
      f.args.set i (.literal pos .string (pattern.toCanonical value))
    | _ => f.args
  .ok (f.become name args)

def fixedFormat (format : String) : Reshape := fun f =>
  match f.args with
  | x :: _ => .ok (f.become "DATE_FORMAT" [x, .str format])
  | [] => f.arityError "1 argument"

/-- An aggregate over the rows that satisfy a condition, which is the last argument. -/
def ifAggregate (name : String) : Reshape := fun f =>
  match f.args with
  | [cond] => .ok (f.become name [f.become "IF" [cond, .num "1", .null]])
  | [x, cond] => .ok (f.become name [f.become "IF" [cond, x, .null]])
  | _ => f.arityError "1 or 2 arguments"

def distinctAggregate (name : String) : Reshape := fun f =>
  .ok (.call { f.moved name f.args with distinct := true })

def arrayOf : Reshape := fun f => .ok (.array f.pos f.args)

/-- Splits `k1, v1, k2, v2, ...`; a last one without a partner is dropped. -/
def pairUp : List Expr → List (Expr × Expr)
  | a :: b :: rest => (a, b) :: pairUp rest
  | _ => []

def mapOf : Reshape := fun f =>
  if f.args.length % 2 ≠ 0 then f.arityError "an even number of arguments"
  else .ok (.map f.pos ((pairUp f.args).map (·.1)) ((pairUp f.args).map (·.2)))

def mapOfArrays : Reshape := fun f =>
  match f.args with
  | [.array _ keys, .array _ values] =>
    if keys.length = values.length then .ok (.map f.pos keys values) else mapOf f
  | _ => mapOf f

def structOf : Reshape := fun f => .ok (.struct f.pos [] f.args)

def fieldNames : List (Expr × Expr) → Except Error (List String)
  | [] => .ok []
  | (.literal _ .string value, _) :: rest => do return value :: (← fieldNames rest)
  | (e, _) :: _ => Call.argumentError e.pos "field name string" e.kind

def namedStruct : Reshape := fun f =>
  if f.args.length % 2 ≠ 0 then f.arityError "name and value pairs"
  else do
    let names ← fieldNames (pairUp f.args)
    return .struct f.pos names ((pairUp f.args).map (·.2))

/-- `multiIf(c1, v1, c2, v2, ..., default)` as a searched `CASE`. -/
def multiIf : Reshape := fun f =>
  if f.args.length < 3 || f.args.length % 2 = 0 then
    f.arityError "an odd number of at least 3 arguments"
  else .ok (.caseWhen f.pos none ((pairUp f.args).map fun (c, v) => ⟨c, v⟩) f.args.getLast?)

/-- `DECODE(x, s1, r1, ..., default)` as a `CASE` over `x`. -/
def decode : Reshape := fun f =>
  match f.args with
  | x :: rest =>
    if rest.length < 2 then f.arityError "at least 3 arguments"
    else
      let otherwise := if rest.length % 2 = 1 then rest.getLast? else none
      .ok (.caseWhen f.pos (some x) ((pairUp rest).map fun (c, v) => ⟨c, v⟩) otherwise)
  | [] => f.arityError "at least 3 arguments"

def assertTrue : Reshape := fun f =>
  match f.args with
  | [cond] => .ok (f.become "IF" [cond, .literal {} .boolean "TRUE", .null])
  | _ => f.arityError "1 argument"

def toDate (pattern : DatePattern) : Reshape := fun f =>
  match f.args with
  | [x] => .ok (f.become "TO_DATE" [x])
  | _ => formatArg "STR_TO_DATE" 1 pattern f

def isFraction : Expr → Bool
  | .literal _ .number value =>
    match Decimal.ofText? value with
    | some v => (Decimal.ofInt 0).atMost v && v.atMost (.ofInt 1)
    | none => false
  | _ => true

/-- A quantile; its level follows the value and is one half when absent. -/
def quantile (name : String) : Reshape := fun f =>
  match f.args with
  | [] => f.arityError "1 argument"
  | x :: rest =>
    let level := rest.head?.getD (.num "0.5")
    if isFraction level then .ok (f.become name [x, level])
    else match level with
      | .literal pos _ value => Call.argumentError pos "quantile level between 0 and 1" value
      | _ => .ok (f.become name [x, level])

end Reshape

end SqlDialects
