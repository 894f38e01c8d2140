import SqlDialects.Doris.Bindings
import SqlDialects.Doris.Table
import SqlDialects.Rule

/-! What the neutral tree needs to become Doris's. -/

namespace SqlDialects.Doris

/-- Days of the week from Monday; Doris counts from Sunday. -/
def dayOfWeek : Rule where
  name := "doris:dayofweek-iso"
  pattern := Rule.callPattern "doris" "DAYOFWEEK_ISO"
  transform := some fun _ n =>
    match n with
    | .expr (.call f) =>
      match f.args with
      | [x] =>
        let shifted := .binary f.pos "+" (f.become "DAYOFWEEK" [x]) (.num "5")
        let day := .binary f.pos "%" shifted (.num "7")
        .ok (some (.expr (.binary f.pos "+" day (.num "1"))))
      | _ => .ok none
    | _ => .ok none

/-- A search that ignores case goes over lower-case operands. -/
def ilocate : Rule where
  name := "doris:ilocate"
  pattern := Rule.callPattern "doris" "ILOCATE"
  transform := some fun _ n =>
    match n with
    | .expr (.call f) =>
      match f.args with
      | needle :: text :: rest =>
        .ok (some (.expr (f.become "LOCATE"
          (f.become "LOWER" [needle] :: f.become "LOWER" [text] :: rest))))
      | _ => .ok none
    | _ => .ok none

/-- `agg(x) FILTER (WHERE c)` as `agg(CASE WHEN c THEN x END)`; a sum has zero for other rows. -/
def filterToCase (f : Call) : Option Call :=
  match f.filter with
  | none => none
  | some condition =>
    let value := match f.args with
      | [] => .num "1"
      | .star .. :: _ => .num "1"
      | x :: _ => x
    let otherwise := if f.name = "SUM" then some (.num "0") else none
    let folded := .caseWhen condition.pos none [⟨condition, value⟩] otherwise
    some { f with filter := none, args := folded :: f.args.drop 1 }

def aggregateFilter : Rule where
  name := "doris:aggregate-filter"
  pattern := { kind := "FunctionCall", target := "doris" }
  transform := some fun _ n =>
    match n with
    | .expr (.call f) => .ok ((filterToCase f).map fun f => .expr (.call f))
    | _ => .ok none

def ilike : Rule where
  name := "doris:ilike"
  pattern := { kind := "BinaryOp", name := "ILIKE", target := "doris" }
  transform := some fun _ n =>
    let lowered (e : Expr) : Expr := .call { pos := e.pos, name := "LOWER", args := [e] }
    match n with
    | .expr (.binary pos _ left right) =>
      .ok (some (.expr (.binary pos "LIKE" (lowered left) (lowered right))))
    | _ => .ok none

def integralInterval : Rule where
  name := "doris:integral-interval"
  pattern := { kind := "Interval", target := "doris" }
  transform := some fun _ n =>
    match n with
    | .expr (.interval pos value unit) => .ok ((Expr.integralInterval? pos value unit).map .expr)
    | _ => .ok none

def inlineScalarWith : Rule where
  name := "doris:inline-scalar-with"
  pattern := { kind := "Select", target := "doris" }
  transform := some fun _ n =>
    match n with
    | .statement (.query (.select s)) => do
      return (← inlineScalars s).map fun s => .statement (.query (.select s))
    | _ => .ok none

def createTable : Rule where
  name := "doris:create-table"
  pattern := { kind := "CreateTable", target := "doris" }
  transform := some fun ctx n =>
    match n with
    | .statement (.createTable t) =>
      if ctx.isCross && t.like.isEmpty then
        .ok (some (.statement (.createTable
          (ofTable t ctx.source.leadingKeyHash ctx.target.hints.defaultProperties))))
      else .ok none
    | _ => .ok none

def rules : List Rule :=
  [dayOfWeek, ilocate, aggregateFilter, ilike, integralInterval, inlineScalarWith, createTable]

end SqlDialects.Doris
