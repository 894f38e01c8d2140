import SqlDialects.Dialect
import SqlDialects.Tree.Adapt

/-! Rules that adapt a tree on its way from one dialect to another. Inbound rules make the idioms
of the source neutral; outbound rules give the neutral tree the idioms of the target. -/

namespace SqlDialects

inductive Phase
  | inbound
  | outbound
deriving Repr, DecidableEq

def Phase.name : Phase → String
  | .inbound => "inbound"
  | .outbound => "outbound"

/-- Which nodes a rule applies to. The kind is required; an empty name, source or target and a
zero arity match anything. A negative arity matches calls without arguments only. -/
structure Pattern where
  kind : String := ""
  name : String := ""
  arity : Int := 0
  source : String := ""
  target : String := ""
deriving Repr, DecidableEq

namespace Pattern

/-- How many fields the pattern pins. -/
def specificity (p : Pattern) : Nat :=
  [p.kind != "", p.name != "", p.arity != 0, p.source != "", p.target != ""].count true

/-- Whether some node could match both patterns. -/
def overlaps (p q : Pattern) : Bool :=
  p.kind == q.kind &&
  (p.name == "" || q.name == "" || p.name == q.name) &&
  (p.arity == 0 || q.arity == 0 || p.arity == q.arity) &&
  (p.source == "" || q.source == "" || p.source == q.source) &&
  (p.target == "" || q.target == "" || p.target == q.target)

/-- The arity that stands for no arguments. -/
def noArgs : Int := -1

def matchesArity (p : Pattern) (n : Node) : Bool :=
  p.arity == 0 ||
    match n with
    | .expr (.call c) =>
      if p.arity == noArgs then c.args.isEmpty else (c.args.length : Int) == p.arity
    | _ => false

end Pattern

/-- What a rule sees besides its node: the two dialects, and a way to run the current phase over a
tree that the rule has built. -/
structure Context where
  source : Dialect
  target : Dialect
  again : Node → Except Error Node

namespace Context

/-- Whether the two dialects differ. -/
def isCross (ctx : Context) : Bool := ctx.source.name != ctx.target.name

def unsupported {α : Type} (ctx : Context) (n : Node) : Except Error α :=
  let kind := if n.name = "" then n.kind else n.kind ++ " " ++ n.name
  .error (.unsupported kind ctx.source.name ctx.target.name n.pos)

def unmappable {α : Type} (ctx : Context) (c : Call) : Except Error α :=
  .error (.unmappable c.name ctx.source.name ctx.target.name c.pos)

end Context

def Pattern.matches (p : Pattern) (n : Node) (ctx : Context) : Bool :=
  n.kind == p.kind &&
  (p.source == "" || ctx.source.name == p.source) &&
  (p.target == "" || ctx.target.name == p.target) &&
  (p.name == "" || n.name == p.name) &&
  p.matchesArity n

abbrev Transform := Context → Node → Except Error (Option Node)

/-- A rule, with what of a node it keeps in the replacement. -/
structure Rule where
  name : String
  phase : Phase := .outbound
  pattern : Pattern
  priority : Int := 0
  transform : Option Transform
  keeps : Kept := .parts

namespace Rule

def callPattern (target canonical : String) : Pattern :=
  { kind := "FunctionCall", name := canonical, target }

def onCall (target canonical : String) (step : Call → Option Expr) : Rule where
  name := target ++ ":call:" ++ Text.lower canonical
  pattern := callPattern target canonical
  transform := some fun _ n =>
    match n with
    | .expr (.call c) => .ok ((step c).map .expr)
    | _ => .ok none

/-- Spells a neutral call with the native name, picking arguments by index. -/
def native (target canonical native : String) (order : List Nat) : Rule where
  name := target ++ ":native:" ++ Text.lower canonical
  pattern := callPattern target canonical
  transform := some fun _ n =>
    match n with
    | .expr (.call c) => do return some (.expr (← Reshape.reorder native order c))
    | _ => .ok none

def format (target canonical native : String) (i : Nat) (pattern : DatePattern) : Rule :=
  onCall target canonical fun f =>
    let args := match f.args[i]? with
      | some (.literal pos .string value) =>
        f.args.set i (.literal pos .string (pattern.fromCanonical value))
      | _ => f.args
    some (f.become native args)

/-- Spells a neutral call with the native name and its own list of arguments. -/
def sameArgs (target canonical native : String) : Rule :=
  { onCall target canonical fun f => some (f.become native f.args) with keeps := .args }

/-- Calls of a neutral function get the name `native`, with the same arguments. -/
def rename (target canonical native : String) : Rule where
  name := target ++ ":rename:" ++ Text.lower canonical
  pattern := callPattern target canonical
  transform := some fun _ n =>
    match n with
    | .expr (.call c) => .ok (some (.expr (.call { c with name := native })))
    | _ => .ok none
  keeps := .args

/-- Rejects a function that its dialect alone has when the target is another dialect. -/
def unmappable (source native : String) : Rule where
  name := source ++ ":unmappable:" ++ Text.lower native
  phase := .inbound
  pattern := { kind := "FunctionCall", name := Text.upper native, source }
  transform := some fun ctx n =>
    match n with
    | .expr (.call c) => if ctx.isCross then ctx.unmappable c else .ok none
    | _ => .ok none

/-- How a target writes a unit in first place. -/
inductive UnitStyle
  | string
  | word

def UnitStyle.expr (style : UnitStyle) (f : Call) (unit : String) : Expr :=
  match style with
  | .string => .literal f.pos .string (Text.lower unit)
  | .word => .column f.pos [⟨unit, false⟩]

/-- Spells the functions of each unit through target functions that take the unit first:
`HOURS_DIFF(b, a)` as `diff('hour', a, b)` and `DAYS_ADD(x, n)` as `add('day', n, x)`. -/
def unitCalls (target diff add : String) (style : UnitStyle) : List Rule :=
  DateUnit.stems.flatMap fun (unit, stem) => [
    onCall target (stem ++ "_DIFF") fun f =>
      match f.args with
      | [x, y] => some (f.become diff [style.expr f unit, y, x])
      | _ => none,
    onCall target (stem ++ "_ADD") fun f =>
      match f.args with
      | [x, y] => some (f.become add [style.expr f unit, y, x])
      | _ => none,
    onCall target (stem ++ "_SUB") fun f =>
      match f.args with
      | [x, y] => some (f.become add [style.expr f unit, y.negate, x])
      | _ => none]

/-- Spells `DATE_ADD(x, INTERVAL n DAY)` and `DATE_SUB` as `add('day', n, x)`. -/
def intervalCalls (target add : String) : List Rule :=
  let rule (canonical : String) (shift : Expr → Expr) : Rule :=
    onCall target canonical fun f =>
      match f.args with
      | [x, .interval _ value unit] =>
        some (f.become add [UnitStyle.string.expr f unit, shift value, x])
      | _ => none
  [rule "DATE_ADD" id, rule "DATE_SUB" Expr.negate]

end Rule

end SqlDialects
