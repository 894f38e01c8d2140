import SqlDialects.Dictionary
import SqlDialects.Text.Case
import SqlDialects.Tree.Adapt
import SqlDialects.Tree.Outline

/-! Putting the values that a `SELECT` binds by `WITH value AS name` where their names stand. A value is one operand
in all its places, and a select around replaces names in it once for every place: a name gives way to its value at the
first visit, names in the value give way at the next one, and so on. -/

namespace SqlDialects

/-- Whether an entry of `WITH` names a query. -/
def CteBody.isQuery : CteBody → Bool
  | .query _ => true
  | .scalar _ => false

def Cte.isQuery (cte : Cte) : Bool := cte.body.isQuery

namespace Doris

def scalarBindings (ctes : List Cte) : Dictionary Expr :=
  .ofList (ctes.filterMap fun cte =>
    match cte.body with
    | .scalar value => some (Text.lower cte.name.name, value)
    | .query _ => none)

section

variable (select : Position) (bindings : Dictionary Expr)

/-- What stands in a name's place after so many visits to the node around it. Only a value that is a name gives way in
its turn; a value with parts is visited instead. -/
def standing : Nat → Position → Ident → Expr
  | 0, pos, ident => .column pos [ident]
  | visits + 1, pos, ident =>
    match bindings.find? (Text.lower ident.name) with
    | none => .column pos [ident]
    | some (.column pos [ident]) => standing visits pos ident
    | some value => value.inPlace (.bound ⟨select, Text.lower ident.name⟩)

/-- The values visited so far. -/
abbrev Trail := List Cell

section

variable (enter : Nat → Position → Ident → Trail → Trail)

mutual

/-- One more visit, the given one to the node around. -/
def visit (turn : Nat) : Outline → Trail → Trail
  | .name pos ident, trail => enter turn pos ident trail
  | .place .first inside, trail => visitAll (2 * turn - 1) inside trail
  | .place .second inside, trail => visitAll (2 * turn) inside trail
  | .place (.bound cell) inside, trail => visitAll (trail.count cell + 1) inside (cell :: trail)

def visitAll (turn : Nat) : List Outline → Trail → Trail
  | [], trail => trail
  | o :: os, trail => visitAll turn os (visit turn o trail)

end

end

/-- Visits what an earlier visit has put in a name's place. Values are in one another down to the given depth. -/
def enter : Nat → Nat → Position → Ident → Trail → Trail
  | 0, _, _, _, trail => trail
  | depth + 1, turn, pos, ident, trail =>
    match standing select bindings (turn - 1) pos ident with
    | .column .. => trail
    | value => visitAll (enter depth) turn value.outline trail

def timesVisited (s : Select) (bindings : Dictionary Expr) (depth : Nat) (cell : Cell) : Nat :=
  (visitAll (enter s.pos bindings depth) 1 s.outline []).count cell

/-- What so many visits to a node make of a part. `inside` tells what all visits make of a value with parts. -/
def substitute (inside : Cell → Expr → Except Error Expr) (visits : Nat) : Step := fun n =>
  match n with
  | .expr (.column pos [ident]) =>
    match standing select bindings visits pos ident with
    | .repeated (.bound cell) value => do
      return some { node := .expr (.repeated (.bound cell) (← inside cell value)) }
    | e => .ok (some { node := .expr e })
  | _ => .ok none

def visits (times : Cell → Nat) (inside : Cell → Expr → Except Error Expr) (count : Nat) : Visits where
  count
  below
    | .bound cell, count => max count (times cell)
    | .first, count | .second, count => 2 * count
  step := substitute select bindings inside

/-- A value with its names replaced. A value that is deeper in others than there are bindings is in itself. -/
def inside (times : Cell → Nat) : Nat → Cell → Expr → Except Error Expr
  | 0, cell, _ => .error (.endless cell.name)
  | depth + 1, cell, value => value.adapt (visits select bindings times (inside times depth) (times cell)).pass

end

def labelItem (bindings : Dictionary Expr) (item : SelectItem) : SelectItem :=
  match item.expr, item.label with
  | .column _ [ident], none =>
    if bindings.contains (Text.lower ident.name) then { item with label := some ident } else item
  | _, _ => item

/-- The select without its bindings to values, with the labels they give to items. -/
def unbind (s : Select) : Select :=
  { s with ctes := s.ctes.filter Cte.isQuery, items := s.items.map (labelItem (scalarBindings s.ctes)) }

/-- Puts `WITH value AS name` bindings where their names stand. -/
def inlineScalars (s : Select) : Except Error (Option Select) :=
  let bindings := scalarBindings s.ctes
  let depth := bindings.entries.length
  if depth = 0 then .ok none
  else do
    let times := timesVisited (unbind s) bindings depth
    return some (← (unbind s).adaptParts (visits s.pos bindings times (inside s.pos bindings times depth) 1).pass)

end Doris

end SqlDialects
