/-! Binding powers of operators, loosest first. -/

namespace SqlDialects.Prec

def lowest : Nat := 0
def disjunction : Nat := 1
def conjunction : Nat := 2
def negation : Nat := 3
def comparison : Nat := 4
def bitOr : Nat := 5
def bitXor : Nat := 6
def bitAnd : Nat := 7
def shift : Nat := 8
/-- `+`, `-` and `||`. -/
def sum : Nat := 9
/-- `*`, `/`, `%` and `DIV`. -/
def product : Nat := 10
def sign : Nat := 11
/-- Subscripts, `::` and `->`. -/
def access : Nat := 12

end SqlDialects.Prec
