/-! Exact decimal numbers: an integer times a power of ten. -/

namespace SqlDialects

structure Decimal where
  digits : Int
  exponent : Int
deriving Repr, DecidableEq, Inhabited

namespace Decimal

def ofInt (n : Int) : Decimal := ⟨n, 0⟩

/-- An optional sign and one or more ASCII digits. -/
def readInt? (cs : List Char) : Option Int :=
  let digits? (ds : List Char) : Option Int :=
    if !ds.isEmpty && ds.all Char.isDigit then
      some (ds.foldl (fun n d => 10 * n + (d.toNat - '0'.toNat)) 0 : Nat)
    else none
  match cs with
  | '-' :: ds => (digits? ds).map fun n => -n
  | '+' :: ds => digits? ds
  | ds => digits? ds

def fits (bits : Nat) (n : Int) : Bool :=
  -(Nat.pow 2 (bits - 1) : Int) ≤ n && n < (Nat.pow 2 (bits - 1) : Int)

/-- Reads digits with an optional sign, at most one point and an optional power of ten, whose
exponent must fit 32 bits. -/
def ofText? (s : String) : Option Decimal := do
  let cs := s.toList
  let isMark := fun c => c == 'e' || c == 'E'
  let mantissa := cs.takeWhile (!isMark ·)
  let power ← match cs.dropWhile (!isMark ·) with
    | [] => some 0
    | _ :: power => readInt? power
  if !fits 32 power then none
  let whole := mantissa.takeWhile (· != '.')
  let fraction := (mantissa.dropWhile (· != '.')).drop 1
  if fraction.contains '.' then none
  let digits ← readInt? (whole ++ fraction)
  let exponent := power - fraction.length
  if fits 32 exponent then some ⟨digits, exponent⟩ else none

def unitsAt (d : Decimal) (exponent : Int) : Int :=
  d.digits * Nat.pow 10 (d.exponent - exponent).toNat

def add (a b : Decimal) : Decimal :=
  let exponent := min a.exponent b.exponent
  ⟨a.unitsAt exponent + b.unitsAt exponent, exponent⟩

def mul (a b : Decimal) : Decimal := ⟨a.digits * b.digits, a.exponent + b.exponent⟩

def neg (a : Decimal) : Decimal := ⟨-a.digits, a.exponent⟩

/-- The number with its fraction dropped. -/
def truncate (a : Decimal) : Int :=
  if a.exponent < 0 then a.digits.tdiv (Nat.pow 10 (-a.exponent).toNat) else a.unitsAt 0

def isIntegral (a : Decimal) : Bool :=
  a.exponent ≥ 0 || a.digits % (Nat.pow 10 (-a.exponent).toNat : Int) == 0

def atMost (a b : Decimal) : Bool :=
  let exponent := min a.exponent b.exponent
  a.unitsAt exponent ≤ b.unitsAt exponent

/-- All digits, without a power of ten and without zeros at the end of the fraction. -/
def toText (a : Decimal) : String :=
  if a.exponent ≥ 0 then (a.unitsAt 0).repr
  else
    let places := (-a.exponent).toNat
    let shown := (Nat.repr a.digits.natAbs).toList
    let padded := List.replicate (places + 1 - shown.length) '0' ++ shown
    let whole := padded.take (padded.length - places)
    let fraction := ((padded.drop (padded.length - places)).reverse.dropWhile (· == '0')).reverse
    let sign := if a.digits < 0 then ['-'] else []
    String.ofList (sign ++ whole ++ (if fraction.isEmpty then [] else '.' :: fraction))

end Decimal

/-- The remainder of an integer in a 64-bit word with sign. -/
def wrap64 (n : Int) : Int := Int.bmod n (Nat.pow 2 64)

end SqlDialects
