import SqlDialects.Decimal

/-! Binary floating-point numbers and decimal text. A number is written with the fewest digits that
read back to it, and of those with the digits nearest to it. -/

namespace SqlDialects.Decimal

/-- The nearest binary number. Powers of ten far outside its range are zero or infinite. -/
def toFloat (d : Decimal) : Float :=
  let digits := d.digits.natAbs
  let size := (Nat.repr digits).length + d.exponent
  let magnitude : Float :=
    if digits = 0 || size < -400 then 0
    else if size > 400 then 1 / 0
    else .ofScientific digits (d.exponent < 0) d.exponent.natAbs
  if d.digits < 0 then -magnitude else magnitude

/-- A positive number `mantissa * 2 ^ power`. At the lower `edge` of a power of two the next number
below is half as far away as the next above. -/
structure Binary where
  mantissa : Nat
  power : Int
  edge : Bool
deriving Repr, DecidableEq

/-- The parts of a finite positive number. -/
def Binary.ofFloat (x : Float) : Binary :=
  let bits := x.toBits.toNat % Nat.pow 2 63
  let exponent : Nat := bits / Nat.pow 2 52
  let fraction : Nat := bits % Nat.pow 2 52
  if exponent = 0 then ⟨fraction, -1074, false⟩
  else ⟨Nat.pow 2 52 + fraction, (exponent : Int) - 1075, fraction = 0 && exponent > 1⟩

/-- The number of digits before the point of `num / den`, or the number of zeros after it, negated,
for a number below one. -/
def magnitude (num den : Nat) : Int :=
  if num ≥ den then (Nat.toDigits 10 (num / den)).length
  else match (List.range 400).find? fun k => num * Nat.pow 10 (k + 1) ≥ den with
    | some k => -k
    | none => 0

/-- A number of `count` digits between the neighbours of `b`, if there is one: the nearest to `b`.
-/
def Binary.digits? (b : Binary) (count : Nat) : Option Decimal :=
  let scale := if b.power ≥ 2 then Nat.pow 2 (b.power - 2).toNat else 1
  let den := if b.power ≥ 2 then 1 else Nat.pow 2 (2 - b.power).toNat
  let value := 4 * b.mantissa * scale
  let low := (4 * b.mantissa - (if b.edge then 1 else 2)) * scale
  let high := (4 * b.mantissa + 2) * scale
  let unit := magnitude value den - count
  let up := if unit < 0 then Nat.pow 10 unit.natAbs else 1
  let step := if unit < 0 then den else den * Nat.pow 10 unit.natAbs
  let inside := fun n : Nat =>
    if b.mantissa % 2 = 0 then low * up ≤ n * step && n * step ≤ high * up
    else low * up < n * step && n * step < high * up
  let below := value * up / step
  let above := below + 1
  let closer := 2 * (value * up) ≤ (below + above) * step
  match inside below, inside above with
  | true, true => some ⟨if closer then below else above, unit⟩
  | true, false => some ⟨below, unit⟩
  | false, true => some ⟨above, unit⟩
  | false, false => none

/-- The shortest decimal number that reads back to a finite positive number. -/
def shortest (x : Float) : Decimal :=
  let b := Binary.ofFloat x
  ((List.range 17).findSome? fun i => b.digits? (i + 1)).getD ⟨0, 0⟩

/-- Digits without zeros at their end, and the position of the point relative to their start. -/
def normal (d : Decimal) : List Char × Int :=
  let shown := Nat.toDigits 10 d.digits.natAbs
  ((shown.reverse.dropWhile (· == '0')).reverse, shown.length + d.exponent)

/-- Writes digits with the point at `point`: positionally for numbers between a ten-thousandth and a
million, and with a power of ten of at least two digits otherwise. -/
def general (digits : List Char) (point : Int) : String :=
  let exponent := point - 1
  let text :=
    if exponent < -4 || exponent ≥ 6 then
      let fraction := digits.drop 1
      let power := Nat.repr exponent.natAbs
      digits.take 1 ++ (if fraction.isEmpty then [] else '.' :: fraction) ++
        ['e', if exponent < 0 then '-' else '+'] ++
        (if power.length < 2 then ['0'] else []) ++ power.toList
    else if point ≤ 0 then '0' :: '.' :: List.replicate (-point).toNat '0' ++ digits
    else
      let whole := digits.take point.toNat
      let fraction := digits.drop point.toNat
      whole ++ List.replicate (point.toNat - digits.length) '0' ++
        (if fraction.isEmpty then [] else '.' :: fraction)
  String.ofList text

def floatText (x : Float) : String :=
  if x.isNaN then "NaN"
  else
    let negative := x.toBits.toNat ≥ Nat.pow 2 63
    if x.isInf then (if negative then "-Inf" else "+Inf")
    else
      let sign := if negative then "-" else ""
      if x == 0 then sign ++ "0"
      else
        let (digits, point) := normal (shortest x)
        sign ++ general digits point

end SqlDialects.Decimal
