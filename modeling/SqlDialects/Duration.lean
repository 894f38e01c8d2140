import SqlDialects.Text.Quoted

/-! Spans of time, written as numbers with units such as `1h30m` or `1.5s`. -/

namespace SqlDialects

structure Duration where
  nanoseconds : Int
deriving Repr, DecidableEq, Inhabited

namespace Duration

inductive Fault
  | invalid (text : String)
  | missingUnit (text : String)
  | unknownUnit (unit text : String)
deriving Repr, DecidableEq

/-- A text between quotes in a message of this module: every byte of a character that is not
printable ASCII is written in base sixteen. -/
def quote (text : String) : String :=
  let byte := fun (b : UInt8) => '\\' :: 'x' :: Text.hexDigits 2 b.toNat
  let shown := fun (c : Char) =>
    if c.toNat ≥ 0x80 || c.toNat < 0x20 then (String.singleton c).toUTF8.toList.flatMap byte
    else if c = '\x22' || c = '\\' then ['\\', c]
    else [c]
  String.ofList ('\x22' :: text.toList.flatMap shown ++ ['\x22'])

def Fault.message : Fault → String
  | .invalid text => "time: invalid duration " ++ quote text
  | .missingUnit text => "time: missing unit in duration " ++ quote text
  | .unknownUnit unit text => "time: unknown unit " ++ quote unit ++ " in duration " ++ quote text

/-- How many nanoseconds a unit has; the micro sign and the Greek letter are both accepted. -/
def unitSize? : String → Option Nat
  | "ns" => some 1
  | "us" | "\u00b5s" | "\u03bcs" => some 1000
  | "ms" => some 1000000
  | "s" => some 1000000000
  | "m" => some 60000000000
  | "h" => some 3600000000000
  | _ => none

/-- The greatest magnitude of a negative duration. -/
def limit : Nat := Nat.pow 2 63

/-- A whole number that does not exceed the limit. -/
def whole? (digits : List Char) : Option Nat :=
  let n := digits.foldl (fun n d => 10 * n + (d.toNat - '0'.toNat)) 0
  if n ≤ limit then some n else none

/-- A fraction as a whole number and the power of ten that it is to be divided by. Digits for which
there is no room are dropped. -/
def fraction (digits : List Char) : Nat × Float × Bool :=
  digits.foldl (fun (n, scale, full) d =>
    if full || n > (limit - 1) / 10 then (n, scale, true)
    else
      let next := 10 * n + (d.toNat - '0'.toNat)
      if next > limit then (n, scale, true) else (next, scale * 10, false)) (0, 1, false)

/-- The part of a unit that a fraction stands for, with the fraction dropped. -/
def share (unit : Nat) (digits : List Char) : Nat :=
  let (n, scale, _) := fraction digits
  if n = 0 then 0
  else (n.toUInt64.toFloat * (unit.toUInt64.toFloat / scale)).toUInt64.toNat

def terms (text : String) : Nat → Nat → List Char → Except Fault Nat
  | _, sum, [] => .ok sum
  | 0, _, _ => .error (.invalid text)
  | fuel + 1, sum, cs => do
    let digits := cs.takeWhile Char.isDigit
    let rest := cs.drop digits.length
    let some n := whole? digits | throw (.invalid text)
    let (decimals, rest) := match rest with
      | '.' :: rest => (rest.takeWhile Char.isDigit, rest.dropWhile Char.isDigit)
      | rest => ([], rest)
    if digits.isEmpty && decimals.isEmpty then throw (.invalid text)
    let isUnit := fun (c : Char) => !(c == '.' || c.isDigit)
    let unit := String.ofList (rest.takeWhile isUnit)
    if unit = "" then throw (.missingUnit text)
    let some size := unitSize? unit | throw (.unknownUnit unit text)
    if n > limit / size then throw (.invalid text)
    let value := n * size + share size decimals
    if value > limit then throw (.invalid text)
    let sum := (sum + value) % Nat.pow 2 64
    if sum > limit then throw (.invalid text)
    terms text fuel sum (rest.dropWhile isUnit)

/-- Reads a duration: an optional sign and one or more terms, or a bare zero. -/
def ofText (text : String) : Except Fault Duration := do
  let (negative, cs) := match text.toList with
    | '-' :: cs => (true, cs)
    | '+' :: cs => (false, cs)
    | cs => (false, cs)
  if cs = ['0'] then return ⟨0⟩
  if cs.isEmpty then throw (.invalid text)
  let sum ← terms text cs.length 0 cs
  if negative then return ⟨-sum⟩
  if sum ≥ limit then throw (.invalid text)
  return ⟨sum⟩

/-- A number of units of `10 ^ places` parts each, without zeros at the end of the fraction. -/
def decimal (parts places : Nat) : String :=
  let fraction := (Nat.toDigits 10 (Nat.pow 10 places + parts % Nat.pow 10 places)).drop 1
  let shown := (fraction.reverse.dropWhile (· == '0')).reverse
  Nat.repr (parts / Nat.pow 10 places) ++
    (if shown.isEmpty then "" else "." ++ String.ofList shown)

/-- Hours, minutes and seconds, or a smaller unit below one second. -/
def toText (d : Duration) : String :=
  let n := d.nanoseconds.natAbs
  let sign := if d.nanoseconds < 0 then "-" else ""
  let body :=
    if n = 0 then "0s"
    else if n < 1000 then Nat.repr n ++ "ns"
    else if n < 1000000 then decimal n 3 ++ "\u00b5s"
    else if n < 1000000000 then decimal n 6 ++ "ms"
    else
      let seconds := decimal (n % 60000000000) 9 ++ "s"
      let minutes := n / 60000000000
      if minutes = 0 then seconds
      else if minutes < 60 then Nat.repr minutes ++ "m" ++ seconds
      else Nat.repr (minutes / 60) ++ "h" ++ Nat.repr (minutes % 60) ++ "m" ++ seconds
  sign ++ body

def ofSeconds (n : Int) : Duration := ⟨n * 1000000000⟩

end Duration

end SqlDialects
