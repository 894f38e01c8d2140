import SqlDialects.Json.Value
import SqlDialects.Text.Case

/-! Reading JSON. A reader gives the value and the text after it; it tells a text that ends too
early from one that can be no value however it goes on. -/

namespace SqlDialects.Json

inductive Fault
  | incomplete
  | invalid
deriving Repr, DecidableEq

/-- How deep arrays and objects may be nested. -/
def maxDepth : Nat := 10000

def isBlank (c : Char) : Bool := c == ' ' || c == '\t' || c == '\r' || c == '\n'

def hexValue? (c : Char) : Option Nat :=
  if c.isDigit then some (c.toNat - '0'.toNat)
  else if 'a' ≤ c && c ≤ 'f' then some (c.toNat - 'a'.toNat + 10)
  else if 'A' ≤ c && c ≤ 'F' then some (c.toNat - 'A'.toNat + 10)
  else none

/-- The number that four characters give in base sixteen. -/
def unit? (a b c d : Char) : Option Nat := do
  let a ← hexValue? a
  let b ← hexValue? b
  let c ← hexValue? c
  let d ← hexValue? d
  return ((a * 16 + b) * 16 + c) * 16 + d

def isHigh (n : Nat) : Bool := 0xd800 ≤ n && n < 0xdc00

def isLow (n : Nat) : Bool := 0xdc00 ≤ n && n < 0xe000

def loneUnit (n : Nat) : Char := if isHigh n || isLow n then '\ufffd' else Char.ofNat n

def shortEscape? : Char → Option Char
  | '\x22' => some '\x22'
  | '\\' => some '\\'
  | '/' => some '/'
  | 'b' => some '\x08'
  | 'f' => some '\x0c'
  | 'n' => some '\n'
  | 'r' => some '\r'
  | 't' => some '\t'
  | _ => none

/-- The second half of a pair, if one follows. -/
def lowUnit? : List Char → Option (Nat × List Char)
  | '\\' :: 'u' :: a :: b :: c :: d :: cs =>
    match unit? a b c d with
    | some n => if isLow n then some (n, cs) else none
    | none => none
  | _ => none

def readChars : Nat → List Char → List Char → Except Fault (String × List Char)
  | _, _, [] => .error .incomplete
  | 0, _, _ => .error .invalid
  | fuel + 1, done, c :: cs =>
    if c = '\x22' then .ok (String.ofList done.reverse, cs)
    else if c.toNat < 0x20 then .error .invalid
    else if c = '\\' then
      match cs with
      | [] => .error .incomplete
      | 'u' :: a :: b :: c :: d :: rest =>
        match unit? a b c d with
        | none => .error .invalid
        | some n =>
          match if isHigh n then lowUnit? rest else none with
          | some (low, rest) =>
            let c := Char.ofNat (0x10000 + (n - 0xd800) * 0x400 + (low - 0xdc00))
            readChars fuel (c :: done) rest
          | none => readChars fuel (loneUnit n :: done) rest
      | 'u' :: rest =>
        .error (if rest.all (hexValue? · |>.isSome) then .incomplete else .invalid)
      | e :: rest =>
        match shortEscape? e with
        | some c => readChars fuel (c :: done) rest
        | none => .error .invalid
    else readChars fuel (c :: done) cs

def readDigits (cs : List Char) : Except Fault (List Char × List Char) :=
  match cs.takeWhile Char.isDigit, cs.dropWhile Char.isDigit with
  | [], [] => .error .incomplete
  | [], _ => .error .invalid
  | digits, rest => .ok (digits, rest)

/-- The digits before the point: a zero stands alone. -/
def readWhole : List Char → Except Fault (List Char × List Char)
  | '0' :: cs => .ok (['0'], cs)
  | cs => readDigits cs

def readFraction : List Char → Except Fault (List Char × List Char)
  | '.' :: cs => do
    let (digits, rest) ← readDigits cs
    return ('.' :: digits, rest)
  | cs => .ok ([], cs)

def readExponent : List Char → Except Fault (List Char × List Char)
  | c :: cs =>
    if c = 'e' || c = 'E' then do
      let (sign, cs) := match cs with
        | '+' :: cs => (['+'], cs)
        | '-' :: cs => (['-'], cs)
        | cs => ([], cs)
      let (digits, rest) ← readDigits cs
      return (c :: sign ++ digits, rest)
    else .ok ([], c :: cs)
  | [] => .ok ([], [])

def readNumber (cs : List Char) : Except Fault (Value × List Char) := do
  let (sign, cs) := match cs with
    | '-' :: cs => (['-'], cs)
    | cs => ([], cs)
  let (whole, cs) ← readWhole cs
  let (fraction, cs) ← readFraction cs
  let (exponent, cs) ← readExponent cs
  return (.number (String.ofList (sign ++ whole ++ fraction ++ exponent)), cs)

def readWord (word : String) (v : Value) (cs : List Char) : Except Fault (Value × List Char) :=
  if word.toList.isPrefixOf cs then .ok (v, cs.drop word.length)
  else .error (if cs.isPrefixOf word.toList then .incomplete else .invalid)

mutual

def readValue : Nat → Nat → List Char → Except Fault (Value × List Char)
  | 0, _, _ => .error .invalid
  | fuel + 1, depth, cs =>
    match cs.dropWhile isBlank with
    | [] => .error .incomplete
    | '\x22' :: cs => do
      let (s, rest) ← readChars cs.length [] cs
      return (.string s, rest)
    | '\x7b' :: cs =>
      if depth = 0 then .error .invalid
      else match cs.dropWhile isBlank with
        | '\x7d' :: rest => .ok (.object [], rest)
        | cs => do
          let (fields, rest) ← readFields fuel (depth - 1) cs
          return (.object fields, rest)
    | '[' :: cs =>
      if depth = 0 then .error .invalid
      else match cs.dropWhile isBlank with
        | ']' :: rest => .ok (.array [], rest)
        | cs => do
          let (items, rest) ← readItems fuel (depth - 1) cs
          return (.array items, rest)
    | 't' :: cs => readWord "true" (.bool true) ('t' :: cs)
    | 'f' :: cs => readWord "false" (.bool false) ('f' :: cs)
    | 'n' :: cs => readWord "null" .null ('n' :: cs)
    | cs => readNumber cs

def readItems : Nat → Nat → List Char → Except Fault (List Value × List Char)
  | 0, _, _ => .error .invalid
  | fuel + 1, depth, cs => do
    let (v, cs) ← readValue fuel depth cs
    match cs.dropWhile isBlank with
    | ',' :: cs =>
      let (items, rest) ← readItems fuel depth cs
      return (v :: items, rest)
    | ']' :: rest => return ([v], rest)
    | [] => throw .incomplete
    | _ => throw .invalid

def readFields : Nat → Nat → List Char → Except Fault (List (String × Value) × List Char)
  | 0, _, _ => .error .invalid
  | fuel + 1, depth, cs =>
    match cs.dropWhile isBlank with
    | [] => .error .incomplete
    | '\x22' :: cs => do
      let (key, cs) ← readChars cs.length [] cs
      match cs.dropWhile isBlank with
      | ':' :: cs =>
        let (v, cs) ← readValue fuel depth cs
        match cs.dropWhile isBlank with
        | ',' :: cs =>
          let (fields, rest) ← readFields fuel depth cs
          return ((key, v) :: fields, rest)
        | '\x7d' :: rest => return ([(key, v)], rest)
        | [] => throw .incomplete
        | _ => throw .invalid
      | [] => throw .incomplete
      | _ => throw .invalid
    | _ => .error .invalid

end

def Value.first (cs : List Char) : Except Fault (Value × List Char) :=
  readValue (2 * cs.length + 1) maxDepth cs

def Value.ofText (s : String) : Except Fault Value := do
  let (v, rest) ← Value.first s.toList
  if rest.all isBlank then return v else throw .invalid

/-! Fields of objects. Names agree up to case, the last of several wins, and null changes nothing.
-/

def fieldWith {α : Type} (read? : Value → Option α) (name : String) (start : α) :
    List (String × Value) → Option α
  | [] => some start
  | (key, v) :: rest =>
    if Text.equalFold key name then
      match v with
      | .null => fieldWith read? name start rest
      | v => do fieldWith read? name (← read? v) rest
    else fieldWith read? name start rest

def Value.text? : Value → Option String
  | .string s => some s
  | _ => none

def Value.flag? : Value → Option Bool
  | .bool b => some b
  | _ => none

def textField? (name : String) : List (String × Value) → Option String :=
  fieldWith Value.text? name ""

def flagField? (name : String) : List (String × Value) → Option Bool :=
  fieldWith Value.flag? name false

end SqlDialects.Json
