import SqlDialects.Digest.Blowfish
import SqlDialects.Text.Base64

/-! Hashed passwords. A hash is slow on purpose: each step of its cost doubles the work. -/

namespace SqlDialects

/-- `salt` has sixteen bytes and `digest` is what a password becomes under it. `version` is the text
between the first two marks. -/
structure PasswordHash where
  version : String := "2a"
  cost : Nat
  salt : List UInt8
  digest : List UInt8
deriving Repr, DecidableEq

namespace PasswordHash

open Digest

def leastCost : Nat := 4

def greatestCost : Nat := 31

/-- The cost that is taken in place of one that is too small. -/
def usualCost : Nat := 10

def greatestLength : Nat := 72

/-- Why a password cannot be hashed. -/
inductive Fault
  | tooLong
  | cost (n : Int)
deriving Repr, DecidableEq

def Fault.message : Fault → String
  | .tooLong => s!"bcrypt: password length exceeds {greatestLength} bytes"
  | .cost n =>
    s!"crypto/bcrypt: cost {n} is outside allowed inclusive range {leastCost}..{greatestCost}"

/-- The text that is encrypted: three blocks. -/
def blocks : List (UInt32 × UInt32) :=
  [(0x4f727068, 0x65616e42), (0x65686f6c, 0x64657253), (0x63727944, 0x6f756274)]

def keyWords (bytes : List UInt8) : Array UInt32 :=
  let bytes := bytes.toArray
  let byte := fun i => (bytes.getD (i % bytes.size) 0).toUInt32
  (Array.range 18).map fun i =>
    (byte (4 * i) <<< 24) ||| (byte (4 * i + 1) <<< 16) ||| (byte (4 * i + 2) <<< 8) |||
      byte (4 * i + 3)

def iterate {α : Type} (step : α → α) : Nat → α → α
  | 0, a => a
  | n + 1, a => iterate step n (step a)

def wordBytes (w : UInt32) : List UInt8 :=
  [(w >>> 24).toUInt8, (w >>> 16).toUInt8, (w >>> 8).toUInt8, w.toUInt8]

/-- What a password becomes: the tables are mixed with the password and the salt, again and again,
and encrypt a fixed text with them. The last byte is dropped. -/
def digestOf (password : String) (cost : Nat) (salt : List UInt8) : List UInt8 :=
  let key := keyWords (password.toUTF8.toList ++ [0])
  let saltKey := keyWords salt
  let none := #[0]
  let start := Blowfish.Tables.start.expand key (saltKey.extract 0 4)
  let tables := iterate (fun t => (t.expand key none).expand saltKey none) (Nat.pow 2 cost) start
  let encrypted := blocks.map fun block => iterate (fun (l, r) => tables.encrypt l r) 64 block
  (encrypted.flatMap fun (l, r) => wordBytes l ++ wordBytes r).take 23

def make (password : String) (cost : Int) (salt : List UInt8) : Except Fault PasswordHash :=
  let cost : Int := if cost < leastCost then (usualCost : Int) else cost
  if password.utf8ByteSize > greatestLength then .error .tooLong
  else if cost > greatestCost then .error (.cost cost)
  else .ok { cost := cost.toNat, salt, digest := digestOf password cost.toNat salt }

def fits (h : PasswordHash) (password : String) : Bool :=
  digestOf password h.cost h.salt == h.digest

/-! Text. -/

def encode (bytes : List UInt8) : String :=
  String.ofList (Text.Base64.encode Text.Base64.hashAlphabet bytes)

def toText (h : PasswordHash) : String :=
  let cost := if h.cost < 10 then "0" ++ Nat.repr h.cost else Nat.repr h.cost
  "$" ++ h.version ++ "$" ++ cost ++ "$" ++ encode h.salt ++ encode h.digest

/-- Reads a hash. Text after the digest is ignored. -/
def ofText? (text : String) : Option PasswordHash := do
  let ["", version, cost, rest] := text.splitOn "$" | none
  if version != "2" && !(version.startsWith "2" && version.length = 2) then none
  if cost.length != 2 || !cost.toList.all Char.isDigit then none
  let cost ← cost.toNat?
  if cost < leastCost || cost > greatestCost then none
  let salt ← Text.Base64.decode? Text.Base64.hashAlphabet (rest.toList.take 22)
  let digest ← Text.Base64.decode? Text.Base64.hashAlphabet ((rest.toList.drop 22).take 31)
  if salt.length = 16 && digest.length = 23 then return { version, cost, salt, digest } else none

end PasswordHash

end SqlDialects
