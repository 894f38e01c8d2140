/-! Bytes as text in base sixty-four, without padding. The alphabet is a parameter. -/

namespace SqlDialects.Text.Base64

def addressAlphabet : List Char :=
  "ABCDEFGHIJKLMNOPQRSTUVWXYZabcdefghijklmnopqrstuvwxyz0123456789-_".toList

def hashAlphabet : List Char :=
  "./ABCDEFGHIJKLMNOPQRSTUVWXYZabcdefghijklmnopqrstuvwxyz0123456789".toList

/-- The values of the digits of some bytes. Three bytes are four digits; one or two bytes at the end
are two or three digits. -/
def digits : List UInt8 → List Nat
  | a :: b :: c :: rest =>
    let n := (a.toNat * 256 + b.toNat) * 256 + c.toNat
    n / 262144 :: n / 4096 % 64 :: n / 64 % 64 :: n % 64 :: digits rest
  | [a, b] =>
    let n := (a.toNat * 256 + b.toNat) * 4
    [n / 4096, n / 64 % 64, n % 64]
  | [a] =>
    let n := a.toNat * 16
    [n / 64, n % 64]
  | [] => []

/-- The bytes of digit values. Spare bits at the end are ignored, a single digit left over fails. -/
def bytes? : List Nat → Option (List UInt8)
  | a :: b :: c :: d :: rest => do
    let n := ((a * 64 + b) * 64 + c) * 64 + d
    return (n / 65536).toUInt8 :: (n / 256 % 256).toUInt8 :: (n % 256).toUInt8 :: (← bytes? rest)
  | [a, b, c] =>
    let n := (a * 64 + b) * 64 + c
    some [(n / 1024).toUInt8, (n / 4 % 256).toUInt8]
  | [a, b] => some [((a * 64 + b) / 16).toUInt8]
  | [_] => none
  | [] => some []

def encode (alphabet : List Char) (bytes : List UInt8) : List Char :=
  (digits bytes).map (alphabet.getD · 'A')

/-- Reads digits; line breaks between them are skipped. -/
def decode? (alphabet cs : List Char) : Option (List UInt8) := do
  bytes? (← (cs.filter fun c => c != '\r' && c != '\n').mapM (alphabet.idxOf? ·))

end SqlDialects.Text.Base64
