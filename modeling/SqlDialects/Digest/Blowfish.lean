/-! A block cipher with sixteen rounds whose tables are mixed with a key. Before any key the tables
hold the binary digits of the fractional part of π. -/

namespace SqlDialects.Digest.Blowfish

/-! Digits of π. -/

/-- The inverse tangent of `1 / x` in parts of a unit: the alternating sum of the odd powers of
`1 / x` over their exponents, as long as a power is not zero. `power` is the next one. -/
def arctan (x : Nat) : (fuel power exponent : Nat) → (sign sum : Int) → Int
  | 0, _, _, _, sum => sum
  | fuel + 1, power, exponent, sign, sum =>
    if power = 0 then sum
    else arctan x fuel (power / (x * x)) (exponent + 2) (-sign) (sum + sign * (power / exponent : Nat))

/-- π in parts of `2 ^ bits`, up to an error far below the lowest digits used: it is four times
the difference of four inverse tangents of a fifth and that of `1 / 239`. -/
def pi (bits : Nat) : Nat :=
  let unit := Nat.pow 2 bits
  let inverseTangent := fun x => arctan x bits (unit / x) 1 1 0
  (4 * (4 * inverseTangent 5 - inverseTangent 239)).toNat

/-- How many words the tables have: eighteen for the rounds, and four boxes of 256. -/
def size : Nat := 18 + 4 * 256

/-- Spare digits that take up the errors of the sums. -/
def spareBits : Nat := 64

/-- The first words of the fractional part of π. -/
def piWords : Array UInt32 :=
  let bits := 32 * size + spareBits
  let digits := pi bits
  (Array.range size).map fun i => (digits >>> (bits - 32 * (i + 1))).toUInt32

/-! The cipher. -/

/-- The words of the rounds, then the boxes. -/
structure Tables where
  words : Array UInt32

namespace Tables

def start : Tables := ⟨piWords⟩

def word (t : Tables) (i : Nat) : UInt32 := t.words.getD i 0

def box (t : Tables) (number : Nat) (x : UInt32) : UInt32 :=
  t.word (18 + 256 * number + (x &&& 255).toNat)

/-- Mixes the four bytes of a half block. -/
def mix (t : Tables) (x : UInt32) : UInt32 :=
  ((t.box 0 (x >>> 24) + t.box 1 (x >>> 16)) ^^^ t.box 2 (x >>> 8)) + t.box 3 x

def rounds (t : Tables) : (n : Nat) → (left right : UInt32) → UInt32 × UInt32
  | 0, left, right => (right ^^^ t.word 17, left ^^^ t.word 16)
  | n + 1, left, right =>
    let left := left ^^^ t.word (15 - n)
    t.rounds n (right ^^^ t.mix left) left

def encrypt (t : Tables) (left right : UInt32) : UInt32 × UInt32 := t.rounds 16 left right

/-- Replaces the last `n` pairs of words, each by the encryption of the pair before it, to which
words of the salt have been added. -/
def refill (salt : Array UInt32) : (n : Nat) → (left right : UInt32) → Tables → Tables
  | 0, _, _, t => t
  | n + 1, left, right, t =>
    let i := size - 2 * (n + 1)
    let (left, right) :=
      t.encrypt (left ^^^ salt.getD (i % salt.size) 0) (right ^^^ salt.getD ((i + 1) % salt.size) 0)
    refill salt n left right
      ⟨(t.words.setIfInBounds i left).setIfInBounds (i + 1) right⟩

/-- Adds a key to the words of the rounds and refills the tables. A key and a salt repeat as often
as needed. -/
def expand (key salt : Array UInt32) (t : Tables) : Tables :=
  let keyed := (List.range 18).foldl (fun words i =>
    words.setIfInBounds i (words.getD i 0 ^^^ key.getD (i % key.size) 0)) t.words
  refill salt (size / 2) 0 0 ⟨keyed⟩

end Tables

end SqlDialects.Digest.Blowfish
