/-! Blanks at the ends of a text and between its words. -/

namespace SqlDialects.Text

/-- White space: the ASCII separators, the next-line and no-break characters, and the typographic
blanks. -/
def isBlank (c : Char) : Bool :=
  (9 ≤ c.toNat && c.toNat ≤ 13) || c.toNat == 0x20 || c.toNat == 0x85 || c.toNat == 0xa0 ||
  c.toNat == 0x1680 || (0x2000 ≤ c.toNat && c.toNat ≤ 0x200a) || c.toNat == 0x2028 ||
  c.toNat == 0x2029 || c.toNat == 0x202f || c.toNat == 0x205f || c.toNat == 0x3000

def trimBoth (p : Char → Bool) (cs : List Char) : List Char :=
  ((cs.dropWhile p).reverse.dropWhile p).reverse

def trim (s : String) : String := String.ofList (trimBoth isBlank s.toList)

/-- The runs of characters between blanks. -/
def words (s : String) : List String :=
  ((s.toList.splitBy fun a b => isBlank a == isBlank b).filter fun run =>
    run.head?.any (!isBlank ·)).map String.ofList

end SqlDialects.Text
