import SqlDialects.Text.CaseTable

/-! Upper and lower case, one character at a time: every character maps to exactly one character,
so a text keeps its number of characters (`ß` stays `ß`). -/

namespace SqlDialects.Text

def shiftBy (runs : List CaseRun) (c : Char) : Char :=
  match runs.find? (·.covers c.toNat) with
  | some run => Char.ofNat (c.toNat + run.shift).toNat
  | none => c

def upperChar (c : Char) : Char :=
  if c.toNat < 0x80 then c.toUpper else shiftBy upperRuns c

def lowerChar (c : Char) : Char :=
  if c.toNat < 0x80 then c.toLower else shiftBy lowerRuns c

def upper (s : String) : String := s.map upperChar

def lower (s : String) : String := s.map lowerChar

theorem toList_upper (s : String) : (upper s).toList = s.toList.map upperChar := String.toList_map

theorem toList_lower (s : String) : (lower s).toList = s.toList.map lowerChar := String.toList_map

/-- Numbers that are no code points stand for the first character. -/
theorem toNat_ofNat (n : Nat) : (Char.ofNat n).toNat = n ∨ (Char.ofNat n).toNat = 0 := by
  rw [Char.ofNat]
  by_cases valid : n.isValidChar
  · rw [dif_pos valid]
    exact .inl rfl
  · rw [dif_neg valid]
    exact .inr rfl

/-- One representative for all characters that agree up to case: the lower-case form of the upper-case one, which joins
the long s with s and the final sigma with the other. The dotted capital i and the dotless small one agree with no other
character. -/
def foldChar (c : Char) : Char :=
  if c.toNat = 0x130 || c.toNat = 0x131 then c else lowerChar (upperChar c)

/-- Whether two texts agree up to case. -/
def equalFold (a b : String) : Bool :=
  a.toList.map foldChar == b.toList.map foldChar

/-- Whether two texts agree up to the case of ASCII letters. -/
def equalAscii (a b : String) : Bool :=
  a.toList.map Char.toLower == b.toList.map Char.toLower

end SqlDialects.Text
