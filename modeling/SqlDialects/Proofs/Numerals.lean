import Mathlib.Data.Nat.Digits.Defs
import SqlDialects.Decimal

/-! The texts of numbers. A tree holds numbers that are spelled in the text that is read, numbers out of the quotes of
its intervals, and decimals that calls of functions come with or are folded to. -/

namespace SqlDialects

/-- Digits, points and dashes. -/
def Numeric (text : String) : Prop := text ≠ "" ∧ ∀ c ∈ text.toList, (c.isDigit || c == '.' || c == '-') = true

/-- Digits, or a point with digits behind it and perhaps in front of it. -/
inductive IsDecimal : List Char → Prop
  | whole {cs : List Char} (some : cs ≠ []) (digits : ∀ c ∈ cs, c.isDigit = true) : IsDecimal cs
  | point {cs ds : List Char} (digits : ∀ c ∈ cs, c.isDigit = true) (some : ds ≠ [])
      (fraction : ∀ d ∈ ds, d.isDigit = true) :
    IsDecimal (cs ++ '.' :: ds)

theorem IsDecimal.chars {cs : List Char} (decimal : IsDecimal cs) : ∀ c ∈ cs, c.isDigit = true ∨ c = '.' := by
  intro c member
  cases decimal with
  | whole _ digits => exact .inl (digits c member)
  | point digits _ fraction =>
    obtain inside | later := List.mem_append.mp member
    · exact .inl (digits c inside)
    obtain rfl | inside := List.mem_cons.mp later
    · exact .inr rfl
    · exact .inl (fraction c inside)

/-- The text without a minus sign in front of it. -/
def unsigned (text : String) : String := if text.toList.head? = some '-' then String.ofList text.toList.tail else text

theorem unsigned_minus (cs : List Char) : unsigned (String.ofList ('-' :: cs)) = String.ofList cs := by
  simp [unsigned]

theorem IsDecimal.unsigned {cs : List Char} (decimal : IsDecimal cs) :
    unsigned (String.ofList cs) = String.ofList cs := by
  refine if_neg fun sign => ?_
  rw [String.toList_ofList] at sign
  exact absurd (decimal.chars '-' (List.mem_of_head? sign)) (by decide)

/-! ### Decimals in full -/

theorem digits_repr (n : Nat) : n.repr.toList ≠ [] ∧ ∀ c ∈ n.repr.toList, c.isDigit = true := by
  rw [Nat.toList_repr]
  exact ⟨Nat.toDigits_ne_nil, fun c member => Nat.isDigit_of_mem_toDigits (by decide) (by decide) member⟩

theorem isDecimal_natural (n : Nat) : IsDecimal n.repr.toList := .whole (digits_repr n).1 (digits_repr n).2

/-- Behind its sign an integer is a decimal. -/
theorem isDecimal_repr (n : Int) : IsDecimal (unsigned n.repr).toList := by
  rw [Int.repr_eq_if]
  split
  · have plain := (isDecimal_natural n.toNat).unsigned
    rw [String.ofList_toList] at plain
    rw [plain]
    exact isDecimal_natural _
  · have text : ("-" ++ (-n).toNat.repr).toList = '-' :: (-n).toNat.repr.toList := String.toList_append
    rw [← String.ofList_toList (s := "-" ++ _), text, unsigned_minus, String.toList_ofList]
    exact isDecimal_natural _

theorem Decimal.isDecimal_toText (d : Decimal) : IsDecimal (unsigned d.toText).toList := by
  unfold Decimal.toText
  split
  · exact isDecimal_repr _
  extract_lets places shown padded whole fraction sign
  have digits : ∀ c ∈ padded, c.isDigit = true := by
    intro c member
    obtain zero | digit := List.mem_append.mp member
    · rw [List.eq_of_mem_replicate zero]
      rfl
    · exact (digits_repr _).2 c digit
  have front : ∀ c ∈ whole, c.isDigit = true := fun c member => digits c (List.mem_of_mem_take member)
  have nonempty : whole ≠ [] := by
    have long : places < padded.length := by
      rw [List.length_append, List.length_replicate]
      omega
    rw [ne_eq, List.take_eq_nil_iff]
    rintro (none | empty)
    · omega
    · simp [empty] at long
  have behind : ∀ c ∈ fraction, c.isDigit = true := fun c member =>
    digits c (List.mem_of_mem_drop (List.mem_reverse.mp
      ((List.dropWhile_suffix _).subset (List.mem_reverse.mp member))))
  have decimal : IsDecimal (whole ++ if fraction.isEmpty then [] else '.' :: fraction) := by
    split
    · rw [List.append_nil]
      exact .whole nonempty front
    · next some => exact .point front (by simpa using some) behind
  rw [List.append_assoc]
  unfold sign
  split
  · rw [List.singleton_append, unsigned_minus, String.toList_ofList]
    exact decimal
  · rw [List.nil_append, decimal.unsigned, String.toList_ofList]
    exact decimal

/-! ### Numbers of a tree -/

/-- The texts that the numbers of a tree may have. There are all decimals among them, and a call may take the sign
from a number that it is given. -/
class Numerals where
  Admits : String → Prop
  decimal : ∀ text, IsDecimal (unsigned text).toList → Admits text
  unsign : ∀ cs, Admits (String.ofList ('-' :: cs)) → Admits (String.ofList cs)

namespace Numerals

/-- Numbers with any text. -/
abbrev any : Numerals := ⟨fun _ => True, fun _ _ => trivial, fun _ _ => trivial⟩

variable [Numerals]

theorem admits_decimal {text : String} (plain : IsDecimal text.toList) : Admits text := by
  refine decimal text ?_
  rw [← String.ofList_toList (s := text), plain.unsigned, String.toList_ofList]
  exact plain

@[simp] theorem admits_natural (n : Nat) : Admits n.repr := admits_decimal (isDecimal_natural n)

@[simp] theorem admits_repr (n : Int) : Admits n.repr := decimal _ (isDecimal_repr n)

@[simp] theorem admits_toText (d : Decimal) : Admits d.toText := decimal _ d.isDecimal_toText

@[simp] theorem admits_digits {text : String}
    (digits : text ≠ "" ∧ text.toList.all Char.isDigit = true) : Admits text :=
  admits_decimal (.whole (fun empty => digits.1 (String.toList_eq_nil_iff.mp empty)) (List.all_eq_true.mp digits.2))

end Numerals

end SqlDialects
