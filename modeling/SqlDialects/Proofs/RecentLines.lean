import SqlDialects.Log.Ring
import Mathlib.Data.List.DropRight

/-! The buffer of log lines is a bounded history. Line `i` of all lines that were added is written to
slot `i` modulo the capacity, so a line stays readable until as many lines as there are slots have been
added after it. The head and the mark for a full buffer say how many lines were added, up to the
capacity, and that is all that reading needs to know. -/

namespace SqlDialects.Log.Ring

variable {r : Ring} {added : List String}

theorem capacity_pos (r : Ring) : 0 < r.capacity := Nat.zero_lt_of_lt r.head_lt

theorem capacity_add (line : String) : (r.add line).capacity = r.capacity := rfl

theorem capacity_foldl (added : List String) : (added.foldl Ring.add r).capacity = r.capacity := by
  induction added generalizing r with
  | nil => rfl
  | cons line rest ih => exact ih

/-- The buffer after `added`: where the next line goes, whether all slots were written, and which of the
lines the slots still hold. -/
structure Holds (r : Ring) (added : List String) : Prop where
  head : r.head = added.length % r.capacity
  full : r.full = true ↔ r.capacity ≤ added.length
  recent : ∀ i, i < added.length → added.length ≤ i + r.capacity → r.slots[i % r.capacity]? = added[i]?

theorem holds_empty (capacity : Int) : (empty capacity).Holds [] := by
  have positive := capacity_pos (empty capacity)
  refine ⟨rfl, ?_, ?_⟩
  · constructor
    · intro full
      cases full
    · intro none
      exact absurd positive (Nat.not_lt.mpr none)
  · intro i inside
    cases inside

/-- Two lines of which the later one still leaves room for the earlier one have different slots. -/
private theorem slot_apart {i k capacity : Nat} (before : i < k) (room : k < i + capacity) :
    k % capacity ≠ i % capacity := by
  intro same
  have divides : capacity ∣ k - i := Nat.dvd_of_mod_eq_zero (Nat.sub_mod_eq_zero_of_mod_eq same)
  have atLeast := Nat.le_of_dvd (Nat.sub_pos_of_lt before) divides
  omega

theorem Holds.add (held : r.Holds added) (line : String) : (r.add line).Holds (added ++ [line]) := by
  have positive := capacity_pos r
  have length : (added ++ [line]).length = added.length + 1 := by simp
  have next : (r.head + 1) % r.capacity = (added.length + 1) % r.capacity := by
    rw [held.head, Nat.mod_add_mod]
  refine ⟨?_, ?_, ?_⟩
  · rw [length]
    exact next
  · show (r.full || (r.head + 1) % r.capacity == 0) = true ↔ _
    rw [Bool.or_eq_true, held.full, beq_iff_eq, next, length, capacity_add]
    constructor
    · rintro (all | wraps)
      · exact Nat.le_succ_of_le all
      · exact Nat.le_of_dvd (Nat.succ_pos _) (Nat.dvd_of_mod_eq_zero wraps)
    · intro enough
      -- The mark is set at the line that fills the last slot, and stays.
      rcases Nat.lt_or_ge added.length r.capacity with room | all
      · right
        rw [show added.length + 1 = r.capacity by omega, Nat.mod_self]
      · exact Or.inl all
  · intro i inside recent
    rw [length] at inside recent
    rw [capacity_add] at recent
    show (r.slots.set r.head line r.head_lt)[i % r.capacity]? = _
    rcases Nat.lt_or_ge i added.length with old | new
    · have other : r.head ≠ i % r.capacity := by
        rw [held.head]
        apply slot_apart old
        omega
      rw [Vector.getElem?_set_ne r.head_lt other, List.getElem?_append_left old]
      apply held.recent i old
      omega
    · obtain rfl : i = added.length := by omega
      rw [← held.head, Vector.getElem?_set_self r.head_lt, List.getElem?_concat_length]

theorem holds_foldl {start : List String} (held : r.Holds start) (added : List String) :
    (added.foldl Ring.add r).Holds (start ++ added) := by
  induction added generalizing r start with
  | nil => simpa using held
  | cons line rest ih => simpa using ih (held.add line)

/-! ### Reading -/

theorem Holds.total (held : r.Holds added) : r.total = min added.length r.capacity := by
  rw [Ring.total]
  split
  · next full => exact (Nat.min_eq_right (held.full.mp full)).symm
  · next room =>
    have few : added.length < r.capacity := by
      apply Nat.lt_of_not_le
      intro all
      exact room (held.full.mpr all)
    rw [held.head, Nat.mod_eq_of_lt few, Nat.min_eq_left few.le]

/-- The first line is the oldest one that is left. -/
theorem Holds.first (held : r.Holds added) : r.first = (added.length - r.total) % r.capacity := by
  rw [Ring.first, Ring.total]
  split
  · next full => rw [held.head, Nat.mod_eq_sub_mod (held.full.mp full)]
  · next room =>
    have few : added.length < r.capacity := by
      apply Nat.lt_of_not_le
      intro all
      exact room (held.full.mpr all)
    rw [held.head, Nat.mod_eq_of_lt few, Nat.sub_self, Nat.zero_mod]

theorem Holds.line (held : r.Holds added) {i : Nat} (inside : i < r.total) :
    some (r.line i) = added[added.length - r.total + i]? := by
  have total := held.total
  have most : r.total ≤ added.length := by omega
  have slot : (r.first + i) % r.capacity = (added.length - r.total + i) % r.capacity := by
    rw [held.first, Nat.mod_add_mod]
  rw [← held.recent (added.length - r.total + i) (by omega) (by omega), ← slot,
    Vector.getElem?_eq_getElem (Nat.mod_lt _ (capacity_pos r))]
  rfl

theorem Holds.lines (held : r.Holds added) (n : Int) :
    r.lines n = added.rtake (max 0 (min n r.total)).toNat := by
  have count : (max 0 (min n r.total)).toNat = min n.toNat r.total := by omega
  have total := held.total
  rw [count, List.rtake]
  apply List.ext_getElem?
  intro i
  rw [List.getElem?_drop, Ring.lines, List.getElem?_map]
  rcases Nat.lt_or_ge i (min n.toNat r.total) with inside | outside
  · have place : added.length - r.total + (r.total - min n.toNat r.total + i) =
        added.length - min n.toNat r.total + i := by omega
    rw [List.getElem?_range inside, Option.map_some, held.line (by omega), place]
  · rw [List.getElem?_eq_none (by simpa using outside), List.getElem?_eq_none (by omega)]
    rfl

/-- After any lines a buffer holds the most recent ones, as many as it has slots for, and shows as many
of them as it is asked for, oldest first. -/
theorem buffer_keeps_recent (capacity : Int) (added : List String) (n : Int) :
    let buffer := added.foldl Ring.add (empty capacity)
    buffer.total = min added.length (if 0 < capacity then capacity.toNat else 500) ∧
    buffer.lines n = added.rtake (max 0 (min n buffer.total)).toNat := by
  intro buffer
  have held : buffer.Holds added := holds_foldl (holds_empty capacity) added
  refine ⟨?_, held.lines n⟩
  rw [held.total, capacity_foldl]
  rfl

/-- A buffer of one slot wraps with every line. -/
example : (["a", "b"].foldl Ring.add (empty 1)).lines 5 = ["b"] := by decide

end SqlDialects.Log.Ring
