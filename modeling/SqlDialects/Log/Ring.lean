/-! A buffer of fixed capacity that keeps the most recent lines. -/

namespace SqlDialects.Log

/-- `head` is the slot that is written next; the buffer is `full` once every slot has been
written. -/
structure Ring where
  capacity : Nat
  slots : Vector String capacity
  head : Nat
  full : Bool
  head_lt : head < capacity

namespace Ring

/-- The capacity of a buffer for which none is given. -/
def defaultCapacity : Nat := 500

def empty (capacity : Int) : Ring :=
  let size := if 0 < capacity then capacity.toNat else defaultCapacity
  { capacity := size
    slots := .replicate size ""
    head := 0
    full := false
    head_lt := by
      show 0 < (if 0 < capacity then capacity.toNat else defaultCapacity)
      split
      · omega
      · decide }

/-- Adds a line in place of the oldest one when the buffer is full. -/
def add (r : Ring) (line : String) : Ring :=
  { r with
    slots := r.slots.set r.head line r.head_lt
    head := (r.head + 1) % r.capacity
    full := r.full || (r.head + 1) % r.capacity == 0
    head_lt := Nat.mod_lt _ (Nat.zero_lt_of_lt r.head_lt) }

/-- How many lines are held. -/
def total (r : Ring) : Nat := if r.full then r.capacity else r.head

/-- The slot of the oldest line. -/
def first (r : Ring) : Nat := if r.full then r.head else 0

def line (r : Ring) (i : Nat) : String :=
  r.slots.get ⟨(r.first + i) % r.capacity, Nat.mod_lt _ (Nat.zero_lt_of_lt r.head_lt)⟩

def lines (r : Ring) (n : Int) : List String :=
  let count := min n.toNat r.total
  (List.range count).map fun i => r.line (r.total - count + i)

end Ring

end SqlDialects.Log
