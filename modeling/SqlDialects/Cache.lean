/-! A cache of bounded size that drops the entry that has not been used for the longest time. -/

namespace SqlDialects

/-- `entries` are in the order of their last use, the latest first. -/
structure Cache (κ ν : Type) where
  capacity : Nat
  entries : List (κ × ν) := []

namespace Cache

variable {κ ν : Type} [BEq κ]

/-- Puts an entry in front of the others. -/
def refresh (entries : List (κ × ν)) (key : κ) (value : ν) : List (κ × ν) :=
  (key, value) :: entries.filter fun e => !(e.1 == key)

/-- The value of a key; looking it up counts as a use. -/
def get? (c : Cache κ ν) (key : κ) : Option ν × Cache κ ν :=
  match c.entries.lookup key with
  | some value => (some value, { c with entries := refresh c.entries key value })
  | none => (none, c)

/-- Adds an entry, and drops the oldest one if there is no room. -/
def insert (c : Cache κ ν) (key : κ) (value : ν) : Cache κ ν :=
  { c with entries := (refresh c.entries key value).take c.capacity }

/-- Forgets everything. -/
def clear (c : Cache κ ν) : Cache κ ν := { c with entries := [] }

end Cache

end SqlDialects
