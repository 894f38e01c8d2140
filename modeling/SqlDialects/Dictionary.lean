/-! Small dictionaries with text keys. The newest entry of a key is the one found, so a later
registration takes the place of an earlier one. -/

namespace SqlDialects

/-- Entries, newest first. -/
structure Dictionary (α : Type) where
  entries : List (String × α) := []

namespace Dictionary

variable {α : Type}

instance : Inhabited (Dictionary α) := ⟨{}⟩

def find? (d : Dictionary α) (key : String) : Option α := d.entries.lookup key

def contains (d : Dictionary α) (key : String) : Bool := (d.find? key).isSome

def insert (d : Dictionary α) (key : String) (value : α) : Dictionary α :=
  ⟨(key, value) :: d.entries⟩

def insertAll (d : Dictionary α) (pairs : List (String × α)) : Dictionary α :=
  pairs.foldl (fun d pair => d.insert pair.1 pair.2) d

def insertEach (d : Dictionary α) (value : α) (keys : List String) : Dictionary α :=
  d.insertAll (keys.map (·, value))

def erase (d : Dictionary α) (key : String) : Dictionary α :=
  ⟨d.entries.filter fun pair => pair.1 != key⟩

def ofList (pairs : List (String × α)) : Dictionary α := ({} : Dictionary α).insertAll pairs

/-- The entries that are found, each key once. -/
def current (d : Dictionary α) : List (String × α) := visible [] d.entries
where
  visible (seen : List String) : List (String × α) → List (String × α)
    | [] => []
    | pair :: rest =>
      if seen.contains pair.1 then visible seen rest else pair :: visible (pair.1 :: seen) rest

theorem find?_insert (d : Dictionary α) (key other : String) (value : α) :
    (d.insert key value).find? other = if other == key then some value else d.find? other := by
  unfold insert find?
  rw [List.lookup_cons]
  cases other == key <;> rfl

theorem entries_insertAll (d : Dictionary α) (pairs : List (String × α)) :
    (d.insertAll pairs).entries = pairs.reverse ++ d.entries := by
  induction pairs generalizing d with
  | nil => rfl
  | cons pair pairs ih =>
    change ((d.insert pair.1 pair.2).insertAll pairs).entries = _
    rw [ih, List.reverse_cons, List.append_assoc]
    rfl

end Dictionary

end SqlDialects
