/-! Positions in a text count the bytes of its UTF-8 form. A cut at a byte offset keeps whole
characters: a character belongs to the part in which its first byte lies. -/

namespace SqlDialects.Text

def byteCount : List Char → Nat
  | [] => 0
  | c :: cs => c.utf8Size + byteCount cs

def dropBytes : Nat → List Char → List Char
  | 0, cs => cs
  | _ + 1, [] => []
  | n + 1, c :: cs => dropBytes (n + 1 - c.utf8Size) cs

def takeBytes : Nat → List Char → List Char
  | 0, _ => []
  | _ + 1, [] => []
  | n + 1, c :: cs => c :: takeBytes (n + 1 - c.utf8Size) cs

def slice (s : String) (start stop : Nat) : String :=
  String.ofList (takeBytes (stop - start) (dropBytes start s.toList))

@[simp] theorem byteCount_append (a b : List Char) :
    byteCount (a ++ b) = byteCount a + byteCount b := by
  induction a with
  | nil => simp [byteCount]
  | cons c cs ih => simp [byteCount, ih, Nat.add_assoc]

/-- A cut loses nothing. -/
theorem takeBytes_append_dropBytes (n : Nat) (cs : List Char) :
    takeBytes n cs ++ dropBytes n cs = cs := by
  induction cs generalizing n with
  | nil => cases n <;> simp [takeBytes, dropBytes]
  | cons c cs ih => cases n <;> simp [takeBytes, dropBytes, ih]

end SqlDialects.Text
