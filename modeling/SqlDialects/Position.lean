/-! Places in a source text: a byte offset with the line and column it falls on. -/

namespace SqlDialects

/-- Offsets start at zero, lines and columns at one; columns count bytes. A node that no source
text gave rise to stands at the zero position. -/
structure Position where
  offset : Nat := 0
  line : Nat := 0
  column : Nat := 0
deriving Repr, DecidableEq, Inhabited

namespace Position

def start : Position := ⟨0, 1, 1⟩

def next (pos : Position) (c : Char) : Position :=
  if c = '\n' then ⟨pos.offset + c.utf8Size, pos.line + 1, 1⟩
  else ⟨pos.offset + c.utf8Size, pos.line, pos.column + c.utf8Size⟩

/-- The place after a run of characters. -/
def advance (pos : Position) (cs : List Char) : Position := cs.foldl next pos

def toText (pos : Position) : String := s!"{pos.line}:{pos.column}"

end Position

end SqlDialects
