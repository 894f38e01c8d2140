/-! The lexical rules of a dialect. -/

namespace SqlDialects

/-- The first identifier quote is the one used in output. Reserved words must be quoted to serve
as names; keywords are words with a meaning of their own somewhere in the grammar. -/
structure Lexicon where
  identQuotes : List Char := ['\x22']
  stringQuotes : List Char := ['\x27']
  backslashEscapes : Bool := false
  hashComments : Bool := false
  /-- Operators of several characters, beyond those that every dialect has. -/
  operators : List String := []
  keywords : List String := []
  reserved : List String := []

namespace Lexicon

def isReserved (lexicon : Lexicon) (upper : String) : Bool := lexicon.reserved.contains upper

def isKeyword (lexicon : Lexicon) (upper : String) : Bool :=
  lexicon.keywords.contains upper || lexicon.isReserved upper

/-- Operators of several characters that every dialect reads. -/
def baseOperators : List String := ["<=", ">=", "<>", "!=", "||"]

def longOperators (lexicon : Lexicon) : List String :=
  (baseOperators ++ lexicon.operators).mergeSort fun a b => b.utf8ByteSize ≤ a.utf8ByteSize

end Lexicon

def isIdentStart (c : Char) : Bool := c.isAlpha || c == '_' || 0x80 ≤ c.toNat

def isIdentChar (c : Char) : Bool := isIdentStart c || c.isDigit || c == '$'

end SqlDialects
