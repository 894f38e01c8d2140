import SqlDialects.Text.Case

/-! Patterns for dates. Each dialect has its own pattern language; the neutral one writes
`%`-directives (`%Y`, `%m`, ...), with a plain percent sign doubled. -/

namespace SqlDialects

/-- A pattern language: its tokens with the directives they mean. Earlier pairs win, so the first
token of a directive is the one written. -/
structure DatePattern where
  pairs : List (String × String) := []
  foldCase : Bool := false
  /-- The character that encloses plain text. -/
  mark : Option Char := none

namespace DatePattern

/-- Tokens with their directives, longest first. -/
def tokens (p : DatePattern) : List (String × String) :=
  let keyed := p.pairs.map fun (native, directive) =>
    (if p.foldCase then Text.upper native else native, directive)
  let distinct := keyed.foldl (fun seen pair =>
    if seen.any (·.1 == pair.1) then seen else seen ++ [pair]) []
  distinct.mergeSort fun a b => b.1.length ≤ a.1.length

/-- Drops `n` bytes. A character cut in two leaves a replacement mark for each byte that is left
of it. -/
def dropCut : Nat → List Char → List Char
  | 0, cs => cs
  | _ + 1, [] => []
  | n + 1, c :: cs =>
    if c.utf8Size ≤ n + 1 then dropCut (n + 1 - c.utf8Size) cs
    else List.replicate (c.utf8Size - (n + 1)) (Char.ofNat 0xfffd) ++ cs

/-- The first token that the text starts with. -/
def matchToken? (p : DatePattern) (tokens : List (String × String)) (cs : List Char) :
    Option (String × String) :=
  tokens.find? fun (token, _) =>
    token.toList.isPrefixOf (if p.foldCase then (cs.take token.length).map Text.upperChar else cs)

/-- Reads a pattern from the left. Each step takes at least one character, so the number of bytes
bounds the steps. -/
def readFrom (p : DatePattern) (tokens : List (String × String)) :
    Nat → List Char → List Char
  | 0, _ => []
  | _ + 1, [] => []
  | fuel + 1, c :: cs =>
    if some c = p.mark then
      match cs.dropWhile (· != c) with
      | [] => cs
      | _ :: rest => cs.takeWhile (· != c) ++ p.readFrom tokens fuel rest
    else match p.matchToken? tokens (c :: cs) with
      | some (token, directive) =>
        directive.toList ++ p.readFrom tokens fuel (dropCut token.utf8ByteSize (c :: cs))
      | none =>
        (if c = '%' then ['%', '%'] else [c]) ++ p.readFrom tokens fuel cs

/-- A pattern of this language with neutral directives. What is no token is kept. -/
def toCanonical (p : DatePattern) (format : String) : String :=
  if p.pairs.isEmpty then format
  else String.ofList (p.readFrom p.tokens (format.utf8ByteSize + 1) format.toList)

def token? (p : DatePattern) (directive : List Char) : Option String :=
  (p.pairs.find? fun pair => pair.2.toList == directive).map (·.1)

def writeFrom (p : DatePattern) : List Char → List Char
  | '%' :: c :: cs =>
    (if c = '%' then ['%']
      else match p.token? ['%', c] with
        | some token => token.toList
        | none => ['%', c]) ++ p.writeFrom cs
  | c :: cs => c :: p.writeFrom cs
  | [] => []

/-- A neutral pattern in this language. Directives without a token are kept. -/
def fromCanonical (p : DatePattern) (format : String) : String :=
  if p.pairs.isEmpty then format else String.ofList (p.writeFrom format.toList)

def neutral : DatePattern := {}

/-- The letters of Java's formatter, used by Hive, Spark and parts of Presto. -/
def java : DatePattern where
  mark := some '\x27'
  pairs := [
    ("yyyy", "%Y"), ("YYYY", "%Y"), ("yy", "%y"), ("MMMM", "%M"), ("MMM", "%b"), ("MM", "%m"),
    ("M", "%c"), ("dd", "%d"), ("d", "%e"), ("DDD", "%j"), ("HH", "%H"), ("H", "%k"),
    ("hh", "%h"), ("h", "%l"), ("mm", "%i"), ("ss", "%s"), ("ss", "%S"), ("SSSSSS", "%f"),
    ("a", "%p"), ("EEEE", "%W"), ("EEE", "%a")]

def postgres : DatePattern where
  foldCase := true
  mark := some '\x22'
  pairs := [
    ("YYYY", "%Y"), ("YY", "%y"), ("MONTH", "%M"), ("MON", "%b"), ("MM", "%m"), ("DDD", "%j"),
    ("DD", "%d"), ("DAY", "%W"), ("DY", "%a"), ("HH24", "%H"), ("HH12", "%h"), ("HH", "%h"),
    ("MI", "%i"), ("SS", "%S"), ("SS", "%s"), ("US", "%f"), ("FF6", "%f"), ("AM", "%p"),
    ("PM", "%p")]

def oracle : DatePattern where
  foldCase := true
  mark := some '\x22'
  pairs := [
    ("SYYYY", "%Y"), ("YYYY", "%Y"), ("RRRR", "%Y"), ("YY", "%y"), ("MONTH", "%M"),
    ("MON", "%b"), ("MM", "%m"), ("DDD", "%j"), ("DD", "%d"), ("DAY", "%W"), ("DY", "%a"),
    ("HH24", "%H"), ("HH12", "%h"), ("HH", "%h"), ("MI", "%i"), ("SS", "%s"), ("SS", "%S"),
    ("FF6", "%f"), ("FF", "%f"), ("AM", "%p"), ("PM", "%p")]

/-- Teradata's `FORMAT` phrases. -/
def teradata : DatePattern where
  foldCase := true
  pairs := [
    ("YYYY", "%Y"), ("YY", "%y"), ("MMM", "%b"), ("MM", "%m"), ("DDD", "%j"), ("DD", "%d"),
    ("HH", "%H"), ("MI", "%i"), ("SS", "%S")]

def occursIn (needle : List Char) : List Char → Bool
  | [] => needle.isEmpty
  | c :: cs => needle.isPrefixOf (c :: cs) || occursIn needle cs

def isOracleModel (format : String) : Bool :=
  let shown := (Text.upper format).toList
  occursIn "HH24".toList shown || occursIn "HH12".toList shown || occursIn "MI".toList shown

end DatePattern

end SqlDialects
