import SqlDialects.Json.Reader
import SqlDialects.Toml.Value

/-! Reading settings files. -/

namespace SqlDialects.Toml

/-- A place, counted in lines from the start, that cannot be read. -/
structure Fault where
  line : Nat
deriving Repr, DecidableEq

def Fault.message (f : Fault) : String := s!"toml: line {f.line}: unexpected text"

/-- A step of reading gives a result and the rest, or fails at the rest it had. -/
abbrev Reader (α : Type) := List Char → Except (List Char) (α × List Char)

def isSpace (c : Char) : Bool := c == ' ' || c == '\t'

def isNewline (c : Char) : Bool := c == '\n' || c == '\r'

def skipSpace (cs : List Char) : List Char := cs.dropWhile isSpace

def skipComment : List Char → List Char
  | '#' :: cs => cs.dropWhile (· != '\n')
  | cs => cs

def skipLines : Nat → List Char → List Char
  | 0, cs => cs
  | fuel + 1, cs =>
    match skipComment (cs.dropWhile fun c => isSpace c || isNewline c) with
    | [] => []
    | c :: rest =>
      if isSpace c || isNewline c || c = '#' then skipLines fuel (c :: rest) else c :: rest

/-! Strings. -/

def codePoint (count : Nat) : Reader Char := fun cs =>
  let digits := (cs.take count).filterMap Json.hexValue?
  if digits.length = count then
    .ok (Char.ofNat (digits.foldl (fun n d => 16 * n + d) 0), cs.drop count)
  else .error cs

def escaped : Reader Char
  | 'b' :: cs => .ok ('\x08', cs)
  | 't' :: cs => .ok ('\t', cs)
  | 'n' :: cs => .ok ('\n', cs)
  | 'f' :: cs => .ok ('\x0c', cs)
  | 'r' :: cs => .ok ('\r', cs)
  | 'e' :: cs => .ok ('\x1b', cs)
  | '\x22' :: cs => .ok ('\x22', cs)
  | '\\' :: cs => .ok ('\\', cs)
  | 'u' :: cs => codePoint 4 cs
  | 'U' :: cs => codePoint 8 cs
  | cs => .error cs

/-- A string on one line, up to its closing quote. -/
def basic : Nat → List Char → Reader String
  | 0, _, cs => .error cs
  | _ + 1, _, [] => .error []
  | fuel + 1, done, c :: cs =>
    if c = '\x22' then .ok (String.ofList done.reverse, cs)
    else if c = '\n' then .error (c :: cs)
    else if c = '\\' then
      match escaped cs with
      | .ok (c, cs) => basic fuel (c :: done) cs
      | .error cs => .error cs
    else basic fuel (c :: done) cs

def quotes (mark : Char) (cs : List Char) : Nat := (cs.takeWhile (· == mark)).length

/-- Ends a string of several lines: up to two quotes before the closing three belong to it. -/
def closing (mark : Char) (done cs : List Char) : String × List Char :=
  let extra := min 2 (quotes mark cs - 3)
  (String.ofList (done.reverse ++ List.replicate extra mark), cs.drop (extra + 3))

/-- A string of several lines. A backslash at the end of a line joins it with the next. -/
def multiline : Nat → List Char → Reader String
  | 0, _, cs => .error cs
  | _ + 1, _, [] => .error []
  | fuel + 1, done, c :: cs =>
    if c = '\x22' && quotes '\x22' (c :: cs) ≥ 3 then .ok (closing '\x22' done (c :: cs))
    else if c = '\\' then
      match skipSpace cs with
      | '\n' :: rest | '\r' :: '\n' :: rest =>
        multiline fuel done (rest.dropWhile fun c => isSpace c || isNewline c)
      | _ =>
        match escaped cs with
        | .ok (c, cs) => multiline fuel (c :: done) cs
        | .error cs => .error cs
    else multiline fuel (c :: done) cs

/-- Text up to a single quote, taken as it stands. -/
def literal (cs : List Char) : Except (List Char) (String × List Char) :=
  let shown := cs.takeWhile fun c => c != '\x27' && c != '\n'
  match cs.drop shown.length with
  | '\x27' :: rest => .ok (String.ofList shown, rest)
  | rest => .error rest

/-- Text of several lines up to three single quotes, taken as it stands. -/
def literalLines : Nat → List Char → Reader String
  | 0, _, cs => .error cs
  | _ + 1, _, [] => .error []
  | fuel + 1, done, c :: cs =>
    if c = '\x27' && quotes '\x27' (c :: cs) ≥ 3 then .ok (closing '\x27' done (c :: cs))
    else literalLines fuel (c :: done) cs

/-- The line break right after the opening quotes does not count. -/
def dropBreak : List Char → List Char
  | '\n' :: cs => cs
  | '\r' :: '\n' :: cs => cs
  | cs => cs

/-- A string of any of the four kinds, if one starts here. -/
def string? (cs : List Char) : Option (Except (List Char) (String × List Char)) :=
  match cs with
  | '\x22' :: '\x22' :: '\x22' :: cs => some (multiline (cs.length + 1) [] (dropBreak cs))
  | '\x27' :: '\x27' :: '\x27' :: cs => some (literalLines (cs.length + 1) [] (dropBreak cs))
  | '\x22' :: cs => some (basic (cs.length + 1) [] cs)
  | '\x27' :: cs => some (literal cs)
  | _ => none

/-! Keys. -/

def keyName : Reader String
  | '\x22' :: cs => basic (cs.length + 1) [] cs
  | '\x27' :: cs => literal cs
  | cs =>
    let name := cs.takeWhile isBare
    if name.isEmpty then .error cs else .ok (String.ofList name, cs.drop name.length)

def key : Nat → Reader (List String)
  | 0, cs => .error cs
  | fuel + 1, cs => do
    let (name, cs) ← keyName (skipSpace cs)
    match skipSpace cs with
    | '.' :: cs =>
      let (names, cs) ← key fuel cs
      return (name :: names, cs)
    | cs => return ([name], cs)

/-! Numbers and dates. -/

def isWordChar (c : Char) : Bool :=
  c.isAlphanum || c == '+' || c == '-' || c == '_' || c == '.' || c == ':'

def digitsIn? (base : Nat) (cs : List Char) : Option Nat :=
  let digits := cs.filter (· != '_')
  if digits.isEmpty then none
  else digits.foldl (fun n c => do
    let n ← n
    let d ← Json.hexValue? c
    if d < base then some (base * n + d) else none) (some 0)

def integer? : List Char → Option Int
  | '0' :: 'x' :: cs => (digitsIn? 16 cs).map Int.ofNat
  | '0' :: 'o' :: cs => (digitsIn? 8 cs).map Int.ofNat
  | '0' :: 'b' :: cs => (digitsIn? 2 cs).map Int.ofNat
  | '-' :: cs => (digitsIn? 10 cs).map fun n => -(n : Int)
  | '+' :: cs => (digitsIn? 10 cs).map Int.ofNat
  | cs => (digitsIn? 10 cs).map Int.ofNat

def float? (word : String) : Option Float :=
  match word with
  | "inf" | "+inf" => some (1 / 0)
  | "-inf" => some (-1 / 0)
  | "nan" | "+nan" | "-nan" => some (0 / 0)
  | _ => (Decimal.ofText? (String.ofList (word.toList.filter (· != '_')))).map Decimal.toFloat

def isDate (word : List Char) : Bool :=
  let fits (count : Nat) (mark : Char) : Bool :=
    (word.take count).all Char.isDigit && word[count]? == some mark
  fits 4 '-' || fits 2 ':'

def word (cs : List Char) : Except (List Char) (Value × List Char) :=
  let shown := cs.takeWhile isWordChar
  let rest := cs.drop shown.length
  let text := String.ofList shown
  if shown.isEmpty then .error cs
  else if text = "true" then .ok (.bool true, rest)
  else if text = "false" then .ok (.bool false, rest)
  else if isDate shown then
    match rest with
    | ' ' :: d :: more =>
      if d.isDigit && shown.length = 10 then
        let time := (d :: more).takeWhile isWordChar
        .ok (.date (String.ofList (shown ++ ' ' :: time)), (d :: more).drop time.length)
      else .ok (.date text, rest)
    | _ => .ok (.date text, rest)
  else match integer? shown with
    | some n => .ok (.integer n, rest)
    | none =>
      match float? text with
      | some x => .ok (.float x, rest)
      | none => .error cs

/-! Values and items. -/

mutual

def value : Nat → Reader Value
  | 0, cs => .error cs
  | fuel + 1, cs =>
    match string? cs with
    | some (.ok (s, rest)) => .ok (.string s, rest)
    | some (.error rest) => .error rest
    | none =>
      match cs with
      | '[' :: cs => do
        let (items, rest) ← items fuel cs
        return (.array items, rest)
      | '\x7b' :: cs =>
        match skipLines cs.length cs with
        | '\x7d' :: rest => .ok (.table [], rest)
        | _ => do
          let (fields, rest) ← fields fuel cs
          return (.table fields, rest)
      | cs => word cs

/-- The items of an array and its closing bracket; a comma may stand before the bracket. -/
def items : Nat → Reader (List Value)
  | 0, cs => .error cs
  | fuel + 1, cs =>
    match skipLines cs.length cs with
    | ']' :: rest => .ok ([], rest)
    | cs => do
      let (v, cs) ← value fuel cs
      match skipLines cs.length cs with
      | ',' :: cs =>
        let (more, rest) ← items fuel cs
        return (v :: more, rest)
      | ']' :: rest => return ([v], rest)
      | cs => throw cs

/-- The fields of a table between braces. -/
def fields : Nat → Reader (List (List String × Value))
  | 0, cs => .error cs
  | fuel + 1, cs => do
    let (name, cs) ← key cs.length (skipLines cs.length cs)
    match skipSpace cs with
    | '=' :: cs =>
      let (v, cs) ← value fuel (skipSpace cs)
      match skipLines cs.length cs with
      | ',' :: cs =>
        let (more, rest) ← fields fuel cs
        return ((name, v) :: more, rest)
      | '\x7d' :: rest => return ([(name, v)], rest)
      | cs => throw cs
    | cs => throw cs

end

/-- After an item only blanks and a comment may stand on its line. -/
def lineEnd (cs : List Char) : Except (List Char) (List Char) :=
  match skipComment (skipSpace cs) with
  | [] => .ok []
  | '\n' :: cs => .ok cs
  | '\r' :: '\n' :: cs => .ok cs
  | cs => .error cs

def head (depth : Nat) (cs : List Char) : Except (List Char) (List String × List Char) := do
  let (names, cs) ← key cs.length cs
  let cs := skipSpace cs
  if (cs.take depth).all (· == ']') && cs.length ≥ depth then return (names, cs.drop depth)
  else throw cs

def readItems : Nat → List String → List Char → Except (List Char) (List Item)
  | 0, _, cs => .error cs
  | fuel + 1, inside, cs =>
    match skipLines cs.length cs with
    | [] => .ok []
    | '[' :: '[' :: cs => do
      let (names, cs) ← head 2 cs
      return .element names :: (← readItems fuel names (← lineEnd cs))
    | '[' :: cs => do
      let (names, cs) ← head 1 cs
      return .table names :: (← readItems fuel names (← lineEnd cs))
    | cs => do
      let (names, cs) ← key cs.length cs
      match skipSpace cs with
      | '=' :: cs =>
        let (v, cs) ← value (cs.length + 1) (skipSpace cs)
        return .value (inside ++ names) v :: (← readItems fuel inside (← lineEnd cs))
      | cs => throw cs

def read (text : String) : Except Fault (List Item) :=
  let cs := text.toList
  match readItems (cs.length + 1) [] cs with
  | .ok items => .ok items
  | .error rest => .error ⟨(cs.take (cs.length - rest.length)).count '\n' + 1⟩

end SqlDialects.Toml
