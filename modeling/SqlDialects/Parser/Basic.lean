import SqlDialects.Text.Blank
import SqlDialects.Text.Bytes
import SqlDialects.Token.Lexer
import SqlDialects.Tree.Expr

/-! Reading a list of tokens. A parser moves a cursor over the tokens and may fail. Loops and
nesting are bounded by the number of tokens that are left, since every round and every level takes
at least one; a reading that would not come to an end so has an answer of its own. -/

namespace SqlDialects

/-- A place in a list of tokens: the token at hand, those after it, and where the token before it
ended. The last token is the end token, which is never passed. -/
structure Cursor where
  source : String
  current : Token
  rest : List Token
  previousStop : Option Nat := none
  /-- The answer where the reading goes on without taking tokens. No text leads there. -/
  halt : Error := .parse { pos := .start, expected := "progress", found := "none" }

namespace Cursor

def ahead (c : Cursor) (n : Nat) : Token :=
  match n with
  | 0 => c.current
  | n + 1 => c.rest[n]?.getD (c.rest.getLast?.getD c.current)

def peek (c : Cursor) : Token := c.ahead 1

/-- One token further, unless the end is reached. -/
def advance (c : Cursor) : Cursor :=
  match c.rest with
  | [] => c
  | t :: ts => { c with current := t, rest := ts, previousStop := some c.current.stop }

/-- A bound on the rounds of any loop that starts here. -/
def bound (c : Cursor) : Nat := c.rest.length + 1

def ofText (lexicon : Lexicon) (sql : String) : Except Error Cursor := do
  match ← Token.tokenize lexicon sql with
  | [] => return { source := sql, current := { kind := .finish, pos := .start, stop := 0 }, rest := [] }
  | t :: ts => return { source := sql, current := t, rest := ts }

end Cursor

abbrev Parser := StateT Cursor (Except Error)

namespace Parser

variable {α : Type}

/-- The failure at the token at hand. -/
def expected {α : Type} (what : String) : Parser α := fun c =>
  .error (.parse { pos := c.current.pos, expected := what, found := c.current.describe,
                   source := c.source })

def failAt {α : Type} (pos : Position) (what found : String) : Parser α := fun c =>
  .error (.parse { pos, expected := what, found, source := c.source })

/-- The end of a reading that takes no more tokens and yet goes on. -/
def stall {α : Type} : Parser α := fun c => .error c.halt

/-- The outcome of a step that reads no tokens; a fault of the grammar that it finds is one of the
text at hand. -/
def within (outcome : Except Error α) : Parser α := fun c =>
  match outcome with
  | .ok a => .ok (a, c)
  | .error (.parse e) => .error (.parse (if e.source = "" then { e with source := c.source } else e))
  | .error e => .error e

def current : Parser Token := return (← get).current

def peek : Parser Token := return (← get).peek

def ahead (n : Nat) : Parser Token := return (← get).ahead n

def position : Parser Position := return (← get).current.pos

def advance : Parser Unit := modify Cursor.advance

def curIs (word : String) : Parser Bool := return (← get).current.is word

def curAny (words : List String) : Parser Bool := do
  let t ← current
  return words.any t.is

def peekIs (word : String) : Parser Bool := return (← get).peek.is word

def curOp (op : String) : Parser Bool := return (← get).current.isOp op

def peekOp (op : String) : Parser Bool := return (← get).peek.isOp op

def atEnd : Parser Bool := return (← get).current.isFinish

/-- Takes the word at hand if it is one of the given ones. -/
def acceptAny (words : List String) : Parser Bool := do
  if ← curAny words then
    advance
    return true
  return false

def accept (word : String) : Parser Bool := acceptAny [word]

def acceptOp (op : String) : Parser Bool := do
  if ← curOp op then
    advance
    return true
  return false

/-- Whether the tokens from here on are the given words. -/
def startsWith (c : Cursor) (words : List String) : Bool :=
  words.zipIdx.all fun (w, i) => (c.ahead i).is w

/-- Takes a sequence of words such as `IF NOT EXISTS` if it is there as a whole. -/
def acceptSeq (words : List String) : Parser Bool := do
  if startsWith (← get) words then
    modify fun c => words.foldl (fun c _ => c.advance) c
    return true
  return false

def expect (word : String) : Parser Unit := do
  if ← curIs word then advance else expected word

def expectOp (op : String) : Parser Unit := do
  if ← curOp op then advance else expected (Text.quote op)

/-- Repeats a step until it has nothing more to do, at most `fuel` times. A round that goes on has
to take a token. -/
def iterate (fuel : Nat) (step : α → Parser (Option α)) (a : α) : Parser α :=
  match fuel with
  | 0 => stall
  | fuel + 1 => do
    let before ← get
    match ← step a with
    | some b => if (← get).rest.length < before.rest.length then iterate fuel step b else stall
    | none => return a

/-- Repeats a step that takes a token in every round. -/
def loop (step : α → Parser (Option α)) (a : α) : Parser α := do
  iterate ((← get).bound + 1) step a

def commaList (item : Parser α) : Parser (List α) := do
  let first ← item
  let items ← loop (fun items => do
    if ← acceptOp "," then return some ((← item) :: items) else return none) [first]
  return items.reverse

def isName (lexicon : Lexicon) (t : Token) : Bool :=
  match t.kind with
  | .word | .quotedWord => true
  | .keyword => !lexicon.isReserved t.upper
  | _ => false

/-- Reserved words that still read as names where no clause can start. -/
def softReserved : List String := ["LEFT", "RIGHT", "TABLE"]

/-- Whether the token at hand is such a word and no call. -/
def isSoftName (c : Cursor) : Bool :=
  c.current.kind == .keyword && softReserved.contains c.current.upper && !c.peek.isOp "("

def takeIdent : Parser Ident := do
  let t ← current
  advance
  return ⟨t.text, t.isQuoted⟩

def ident (lexicon : Lexicon) : Parser Ident := do
  let t ← current
  if t.isTemplate || isName lexicon t then takeIdent else expected "identifier"

def anyIdent : Parser Ident := do
  let t ← current
  if t.isWord || t.isQuoted || t.isTemplate then takeIdent else expected "identifier"

def dottedName (head : Parser Ident) : Parser (List Ident) := do
  let first ← head
  let parts ← loop (fun parts => do
    if ← acceptOp "." then return some ((← anyIdent) :: parts) else return none) [first]
  return parts.reverse

def qualifiedName (lexicon : Lexicon) : Parser (List Ident) := dottedName (ident lexicon)

def tableName (lexicon : Lexicon) : Parser (List Ident) :=
  dottedName do
    if isSoftName (← get) then anyIdent else ident lexicon

def identList : Parser (List Ident) := do
  expectOp "("
  let ids ← commaList anyIdent
  expectOp ")"
  return ids

/-- The source text from an offset up to the end of the token taken last. -/
def rawFrom (start : Nat) : Parser String := do
  let c ← get
  return Text.trim (Text.slice c.source start (max start (c.previousStop.getD start)))

def skipGroup : Parser String := do
  let start := (← position).offset
  expectOp "("
  let _ ← loop (fun depth => do
    if depth = 0 then return none
    let t ← current
    if t.isFinish then expected "\")\""
    advance
    if t.isOp "(" then return some (depth + 1)
    if t.isOp ")" then return some (depth - 1)
    return some depth) 1
  rawFrom start

def skipWhile (p : Token → Bool) : Parser Unit := do
  let _ ← loop (fun () => do
    let t ← current
    if t.isFinish || !p t then return none
    advance
    return some ()) ()

def skipGroupsUntil (stop : Token → Bool) : Parser Unit := do
  let _ ← loop (fun () => do
    let t ← current
    if t.isFinish || stop t then return none
    if t.isOp "(" then
      let _ ← skipGroup
      return some ()
    advance
    return some ()) ()

end Parser

end SqlDialects
