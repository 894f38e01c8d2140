import SqlDialects.Error
import SqlDialects.Lexicon
import SqlDialects.Text.Case

/-! From text to tokens. Every reader takes the characters at its place and returns what it read
together with the characters that remain, so positions follow from what was consumed. -/

namespace SqlDialects.Token

/-- What the skipper is inside of. -/
inductive Gap
  | code
  | lineComment
  | blockComment (opened : Position)

def skipGap (lexicon : Lexicon) : Gap → Position → List Char →
    Except Error (Position × List Char)
  | .blockComment opened, _, [] => .error (.lex opened .openComment)
  | _, pos, [] => .ok (pos, [])
  | .code, pos, '-' :: '-' :: cs => skipGap lexicon .lineComment (pos.advance ['-', '-']) cs
  | .code, pos, '/' :: '*' :: cs =>
    skipGap lexicon (.blockComment pos) (pos.advance ['/', '*']) cs
  | .code, pos, c :: cs =>
    if c = ' ' || c = '\t' || c = '\n' || c = '\r' then skipGap lexicon .code (pos.next c) cs
    else if c = '#' && lexicon.hashComments then skipGap lexicon .lineComment (pos.next c) cs
    else .ok (pos, c :: cs)
  | .lineComment, pos, c :: cs =>
    skipGap lexicon (if c = '\n' then .code else .lineComment) (pos.next c) cs
  | .blockComment _, pos, '*' :: '/' :: cs => skipGap lexicon .code (pos.advance ['*', '/']) cs
  | .blockComment opened, pos, c :: cs => skipGap lexicon (.blockComment opened) (pos.next c) cs

/-- Reads up to the closing quote `mark`, which a doubled quote does not close. With `escapes` a
backslash makes the quote or another backslash plain; before any other character it stays. -/
def readQuoted (escapes : Bool) (mark : Char) : List Char → Option (List Char × List Char)
  | [] => none
  | [c] => if c = mark then some ([], []) else none
  | c :: d :: cs =>
    if escapes && c = '\\' then
      if d = '\\' || d = mark then (readQuoted escapes mark cs).map fun (text, rest) => (d :: text, rest)
      else if d.toNat = 0 then none
      else (readQuoted escapes mark cs).map fun (text, rest) => (c :: d :: text, rest)
    else if c = mark then
      if d = mark then (readQuoted escapes mark cs).map fun (text, rest) => (mark :: text, rest)
      else some ([], d :: cs)
    else (readQuoted escapes mark (d :: cs)).map fun (text, rest) => (c :: text, rest)

/-- Reads through the next closing brace. -/
def readTemplate : List Char → Option (List Char × List Char)
  | [] => none
  | c :: cs =>
    if c = '\x7d' then some ([c], cs)
    else (readTemplate cs).map fun (text, rest) => (c :: text, rest)

def isHexDigit (c : Char) : Bool :=
  c.isDigit || ('a' ≤ c && c ≤ 'f') || ('A' ≤ c && c ≤ 'F')

/-- The digits after a decimal point. A point needs a digit after it unless the number starts
with the point. -/
def readFraction (leading : Bool) : List Char → List Char × List Char
  | '.' :: cs =>
    match cs with
    | d :: _ =>
      if d.isDigit || leading then ('.' :: cs.takeWhile Char.isDigit, cs.dropWhile Char.isDigit)
      else ([], '.' :: cs)
    | [] => if leading then (['.'], []) else ([], ['.'])
  | cs => ([], cs)

def readExponent : List Char → List Char × List Char
  | e :: d :: cs =>
    if (e = 'e' || e = 'E') && (d.isDigit || d = '+' || d = '-') then
      (e :: d :: cs.takeWhile Char.isDigit, cs.dropWhile Char.isDigit)
    else ([], e :: d :: cs)
  | cs => ([], cs)

def readNumber : List Char → List Char × List Char
  | '0' :: x :: cs =>
    if x = 'x' || x = 'X' then ('0' :: x :: cs.takeWhile isHexDigit, cs.dropWhile isHexDigit)
    else readDecimal ('0' :: x :: cs)
  | cs => readDecimal cs
where
  readDecimal (cs : List Char) : List Char × List Char :=
    let whole := cs.takeWhile Char.isDigit
    let (fraction, rest) := readFraction whole.isEmpty (cs.dropWhile Char.isDigit)
    let (exponent, rest) := readExponent rest
    (whole ++ fraction ++ exponent, rest)

/-- Single characters that are tokens by themselves. -/
def brackets : List Char := "()[]\x7b\x7d,;.".toList

def singleOperators : List Char := "+-*/%=<>&|^~!@:#".toList

/-- What one token is made of: its kind, its decoded characters and what remains. -/
structure Lexeme where
  kind : TokenKind
  text : List Char
  rest : List Char

def readLexeme (lexicon : Lexicon) (pos : Position) (c : Char) (cs : List Char) :
    Except Error Lexeme :=
  if lexicon.stringQuotes.contains c then
    match readQuoted lexicon.backslashEscapes c cs with
    | some (text, rest) => .ok ⟨.string, text, rest⟩
    | none => .error (.lex pos .openString)
  else if lexicon.identQuotes.contains c then
    match readQuoted false c cs with
    | some (text, rest) => .ok ⟨.quotedWord, text, rest⟩
    | none => .error (.lex pos .openIdentifier)
  else if c = '$' && cs.head? = some '\x7b' then
    match readTemplate (c :: cs) with
    | some (text, rest) => .ok ⟨.parameter, text, rest⟩
    | none => .error (.lex pos .openParameter)
  else if c = '?' then .ok ⟨.parameter, [c], cs⟩
  else if c.isDigit || (c = '.' && (cs.head?.any Char.isDigit)) then
    let (text, rest) := readNumber (c :: cs)
    .ok ⟨.number, text, rest⟩
  else if isIdentStart c then
    let text := (c :: cs).takeWhile isIdentChar
    let kind := if lexicon.isKeyword (Text.upper (String.ofList text)) then .keyword else .word
    .ok ⟨kind, text, (c :: cs).dropWhile isIdentChar⟩
  else if brackets.contains c then .ok ⟨.punctuation, [c], cs⟩
  else match lexicon.longOperators.find? fun op => op.toList.isPrefixOf (c :: cs) with
    | some op => .ok ⟨.operator, op.toList, (c :: cs).drop op.length⟩
    | none =>
      if singleOperators.contains c then
        .ok ⟨if c = ':' then .punctuation else .operator, [c], cs⟩
      else .error (.lex pos (.unexpected c))

/-- Words carry their upper-case form. -/
def Lexeme.upper (lexeme : Lexeme) : String :=
  match lexeme.kind with
  | .keyword | .word | .quotedWord => Text.upper (String.ofList lexeme.text)
  | _ => ""

/-- The tokens from a place on, ending with the end token. Each token takes at least one
character, so `fuel` above the number of characters suffices. -/
def tokensFrom (lexicon : Lexicon) : Nat → Position → List Char → Except Error (List Token)
  | 0, pos, _ => .ok [{ kind := .finish, pos, stop := pos.offset }]
  | fuel + 1, pos, cs =>
    match skipGap lexicon .code pos cs with
    | .error e => .error e
    | .ok (pos, []) => .ok [{ kind := .finish, pos, stop := pos.offset }]
    | .ok (pos, c :: cs) =>
      match readLexeme lexicon pos c cs with
      | .error e => .error e
      | .ok lexeme =>
        let consumed := (c :: cs).take (cs.length + 1 - lexeme.rest.length)
        let after := pos.advance consumed
        match tokensFrom lexicon fuel after lexeme.rest with
        | .error e => .error e
        | .ok tokens =>
          .ok ({ kind := lexeme.kind, text := String.ofList lexeme.text, upper := lexeme.upper,
                 pos, stop := after.offset } :: tokens)

def tokenize (lexicon : Lexicon) (sql : String) : Except Error (List Token) :=
  tokensFrom lexicon (sql.length + 1) Position.start sql.toList

end SqlDialects.Token
