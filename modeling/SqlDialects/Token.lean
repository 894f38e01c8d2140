import SqlDialects.Position
import SqlDialects.Text.Quoted

/-! Lexical tokens. -/

namespace SqlDialects

inductive TokenKind
  | finish
  | keyword
  | word
  | quotedWord
  | string
  | number
  | operator
  | punctuation
  | parameter
deriving Repr, DecidableEq, Inhabited

/-- How a kind is called in listings and messages. -/
def TokenKind.name : TokenKind → String
  | .finish => "end of input"
  | .keyword => "keyword"
  | .word => "identifier"
  | .quotedWord => "quoted identifier"
  | .string => "string"
  | .number => "number"
  | .operator => "operator"
  | .punctuation => "punctuation"
  | .parameter => "parameter"

/-- `text` has quotes and escapes removed, `upper` is its upper-case form for words, and `stop` is
the byte offset just past the token. -/
structure Token where
  kind : TokenKind
  text : String := ""
  upper : String := ""
  pos : Position
  stop : Nat
deriving Repr, DecidableEq, Inhabited

namespace Token

def isWord (t : Token) : Bool := t.kind == .keyword || t.kind == .word

def is (t : Token) (w : String) : Bool := t.isWord && t.upper == w

def isOp (t : Token) (op : String) : Bool :=
  (t.kind == .operator || t.kind == .punctuation) && t.text == op

def isFinish (t : Token) : Bool := t.kind == .finish

def isQuoted (t : Token) : Bool := t.kind == .quotedWord

/-- A placeholder `${name}`, which may stand for a part of an object name. -/
def isTemplate (t : Token) : Bool :=
  t.kind == .parameter && "$\x7b".toList.isPrefixOf t.text.toList

def describe (t : Token) : String :=
  match t.kind with
  | .finish => "end of input"
  | .string => "'" ++ t.text ++ "'"
  | _ => Text.quote t.text

end Token

end SqlDialects
