import SqlDialects.Token

/-! What can go wrong between a source text and its rendering. Errors are causes; `message` gives
each its wording. -/

namespace SqlDialects

/-- Why a text has no tokens. -/
inductive LexFault
  | openComment
  | openString
  | openIdentifier
  | openParameter
  | unexpected (c : Char)
deriving Repr, DecidableEq

def LexFault.message : LexFault → String
  | .openComment => "unterminated block comment"
  | .openString => "unterminated string literal"
  | .openIdentifier => "unterminated quoted identifier"
  | .openParameter => "unterminated template parameter"
  | .unexpected c => "unexpected character " ++ Text.quoteChar c

/-- A violation of the grammar. `source` is the text being read, when it is known. -/
structure ParseError where
  pos : Position
  expected : String
  found : String
  source : String := ""
deriving Repr, DecidableEq

namespace ParseError

def message (e : ParseError) : String :=
  if e.pos.line > 0 then
    s!"parse error at line {e.pos.line}, column {e.pos.column}: expected {e.expected}, found {e.found}"
  else s!"parse error: expected {e.expected}, found {e.found}"

/-- The characters under the first `width` bytes of a line: a tab where the line has one. -/
def margin : Nat → List Char → List Char
  | 0, _ => []
  | width + 1, [] => List.replicate (width + 1) ' '
  | width + 1, c :: cs =>
    (if c = '\t' then ['\t'] else List.replicate (min (width + 1) c.utf8Size) ' ') ++
      margin (width + 1 - c.utf8Size) cs

/-- The message with the offending line and a caret under the place. -/
def verbose (e : ParseError) : String :=
  let head := e.message ++ "\n"
  if e.source = "" || e.pos.line = 0 then head
  else match (e.source.splitOn "\n")[e.pos.line - 1]? with
    | none => head
    | some line =>
      head ++ "  " ++ line ++ "\n  " ++
        String.ofList (margin (e.pos.column - 1) line.toList) ++ "^\n"

end ParseError

/-- Why a collection of rules is refused. -/
inductive RuleFault
  | unnamed
  | noKind (rule : String)
  | noTransform (rule : String)
  | duplicate (rule : String)
  | ambiguous (first second kind phase : String)
  | notOutbound (rule : String)
deriving Repr, DecidableEq

def RuleFault.message : RuleFault → String
  | .unnamed => "rewrite rule without a name"
  | .noKind rule => s!"rewrite rule {rule}: pattern has no node kind"
  | .noTransform rule => s!"rewrite rule {rule}: no transform"
  | .duplicate rule => s!"rewrite rule {rule}: registered twice"
  | .ambiguous first second kind phase =>
    s!"ambiguous rewrite rule: {first} and {second} both match {kind} in the {phase} phase"
  | .notOutbound rule => s!"rewrite rule {rule}: extra rules must be outbound"

/-- Why a dialect's description is refused. -/
inductive DialectFault
  | unnamed
  | missingQuotes (dialect : String)
  | sharedQuote (dialect : String) (mark : Char)
  | typeWithoutName (dialect type : String)
  | emptyFunction (dialect native : String)
  | functionNotUpper (dialect canonical : String)
  | infixMeaning (dialect : String)
  | badRendering (dialect native canonical : String)
  | rules (dialect : String) (fault : RuleFault)
deriving Repr, DecidableEq

def DialectFault.message : DialectFault → String
  | .unnamed => "dialect without a name"
  | .missingQuotes dialect => s!"dialect {dialect}: missing quote characters"
  | .sharedQuote dialect mark =>
    s!"dialect {dialect}: " ++ Text.quoteChar mark ++ " quotes both identifiers and strings"
  | .typeWithoutName dialect type => s!"dialect {dialect}: canonical type {type} has no rendering"
  | .emptyFunction dialect native => s!"dialect {dialect}: function {native} has an empty rule"
  | .functionNotUpper dialect canonical =>
    s!"dialect {dialect}: canonical name {canonical} must be upper-case"
  | .infixMeaning dialect => s!"dialect {dialect}: infix operator needs exactly one of Op and Func"
  | .badRendering dialect native canonical =>
    s!"dialect {dialect}: bad rendering " ++ Text.quote native ++ " for " ++ Text.quote canonical
  | .rules dialect fault => s!"dialect {dialect}: " ++ fault.message

inductive NodeSort
  | expression
  | query
  | statement
  | type
  | table
  | call
deriving Repr, DecidableEq

def NodeSort.phrase : NodeSort → String
  | .expression => "an expression"
  | .query => "a query"
  | .statement => "a statement"
  | .type => "a type"
  | .table => "a table"
  | .call => "a function call"

inductive Error
  | lex (pos : Position) (fault : LexFault)
  | parse (e : ParseError)
  | unsupported (kind source target : String) (pos : Position)
  | unmappable (function source target : String) (pos : Position)
  | unknownDialect (name : String)
  | rules (fault : RuleFault)
  | dialect (fault : DialectFault)
  | misplaced (old new : String) (required : NodeSort)
  /-- Rules turned a statement into something that is none. -/
  | notStatement (kind : String)
  /-- The value bound to a name contains itself. -/
  | endless (name : String)
  | emptyRename (dialect : String)
  | rename (index : Nat) (inner : Error)
  | statement (index : Nat) (inner : Error)
deriving Repr, DecidableEq

namespace Error

def message : Error → String
  | .lex pos fault => s!"lex error at line {pos.line}, column {pos.column}: " ++ fault.message
  | .parse e => e.message
  | .unsupported kind source target pos =>
    s!"unsupported construct {kind} from {source} for target {target} at " ++ pos.toText
  | .unmappable function source target pos =>
    s!"function {function} from {source} has no mapping for {target} at " ++ pos.toText
  | .unknownDialect name => "unknown dialect: " ++ Text.quote name
  | .rules fault => fault.message
  | .dialect fault => fault.message
  | .misplaced old new required =>
    s!"rewrite of {old} produced {new} where " ++ required.phrase ++ " is required"
  | .notStatement kind => s!"rewrite produced {kind}, not a statement"
  | .endless name => s!"value of {name} contains itself"
  | .emptyRename name => s!"rename for {name} needs both a canonical and a target name"
  | .rename index inner => s!"rules: rename {index}: " ++ inner.message
  | .statement index inner => s!"statement {index}: " ++ inner.message

def root : Error → Error
  | .rename _ inner => inner.root
  | .statement _ inner => inner.root
  | e => e

def position? (e : Error) : Option Position :=
  match e.root with
  | .lex pos _ => some pos
  | .parse p => some p.pos
  | .unsupported _ _ _ pos => some pos
  | .unmappable _ _ _ pos => some pos
  | _ => none

def kindName (e : Error) : String :=
  match e.root with
  | .lex .. => "lex_error"
  | .parse _ => "parse_error"
  | .unsupported .. => "unsupported_construct"
  | .unmappable .. => "unmappable_function"
  | .unknownDialect _ => "unknown_dialect"
  | _ => "internal_error"

end Error

end SqlDialects
