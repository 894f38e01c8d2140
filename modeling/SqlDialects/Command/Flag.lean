import SqlDialects.Decimal
import SqlDialects.Duration
import SqlDialects.Json.Reader

/-! Flags of commands: their long and short spellings, values of several kinds, and the errors that
users see. -/

namespace SqlDialects.Command

inductive FlagKind
  | text
  | switch
  | int
  | duration
deriving Repr, DecidableEq

/-- `default` is the text of the value that holds when the flag is not given. -/
structure Flag where
  name : String
  short : Option Char := none
  kind : FlagKind := .text
  default : String := ""
  usage : String := ""
deriving Repr, DecidableEq

/-- Why a value does not fit a flag. -/
inductive ValueFault
  | syntaxOf (reader text : String)
  | rangeOf (reader text : String)
  | duration (fault : Duration.Fault)
deriving Repr, DecidableEq

def ValueFault.message : ValueFault → String
  | .syntaxOf reader text =>
    "strconv." ++ reader ++ ": parsing " ++ Text.quote text ++ ": invalid syntax"
  | .rangeOf reader text =>
    "strconv." ++ reader ++ ": parsing " ++ Text.quote text ++ ": value out of range"
  | .duration fault => fault.message

inductive FlagError
  | badForm (argument : String)
  | unknown (name : String)
  | unknownShort (c : Char) (cluster : String)
  | missingValue (name : String)
  | missingShortValue (c : Char) (cluster : String)
  | badValue (flag : Flag) (value : String) (fault : ValueFault)
deriving Repr, DecidableEq

def Flag.spelling (f : Flag) : String :=
  match f.short with
  | some c => "-" ++ String.singleton c ++ ", --" ++ f.name
  | none => "--" ++ f.name

def FlagError.message : FlagError → String
  | .badForm argument => "bad flag syntax: " ++ argument
  | .unknown name => "unknown flag: --" ++ name
  | .unknownShort c cluster =>
    "unknown shorthand flag: " ++ Text.quoteChar c ++ " in -" ++ cluster
  | .missingValue name => "flag needs an argument: --" ++ name
  | .missingShortValue c cluster =>
    "flag needs an argument: " ++ Text.quoteChar c ++ " in -" ++ cluster
  | .badValue flag value fault =>
    "invalid argument " ++ Text.quote value ++ " for " ++ Text.quote flag.spelling ++ " flag: " ++
      fault.message

/-! Values. -/

/-- The truth values that a switch understands. -/
def switch? (text : String) : Option Bool :=
  if ["1", "t", "T", "true", "TRUE", "True"].contains text then some true
  else if ["0", "f", "F", "false", "FALSE", "False"].contains text then some false
  else none

def baseOf (cs : List Char) : Nat × List Char :=
  match cs with
  | '0' :: mark :: d :: rest =>
    if mark = 'x' || mark = 'X' then (16, d :: rest)
    else if mark = 'o' || mark = 'O' then (8, d :: rest)
    else if mark = 'b' || mark = 'B' then (2, d :: rest)
    else (8, mark :: d :: rest)
  | ['0', d] => (8, [d])
  | cs => (10, cs)

/-- Whether underscores stand only between digits, or between a base and its first digit. `may` says
whether one may stand next. -/
def underscoresFit : Bool → List Char → Bool
  | _, [] => true
  | _, ['_'] => false
  | may, '_' :: cs => may && underscoresFit false cs
  | _, _ :: cs => underscoresFit true cs

/-- A whole number of 64 bits. -/
def int (text : String) : Except ValueFault Int :=
  let (sign, cs) : Int × List Char := match text.toList with
    | '-' :: cs => (-1, cs)
    | '+' :: cs => (1, cs)
    | cs => (1, cs)
  let (base, digits) := baseOf cs
  let values := (digits.filter (· != '_')).map fun c => (Json.hexValue? c).getD 16
  if values.isEmpty || values.any (base ≤ ·) || !underscoresFit (base != 10) digits then
    .error (.syntaxOf "ParseInt" text)
  else
    let n := sign * (values.foldl (fun n d => base * n + d) 0 : Nat)
    if Decimal.fits 64 n then .ok n else .error (.rangeOf "ParseInt" text)

def Flag.check (f : Flag) (value : String) : Except FlagError Unit :=
  let bad (fault : ValueFault) : Except FlagError Unit := .error (.badValue f value fault)
  match f.kind with
  | .text => .ok ()
  | .switch => if (switch? value).isSome then .ok () else bad (.syntaxOf "ParseBool" value)
  | .int =>
    match int value with
    | .ok _ => .ok ()
    | .error fault => bad fault
  | .duration =>
    match Duration.ofText value with
    | .ok _ => .ok ()
    | .error fault => bad (.duration fault)

/-! Arguments. -/

/-- The values of the flags that were given, the latest first, and the other arguments. -/
structure Parsed where
  values : List (String × String) := []
  arguments : List String := []
deriving Repr, DecidableEq

namespace Parsed

def set (p : Parsed) (f : Flag) (value : String) : Except FlagError Parsed := do
  f.check value
  return { p with values := (f.name, value) :: p.values }

def given? (p : Parsed) (name : String) : Option String := p.values.lookup name

def text (p : Parsed) (name default : String) : String := (p.given? name).getD default

def switch (p : Parsed) (name : String) : Bool := ((p.given? name).bind switch?).getD false

end Parsed

/-- Reads a cluster of short flags, of which the last may take the next argument. Gives the
arguments that are left. -/
def readShort (flags : List Flag) (rest : List String) :
    Parsed → List Char → Except FlagError (Parsed × List String)
  | p, [] => .ok (p, rest)
  | p, c :: cs =>
    let cluster := String.ofList (c :: cs)
    match flags.find? (·.short == some c) with
    | none => .error (.unknownShort c cluster)
    | some f =>
      match f.kind, cs with
      | _, '=' :: d :: ds => do return (← p.set f (String.ofList (d :: ds)), rest)
      | .switch, cs => do readShort flags rest (← p.set f "true") cs
      | _, _ :: _ => do return (← p.set f (String.ofList cs), rest)
      | _, [] =>
        match rest with
        | value :: rest => do return (← p.set f value, rest)
        | [] => .error (.missingShortValue c cluster)

def readLong (flags : List Flag) (rest : List String) (p : Parsed) (argument : String) :
    Except FlagError (Parsed × List String) :=
  let cs := argument.toList.drop 2
  let name := String.ofList (cs.takeWhile (· != '='))
  if cs.head? == some '-' || cs.head? == some '=' then .error (.badForm argument)
  else match flags.find? (·.name == name) with
    | none => .error (.unknown name)
    | some f =>
      match cs.dropWhile (· != '='), f.kind, rest with
      | _ :: value, _, rest => do return (← p.set f (String.ofList value), rest)
      | [], .switch, rest => do return (← p.set f "true", rest)
      | [], _, value :: rest => do return (← p.set f value, rest)
      | [], _, [] => .error (.missingValue name)

/-- Whether an argument is a flag. A dash alone is not. -/
def isFlag (argument : String) : Bool := argument.startsWith "-" && argument != "-"

def readFlags (flags : List Flag) : Nat → Parsed → List String → Except FlagError Parsed
  | _, p, [] => .ok p
  | 0, p, _ => .ok p
  | fuel + 1, p, a :: rest =>
    if a = "--" then .ok { p with arguments := p.arguments ++ rest }
    else if a.startsWith "--" then do
      let (p, rest) ← readLong flags rest p a
      readFlags flags fuel p rest
    else if isFlag a then do
      let (p, rest) ← readShort flags rest p (a.toList.drop 1)
      readFlags flags fuel p rest
    else readFlags flags fuel { p with arguments := p.arguments ++ [a] } rest

end SqlDialects.Command
