/-! Addresses to listen on. The last colon divides the host from the service, which is a number or a
name; a host with colons of its own stands in brackets. -/

namespace SqlDialects

structure Address where
  host : String
  service : Nat
deriving Repr, DecidableEq

namespace Address

inductive Fault
  | missingService (text : String)
  | tooManyColons (text : String)
  | missingBracket (text : String)
  | strayBracket (bracket : Char) (text : String)
  | invalidService (service : String)
  | unknownService (name : String)
deriving Repr, DecidableEq

def Fault.message : Fault → String
  | .missingService text => "address " ++ text ++ ": missing port in address"
  | .tooManyColons text => "address " ++ text ++ ": too many colons in address"
  | .missingBracket text => "address " ++ text ++ ": missing ']' in address"
  | .strayBracket bracket text =>
    "address " ++ text ++ ": unexpected '" ++ String.singleton bracket ++ "' in address"
  | .invalidService service => "address " ++ service ++ ": invalid port"
  | .unknownService name => "lookup tcp/" ++ name ++ ": unknown port"

def lastColon? (cs : List Char) : Option (List Char × List Char) :=
  let service := cs.reverse.takeWhile (· != ':')
  if service.length = cs.length then none
  else some (cs.take (cs.length - service.length - 1), service.reverse)

/-- The host in brackets, given all that stands before the last colon and the text after the
opening bracket. -/
def bracketed (text : String) (before : List Char) (inner : List Char) :
    Except Fault (List Char) :=
  let host := inner.takeWhile (· != ']')
  let rest := (inner.drop host.length).drop 1
  if host.length = inner.length then .error (.missingBracket text)
  else if rest.head? == some ':' && before.length ≠ host.length + 2 then .error (.tooManyColons text)
  else if rest.head? != some ':' then .error (.missingService text)
  else if host.contains '[' then .error (.strayBracket '[' text)
  else .ok host

/-- Host and service as they are written. -/
def split (text : String) : Except Fault (String × String) := do
  let some (before, service) := lastColon? text.toList | throw (.missingService text)
  let host ← match text.toList with
    | '[' :: inner => bracketed text before inner
    | _ =>
      if before.contains ':' then throw (.tooManyColons text)
      else if before.contains '[' || service.contains '[' then throw (.strayBracket '[' text)
      else if before.contains ']' then throw (.strayBracket ']' text)
      else pure before
  if service.contains '[' then throw (.strayBracket '[' text)
  if service.contains ']' then throw (.strayBracket ']' text)
  return (String.ofList host, String.ofList service)

def knownServices : List (String × Nat) :=
  [("domain", 53), ("ftp", 21), ("ftps", 990), ("gopher", 70), ("http", 80), ("https", 443),
   ("imap2", 143), ("imap3", 220), ("imaps", 993), ("pop3", 110), ("pop3s", 995), ("smtp", 25),
   ("submissions", 465), ("ssh", 22), ("telnet", 23)]

/-- The number of a service. None is any. -/
def serviceNumber (service : String) : Except Fault Nat :=
  let (negative, digits) := match service.toList with
    | '-' :: cs => (true, cs)
    | '+' :: cs => (false, cs)
    | cs => (false, cs)
  if digits.all Char.isDigit then
    let n := digits.foldl (fun n d => 10 * n + (d.toNat - '0'.toNat)) 0
    if n > 65535 || (negative && n > 0) then .error (.invalidService service) else .ok n
  else match knownServices.lookup service with
    | some n => .ok n
    | none => .error (.unknownService service)

def ofText (text : String) : Except Fault Address := do
  let (host, service) ← split text
  return { host, service := ← serviceNumber service }

end Address

end SqlDialects
