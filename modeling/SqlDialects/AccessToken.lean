import SqlDialects.Decimal
import SqlDialects.Digest
import SqlDialects.Duration
import SqlDialects.Json.Reader
import SqlDialects.Text.Base64

/-! Signed tokens that let their bearer use the service: a header, claims and a keyed hash of both,
each in base sixty-four and joined by dots. -/

namespace SqlDialects.AccessToken

/-- What a token says about its bearer. Times are seconds since 1970. -/
structure Claims where
  issuer : String := ""
  subject : String := ""
  expires : Option Int := none
  notBefore : Option Int := none
  issuedAt : Option Int := none
deriving Repr, DecidableEq

/-- Who signs the tokens of this service. -/
def issuer : String := "sqlbridge"

/-! Writing. -/

def segment (bytes : List UInt8) : String := String.ofList (Text.Base64.encode Text.Base64.addressAlphabet bytes)

def bytes (s : String) : List UInt8 := s.toUTF8.toList

def Claims.toJson (c : Claims) : Json.Value :=
  let text (key value : String) := if value = "" then [] else [(key, Json.Value.string value)]
  let time (key : String) (value : Option Int) :=
    value.toList.map fun n => (key, Json.Value.int n)
  .object (text "iss" c.issuer ++ text "sub" c.subject ++ time "exp" c.expires ++
    time "nbf" c.notBefore ++ time "iat" c.issuedAt)

def header : Json.Value := .object [("alg", .string "HS256"), ("typ", .string "JWT")]

def signature (secret text : String) : List UInt8 := Digest.hmac (bytes secret) (bytes text)

def sign (secret : String) (header claims : Json.Value) : String :=
  let text := segment (bytes (header.render .page)) ++ "." ++ segment (bytes (claims.render .page))
  text ++ "." ++ segment (signature secret text)

/-- A token for `subject`, signed at `now`. It does not expire unless its lifetime is positive. -/
def issue (secret subject : String) (lifetime : Duration) (now : Int) : String :=
  let expires := if lifetime.nanoseconds > 0 then some (now + lifetime.nanoseconds / 1000000000)
    else none
  sign secret header ({ issuer, subject, expires, issuedAt := some now } : Claims).toJson

/-! Reading. -/

def segmentValue? (s : String) : Option Json.Value := do
  let bytes ← Text.Base64.decode? Text.Base64.addressAlphabet s.toList
  let text ← String.fromUTF8? ⟨bytes.toArray⟩
  (Json.Value.ofText text).toOption

/-- Header and payload of a token of three segments whose signature fits the secret. -/
def parts? (secret token : String) : Option (Json.Value × Json.Value) :=
  match token.splitOn "." with
  | [head, body, stamp] => do
    let header ← segmentValue? head
    let payload ← segmentValue? body
    let given ← Text.Base64.decode? Text.Base64.addressAlphabet stamp.toList
    if given = signature secret (head ++ "." ++ body) then return (header, payload) else none
  | _ => none

/-- The one method of signing that is accepted. The last of several fields counts. -/
def isKeyed : Json.Value → Bool
  | .object fields =>
    match fields.reverse.find? (·.1 == "alg") with
    | some (_, .string method) => method == "HS256"
    | _ => false
  | _ => false

def calendarStart : Int := 62135596800

/-- The seconds of a number, counted by a clock of 64 bits. A number that is too great for any clock
is no time. -/
def seconds? (text : String) : Option Int := do
  let d ← Decimal.ofText? text
  let size := (Nat.repr d.digits.natAbs).length + d.exponent
  if d.digits != 0 && size > 309 then none
  let n := if d.digits = 0 || size < 0 then 0 else d.truncate
  let n := if Decimal.fits 64 n then n else -(Nat.pow 2 63 : Nat)
  return wrap64 (n + calendarStart) - calendarStart

def time? : Json.Value → Option Int
  | .number text => seconds? text
  | .string text =>
    match Json.Value.ofText text with
    | .ok (.number t) => if t = text then seconds? text else none
    | _ => none
  | _ => none

def timeField? (name : String) (found : Option Int) :
    List (String × Json.Value) → Option (Option Int)
  | [] => some found
  | (key, v) :: rest =>
    if Text.equalFold key name then
      match v with
      | .null => timeField? name none rest
      | v => do timeField? name (some (← time? v)) rest
    else timeField? name found rest

/-- Whom a token is for: nobody in particular, one name, or a list of names. -/
def isAudience : Json.Value → Bool
  | .null | .string _ => true
  | .array items => items.all fun
    | .string _ => true
    | _ => false
  | _ => false

def Claims.ofFields? (fields : List (String × Json.Value)) : Option Claims := do
  if !fields.all fun (key, v) => !Text.equalFold key "aud" || isAudience v then none
  let _ ← Json.textField? "jti" fields
  return {
    issuer := ← Json.textField? "iss" fields
    subject := ← Json.textField? "sub" fields
    expires := ← timeField? "exp" none fields
    notBefore := ← timeField? "nbf" none fields
    issuedAt := ← timeField? "iat" none fields }

def Claims.ofJson? : Json.Value → Option Claims
  | .object fields => Claims.ofFields? fields
  | .null => some {}
  | _ => none

/-- Whether a token may be used at `now`. -/
def Claims.isValidAt (c : Claims) (now : Int) : Bool :=
  c.expires.all (now < ·) && c.notBefore.all (· ≤ now)

def verify? (secret token : String) (now : Int) : Option Claims := do
  let (header, payload) ← parts? secret token
  if !isKeyed header then none
  let claims ← Claims.ofJson? payload
  if claims.isValidAt now then return claims else none

end SqlDialects.AccessToken
