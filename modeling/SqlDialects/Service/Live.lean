import SqlDialects.Service.Http

/-! Live sessions: a client sends orders as messages and gets a reply to each. -/

namespace SqlDialects.Service

open Http

/-- A message: an order with a reference that the reply repeats. -/
structure Message where
  ref : String := ""
  order : Order := {}
deriving Repr, DecidableEq

def Message.ofText? (text : String) : Option Message :=
  match Json.Value.ofText text with
  | .ok (.object fields) => do
    return { ref := ← Json.textField? "ref" fields, order := ← orderOfFields? fields }
  | .ok .null => some {}
  | _ => none

def replyJson (ref : String) (fields : List (String × Json.Value)) : Json.Value :=
  .object (("ref", .string ref) :: fields)

def replyError (ref : String) (e : Json.Value) : Json.Value := replyJson ref [("error", e)]

def sessionDefaults (c : ConversionConfig) (query : String) : ConversionConfig :=
  let order := withDefaults c { source := queryValue query "from", target := queryValue query "to" }
  { c with source := order.source, target := order.target }

def reply (defaults : ConversionConfig) (text : String) : Work Json.Value := do
  match Message.ofText? text with
  | none => return replyError "" (errorJson "invalid_json" "Invalid JSON message")
  | some m =>
    let o := withDefaults defaults m.order
    if Text.trim o.sql = "" then
      return replyError m.ref (errorJson "missing_sql" "sql is required")
    if o.source = "" || o.target = "" then
      return replyError m.ref (errorJson "missing_dialect" "from and to dialects are required")
    match ← convert o with
    | .error e => return replyError m.ref (failureJson e)
    | .ok (texts, cached) =>
      let sql := resultText o texts
      return replyJson m.ref ((if sql = "" then [] else [("sql", .string sql)]) ++
        (if o.all && !texts.isEmpty then [("statements", .texts texts)] else []) ++
        (if cached then [("cached", .bool true)] else []))

/-- Whether a session may be opened: the status of the answer to the handshake, and the dialects of
the session. -/
def openLive (s : Service) (now : Int) (headers : List (String × String)) (query : String) :
    Except Response ConversionConfig :=
  let secret := s.config.server.authSecret
  let denial := if secret = "" then none
    else denied? secret now { target := "/v1/live", headers } query
  match denial with
  | some response => .error response
  | none => .ok (sessionDefaults s.config.conversion query)

end SqlDialects.Service
