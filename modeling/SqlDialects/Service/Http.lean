import SqlDialects.AccessToken
import SqlDialects.Http.Origin
import SqlDialects.Http.Route
import SqlDialects.Service
import SqlDialects.Text.Bytes

/-! The service over HTTP. -/

namespace SqlDialects.Service

open Http

/-- An error that a handler answers. -/
def refuse (status : Nat) (kind message : String) : Response :=
  .ofJson status (errorJson kind message)

/-! Reading a request's body. -/

inductive BodyFault
  | tooLarge
  | invalid
deriving Repr, DecidableEq

/-- The fields of the first value of a body, of which only `limit` bytes are read if the limit is
positive. A value that ends at the limit is complete only if it has a closing mark. -/
def bodyFields (limit : Int) (body : String) : Except BodyFault (List (String × Json.Value)) :=
  let isCut := limit > 0 && (body.utf8ByteSize : Int) > limit
  let cs := if isCut then Text.takeBytes limit.toNat body.toList else body.toList
  match Json.Value.first cs with
  | .ok (.object fields, _) => .ok fields
  | .ok (.array _, _) => .error .invalid
  | .ok (v, rest) =>
    if isCut && rest.isEmpty then .error .tooLarge
    else match v with
      | .null => .ok []
      | _ => .error .invalid
  | .error .incomplete => .error (if isCut then .tooLarge else .invalid)
  | .error .invalid => .error .invalid

def orderOfFields? (fields : List (String × Json.Value)) : Option Order := do
  return { sql := ← Json.textField? "sql" fields
           source := ← Json.textField? "from" fields
           target := ← Json.textField? "to" fields
           all := ← Json.flagField? "all" fields }

def readOrder (limit : Int) (body : String) : Except BodyFault Order :=
  match bodyFields limit body with
  | .error e => .error e
  | .ok fields =>
    match orderOfFields? fields with
    | some o => .ok o
    | none => .error .invalid

/-- An order with dialects filled in where it names none. -/
def withDefaults (c : ConversionConfig) (o : Order) : Order :=
  { o with
    source := if o.source = "" then c.source else o.source
    target := if o.target = "" then c.target else o.target }

/-! Answers. -/

/-- The status of a failed conversion: wrong names are the client's fault, and so is SQL that cannot
be converted, though it is well-formed. -/
def failureStatus : String → Nat
  | "unknown_dialect" => 400
  | "lex_error" | "parse_error" | "unsupported_construct" | "unmappable_function" => 422
  | _ => 500

def resultJson (o : Order) (texts : List String) (cached : Bool) : Json.Value :=
  .object ([("from", .string o.source), ("to", .string o.target),
      ("sql", .string (resultText o texts))] ++
    (if o.all && !texts.isEmpty then [("statements", .texts texts)] else []) ++
    [("cached", .bool cached)])

def answerFailure (id : String) (o : Order) (e : Error) : Work Response := do
  let status := failureStatus e.kindName
  log { level := if status ≥ 500 then .error else .debug
        message := if status ≥ 500 then "transpile failed" else "transpile rejected"
        outer := [.ofText "request_id" id]
        attrs := [.ofText "from" o.source, .ofText "to" o.target, .ofText "error_kind" e.kindName,
          .ofText "error" e.message] }
  return .ofJson status (failureJson e)

def answerOrder (id body : String) : Work Response := do
  let config := (← get).config
  match readOrder config.server.maxBodyBytes body with
  | .error .tooLarge =>
    return refuse 413 "body_too_large"
      ("Request body exceeds " ++ config.server.maxBodyBytes.repr ++ " bytes")
  | .error .invalid => return refuse 400 "invalid_json" "Invalid JSON body"
  | .ok o =>
    if Text.trim o.sql = "" then return refuse 400 "missing_sql" "sql is required"
    let o := withDefaults config.conversion o
    if o.source = "" || o.target = "" then
      return refuse 400 "missing_dialect" "from and to dialects are required"
    match ← convert o with
    | .ok (texts, cached) => return .ofJson 200 (resultJson o texts cached)
    | .error e => answerFailure id o e

def dialectJson (e : Entry) : Json.Value :=
  .object (("name", .string e.name) ::
    if e.dialect.aliases.isEmpty then [] else [("aliases", .texts e.dialect.aliases)])

def answerDialect (registry : Registry) (name : String) : Response :=
  match registry.lookup name with
  | .ok entry => .ofJson 200 (dialectJson entry)
  | .error e => refuse 404 "unknown_dialect" e.message

/-- How many lines a request for the log wants: a hundred unless it says otherwise. -/
def wantedLines? (query : String) : Option Int :=
  match queryValue query "lines" with
  | "" => some 100
  | text =>
    match Decimal.readInt? text.toList with
    | some n => if 0 ≤ n && Decimal.fits 64 n then some n else none
    | none => none

def answerLogs (l : Log.Logger) (query : String) : Response :=
  match wantedLines? query with
  | none => refuse 400 "invalid_lines" "lines must be a non-negative integer"
  | some n =>
    match l.lines? n with
    | none =>
      refuse 404 "log_buffer_disabled" "Log buffering is disabled; set log.buffer_lines"
    | some lines =>
      .ofJson 200 (.object [("lines", .texts lines), ("total", .int l.total),
        ("capacity", .int l.capacity)])

/-- A request for a live session that does not offer one. -/
def answerLive : Work Response := do
  log { level := .debug, message := "live: upgrade failed",
        attrs := [.ofText "error" ("websocket: the client is not using the websocket protocol: " ++
          "'upgrade' token not found in 'Connection' header")] }
  return { status := 400, body := statusText 400 ++ "\n" }

def answerEndpoint (id query : String) (r : Request) : Endpoint → Work Response
  | .health => return .ofJson 200 (.object [("status", .string "healthy")])
  | .convert => answerOrder id r.body
  | .live => answerLive
  | .dialects =>
    return .ofJson 200 (.array ((← get).transpiler.registry.sorted.map dialectJson))
  | .dialect name => return answerDialect (← get).transpiler.registry name
  | .rules => return .ofJson 200 (.object [("rules", .texts (← get).transpiler.ruleNames)])
  | .logs => return answerLogs (← get).logger query

/-! Access. -/

def tokenOf (r : Request) (query : String) : Except Response String :=
  match r.header "Authorization" with
  | "" => .ok (queryValue query "access_token")
  | header =>
    match header.splitOn " " with
    | [scheme, token] =>
      if Text.lower scheme = "bearer" then .ok token
      else .error (refuse 401 "invalid_authorization" "Invalid authorization header format")
    | _ => .error (refuse 401 "invalid_authorization" "Invalid authorization header format")

def denied? (secret : String) (now : Int) (r : Request) (query : String) : Option Response :=
  match tokenOf r query with
  | .error response => some response
  | .ok "" => some (refuse 401 "no_authorization" "Authorization header required")
  | .ok token =>
    if (AccessToken.verify? secret token now).isSome then none
    else some (refuse 401 "invalid_token" "Invalid or expired token")

/-! The way of a request. -/

/-- The longest request id that is taken over, in bytes. -/
def idLength : Nat := 64

def requestId (fresh : String) (r : Request) : String :=
  let id := r.header "X-Request-ID"
  if id = "" || id.utf8ByteSize > idLength then fresh else id

/-- The answer of the endpoint, and the pattern of the route that was taken. -/
def dispatch (now : Int) (id : String) (r : Request) (path : Path) (query : String) :
    Work (Response × String) := do
  let route := Route.find r.method path.routed
  let secret := (← get).config.server.authSecret
  let outside := if route.area = "" then path.text else route.area
  let denial := if route.isInner && secret ≠ "" then denied? secret now r query else none
  match denial, route.destination with
  | some response, _ => return (response, outside)
  | none, .found e => return (← answerEndpoint id query r e, route.pattern)
  | none, .wrongMethod => return ({ status := 405 }, outside)
  | none, .missing => return ({ status := 404, body := "404 page not found\n" }, outside)

/-- The address that requests come from and the host they go to. -/
structure Peer where
  host : String := "example.com"
  remote : String := "192.0.2.1:1234"
deriving Repr, DecidableEq

def observe (peer : Peer) (r : Request) (path : Path) (response : Response) (pattern : String) :
    Work Unit := do
  let status : String × Json.Value := ("http.status_code", .int response.status)
  let route : String × Json.Value := ("http.route", .string pattern)
  let method : String × Json.Value := ("http.method", .string r.method)
  record { name := r.method ++ " " ++ pattern
           kind := .server
           attributes := [method, ("http.target", .string path.text),
             ("http.host", .string peer.host), ("http.remote_addr", .string peer.remote),
             route, status]
           failure := if response.status ≥ 500 then some (statusText response.status) else none }
  let attributes := [method, route, status]
  measure { instrument := .requestCount, attributes }
  measure { instrument := .requestDuration, attributes }
  let size := response.body.utf8ByteSize
  if size > 0 then measure { instrument := .responseSize, attributes, amount := size }

def logRequest (peer : Peer) (id : String) (r : Request) (path : Path) (status : Nat) :
    Work Unit :=
  log { level := if status ≥ 500 then .error else if status ≥ 400 then .warn else .info
        message := "http request"
        attrs := [.ofText "method" r.method, .ofText "path" path.text, ⟨"status", .int status⟩,
          .ofText "request_id" id, .ofText "remote_addr" peer.remote] }

def answer (now : Int) (fresh : String) (r : Request) : Work Response := do
  let origins := (← get).config.server.origins
  if isPreflight r then return preflight origins r
  let (path, query) := splitTarget r.target
  let id := requestId fresh r
  let (response, pattern) ← dispatch now id r path query
  observe {} r path response pattern
  logRequest {} id r path response.status
  return { response with requestId := id
                         allowOrigin := allowOrigin origins (r.header "Origin") r.method }

end SqlDialects.Service
