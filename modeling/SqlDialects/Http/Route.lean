import SqlDialects.Http.Url

/-! Which request means what. -/

namespace SqlDialects.Http

/-- What can be asked for. -/
inductive Endpoint
  | health
  | convert
  | live
  | dialects
  | dialect (name : String)
  | rules
  | logs
deriving Repr, DecidableEq

inductive Destination
  | found (e : Endpoint)
  | wrongMethod
  | missing
deriving Repr, DecidableEq

/-- `isInner` tells the paths that need a token if any does. `area` is the pattern of the part of the
interface, empty outside of it, and `pattern` that of the endpoint. -/
structure Route where
  destination : Destination
  isInner : Bool := false
  area : String := ""
  pattern : String := ""
deriving Repr, DecidableEq

def methods : List String :=
  ["CONNECT", "DELETE", "GET", "HEAD", "OPTIONS", "PATCH", "POST", "PUT", "TRACE"]

def guardMethod (wanted method : String) (e : Endpoint) : Destination :=
  if method = wanted then .found e else .wrongMethod

def innerEndpoint (method path : String) : Destination × String :=
  match path with
  | "/transpile" => (guardMethod "POST" method .convert, path)
  | "/live" => (guardMethod "GET" method .live, path)
  | "/dialects" => (guardMethod "GET" method .dialects, path)
  | "/rules" => (guardMethod "GET" method .rules, path)
  | "/logs" => (guardMethod "GET" method .logs, path)
  | _ =>
    let base := "/dialects/".toList
    let name := path.toList.drop base.length
    if base.isPrefixOf path.toList && !name.isEmpty && !name.contains '/' then
      (guardMethod "GET" method (.dialect (String.ofList name)), "/dialects/\x7bname\x7d")
    else (.missing, "")

def Route.find (method path : String) : Route :=
  if !methods.contains method then { destination := .wrongMethod }
  else if path = "/health" then
    { destination := guardMethod "GET" method .health, pattern := path }
  else if path = "/v1" || path = "/v1/" then
    { destination := .missing, isInner := true, area := "/v1" }
  else if "/v1/".toList.isPrefixOf path.toList then
    let (destination, pattern) := innerEndpoint method (String.ofList (path.toList.drop 3))
    { destination, isInner := true, area := "/v1/*", pattern := "/v1" ++ pattern }
  else { destination := .missing }

end SqlDialects.Http
