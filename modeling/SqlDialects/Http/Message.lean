import SqlDialects.Json.Value
import SqlDialects.Text.Case

/-! Requests and responses. -/

namespace SqlDialects.Http

/-- `target` is the path with the query, as the client sent it. -/
structure Request where
  method : String := "GET"
  target : String := "/"
  headers : List (String × String) := []
  body : String := ""
deriving Repr, DecidableEq

/-- `requestId` and `allowOrigin` are headers; an empty one is not sent. -/
structure Response where
  status : Nat := 200
  body : String := ""
  requestId : String := ""
  allowOrigin : String := ""
deriving Repr, DecidableEq

def Request.header (r : Request) (name : String) : String :=
  match r.headers.find? fun (key, _) => Text.equalAscii key name with
  | some (_, value) => value
  | none => ""

def jsonBody (v : Json.Value) : String := v.render .page ++ "\n"

def Response.ofJson (status : Nat) (v : Json.Value) : Response := { status, body := jsonBody v }

def statusText : Nat → String
  | 400 => "Bad Request"
  | 401 => "Unauthorized"
  | 404 => "Not Found"
  | 405 => "Method Not Allowed"
  | 413 => "Request Entity Too Large"
  | 422 => "Unprocessable Entity"
  | 500 => "Internal Server Error"
  | _ => "OK"

end SqlDialects.Http
