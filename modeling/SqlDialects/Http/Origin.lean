import SqlDialects.Http.Message

/-! Which web pages may use the service: the origins that are allowed, and the questions that
browsers ask beforehand. -/

namespace SqlDialects.Http

def allowedMethods : List String := ["GET", "POST", "OPTIONS"]

def allowedHeaders : List String := ["Authorization", "Content-Type", "X-Request-Id", "Origin"]

/-- Whether an origin fits one that is allowed, in which the first star stands for anything. Both
are in lower case. -/
def originFits (origin allowed : List Char) : Bool :=
  if allowed.contains '*' then
    let before := allowed.takeWhile (· != '*')
    let after := (allowed.dropWhile (· != '*')).drop 1
    before.length + after.length ≤ origin.length && before.isPrefixOf origin &&
      after.isSuffixOf origin
  else origin == allowed

def allowsAll (origins : List String) : Bool := origins.isEmpty || origins.contains "*"

def originAllowed (origins : List String) (origin : String) : Bool :=
  allowsAll origins ||
    origins.any fun o => originFits (Text.lower origin).toList (Text.lower o).toList

def methodAllowed (method : String) : Bool := allowedMethods.contains (Text.upper method)

/-- Reads a list of header names, each written with capitals at the start and after dashes. `upper`
says whether the next letter is to be a capital. -/
def headerNames : List Char → Bool → List Char → List String
  | done, _, [] => if done.isEmpty then [] else [String.ofList done.reverse]
  | done, upper, c :: cs =>
    if c = ' ' || c = ',' then
      if done.isEmpty then headerNames [] upper cs
      else String.ofList done.reverse :: headerNames [] true cs
    else
      let kept := c.isAlphanum || c == '-' || c == '_' || c == '.'
      let shown := if upper then c.toUpper else c.toLower
      headerNames (if kept then shown :: done else done) (c == '-') cs

def allowOrigin (origins : List String) (origin method : String) : String :=
  if origin = "" || !originAllowed origins origin || !methodAllowed method then ""
  else if allowsAll origins then "*"
  else origin

/-- Whether a browser only asks what it may do. -/
def isPreflight (r : Request) : Bool :=
  r.method == "OPTIONS" && r.header "Access-Control-Request-Method" != ""

/-- The answer to a browser's question. -/
def preflight (origins : List String) (r : Request) : Response :=
  let names := headerNames [] true (r.header "Access-Control-Request-Headers").toList
  if names.all allowedHeaders.contains then
    { allowOrigin :=
        allowOrigin origins (r.header "Origin") (r.header "Access-Control-Request-Method") }
  else {}

end SqlDialects.Http
