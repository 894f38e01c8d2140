import SqlDialects.Text.Quoted

/-! Where scripts are read from and written to: the standard streams, a file, or an object in a
bucket. -/

namespace SqlDialects

inductive Location
  | standard
  | file (path : String)
  | object (bucket key : String)
deriving Repr, DecidableEq

inductive LocationError
  | invalid (text : String)
  | unsupported (text scheme : String)
deriving Repr, DecidableEq

def LocationError.message : LocationError → String
  | .invalid text => "parse " ++ text ++ ": invalid location"
  | .unsupported text scheme => "parse " ++ text ++ ": unsupported scheme " ++ Text.quote scheme

namespace Location

/-- The texts before and after the first occurrence of `mark`. -/
def cut? (mark : List Char) : List Char → Option (List Char × List Char)
  | [] => if mark.isEmpty then some ([], []) else none
  | c :: cs =>
    if mark.isPrefixOf (c :: cs) then some ([], (c :: cs).drop mark.length)
    else (cut? mark cs).map fun (before, after) => (c :: before, after)

/-- A bucket and a key, both present; a key does not end in a slash. -/
def ofObject (text : String) (rest : List Char) : Except LocationError Location :=
  match cut? ['/'] rest with
  | none => .error (.invalid text)
  | some (bucket, key) =>
    if bucket.isEmpty || key.isEmpty || key.getLast? == some '/' then .error (.invalid text)
    else .ok (.object (String.ofList bucket) (String.ofList key))

/-- Reads a location. Nothing and a dash stand for the standard streams. -/
def ofText (text : String) : Except LocationError Location :=
  if text = "" || text = "-" then .ok .standard
  else match cut? "://".toList text.toList with
    | none => .ok (.file text)
    | some (scheme, rest) =>
      if scheme = ['s', '3'] then ofObject text rest
      else .error (.unsupported text (String.ofList scheme))

def scheme : Location → String
  | .standard => "std"
  | .file _ => "file"
  | .object .. => "s3"

def bucket : Location → String
  | .object bucket _ => bucket
  | _ => ""

def key : Location → String
  | .standard => ""
  | .file path => path
  | .object _ key => key

def toText : Location → String
  | .standard => "-"
  | .file path => path
  | .object bucket key => "s3://" ++ bucket ++ "/" ++ key

end Location

end SqlDialects
