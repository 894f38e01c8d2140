import SqlDialects.Json.Reader

/-! Paths and queries with bytes written as a percent sign and two digits in base sixteen. -/

namespace SqlDialects.Http

/-- The bytes of a text with its escapes resolved; `plus` says whether a plus sign is a blank. A
percent sign without two digits fails. -/
def unescapeBytes? (plus : Bool) : List Char → Option (List UInt8)
  | [] => some []
  | '%' :: a :: b :: cs => do
    let high ← Json.hexValue? a
    let low ← Json.hexValue? b
    return (16 * high + low).toUInt8 :: (← unescapeBytes? plus cs)
  | '%' :: _ => none
  | c :: cs => do
    let c := if plus && c = '+' then ' ' else c
    return (String.singleton c).toUTF8.toList ++ (← unescapeBytes? plus cs)

def textOf (bytes : List UInt8) : String :=
  match String.fromUTF8? ⟨bytes.toArray⟩ with
  | some s => s
  | none => String.ofList (bytes.map fun b => if b < 0x80 then Char.ofNat b.toNat else '\ufffd')

def unescape? (plus : Bool) (s : String) : Option String :=
  (unescapeBytes? plus s.toList).map textOf

def isPathByte (b : UInt8) : Bool :=
  let c := Char.ofNat b.toNat
  b < 0x80 && (c.isAlphanum || "-_.~$&+,/:;=@".toList.contains c)

def escapePath (path : String) : String :=
  let digit := fun n : Nat => (Nat.digitChar n).toUpper
  String.ofList (path.toUTF8.toList.flatMap fun b =>
    if isPathByte b then [Char.ofNat b.toNat]
    else ['%', digit (b.toNat / 16), digit (b.toNat % 16)])

/-- A path as text and as it takes part in routing: escapes stay where they are not the usual
spelling. -/
structure Path where
  text : String
  routed : String
deriving Repr, DecidableEq

def Path.ofRaw (raw : String) : Path :=
  let text := (unescape? false raw).getD raw
  ⟨text, if escapePath text = raw then text else raw⟩

/-- The pairs of a query. A pair that is malformed or holds a semicolon is passed over. -/
def queryPairs (query : String) : List (String × String) :=
  (query.splitOn "&").filterMap fun pair =>
    if pair = "" || pair.toList.contains ';' then none
    else
      let key := String.ofList (pair.toList.takeWhile (· != '='))
      let value := String.ofList ((pair.toList.dropWhile (· != '=')).drop 1)
      do return (← unescape? true key, ← unescape? true value)

def queryValue (query name : String) : String :=
  ((queryPairs query).lookup name).getD ""

def splitTarget (target : String) : Path × String :=
  let cs := target.toList
  (.ofRaw (String.ofList (cs.takeWhile (· != '?'))),
   String.ofList ((cs.dropWhile (· != '?')).drop 1))

end SqlDialects.Http
