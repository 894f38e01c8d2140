import SqlDialects.Cache
import SqlDialects.Config
import SqlDialects.Log.Logger
import SqlDialects.Telemetry.Recorder
import SqlDialects.Transpiler

/-! A service that converts for clients. Results are kept in a cache until the rules change; the log
and the telemetry say what was done. -/

namespace SqlDialects

/-- What a client wants converted. With `all` the text is a script. -/
structure Order where
  sql : String := ""
  source : String := ""
  target : String := ""
  all : Bool := false
deriving Repr, DecidableEq

/-- What decides the result of an order, up to the case of the dialects' names. -/
structure OrderKey where
  source : String
  target : String
  all : Bool
  sql : String
deriving Repr, DecidableEq

def Order.key (o : Order) : OrderKey := ⟨Text.lower o.source, Text.lower o.target, o.all, o.sql⟩

structure Service where
  config : Config := {}
  transpiler : Transpiler := {}
  cache : Option (Cache OrderKey (List String)) := none
  logger : Log.Logger := {}
  telemetry : Telemetry.Recorder := {}

namespace Service

abbrev Work := StateM Service

def ofConfig (config : Config) (logger : Log.Logger) : Service where
  config := config
  cache := if config.server.cacheSize > 0 then some ⟨config.server.cacheSize.toNat, []⟩ else none
  logger := logger
  telemetry := { settings := config.telemetry }

/-! Log and telemetry. -/

def log (r : Log.Record) : Work Unit := modify fun s => { s with logger := s.logger.log r }

def measure (m : Telemetry.Measurement) : Work Unit :=
  modify fun s => { s with telemetry := s.telemetry.measure m }

def record (span : Telemetry.Span) : Work Unit :=
  modify fun s => { s with telemetry := s.telemetry.span span }

/-- Logs that a statement was read but could not be converted. -/
def logNotice (n : Notice) : Work Unit :=
  log { level := .debug, message := n.event,
        attrs := [.ofText "source" n.source, .ofText "target" n.target,
          .ofText "error" n.error.message] }

/-! Conversion. -/

def orderWork (o : Order) : Transpiler.Work (List String) :=
  if o.all then Transpiler.transpileAll o.sql o.source o.target
  else do return [← Transpiler.transpile o.sql o.source o.target]

/-- Runs an order and records what came of it. -/
def run (o : Order) : Work (Except Error (List String)) := do
  let (outcome, transpiler) := (orderWork o).run (← get).transpiler
  modify ({ · with transpiler })
  let pair : Telemetry.Attributes :=
    [("sqlbridge.source_dialect", .string o.source), ("sqlbridge.target_dialect", .string o.target)]
  let count : Telemetry.Attributes := if o.all then [] else [("sqlbridge.statements", .int 1)]
  let (kind, result) ← match outcome with
    | .ok texts => pure (none, .ok texts)
    | .error failure =>
      failure.notice.forM logNotice
      pure (some failure.error.kindName, Except.error failure.error)
  let outcome : Telemetry.Attributes :=
    kind.toList.map (fun k => ("sqlbridge.error_kind", Json.Value.string k)) ++
      [("sqlbridge.outcome", .string (if kind.isSome then "error" else "ok"))]
  let exceptions := match result with
    | .ok _ => []
    | .error e => [e.message]
  measure { instrument := .conversionCount, attributes := pair ++ outcome }
  measure { instrument := .conversionDuration, attributes := pair ++ outcome }
  measure { instrument := .inputSize, attributes := pair, amount := o.sql.utf8ByteSize }
  record { name := "transpile", kind := .internal, attributes := pair ++ count ++ outcome,
           failure := kind, exceptions }
  return result

def lookUp (o : Order) : Work (Option (List String)) := do
  match (← get).cache with
  | none => return none
  | some cache =>
    let (found, cache) := cache.get? o.key
    modify ({ · with cache := some cache })
    measure { instrument := .cacheLookups,
              attributes :=
                [("sqlbridge.cache", .string (if found.isSome then "hit" else "miss"))] }
    return found

def keep (o : Order) (texts : List String) : Work Unit :=
  modify fun s => { s with cache := s.cache.map (·.insert o.key texts) }

/-- The result of an order, and whether it came from the cache. Failures are not cached. -/
def convert (o : Order) : Work (Except Error (List String × Bool)) := do
  match ← lookUp o with
  | some texts => return .ok (texts, true)
  | none =>
    match ← run o with
    | .ok texts =>
      keep o texts
      return .ok (texts, false)
    | .error e => return .error e

/-! Rules. -/

/-- Puts rules in force and forgets the results obtained under the old ones. If some dialect cannot
take them, nothing changes. -/
def applyRules (s : Service) (rules : List Rule) : Except Error Service := do
  let transpiler ← s.transpiler.setRules rules
  let logger := s.logger.log { level := .info, message := "override rules applied",
                               attrs := [⟨"rules", .int rules.length⟩] }
  return { s with transpiler, cache := s.cache.map Cache.clear, logger }

/-! Errors for clients. -/

def errorJson (kind message : String) : Json.Value :=
  .object [("error", .string kind), ("message", .string message)]

def positionJson (p : Position) : Json.Value :=
  .object [("offset", .int p.offset), ("line", .int p.line), ("column", .int p.column)]

def failureJson (e : Error) : Json.Value :=
  .object ([("error", .string e.kindName), ("message", .string e.message)] ++
    e.position?.toList.map fun p => ("position", positionJson p))

def joined (texts : List String) : String := ";\n".intercalate texts

def resultText (o : Order) (texts : List String) : String :=
  if o.all then joined texts else texts.headD ""

end Service

end SqlDialects
