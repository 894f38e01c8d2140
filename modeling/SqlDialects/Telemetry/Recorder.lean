import SqlDialects.Json.Value
import SqlDialects.Telemetry.Settings

/-! What is recorded about requests: spans for what was done, and measurements that are added up
under their attributes. Times are not recorded. -/

namespace SqlDialects.Telemetry

abbrev Attributes := List (String × Json.Value)

/-- Whether a span answers a client or is a part of one that does. -/
inductive SpanKind
  | internal
  | server
deriving Repr, DecidableEq

def SpanKind.number : SpanKind → Nat
  | .internal => 1
  | .server => 2

/-- A piece of work. `failure` says that it failed and how; `exceptions` are the messages of errors
on the way. -/
structure Span where
  name : String
  kind : SpanKind
  attributes : Attributes
  failure : Option String := none
  exceptions : List String := []

/-- The quantities that are measured. -/
inductive Instrument
  | requestCount
  | requestDuration
  | responseSize
  | conversionCount
  | conversionDuration
  | inputSize
  | cacheLookups
deriving Repr, DecidableEq

namespace Instrument

def all : List Instrument :=
  [.requestCount, .requestDuration, .responseSize, .conversionCount, .conversionDuration,
   .inputSize, .cacheLookups]

def name : Instrument → String
  | .requestCount => "http.server.request_count"
  | .requestDuration => "http.server.request_duration"
  | .responseSize => "http.server.response_size"
  | .conversionCount => "sqlbridge.transpile.count"
  | .conversionDuration => "sqlbridge.transpile.duration"
  | .inputSize => "sqlbridge.transpile.input_size"
  | .cacheLookups => "sqlbridge.cache.lookups"

def description : Instrument → String
  | .requestCount => "Number of HTTP requests"
  | .requestDuration => "HTTP request latency"
  | .responseSize => "HTTP response size in bytes"
  | .conversionCount => "Number of transpile calls"
  | .conversionDuration => "Time spent parsing, rewriting and generating"
  | .inputSize => "Length of the input SQL"
  | .cacheLookups => "Result cache lookups by hit or miss"

def unit : Instrument → String
  | .requestCount => "\x7brequest\x7d"
  | .requestDuration | .conversionDuration => "ms"
  | .responseSize | .inputSize => "By"
  | .conversionCount => "\x7bcall\x7d"
  | .cacheLookups => "\x7blookup\x7d"

def isCounter : Instrument → Bool
  | .requestCount | .conversionCount | .cacheLookups => true
  | _ => false

/-- Whether the measured amounts are added up besides being counted. -/
def hasSum (i : Instrument) : Bool := i.unit == "By"

end Instrument

/-- An amount measured under attributes. -/
structure Measurement where
  instrument : Instrument
  attributes : Attributes
  amount : Nat := 1

/-- Everything recorded so far, the latest last. -/
structure Recorder where
  settings : Settings := {}
  spans : List Span := []
  measurements : List Measurement := []

namespace Recorder

/-- Whether spans are kept. Only all or none of them can be sampled for certain. -/
def traces (r : Recorder) : Bool :=
  r.settings.enabled && r.settings.traces && r.settings.sampleRate ≥ 1

def metrics (r : Recorder) : Bool := r.settings.enabled && r.settings.metrics

def span (r : Recorder) (s : Span) : Recorder :=
  if r.traces then { r with spans := r.spans ++ [s] } else r

def measure (r : Recorder) (m : Measurement) : Recorder :=
  if r.metrics then { r with measurements := r.measurements ++ [m] } else r

def resource (r : Recorder) : Attributes :=
  [("service.name", .string r.settings.serviceName), ("service.version", .string "dev")]

end Recorder

def sortAttributes (a : Attributes) : Attributes := a.mergeSort fun x y => x.1 ≤ y.1

/-- The measurements of one instrument under equal attributes. -/
structure Point where
  attributes : Attributes
  count : Nat
  sum : Nat

def Point.toJson (i : Instrument) (p : Point) : Json.Value :=
  let number (n : Nat) : Json.Value := .int n
  .object (("attributes", .object p.attributes) ::
    if i.isCounter then [("value", number p.sum)]
    else ("count", number p.count) :: if i.hasSum then [("sum", number p.sum)] else [])

def addPoint (points : List Point) (a : Attributes) (amount : Nat) : List Point :=
  let text (a : Attributes) := (Json.Value.object a).render .line
  if points.any fun p => text p.attributes == text a then
    points.map fun p =>
      if text p.attributes == text a then { p with count := p.count + 1, sum := p.sum + amount }
      else p
  else points ++ [⟨a, 1, amount⟩]

def Recorder.points (r : Recorder) (i : Instrument) : List Point :=
  let points := (r.measurements.filter (·.instrument == i)).foldl
    (fun points m => addPoint points (sortAttributes m.attributes) m.amount) []
  points.mergeSort fun p q => (p.toJson i).render .line ≤ (q.toJson i).render .line

end SqlDialects.Telemetry
