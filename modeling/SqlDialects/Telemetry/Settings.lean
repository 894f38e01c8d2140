import SqlDialects.Decimal.Shortest
import SqlDialects.Text.Quoted

/-! What is measured and where it goes. -/

namespace SqlDialects.Telemetry

structure Settings where
  exporter : String := "none"
  endpoint : String := "localhost:4317"
  serviceName : String := "sqlbridge"
  sampleRate : Float := 0.1
  metrics : Bool := false
  traces : Bool := false
deriving Repr

inductive SettingsFault
  | exporter (name : String)
  | sampleRate (rate : Float)

def SettingsFault.message : SettingsFault → String
  | .exporter name => "observability: unknown exporter " ++ Text.quote name
  | .sampleRate rate =>
    "observability: sample_rate " ++ Decimal.floatText rate ++ " outside [0, 1]"

/-- The first thing that is wrong with settings. -/
def Settings.fault? (s : Settings) : Option SettingsFault :=
  if !(["", "none", "stdout", "otlp"].contains s.exporter) then some (.exporter s.exporter)
  else if s.sampleRate < 0 || s.sampleRate > 1 then some (.sampleRate s.sampleRate)
  else none

/-- Whether anything is measured at all. -/
def Settings.enabled (s : Settings) : Bool :=
  s.exporter != "" && s.exporter != "none" && (s.metrics || s.traces)

end SqlDialects.Telemetry
