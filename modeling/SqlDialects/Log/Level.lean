import SqlDialects.Text.Case

/-! How grave a log record is. -/

namespace SqlDialects.Log

inductive Level
  | debug
  | info
  | warn
  | error
deriving Repr, DecidableEq, Inhabited

namespace Level

def rank : Level → Nat
  | .debug => 0
  | .info => 1
  | .warn => 2
  | .error => 3

def passes (threshold l : Level) : Bool := threshold.rank ≤ l.rank

def name : Level → String
  | .debug => "DEBUG"
  | .info => "INFO"
  | .warn => "WARN"
  | .error => "ERROR"

/-- The level that a setting names; an unknown one is `info`. -/
def ofText (text : String) : Level :=
  match Text.lower text with
  | "debug" => .debug
  | "warn" | "warning" => .warn
  | "error" => .error
  | _ => .info

end Level

end SqlDialects.Log
