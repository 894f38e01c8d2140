import SqlDialects.Rule

/-! A dialect together with the rules that lead from it and to it. -/

namespace SqlDialects

structure Profile where
  dialect : Dialect
  /-- Rules for trees that come from this dialect. -/
  inbound : List Rule := []
  /-- Rules for trees that go to this dialect. -/
  outbound : List Rule := []

end SqlDialects
