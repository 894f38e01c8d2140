import SqlDialects.Proofs.WithScope

/-! Queries in parentheses. The clauses after the closing parenthesis are put on the query that stands inside. A select
keeps the clauses that it does not get anew; a set operation takes the new ones over as they are, and loses its own. -/

namespace SqlDialects

open SqlDialects.Parser

/-- The clauses after the terms of a query. -/
def Query.tail : Query → QueryTail
  | .select s => { orderBy := s.orderBy, limit := s.limit, offset := s.offset }
  | .setOp _ _ _ _ _ orderBy limit => { orderBy, limit }

def Query.isSelect : Query → Bool
  | .select _ => true
  | .setOp .. => false

namespace Parser

/-- Every clause that is there is a clause of the other tail too. -/
def QueryTail.Within (own whole : QueryTail) : Prop :=
  (own.orderBy = [] ∨ whole.orderBy = own.orderBy) ∧ (own.limit = none ∨ whole.limit = own.limit) ∧
    (own.offset = none ∨ whole.offset = own.offset)

/-- A clause of a query is not lost to an added one: there is none, or the query is a select and none is added, or the
same one is added again. -/
def Unharmed {α : Type} (single : Bool) (missing own added : α) : Prop :=
  own = missing ∨ single = true ∧ added = missing ∨ added = own

/-- The added tail takes no clause away from the query. -/
def QueryTail.Spares (added : QueryTail) (q : Query) : Prop :=
  Unharmed q.isSelect [] q.tail.orderBy added.orderBy ∧ Unharmed q.isSelect none q.tail.limit added.limit ∧
    Unharmed q.isSelect none q.tail.offset added.offset

private theorem unharmed_list {α : Type} {own added : List α} :
    own = [] ∨ (if added.isEmpty then own else added) = own ↔ Unharmed true [] own added := by
  cases added <;> simp [Unharmed]

private theorem unharmed_option {α : Type} {own added : Option α} :
    own = none ∨ (added.orElse fun _ => own) = own ↔ Unharmed true none own added := by
  cases added <;> simp [Unharmed]

private theorem unharmed_replaced {α : Type} {missing own added : α} :
    own = missing ∨ added = own ↔ Unharmed false missing own added := by
  simp [Unharmed]

theorem QueryTail.within_addTo_iff (added : QueryTail) (q : Query) :
    q.tail.Within (added.addTo q).tail ↔ added.Spares q := by
  cases q with
  | select s => exact and_congr unharmed_list (and_congr unharmed_option unharmed_option)
  | setOp pos op all left right orderBy limit =>
    refine and_congr unharmed_replaced (and_congr unharmed_replaced ?_)
    simp [Query.tail, Unharmed]

/-- Nothing is lost without an added tail, except by a set operation that has clauses of its own. -/
theorem addTo_empty_iff (q : Query) : ({} : QueryTail).addTo q = q ↔ q.isSelect ∨ q.tail.orderBy = [] ∧
    q.tail.limit = none := by
  cases q with
  | select s =>
    obtain ⟨⟩ := s
    simp [QueryTail.addTo, Query.isSelect]
  | setOp pos op all left right orderBy limit =>
    simp [QueryTail.addTo, Query.isSelect, Query.tail, eq_comm]

theorem addCtes_nil (q : Query) : addCtes [] q = q := by
  induction q using Query.leftmost.induct with
  | case1 s =>
    obtain ⟨⟩ := s
    rfl
  | case2 pos op all left right orderBy limit ih => rw [addCtes, ih]

variable {d : Dialect} {g : Grammar} {c c' : Cursor} {r : Query}

/-- There are no clauses at the end. -/
theorem queryTail_finish (ended : c.current.isFinish = true) : queryTail g c = .ok ({}, c) := by
  have is (w : String) : c.current.is w = false := Token.is_of_isFinish ended w
  simp [queryTail, limitClause, offsetClause, fetchClause, bind_apply, curIs_apply, accept_apply,
    ok_bind, pure_apply, is]

/-- Words that join a query to another one. -/
def setWords : List String := ["UNION", "INTERSECT", "EXCEPT", "MINUS"]

/-- A query in parentheses is the query inside with the clauses after it, unless a set operator follows. -/
theorem queryStep_enclosed (opens : c.current.isOp "(" = true) (done : queryStep d g c = .ok (r, c')) :
    ∃ q inner, g.query c.advance = .ok (q, inner) ∧ inner.current.isOp ")" = true ∧
      (setWords.any inner.advance.current.is = false →
        ∃ added, queryTail g inner.advance = .ok (added, c') ∧ r = added.addTo q) := by
  obtain ⟨ctes, start, declared, rest⟩ := bind_eq_ok done
  have noWith : accept "WITH" c = .ok (false, c) := by rw [accept_apply, Token.is_of_isOp opens]; rfl
  obtain ⟨rfl, rfl⟩ : ctes = [] ∧ start = c := by
    simp only [withClause, bind_apply, noWith, ok_bind, pure_apply, Bool.not_false, if_true,
      Except.ok.injEq, Prod.mk.injEq]
      at declared
    exact ⟨declared.1.symm, declared.2.symm⟩
  obtain ⟨first, afterFirst, term, rest⟩ := bind_eq_ok rest
  obtain ⟨isOpen, inside, opened, term⟩ := bind_eq_ok term
  rw [acceptOp_apply, opens] at opened
  cases opened
  obtain ⟨first, inner, read, term⟩ := bind_eq_ok term
  obtain ⟨_, shut, closed, term⟩ := bind_eq_ok term
  cases term
  rw [expectOp_apply] at closed
  split at closed
  case isFalse => cases closed
  case isTrue closes =>
    cases closed
    refine ⟨first, inner, read, closes, fun apart => ?_⟩
    obtain ⟨body, afterTerms, looped, rest⟩ := bind_eq_ok rest
    have stopped : setOpStep d g first inner.advance = .ok (none, inner.advance) := by
      simp only [setOpStep, bind_apply, current_apply, ok_bind, acceptAny_apply]
      rw [show ["UNION", "INTERSECT", "EXCEPT", "MINUS"] = setWords from rfl, apart]
      rfl
    rw [loop_apply, iterate_none stopped] at looped
    cases looped
    obtain ⟨added, last, tailed, rest⟩ := bind_eq_ok rest
    cases rest
    exact ⟨added, tailed, addCtes_nil _⟩

end Parser

/-- A text that begins with a parenthesis and is a query holds the query inside. Where no set operator follows, the
clauses after the closing parenthesis are put on that query, which keeps its own ones exactly if it is spared; with
nothing after the parenthesis, it is the query inside unless this is a set operation with clauses of its own. -/
theorem enclosed_query {d : Dialect} {sql : String} {c : Cursor} {r : Query}
    (loaded : Cursor.ofText d.toLexicon sql = .ok c) (opens : c.current.isOp "(" = true)
    (parsed : Statement.parse d sql = .ok (.query r)) :
    ∃ q inner, (grammar d c.bound).query c.advance = .ok (q, inner) ∧ inner.current.isOp ")" = true ∧
      (setWords.any inner.advance.current.is = false →
        ∃ added last, queryTail (grammar d c.bound) inner.advance = .ok (added, last) ∧ r = added.addTo q ∧
          (q.tail.Within r.tail ↔ added.Spares q)) ∧
      (inner.advance.current.isFinish = true → (r = q ↔ q.isSelect ∨ q.tail.orderBy = [] ∧ q.tail.limit = none)) := by
  obtain ⟨_, last, same, done⟩ | ⟨_, _, _, same⟩ :=
    Statement.parse_plain loaded (fun w _ => Token.is_of_isOp opens w) parsed
  case inr => cases same
  cases same
  obtain ⟨q, inner, read, closes, alone⟩ := queryStep_enclosed opens done
  refine ⟨q, inner, read, closes, fun apart => ?_, fun ended => ?_⟩
  · obtain ⟨added, tailed, rfl⟩ := alone apart
    exact ⟨added, last, tailed, rfl, added.within_addTo_iff q⟩
  · have apart : setWords.any inner.advance.current.is = false :=
      List.any_eq_false.mpr fun w _ => Bool.eq_false_iff.mp (Token.is_of_isFinish ended w)
    obtain ⟨added, tailed, rfl⟩ := alone apart
    rw [queryTail_finish ended] at tailed
    cases tailed
    exact addTo_empty_iff q

theorem enclosed_union : ∃ c r,
    Cursor.ofText MySql.profile.dialect.toLexicon "(SELECT a UNION SELECT b LIMIT 5)" = .ok c ∧
    c.current.isOp "(" = true ∧
    Statement.parse MySql.profile.dialect "(SELECT a UNION SELECT b LIMIT 5)" = .ok (.query r) ∧
    ∃ q inner, (grammar MySql.profile.dialect c.bound).query c.advance = .ok (q, inner) ∧
      inner.current.isOp ")" = true ∧
      (setWords.any inner.advance.current.is = false →
        ∃ added last, queryTail (grammar MySql.profile.dialect c.bound) inner.advance = .ok (added, last) ∧
          r = added.addTo q ∧ (q.tail.Within r.tail ↔ added.Spares q)) ∧
      (inner.advance.current.isFinish = true → (r = q ↔ q.isSelect ∨ q.tail.orderBy = [] ∧ q.tail.limit = none)) := by
  obtain ⟨c, loaded, opens⟩ := ok_of_any (x := Cursor.ofText MySql.profile.dialect.toLexicon
    "(SELECT a UNION SELECT b LIMIT 5)") (p := fun c => c.startsQuery && c.current.isOp "(") (by decide +kernel)
  rw [Bool.and_eq_true] at opens
  obtain ⟨starts, opens⟩ := opens
  obtain ⟨s, parsed, _⟩ := ok_of_any (x := Statement.parse MySql.profile.dialect
    "(SELECT a UNION SELECT b LIMIT 5)") (p := fun _ => true) (by decide +kernel)
  obtain ⟨r, _, rfl, _⟩ | ⟨other, _⟩ := Statement.parse_plain loaded (fun w _ => Token.is_of_isOp opens w) parsed
  · exact ⟨c, r, loaded, opens, parsed, enclosed_query loaded opens parsed⟩
  · rw [starts] at other
    cases other

/-- In parentheses a union loses its `LIMIT`, and a select loses one to another. -/
theorem limit_lost : (MySql.profile.dialect.canonical "SELECT a UNION SELECT b LIMIT 5").toOption =
      some "SELECT a UNION SELECT b LIMIT 5" ∧
    (MySql.profile.dialect.canonical "(SELECT a UNION SELECT b LIMIT 5)").toOption = some "SELECT a UNION SELECT b" ∧
    (MySql.profile.dialect.canonical "(SELECT a FROM t LIMIT 5) LIMIT 10").toOption =
      some "SELECT a FROM t LIMIT 10" := by
  decide +kernel

end SqlDialects
