import SqlDialects.Dialect.Postgres
import SqlDialects.Proofs.SyntaxProgress

/-! Queries, table definitions and statements come to an end by themselves, and so does what is read of a whole text. -/

namespace SqlDialects.Parser

open Cursor Token

variable {c : Cursor} {j k : Nat} {d : Dialect} {g : Grammar}

/-! ### Queries -/

theorem concludes_label? (place : c.Within k) (lexicon : Lexicon) : Concludes c (label? lexicon) (Leaves k) := by
  refine .branch (tries_accept place.step _) (fun _ place => .current (.ite (fun _ => ?_) fun _ => ?_)) (.current ?_)
  · exact (concludes_advance place.skip).bind fun _ _ place => .pure place
  · exact (concludes_anyIdent place.step).bind fun _ _ place => .pure place
  · exact .ite (fun _ => (concludes_ident place.step lexicon).bind fun _ _ place => .pure place) fun _ => .pure place

private theorem concludes_joinWords (place : c.Within k) : Concludes c joinWords (Leaves k) := by
  refine (concludes_accept place).bind fun _ _ place => ?_
  refine (concludes_acceptAny place).bind fun _ _ place => .current ?_
  split
  · exact .pure place
  · refine (concludes_advance place.skip).bind fun _ _ place => (concludes_accept place).bind fun semi _ place => ?_
    extract_lets outer
    have read : ∀ form ⦃c⦄, c.Within k → Concludes c (outer form) (Leaves k) :=
      fun form c place => (concludes_accept place).bind fun _ _ place => .pure place
    refine .ite (fun _ => .known (read _ place)) fun _ => ?_
    exact .branch (tries_accept place.step _) (fun _ place => .known (read _ place)) (.known (read _ place))

/-- The words of a join with `JOIN` after them. -/
private def joinAhead : Parser (Option String) := do
  let kind ← joinWords
  return if ← accept "JOIN" then some kind else none

private theorem joinKind?_apply (c : Cursor) : joinKind? c =
    if c.current.is "ARRAY" || (c.current.is "LEFT" && c.peek.is "ARRAY") then .ok (none, c)
    else (joinAhead c).map fun r => if r.1.isSome then r else (none, c) := by
  simp only [joinKind?, bind_apply, get_apply, ok_bind]
  split
  · rfl
  simp only [joinAhead, bind_apply]
  cases joinWords c with
  | error e => rfl
  | ok r =>
    simp only [ok_bind, accept_apply]
    split <;> rfl

/-- Where no join is announced, the cursor is back where it was. -/
theorem tries_joinKind? (place : c.Within (k + 1)) : Concludes c joinKind? fun kind => Tries c k kind.isSome := by
  have ahead : Concludes c joinAhead fun kind next => kind.isSome = true → next.Within k := by
    refine (concludes_joinWords place).bind fun kind _ place => ?_
    refine (tries_accept place _).bind fun found next moved => .pure fun some => ?_
    cases found with
    | true => exact moved
    | false => cases some
  refine ⟨fun e => ?_, fun {kind next} done => ?_⟩
  · rw [joinKind?_apply, joinKind?_apply, ahead.terminates]
    change (if c.current.is "ARRAY" || (c.current.is "LEFT" && c.peek.is "ARRAY") then _ else _) = _
    split
    · rfl
    cases joinAhead c with
    | error _ => rfl
    | ok r => cases found : r.1 <;> simp [Except.map, rehalt, found]
  · rw [joinKind?_apply] at done
    split at done
    · cases done
      rfl
    cases read : joinAhead c with
    | error _ => simp [read, Except.map] at done
    | ok r =>
      obtain ⟨_ | side, after⟩ := r
      · simp only [read, Except.map] at done
        cases done
        rfl
      · simp only [read, Except.map] at done
        cases done
        exact ahead.ends read rfl

section Queries

variable (good : g.Advances k)

include good

theorem concludes_tableStep (place : c.Within (k + 1)) : Concludes c (tableStep d g) (Leaves k) := by
  refine .get (fun _ => rfl) (.ite (fun mark => ?_) fun _ => ?_)
  · refine (concludes_advance (place.ready (solid_of_isOp mark))).bind fun _ _ place => .ite (fun _ => ?_) fun _ => ?_
    · refine (good.query.leaves place).bind fun query _ place =>
        (concludes_expectOp place.step _).bind fun _ _ place => ?_
      exact (concludes_label? place _).bind fun _ _ place => .pure place
    · refine (good.tables.leaves place).bind fun tables _ place => ?_
      exact (concludes_expectOp place.step _).bind fun _ _ place => .pure place
  · refine (concludes_tableName place _).bind fun name _ place => .curOp (.ite (fun _ => ?_) fun _ => ?_)
    · refine (concludes_functionCall good place ..).bind fun e _ place => ?_
      split
      · exact (concludes_label? place _).bind fun _ _ place => .pure place
      · exact .failAt ..
    · refine (concludes_accept place).bind fun before _ place => ?_
      refine (concludes_label? place _).bind fun label _ place => ?_
      exact .choice (.pure place) (concludes_accept place) fun final _ place => .pure place

theorem concludes_joinStep (place : c.Within (k + 1)) (left : TableExpr) :
    Concludes c (joinStep d g left) (Round k) := by
  refine .position (.branch (tries_acceptOp place _) (fun _ place => ?_) ?_)
  · exact (concludes_tableStep good place.step).bind fun right _ place => .pure place
  refine .find (tries_joinKind? place) (fun kind _ place => ?_) (.pure place)
  refine (concludes_tableStep good place.step).bind fun right _ place => ?_
  refine .branch (tries_accept place.step _) (fun _ place => ?_) ?_
  · exact (concludes_value good place).bind fun condition _ place => .pure place
  refine .branch (tries_accept place.step _) (fun _ place => ?_) (.pure place)
  exact (concludes_identList place.step).bind fun shared _ place => .pure place

theorem concludes_tablesStep (place : c.Within (k + 1)) : Concludes c (tablesStep d g) (Leaves k) := by
  refine (concludes_tableStep good place).bind fun first _ place => ?_
  exact concludes_loop (fun j below c place left => concludes_joinStep (good.inside below) place left) place first

theorem concludes_lateralView (place : c.Within k) (pos : Position) : Concludes c (lateralView d g pos) (Leaves k) := by
  refine (concludes_accept place).bind fun outer _ place => (concludes_value good place).bind fun e _ place => ?_
  split
  · refine (concludes_ident place.step _).bind fun table _ place => (concludes_accept place).bind fun _ _ place => ?_
    have names : Concludes _ (commaList anyIdent) (Leaves k) :=
      concludes_commaList (fun _ _ _ place => concludes_anyIdent place.step) place
    exact names.bind fun columns _ place => .pure place
  · exact .failAt ..

theorem concludes_arrayJoinItem (place : c.Within k) (outer : Bool) :
    Concludes c (arrayJoinItem d g outer) (Leaves k) := by
  refine .position ((concludes_value good place).bind fun e _ place => ?_)
  exact (concludes_label? place _).bind fun label _ place => .pure place

theorem tries_lateralViews? (place : c.Within (k + 1)) :
    Concludes c (lateralViews? d g) fun views => Tries c k views.isSome := by
  refine .position (.branch (tries_acceptSeq place _ _) (fun _ place => ?_) ?_)
  · exact (concludes_lateralView good place _).bind fun view _ place => .pure place
  · refine .curIs (.peekIs (.curIs (.peekIs (.ite (fun arrays => ?_) fun _ => .pure rfl))))
    refine (concludes_accept_ready place (place.ready (solid_of_pair arrays)) _).bind fun outer _ ready => ?_
    refine (concludes_advance ready).bind fun _ _ place => ?_
    refine (concludes_advance place.skip).bind fun _ _ place => ?_
    exact (concludes_commaList (fun _ fewer _ place =>
      concludes_arrayJoinItem (good.mono fewer) place outer) place).bind
      fun views _ place => .pure place

theorem concludes_selectItem (place : c.Within k) : Concludes c (selectItem d g) (Leaves k) := by
  refine .position (.branch (tries_acceptOp place.step _) (fun _ place => .pure place) ?_)
  exact (concludes_value good place).bind fun e _ place =>
    (concludes_label? place _).bind fun label _ place => .pure place

theorem concludes_selectStep (place : c.Within (k + 1)) : Concludes c (selectStep d g) (Leaves k) := by
  refine .position ((concludes_expect place _).bind fun _ _ place =>
    (concludes_accept place).bind fun distinct _ place => ?_)
  refine .extra place (concludes_accept place) fun _ place => ?_
  refine .option (tries_accept place.step _) place (fun _ place => good.operand.leaves place) fun limit _ place => ?_
  refine (concludes_commaList (fun _ fewer _ place => concludes_selectItem (good.mono fewer) place) place).bind
    fun items _ place => ?_
  refine .option (tries_accept place.step _) place (fun _ place => concludes_tablesStep good place.step)
    fun source _ place => ?_
  refine (concludes_loop (fun j below c place views => ?_) place _).bind fun views _ place => ?_
  · exact .find (tries_lateralViews? (good.inside below) place) (fun more _ place => .pure place) (.pure place)
  refine .option (tries_acceptAny place.step _) place (fun _ place => concludes_value good place)
    fun condition _ place => ?_
  refine (concludes_accept place).bind fun grouped _ place => ?_
  extract_lets -underBinder groups
  have read : ∀ groupBy ⦃c⦄, c.Within k → Concludes c (groups groupBy) (Leaves k) := by
    refine fun groupBy c place => .option (tries_accept place.step _) place
      (fun _ place => concludes_value good place) ?_
    exact fun having _ place => .pure place
  refine .ite (fun _ => ?_) fun _ => .known (read [] place)
  refine (concludes_expect place.step _).bind fun _ _ place => ?_
  exact (concludes_values good place).bind fun groupBy _ place => read groupBy place

theorem concludes_queryTerm (place : c.Within (k + 1)) : Concludes c (queryTerm d g) (Leaves k) := by
  refine .branch (tries_acceptOp place _) (fun _ place => ?_) ?_
  · refine (good.query.leaves place).bind fun query _ place => ?_
    exact (concludes_expectOp place.step _).bind fun _ _ place => .pure place
  · exact (concludes_selectStep good place).bind fun select _ place => .pure place

theorem concludes_limitClause (place : c.Within k) (tail : QueryTail) :
    Concludes c (limitClause g tail) (Leaves k) := by
  refine .otherwise (tries_accept place.step _) (.pure place) fun _ place => ?_
  refine (concludes_value good place).bind fun first _ place => ?_
  refine .branch (tries_acceptOp place.step _) (fun _ place => ?_) (.pure place)
  exact (concludes_value good place).bind fun limit _ place => .pure place

theorem concludes_offsetClause (place : c.Within k) (tail : QueryTail) :
    Concludes c (offsetClause g tail) (Leaves k) := by
  refine .otherwise (tries_accept place.step _) (.pure place) fun _ place => ?_
  refine (concludes_value good place).bind fun offset _ place => ?_
  exact (concludes_acceptAny place).bind fun _ _ place => .pure place

theorem concludes_fetchClause (place : c.Within k) (tail : QueryTail) :
    Concludes c (fetchClause g tail) (Leaves k) := by
  refine .otherwise (tries_accept place.step _) (.pure place) fun _ place => ?_
  refine (concludes_acceptAny place).bind fun _ _ place => (concludes_value good place).bind fun limit _ place => ?_
  refine (concludes_acceptAny place).bind fun _ _ place => ?_
  exact (concludes_expect place.step _).bind fun _ _ place => .pure place

theorem concludes_queryTail (place : c.Within k) : Concludes c (queryTail g) (Leaves k) := by
  refine .curIs (.choice (concludes_orderClause good place.step) (.pure place) fun orderBy _ place => ?_)
  refine (concludes_limitClause good place _).bind fun tail _ place => ?_
  refine (concludes_offsetClause good place tail).bind fun tail _ place => ?_
  exact concludes_fetchClause good place tail

theorem concludes_withEntry (place : c.Within k) : Concludes c (withEntry d g) (Leaves k) := by
  refine .get (fun _ => rfl) (.ite (fun _ => ?_) fun _ => ?_)
  · refine (concludes_ident place.step _).bind fun name _ place => .curOp ?_
    refine .choice (concludes_identList place.step) (.pure place) fun columns _ place => ?_
    refine (concludes_expect place.step _).bind fun _ _ place =>
      (concludes_expectOp place.step _).bind fun _ _ place => ?_
    refine (good.query.leaves place).bind fun query _ place => ?_
    exact (concludes_expectOp place.step _).bind fun _ _ place => .pure place
  · refine (concludes_value good place).bind fun value _ place =>
      (concludes_expect place.step _).bind fun _ _ place => ?_
    exact (concludes_ident place.step _).bind fun name _ place => .pure place

theorem concludes_withClause (place : c.Within (k + 1)) : Concludes c (withClause d g) (Leaves (k + 1)) := by
  refine .otherwise (tries_accept place _) (.pure place) fun _ place => ?_
  refine (concludes_accept place).bind fun _ _ place => ?_
  refine Concludes.weaken (concludes_commaList (fun _ fewer _ place => ?_) place) (Nat.le_succ k)
  exact concludes_withEntry (good.mono fewer) place

theorem concludes_setOpStep (place : c.Within (k + 1)) (left : Query) : Concludes c (setOpStep d g left) (Round k) := by
  refine .current (.otherwise (tries_acceptAny place _) (.pure place) fun _ place => ?_)
  refine (concludes_accept place).bind fun all _ place => (concludes_accept place).bind fun _ _ place => ?_
  exact (concludes_queryTerm good place.step).bind fun right _ place => .pure place

theorem concludes_queryStep (place : c.Within (k + 1)) : Concludes c (queryStep d g) (Leaves k) := by
  refine (concludes_withClause good place).bind fun ctes _ place => ?_
  refine (concludes_queryTerm good place).bind fun first _ place => ?_
  refine (concludes_loop (fun j below c place left =>
    concludes_setOpStep (good.inside below) place left) place first).bind
    fun query _ place => ?_
  exact (concludes_queryTail good place).bind fun tail _ place => .pure place

end Queries

theorem advances_grammar (d : Dialect) (depth : Nat) : (grammar d depth).Advances depth := by
  induction depth with
  | zero => exact ⟨fun _ => .zero, .zero, .zero, .zero⟩
  | succ depth ih =>
    have inner {j : Nat} (below : j < depth + 1) : (grammar d depth).Advances j := ih.mono (Nat.le_of_lt_succ below)
    exact ⟨fun level j below c place => concludes_exprStep (inner below) place level,
      fun j below c place => concludes_operandStep (inner below) place,
      fun j below c place => concludes_queryStep (inner below) place,
      fun j below c place => concludes_tablesStep (inner below) place⟩

/-! ### Constraints and columns -/

theorem concludes_skipOptionalGroup (place : c.Within k) : Concludes c skipOptionalGroup (Leaves k) :=
  .curOp (.extra place (concludes_skipGroup place.step) fun _ place => .pure place)

theorem concludes_stringToken (place : c.Within k) (what : String) : Concludes c (stringToken what) (Leaves k) :=
  .current (.guard fun _ => (concludes_advance place.skip).bind fun _ _ place => .pure place)

theorem concludes_keyColumns (place : c.Within k) : Concludes c keyColumns (Leaves k) := by
  refine (concludes_expectOp place.step _).bind fun _ _ place => ?_
  refine (concludes_commaList (fun j _ c place => ?_) place).bind fun columns _ place => ?_
  · refine (concludes_anyIdent place.step).bind fun column _ place => ?_
    refine (concludes_skipOptionalGroup place).bind fun _ _ place => ?_
    exact (concludes_acceptAny place).bind fun _ _ place => .pure place
  · exact (concludes_expectOp place.step _).bind fun _ _ place => .pure place

theorem concludes_skipConstraintState (place : c.Within k) : Concludes c skipConstraintState (Leaves k) := by
  refine concludes_loop (fun j below c place _ => ?_) place ()
  refine .branch (tries_acceptAny place _) (fun _ place => .pure place) ?_
  exact .branch (tries_acceptSeq place _ _) (fun _ place => .pure place) (.pure place)

theorem concludes_skipReferentialActions (place : c.Within k) : Concludes c skipReferentialActions (Leaves k) := by
  refine (concludes_loop (fun j below c place _ => ?_) place ()).bind fun _ _ place =>
    concludes_skipConstraintState place
  refine .get (fun _ => rfl) (.ite (fun _ => .pure place) fun announced => ?_)
  have solid : c.current.isFinish = false := by
    simp only [Bool.not_eq_true, Bool.not_eq_false', Bool.and_eq_true] at announced
    exact solid_of_is announced.1
  refine (concludes_advance (place.ready solid)).bind fun _ _ place => ?_
  refine (concludes_advance place.skip).bind fun _ _ place => ?_
  refine .branch (tries_acceptSeq place.step _ _) (fun _ place => .pure place) ?_
  refine .branch (tries_acceptSeq place.step _ _) (fun _ place => .pure place) ?_
  refine .branch (tries_acceptSeq place.step _ _) (fun _ place => .pure place) ?_
  exact (concludes_acceptAny place).bind fun _ _ place => .pure place

theorem concludes_indexElement (place : c.Within k) (pos : Position) (name : String) :
    Concludes c (indexElement pos name) (Leaves k) := by
  refine (concludes_acceptAny place).bind fun _ _ place => ?_
  refine (concludes_acceptAny place).bind fun _ _ place => .curOp ?_
  refine .choice (.pure place) ((concludes_anyIdent place.step).map fun _ _ place => place) fun name _ place => ?_
  exact (concludes_skipGroupsUntil place _).bind fun _ _ place => .pure place

theorem concludes_foreignKey (place : c.Within k) (pos : Position) (name : String) :
    Concludes c (foreignKey d pos name) (Leaves k) := by
  refine (concludes_advance place.skip).bind fun _ _ place => (concludes_advance place.skip).bind fun _ _ place => ?_
  refine (concludes_identList place.step).bind fun columns _ place => ?_
  refine (concludes_expect place.step _).bind fun _ _ place => ?_
  refine (concludes_qualifiedName place.step _).bind fun references _ place => .curOp ?_
  refine .choice (concludes_identList place.step) (.pure place) fun refColumns _ place => ?_
  exact (concludes_skipReferentialActions place).bind fun _ _ place => .pure place

theorem concludes_uniqueKey (place : c.Within k) (pos : Position) (name : String) :
    Concludes c (uniqueKey pos name) (Leaves k) := by
  refine (concludes_advance place.skip).bind fun _ _ place =>
    (concludes_acceptAny place).bind fun _ _ place => .curOp ?_
  extract_lets keys
  have read : ∀ name ⦃c⦄, c.Within k → Concludes c (keys name) (Leaves k) := by
    refine fun name c place => (concludes_keyColumns place).bind fun columns _ place => ?_
    exact (concludes_skipConstraintState place).bind fun _ _ place => .pure place
  refine .ite (fun _ => .known (read _ place)) fun _ => ?_
  exact (concludes_anyIdent place.step).bind fun own _ place => .known (read _ place)

section Tables

variable (good : g.Advances k)

include good

theorem concludes_constraint? (place : c.Within k) (pos : Position) (name : String) :
    Concludes c (constraint? d g pos name) (Leaves k) := by
  refine .get (fun _ => rfl) ?_
  refine .ite (fun _ => ?_) fun _ => ?_
  · refine (concludes_advance place.skip).bind fun _ _ place => (concludes_advance place.skip).bind fun _ _ place => ?_
    refine (concludes_keyColumns place).bind fun columns _ place => ?_
    exact (concludes_skipConstraintState place).bind fun _ _ place => .pure place
  refine .ite (fun _ => ?_) fun _ => ?_
  · exact (concludes_uniqueKey place ..).bind fun _ _ place => .pure place
  refine .ite (fun _ => ?_) fun _ => ?_
  · exact (concludes_foreignKey place ..).bind fun _ _ place => .pure place
  refine .ite (fun _ => ?_) fun _ => ?_
  · refine (concludes_advance place.skip).bind fun _ _ place => (concludes_advance place.skip).bind fun _ _ place => ?_
    refine (concludes_value good place).bind fun condition _ place => ?_
    exact (concludes_expectOp place.step _).bind fun _ _ place => .pure place
  refine .ite (fun _ => ?_) fun _ => ?_
  · exact (concludes_indexElement place ..).bind fun _ _ place => .pure place
  · exact .pure place

theorem tries_skipAttribute (place : c.Within (k + 1)) : Concludes c (skipAttribute d g) (Tries c k) := by
  refine .get (fun _ => rfl) ?_
  refine .branch (tries_acceptAny place _) (fun _ place => ?_) ?_
  · exact ((good.expr _).leaves place).bind fun _ _ place => .pure place
  refine .branch (tries_accept place _) (fun _ place => ?_) ?_
  · exact (concludes_skipGroup place.step).bind fun _ _ place => .pure place
  refine .branch (tries_acceptAny place _) (fun _ place => ?_) ?_
  · exact (concludes_stringToken place _).bind fun _ _ place => .pure place
  refine .branch (tries_acceptAny place _) (fun _ place => .pure place) ?_
  refine .branch (tries_acceptSeq place _ _) (fun _ place => .pure place) ?_
  refine .branch (tries_accept place _) (fun _ place => .current (.ite (fun _ => ?_) fun _ => ?_)) ?_
  · exact (concludes_advance place.skip).bind fun _ _ place => .pure place
  · exact (concludes_skipOptionalGroup place).bind fun _ _ place => .pure place
  refine .branch (tries_acceptSeq place _ _) (fun _ place => ?_) ?_
  · exact (concludes_advance place.skip).bind fun _ _ place => .pure place
  refine .branch (tries_acceptAny place _) (fun _ place => ?_) ?_
  · exact (concludes_advance place.skip).bind fun _ _ place => .pure place
  refine .branch (tries_acceptSeq place _ _) (fun _ place => ?_) ?_
  · exact ((good.expr _).leaves place).bind fun _ _ place => .pure place
  refine .branch (tries_accept place _) (fun _ place => ?_) ?_
  · refine (concludes_qualifiedName place.step _).bind fun _ _ place => ?_
    refine (concludes_skipOptionalGroup place).bind fun _ _ place => ?_
    exact (concludes_skipReferentialActions place).bind fun _ _ place => .pure place
  refine .ite (fun check => ?_) fun _ => ?_
  · have solid := solid_of_is (Bool.and_eq_true_iff.mp check).1
    refine (concludes_advance (place.ready solid)).bind fun _ _ place => ?_
    exact (concludes_skipGroup place.step).bind fun _ _ place => .pure place
  refine .ite (fun generated => ?_) fun _ => ?_
  · have goes : endsElement c.current = false := by
      rw [← Bool.not_eq_true, endsElement, Bool.or_eq_true]
      rintro (mark | mark) <;> simp [is_of_isOp mark] at generated
    exact (concludes_skipGroupsUntil_going place (solid_of_is generated) goes).bind fun _ _ place => .pure place
  refine .branch (tries_accept place _) (fun _ place => ?_) ?_
  · exact (concludes_anyIdent place.step).bind fun _ _ place => .pure place
  refine .branch (tries_accept place _) (fun _ place => .pure place) ?_
  refine .ite (fun mark => ?_) fun _ => .pure rfl
  exact (concludes_advance (place.ready (solid_of_any (Bool.and_eq_true_iff.mp mark).1))).bind fun _ _ place =>
    .pure place

theorem concludes_columnAttribute (place : c.Within (k + 1)) (column : ColumnDef) :
    Concludes c (columnAttribute d g column) (Round k) := by
  refine .branch (tries_acceptSeq place _ _) (fun _ place => ?_) ?_
  · refine (concludes_accept place).bind fun disabled _ place => ?_
    exact (concludes_accept place).bind fun _ _ place => .pure place
  refine .branch (tries_accept place _) (fun _ place => .pure place) ?_
  refine .branch (tries_accept place _) (fun _ place => ?_) ?_
  · exact ((good.expr _).leaves place).bind fun value _ place => .pure place
  refine .branch (tries_acceptAny place _) (fun _ place => ?_) ?_
  · exact (concludes_skipOptionalGroup place).bind fun _ _ place => .pure place
  refine .branch (tries_acceptSeq place _ _) (fun _ place => ?_) ?_
  · exact (concludes_skipConstraintState place).bind fun _ _ place => .pure place
  refine .branch (tries_accept place _) (fun _ place => ?_) ?_
  · exact (concludes_accept place).bind fun _ _ place => .pure place
  refine .branch (tries_accept place _) (fun _ place => ?_) ?_
  · exact (concludes_stringToken place _).bind fun comment _ place => .pure place
  exact .branch (tries_skipAttribute good place) (fun _ place => .pure place) (.pure place)

theorem concludes_columnDef (place : c.Within k) : Concludes c (columnDef d g) (Leaves k) := by
  refine .position ((concludes_anyIdent place.step).bind fun name _ place => ?_)
  refine (concludes_type place.step d).bind fun type _ place => ?_
  exact concludes_loop (fun j below c place column =>
    concludes_columnAttribute (good.inside below) place column) place _

theorem concludes_tableElement (place : c.Within k) (table : CreateTable) :
    Concludes c (tableElement d g table) (Leaves k) := by
  refine .position ((concludes_accept place).bind fun named _ place => ?_)
  refine .choice ((concludes_anyIdent place.step).map fun _ _ place => place) (.pure place) fun name _ place => ?_
  refine (concludes_constraint? good place ..).bind fun constraint _ inside => ?_
  split
  · exact .pure inside
  · exact (concludes_columnDef good inside).bind fun column _ place => .pure place

/-! ### Clauses -/

omit good in
theorem concludes_keepClause (place : c.Within k) (table : CreateTable)
    (group : PropertyGroup) (key : String) (start : Nat)
    (value : Option Expr) : Concludes c (keepClause table group key start value) (Leaves k) :=
  (concludes_rawFrom place start).bind fun _ _ place => .pure place

theorem concludes_keyExprs (place : c.Within k) : Concludes c (keyExprs g) (Leaves k) := by
  unfold keyExprs
  extract_lets more
  have read : ∀ e ⦃c⦄, c.Within k → Concludes c (more e) (Leaves k) := by
    refine fun e c place => .branch (tries_acceptOp place.step _) (fun _ place => ?_) (.pure place)
    exact (concludes_values good place).bind fun rest _ place => .pure place
  refine (concludes_value good place).bind fun e _ inside => ?_
  split
  · exact .ite (fun _ => .pure inside) fun _ => read _ inside
  · exact .ite (fun _ => .pure inside) fun _ => read _ inside
  · exact read _ inside

omit good in
theorem concludes_rangePartitions (place : c.Within k) (auto : Bool) :
    Concludes c (rangePartitions auto) (Leaves k) := by
  refine (concludes_advance place.skip).bind fun _ _ place => .get (fun _ => rfl) ?_
  refine (concludes_skipGroup place.step).bind fun _ _ place => .ite (fun _ => .failAt ..) fun _ => .pure place

theorem concludes_partitionBy (place : c.Within (k + 1)) (ready : c.advance.Within k) :
    Concludes c (partitionBy g) (Leaves k) := by
  refine (concludes_accept_ready place ready _).bind fun auto _ ready =>
    (concludes_advance ready).bind fun _ _ place => ?_
  refine (concludes_advance place.skip).bind fun _ _ place => .get (fun _ => rfl) ?_
  refine .ite (fun _ => concludes_rangePartitions place auto) fun _ => .ite (fun _ => ?_) fun _ => ?_
  · refine (concludes_advance place.skip).bind fun _ _ place => ?_
    refine (concludes_group good place.step).bind fun exprs _ place => .curOp ?_
    exact .choice (concludes_skipGroup place.step) (.pure place) fun definitions _ place => .pure place
  · exact (concludes_keyExprs good place).bind fun exprs _ place => .pure place

theorem concludes_partitionedItem (place : c.Within k) (p : Partitioning) :
    Concludes c (partitionedItem d g p) (Leaves k) := by
  refine .get (fun _ => rfl) (.ite (fun _ => ?_) fun _ => ?_)
  · exact (concludes_columnDef good place).bind fun column _ place => .pure place
  · exact (concludes_value good place).bind fun e _ place => .pure place

omit good in
private theorem concludes_commaFold {α : Type} {item : α → Parser α}
    (items : ∀ j ≤ k, ∀ ⦃c⦄, c.Within j → ∀ a, Concludes c (item a) (Leaves j))
    (place : c.Within k) (a : α) : Concludes c (commaFold item a) (Leaves k) := by
  refine (items k (Nat.le_refl k) place a).bind fun first _ place =>
    concludes_loop (fun j below c place a => ?_) place first
  refine .branch (tries_acceptOp place _) (fun _ place => ?_) (.pure place)
  exact (items j (Nat.le_of_lt below) place a).bind fun a _ place => .pure place

theorem concludes_partitionedBy (place : c.Within k) : Concludes c (partitionedBy d g) (Leaves k) := by
  refine (concludes_expectOp place.step _).bind fun _ _ place => ?_
  refine (concludes_commaFold (fun j fewer c place p =>
    concludes_partitionedItem (good.mono fewer) place p) place _).bind
    fun p _ place => ?_
  exact (concludes_expectOp place.step _).bind fun _ _ place => .pure place

omit good in
theorem concludes_bucketCount (place : c.Within k) : Concludes c bucketCount (Leaves k) := by
  refine .current ?_
  split
  · refine .ite (fun _ => ?_) fun _ => .expected _
    exact (concludes_advance place.skip).bind fun _ _ place => .pure place
  · exact .expected _

omit good in
theorem concludes_distribution (ready : c.advance.Within k) : Concludes c distribution (Leaves k) := by
  have base : Concludes c distributionBase (Leaves k) := by
    refine .curIs ((concludes_advance ready).bind fun _ _ place =>
      (concludes_advance place.skip).bind fun _ _ place => ?_)
    refine .ite (fun _ => ?_) fun _ => .branch (tries_accept place.step _) (fun _ place => .pure place) ?_
    · refine (concludes_identList place.step).bind fun columns _ place => ?_
      refine (concludes_acceptSeq place).bind fun sorted _ place => ?_
      refine .extra place (concludes_skipGroup place.step) fun _ place => ?_
      refine (concludes_expect place.step _).bind fun _ _ place => ?_
      refine (concludes_bucketCount place).bind fun buckets _ place => ?_
      exact (concludes_expect place.step _).bind fun _ _ place => .pure place
    · refine (concludes_expect place.step _).bind fun _ _ place => ?_
      exact (concludes_identList place.step).bind fun columns _ place => .pure place
  refine base.bind fun base _ place => .otherwise (tries_accept place.step _) (.pure place) fun _ place => ?_
  refine .branch (tries_accept place.step _) (fun _ place => .pure place) ?_
  exact (concludes_bucketCount place).bind fun buckets _ place => .pure place

theorem concludes_propertyItem (place : c.Within (k + 1)) (group : PropertyGroup)
    (clause : String) (table : CreateTable) :
    Concludes c (propertyItem d g group clause table) (Leaves k) := by
  refine .current ?_
  extract_lets valued
  have read : ∀ key ⦃c⦄, c.Within k → Concludes c (valued key) (Leaves k) := by
    refine fun key c place => (concludes_acceptOp place).bind fun _ _ place => ?_
    refine (concludes_value good place).bind fun value _ place => ?_
    exact (concludes_rawFrom place _).bind fun raw _ place => .pure place
  refine .ite (fun quoted => ?_) fun _ => ?_
  · have solid : c.current.isFinish = false := by
      obtain string | quoted := Bool.or_eq_true_iff.mp quoted
      · exact solid_of_kind (of_decide_eq_true string) (by decide)
      · exact solid_of_isQuoted quoted
    exact (concludes_advance (place.ready solid)).bind fun _ _ place => .known (read _ place)
  · have dotted : Concludes c (Ident.dotted <$> qualifiedName d.toLexicon) (Leaves k) :=
      (concludes_qualifiedName place _).map fun _ _ place => place
    exact dotted.bind fun key _ place => read key place

theorem concludes_propertyList (ready : c.advance.Within k) (table : CreateTable) :
    Concludes c (propertyList d g table) (Leaves k) := by
  refine .current ((concludes_advance ready).bind fun _ _ place => .ite (fun _ => ?_) fun _ => ?_)
  · refine concludes_commaFold (fun j fewer c place table => ?_) place table
    exact concludes_propertyItem (good.mono fewer) place.step ..
  refine (concludes_expectOp place.step _).bind fun _ _ place => ?_
  refine (concludes_loop (fun j below c place state => .curOp ?_) place _).bind fun state _ place => ?_
  · refine .ite (fun _ => .pure place) fun _ => ?_
    refine (concludes_propertyItem (good.inside below) place ..).bind fun table _ place => ?_
    exact (concludes_acceptOp place).bind fun _ _ place => .pure place
  · exact (concludes_expectOp place.step _).bind fun _ _ place => .pure place

omit good in
theorem concludes_storageClause (place : c.Within (k + 1)) (solid : c.current.isFinish = false)
    (table : CreateTable) (start : Nat) : Concludes c (storageClause table start) (Leaves k) := by
  refine .branch (tries_acceptSeq place _ _) (fun _ place => ?_)
    (.branch (tries_acceptSeq place _ _) (fun _ place => ?_) ?_)
  · refine (concludes_advance place.skip).bind fun _ _ place => ?_
    refine .branch (tries_accept place.step _) (fun _ place => ?_) (concludes_keepClause place ..)
    refine (concludes_advance place.skip).bind fun _ _ place => (concludes_accept place).bind fun _ _ place => ?_
    exact .extra place (concludes_advance place.skip) fun _ place => concludes_keepClause place ..
  · exact (concludes_skipGroupsUntil place _).bind fun _ _ place => concludes_keepClause place ..
  · refine .current ((concludes_advance (place.ready solid)).bind fun _ _ place => ?_)
    exact (concludes_advance place.skip).bind fun _ _ place => concludes_keepClause place ..

omit good in
theorem concludes_optionClause (place : c.Within (k + 1)) (table : CreateTable) (start : Nat) :
    Concludes c (optionClause table start) (Leaves k) := by
  refine .current (.guard fun _ => (concludes_accept place).bind fun _ _ place => ?_)
  refine (concludes_loop (fun j below c place words =>
    .get (fun _ => rfl) (.ite (fun _ => ?_) fun more => ?_)) place _).bind
    fun leading _ place => .current (.guard fun word => ?_)
  · exact .pure place
  · have solid : c.current.isFinish = false := by
      simp only [Bool.not_eq_true, Bool.not_eq_false', Bool.and_eq_true] at more
      exact solid_of_isWord more.1
    exact (concludes_advance (place.ready solid)).bind fun _ _ place => .pure place
  · rw [Bool.not_eq_true, Bool.not_eq_false'] at word
    refine (concludes_advance (place.ready (solid_of_isWord word))).bind fun _ _ place => ?_
    refine (concludes_acceptOp place).bind fun _ _ place => .current ?_
    exact .extra place (concludes_advance place.skip) fun _ place => concludes_keepClause place ..

omit good in
theorem concludes_primaryIndex (place : c.Within (k + 1)) (ready : c.advance.Within k)
    (table : CreateTable) (start : Nat) :
    Concludes c (primaryIndex table start) (Leaves k) := by
  refine (concludes_accept_ready place ready _).bind fun _ _ ready => (concludes_advance ready).bind fun _ _ place => ?_
  refine (concludes_expect place.step _).bind fun _ _ place => .current ?_
  refine .extra place (concludes_advance place.skip) fun _ place => ?_
  exact (concludes_identList place.step).bind fun columns _ place => concludes_keepClause place ..

omit good in
theorem concludes_engineClause (ready : c.advance.Within k) (table : CreateTable) (start : Nat) :
    Concludes c (engineClause table start) (Leaves k) := by
  refine (concludes_advance ready).bind fun _ _ place => (concludes_acceptOp place).bind fun _ _ place => ?_
  refine (concludes_anyIdent place.step).bind fun engine _ place => ?_
  refine (concludes_skipOptionalGroup place).bind fun _ _ place => ?_
  exact concludes_keepClause place ..

theorem tries_layoutClause? (place : c.Within (k + 1)) (table : CreateTable) (start : Nat) :
    Concludes c (layoutClause? d g table start) fun found => Tries c k found.isSome := by
  refine .get (fun _ => rfl) (.ite (fun engine => ?_) fun _ => ?_)
  · exact (concludes_engineClause (place.ready (solid_of_is engine)) ..).bind fun _ _ place => .pure place
  refine .branch (tries_acceptSeq place _ _) (fun _ place => ?_) ?_
  · exact (concludes_keyExprs good place).bind fun sortKey _ place => .pure place
  refine .branch (tries_acceptSeq place _ _) (fun _ place => ?_) ?_
  · exact (concludes_skipGroup place.step).bind fun _ _ place => .pure place
  refine .branch (tries_acceptSeq place _ _) (fun _ place => ?_) ?_
  · refine (concludes_keyExprs good place).bind fun _ _ place => ?_
    exact (concludes_keepClause place ..).bind fun _ _ place => .pure place
  refine .branch (tries_acceptSeq place _ _) (fun _ place => ?_) ?_
  · refine (concludes_expect place.step _).bind fun _ _ place => ?_
    exact (concludes_keepClause place ..).bind fun _ _ place => .pure place
  refine .ite (fun primary => ?_) fun _ => ?_
  · exact (concludes_primaryIndex place (place.ready (solid_of_pair primary)) ..).bind fun _ _ place => .pure place
  refine .ite (fun index => ?_) fun _ => ?_
  · refine (concludes_accept_ready place (place.ready (solid_of_pair index)) _).bind fun _ _ ready => ?_
    refine (concludes_advance ready).bind fun _ _ place => ?_
    refine (concludes_skipGroup place.step).bind fun _ _ place => ?_
    exact (concludes_keepClause place ..).bind fun _ _ place => .pure place
  refine .ite (fun key => ?_) fun _ => ?_
  · have solid := solid_of_any (Bool.and_eq_true_iff.mp key).1
    refine (concludes_advance (place.ready solid)).bind fun _ _ place => ?_
    refine (concludes_advance place.skip).bind fun _ _ place => ?_
    exact (concludes_identList place.step).bind fun columns _ place => .pure place
  refine .ite (fun partition => ?_) fun _ => ?_
  · exact (concludes_partitionBy good place (place.ready (solid_of_pair partition))).bind fun p _ place => .pure place
  refine .branch (tries_acceptSeq place _ _) (fun _ place => ?_) ?_
  · exact (concludes_partitionedBy good place).bind fun p _ place => .pure place
  refine .ite (fun buckets => ?_) fun _ => .pure rfl
  have solid : c.current.isFinish = false := by
    simp only [Bool.or_eq_true, Bool.and_eq_true] at buckets
    obtain ⟨word | word, _⟩ := buckets <;> exact solid_of_is word
  exact (concludes_distribution (place.ready solid)).bind fun p _ place => .pure place

theorem concludes_tableClause (place : c.Within (k + 1)) (table : CreateTable) :
    Concludes c (tableClause d g table) (Leaves k) := by
  refine .position (.find (tries_layoutClause? good place ..) (fun table _ place => .pure place)
    (.get (fun _ => rfl) ?_))
  refine .branch (tries_accept place _) (fun _ place => ?_) ?_
  · refine (concludes_acceptOp place).bind fun _ _ place => ?_
    exact (concludes_stringToken place _).bind fun comment _ place => .pure place
  refine .ite (fun listed => concludes_propertyList good (place.ready (solid_of_any listed)) table) fun _ => ?_
  refine .branch (tries_accept place _) (fun _ place => ?_) ?_
  · exact (concludes_values good place).bind fun _ _ place => concludes_keepClause place ..
  refine .ite (fun storage => ?_) fun _ => concludes_optionClause place ..
  have solid : c.current.isFinish = false := by
    simp only [Bool.or_eq_true, Bool.and_eq_true] at storage
    obtain ((⟨word, _⟩ | ⟨word, _⟩) | word) | word := storage <;> exact solid_of_is word
  exact concludes_storageClause place solid ..

/-! ### Definitions -/

omit good in
theorem concludes_skipDataClause (place : c.Within k) : Concludes c skipDataClause (Leaves k) := by
  refine .otherwise (tries_acceptSeq place.step _ _) ?_ fun _ place => .pure place
  exact (concludes_acceptSeq place).bind fun _ _ place => .pure place

omit good in
theorem concludes_leadingOptions (place : c.Within k) (table : CreateTable) :
    Concludes c (leadingOptions table) (Leaves k) := by
  refine concludes_loop (fun j below c place table => ?_) place table
  refine .otherwise (tries_acceptOp place _) (.pure place) fun _ place => .position ?_
  refine (concludes_skipWhile place _).bind fun _ _ place => ?_
  exact (concludes_rawFrom place _).bind fun raw _ place => .pure place

omit good in
theorem concludes_copyOfTable (place : c.Within k) (table : CreateTable) :
    Concludes c (copyOfTable d table) (Leaves k) := by
  refine .position ((concludes_qualifiedName place.step _).bind fun source _ place => ?_)
  refine .branch (tries_acceptSeq place.step _ _) (fun _ place => .pure place) ?_
  exact (concludes_acceptSeq place).bind fun _ _ place => .pure place

theorem concludes_clauseStep (inner : g.Advances (k + 1)) (place : c.Within (k + 1)) (state : CreateTable × Bool) :
    Concludes c (clauseStep d g state) (Round k) := by
  refine .current (.ite (fun _ => .pure place) fun _ => ?_)
  refine .branch (tries_accept place _) (fun _ place => ?_) (.ite (fun _ => ?_) fun _ => ?_)
  · refine (good.query.leaves place).bind fun query _ place => ?_
    exact (concludes_skipDataClause place).bind fun _ _ place => .pure place
  · exact (inner.query k (Nat.lt_succ_self k) place).bind fun query _ place => .pure place
  · exact (concludes_tableClause good place _).bind fun table _ place => .pure place

theorem concludes_tableDefinition (place : c.Within k) (flags : CreateTable) :
    Concludes c (tableDefinition d g flags) (Leaves k) := by
  refine (concludes_acceptSeq place).bind fun ifNotExists _ place => ?_
  refine (concludes_qualifiedName place.step _).bind fun name _ place => ?_
  refine (concludes_acceptSeq place).bind fun clustered _ place => ?_
  refine .extra place (concludes_anyIdent place.step) fun _ place => ?_
  refine (concludes_leadingOptions place _).bind fun table _ place => ?_
  refine .branch (tries_accept place.step _) (fun _ place => ?_) (.get (fun _ => rfl) (.ite (fun _ => ?_) fun _ => ?_))
  · exact (concludes_qualifiedName place.step _).bind fun like _ place => .pure place
  · exact (concludes_advance place.skip).bind fun _ _ place => concludes_copyOfTable place table
  extract_lets clauses
  have read : ∀ table ⦃c⦄, c.Within k → Concludes c (clauses table) (Leaves k) := by
    refine fun table c place => Concludes.bind (concludes_loop (fun j below c place state => ?_) place _) ?_
    · exact concludes_clauseStep (good.inside below) (good.mono below) place state
    · exact fun state _ place => .pure place
  refine .ite (fun _ => ?_) fun _ => .known (read table place)
  refine (concludes_advance place.skip).bind fun _ _ place => ?_
  refine Concludes.bind (concludes_commaFold (fun j fewer c place table => ?_) place table) fun table _ place => ?_
  · exact concludes_tableElement (good.mono fewer) place table
  exact (concludes_expectOp place.step _).bind fun _ _ place => .known (read table place)

end Tables

/-! ### Statements -/

theorem concludes_dropStatement (ready : c.advance.Within k) : Concludes c (dropStatement d) (Leaves k) := by
  refine .position ((concludes_advance ready).bind fun _ _ place => ?_)
  refine (concludes_accept place).bind fun isTable _ place => ?_
  extract_lets -underBinder named
  have read : ∀ object ⦃c⦄, c.Within k → Concludes c (named object) (Leaves k) := by
    refine fun object c place => (concludes_acceptSeq place).bind fun ifExists _ place => ?_
    exact (concludes_qualifiedName place.step _).bind fun name _ place => .pure place
  refine .ite (fun _ => .known (read _ place)) fun _ => ?_
  refine .branch (tries_accept place.step _) (fun _ place => .known (read _ place)) ?_
  exact (Concludes.expected _).bind fun object _ place => read object place

section Statements

variable (good : g.Advances k)

include good

theorem concludes_insertStatement (ready : c.advance.Within k) : Concludes c (insertStatement d g) (Leaves k) := by
  refine .position ((concludes_advance ready).bind fun _ _ place =>
    (concludes_accept place).bind fun overwrite _ place => ?_)
  extract_lets -underBinder target
  have read : ∀ ⦃c⦄, c.Within k → Concludes c (target ()) (Leaves k) := by
    refine fun c place => (concludes_accept place).bind fun _ _ place => ?_
    refine (concludes_qualifiedName place.step _).bind fun table _ place => ?_
    refine (concludes_accept place).bind fun _ _ place => ?_
    refine .extra place (concludes_skipGroup place.step) fun _ place => .get (fun _ => rfl) ?_
    refine .choice (concludes_identList place.step) (.pure place) fun columns _ place => ?_
    refine .branch (tries_acceptAny place.step _) (fun _ place => ?_) ?_
    · refine (concludes_commaList (fun _ fewer _ place => ?_) place).bind fun rows _ place => .pure place
      exact concludes_group (good.mono fewer) place.step
    · exact (good.query.leaves place).bind fun query _ place => .pure place
  refine .ite (fun _ => ?_) fun _ => read place
  exact (concludes_accept place).bind fun found _ place => .guard fun _ => read place

theorem concludes_viewStatement (place : c.Within k) (pos : Position) (orReplace temporary : Bool) :
    Concludes c (viewStatement d g pos orReplace temporary) (Leaves k) := by
  refine (concludes_acceptSeq place).bind fun ifNotExists _ place => ?_
  refine (concludes_qualifiedName place.step _).bind fun name _ place => .curOp ?_
  refine .choice (concludes_identList place.step) (.pure place) fun columns _ place => ?_
  refine (concludes_expect place.step _).bind fun _ _ place => ?_
  exact (good.query.leaves place).bind fun query _ place => .pure place

theorem concludes_createStatement (ready : c.advance.Within k) : Concludes c (createStatement d g) (Leaves k) := by
  refine .position ((concludes_advance ready).bind fun _ _ place => ?_)
  refine (concludes_acceptSeq place).bind fun orReplace _ place => ?_
  refine (concludes_acceptAny place).bind fun _ _ place => ?_
  refine (concludes_acceptAny place).bind fun temporary _ place => ?_
  refine (concludes_accept place).bind fun external _ place => .current ?_
  refine (concludes_acceptAny place).bind fun _ _ place => ?_
  refine .choice (.pure place) (.pure place) fun rowSemantics _ place => ?_
  refine .branch (tries_accept place.step _) (fun _ place => concludes_viewStatement good place ..) ?_
  refine .branch (tries_accept place.step _) (fun _ place => ?_) (.expected _)
  exact (concludes_tableDefinition good place _).bind fun table _ place => .pure place

end Statements

/-- The words of an error do not decide where a reading ends. -/
private theorem Concludes.expecting {α : Type} {p : Parser α} {good : α → Cursor → Prop} (read : Concludes c p good) :
    Concludes c (expectingStatement p) good := by
  refine ⟨fun e => ?_, fun {a next} done => ?_⟩
  · unfold expectingStatement
    rw [read.terminates e]
    cases p c with
    | error fault => cases fault <;> rfl
    | ok r => rfl
  · unfold expectingStatement at done
    cases outcome : p c with
    | error fault => cases fault <;> simp [outcome] at done
    | ok r =>
      rw [outcome] at done
      exact read.ends (outcome.trans done)

section Texts

variable (good : g.Advances (k + 1))

include good

theorem concludes_expressionStatement (place : c.Within (k + 1)) : Concludes c (expressionStatement g) (Leaves k) := by
  refine .current (.guard fun _ => (good.expr _ k (Nat.lt_succ_self k) place).expecting.bind fun e _
    inside => .current ?_)
  refine .ite (fun _ => .pure inside) fun _ => ?_
  split
  · exact .failAt ..
  · exact .expected _

theorem concludes_plainStatement (place : c.Within (k + 1)) : Concludes c (plainStatement d g) (Leaves k) := by
  have inner : g.Advances k := good.mono (Nat.le_succ k)
  refine .get (fun _ => rfl) (.ite (fun _ => ?_) fun _ => ?_)
  · exact (good.query k (Nat.lt_succ_self k) place).bind fun query _ place => .pure place
  refine .ite (fun word => concludes_insertStatement inner (place.ready (solid_of_is word))) fun _ => ?_
  refine .ite (fun word => concludes_createStatement inner (place.ready (solid_of_is word))) fun _ => ?_
  exact concludes_expressionStatement good place

theorem concludes_explainStatement (ready : c.advance.Within k) : Concludes c (explainStatement d g) (Leaves k) := by
  refine .position ((concludes_advance ready).bind fun _ _ place => ?_)
  refine (concludes_loop (fun j below c place mode => .current (.ite (fun _ => ?_) fun word => ?_)) place _).bind
    fun mode _ place => ?_
  · exact .pure place
  · have solid : c.current.isFinish = false := by
      simp only [Bool.or_eq_true, not_or, Bool.not_eq_true, Bool.not_eq_false'] at word
      exact solid_of_isWord word.1
    exact (concludes_advance (place.ready solid)).bind fun _ _ place => .pure place
  · exact (concludes_plainStatement good place.step).bind fun statement _ place => .pure place

theorem concludes_statement (place : c.Within (k + 1)) : Concludes c (statement d g) (Leaves k) := by
  refine .curIs (.ite (fun word => concludes_dropStatement (place.ready (solid_of_is word))) fun _ => ?_)
  refine .curIs (.ite (fun word => concludes_explainStatement good (place.ready (solid_of_is word))) fun _ => ?_)
  exact concludes_plainStatement good place

theorem concludes_oneStatement (place : c.Within (k + 1)) : Concludes c (oneStatement d g) (Leaves k) := by
  refine (concludes_statement good place).bind fun s _ place => (concludes_acceptOp place).bind fun _ _ place => ?_
  exact .atEnd (.guard fun _ => .pure place)

theorem concludes_wholeExpression (place : c.Within (k + 1)) : Concludes c (wholeExpression g) (Leaves k) :=
  (good.expr _ k (Nat.lt_succ_self k) place).bind fun _ _ place => .atEnd (.guard fun _ => .pure place)

theorem concludes_script (place : c.Within (k + 1)) : Concludes c (script d g) (Leaves (k + 1)) := by
  refine (concludes_loop (fun j below c place statements => ?_) place _).bind fun statements _ place => .pure place
  refine (concludes_loop (fun i _ c place _ => ?_) place ()).bind fun _ _ place =>
    .atEnd (.ite (fun _ => .pure place) fun _ => ?_)
  · exact .branch (tries_acceptOp place _) (fun _ place => .pure place) (.pure place)
  · refine (concludes_statement (good.mono below) place).bind fun s _ place =>
      .curOp (.atEnd (.guard fun _ => .pure place))

end Texts

theorem concludes_wholeType (place : c.Within (k + 1)) : Concludes c (wholeType d) (Leaves k) :=
  (concludes_type place d).bind fun _ _ place => .atEnd (.guard fun _ => .pure place)

/-- The sign at the end of a list of elements is taken, or one character of it is. -/
private theorem takeTypeClose_shortens (place : c.Within (k + 1)) (close : TypeClose)
    (closes : closesType close c.current = true) : ∃ next, takeTypeClose close c = .ok ((), next) ∧
    (next.rest.length < c.rest.length ∨ next.rest = c.rest ∧ next.current.text.length < c.current.text.length) := by
  have taken : c.advance.rest.length < c.rest.length := (place.here.ready (solid_of_closesType closes)).short
  cases close with
  | paren => exact ⟨c.advance, rfl, .inl taken⟩
  | angle =>
    by_cases long : c.current.text.length > 1
    · refine ⟨{ c with current := splitToken c.current }, ?_, .inr ⟨rfl, ?_⟩⟩
      · simp only [takeTypeClose, bind_apply, current_apply, ok_bind, if_pos long]
        rfl
      · simp only [splitToken, String.length_ofList, List.length_drop, String.length_toList]
        omega
    · refine ⟨c.advance, ?_, .inl taken⟩
      simp only [takeTypeClose, bind_apply, current_apply, ok_bind, if_neg long, advance_apply]

/-- In every dialect, tokens that end with the end token are read in finitely many steps, be it as a statement, a
script, an expression or a type. Every round of a loop takes a token, but for the last; the sign at the end of a list
of elements is taken or cut short; and the look ahead for a join that finds none leaves the cursor as it was. -/
theorem reading_terminates (d : Dialect) (ended : c.Ended) :
    (Terminates (oneStatement d (grammarFor d c)) c ∧ Terminates (script d (grammarFor d c)) c ∧
      Terminates (wholeExpression (grammarFor d c)) c ∧ Terminates (wholeType d) c) ∧
    (∀ {α : Type} (step : α → Parser (Option α)) (a r : α) (c next : Cursor),
      loop step a c = .ok (r, next) → Rounds step a c r next) ∧
    (∀ close, closesType close c.current = true → ∃ next, takeTypeClose close c = .ok ((), next) ∧
      (next.rest.length < c.rest.length ∨ next.rest = c.rest ∧ next.current.text.length < c.current.text.length)) ∧
    ∀ next, joinKind? c = .ok (none, next) → next = c := by
  have place : c.Within (c.rest.length + 1) := ⟨ended, Nat.lt_succ_self _⟩
  have good : (grammarFor d c).Advances (c.rest.length + 1) := (advances_grammar d _).mono (Nat.le_succ _)
  refine ⟨⟨?_, ?_, ?_, ?_⟩, fun _ _ _ _ _ done => loop_rounds done, takeTypeClose_shortens place, ?_⟩
  · exact (concludes_oneStatement good place).terminates
  · exact (concludes_script good place).terminates
  · exact (concludes_wholeExpression good place).terminates
  · exact (concludes_wholeType place).terminates
  · exact fun next done => (tries_joinKind? place).ends done

/-- Two lists of elements that end with one sign. -/
theorem nested_array_terminates : ∃ c : Cursor,
    (c.current :: c.rest).map Token.text = ["ARRAY", "<", "ARRAY", "<", "INT", ">>", ""] ∧
    c.Ended ∧ Terminates (wholeType Postgres.profile.dialect) c ∧
    (wholeType Postgres.profile.dialect c).toOption.map
    (fun r => (r.1.name, r.1.elems.map TypeSpec.name, r.2.rest.length)) =
      some ("ARRAY", ["ARRAY"], 0) := by
  let named (w : String) : Token := word Postgres.profile.dialect.toLexicon w
  let rest : List Token := [operator "<", named "ARRAY", operator "<", named "INT", operator ">>", finish]
  let c : Cursor := { source := "", current := named "ARRAY", rest }
  have ended : c.Ended := rfl
  exact ⟨c, rfl, ended, (reading_terminates Postgres.profile.dialect ended).1.2.2.2, by decide +kernel⟩

end SqlDialects.Parser
