import SqlDialects.Proofs.Progress
import SqlDialects.Proofs.TypeTokens

/-! Types and expressions come to an end by themselves. -/

namespace SqlDialects.Parser

open Cursor Token

variable {c : Cursor} {j k : Nat}

/-! ### Types -/

section Types

variable {type : Parser TypeSpec} {n : NativeType}

theorem concludes_typeElement (inner : Advances (k + 1) type) (place : c.Within (k + 1)) :
    Concludes c (typeElement type n) (Leaves k) := by
  refine .current ?_
  split
  · next number =>
    refine (concludes_advance (place.ready (solid_of_kind number (by decide)))).bind fun _ _ place => ?_
    exact (concludes_skipWhile place _).bind fun _ _ place => .pure place
  refine .peek ?_
  split
  · next minus =>
    have solid := solid_of_isOp (Bool.and_eq_true_iff.mp minus).1
    refine (concludes_advance (place.ready solid)).bind fun _ _ place => .current ?_
    exact (concludes_advance place.skip).bind fun _ _ place => .pure place
  split
  · next string =>
    exact (concludes_advance (place.ready (solid_of_kind string (by decide)))).bind fun _ _ place => .pure place
  split
  · next greatest => exact (concludes_advance (place.ready (solid_of_is greatest))).bind fun _ _ place => .pure place
  refine .get (fun _ => rfl) ?_
  split
  · next named =>
    have solid : c.current.isFinish = false := by
      obtain word | quoted := Bool.or_eq_true_iff.mp (Bool.and_eq_true_iff.mp named).1
      · exact solid_of_isWord word
      · exact solid_of_isQuoted quoted
    refine (concludes_advance (place.ready solid)).bind fun _ _ place => ?_
    refine (concludes_acceptOp place).bind fun _ _ place => ?_
    refine ((inner.mono (Nat.le_succ k)).leaves place).bind fun fieldType _ place => ?_
    refine (concludes_accept place).bind fun comment _ place => ?_
    exact .extra place (concludes_advance place.skip) fun _ place => .pure place
  · exact (inner k (Nat.lt_succ_self k) place).bind fun arg _ place => .pure place

theorem solid_of_closesType {close : TypeClose} {t : Token} (closes : closesType close t = true) :
    t.isFinish = false := by
  cases close with
  | paren => exact solid_of_isOp closes
  | angle =>
    simp only [closesType, Bool.or_eq_true] at closes
    obtain (mark | mark) | mark := closes <;> exact solid_of_isOp mark

theorem concludes_takeTypeClose (place : c.Within k) {close : TypeClose} (closes : closesType close c.current = true) :
    Concludes c (takeTypeClose close) (Leaves k) := by
  refine .current ?_
  split
  · exact concludes_advance place.skip
  split
  · refine ⟨fun _ => rfl, ?_⟩
    rintro _ _ ⟨⟩
    refine ⟨?_, place.short⟩
    have solid : c.current.isFinish = false := solid_of_closesType closes
    have ended := place.ended
    unfold Ended at ended ⊢
    cases left : c.rest with
    | nil => simp [left, solid] at ended
    | cons t ts =>
      rw [left, List.getLast?_cons, Option.getD_some] at ended
      simpa only [List.getLast?_cons, Option.getD_some] using ended
  · exact concludes_advance place.skip

theorem concludes_typeElements (inner : Advances k type) (place : c.Within k) (close : TypeClose) :
    Concludes c (typeElements type close n) (Leaves k) := by
  refine (concludes_loop (fun j below c place state => .current ?_) place _).bind fun read _ place => .current ?_
  · split
    · exact .pure place
    refine (concludes_typeElement (inner.mono below) place).bind fun n _ place => ?_
    exact (concludes_acceptOp place).bind fun _ _ place => .pure place
  · split
    · next closes => exact (concludes_takeTypeClose place closes).bind fun _ _ place => .pure place
    · exact .expected _

theorem concludes_zoneWords (place : c.Within k) : Concludes c zoneWords (Leaves k) := by
  refine .branch (tries_acceptSeq place.step _ _) (fun _ place => .pure place) ?_
  refine .branch (tries_acceptSeq place.step _ _) (fun _ place => .pure place) ?_
  exact .branch (tries_acceptSeq place.step _ _) (fun _ place => .pure place) (.pure place)

theorem concludes_intervalFields (place : c.Within k) : Concludes c intervalFields (Leaves k) := by
  refine Concludes.bind (concludes_loop (fun j below c place _ => .curAny ?_) place ()) fun _ _ place => .pure place
  split
  · exact .pure place
  · next field =>
    rw [Bool.not_eq_true, Bool.not_eq_false'] at field
    refine (concludes_advance (place.ready (solid_of_any field))).bind fun _ _ place => .curOp ?_
    exact .extra place (concludes_skipGroup place.step) fun _ place => .pure place

private theorem concludes_typeWords (place : c.Within (k + 1)) : Concludes c typeWords (Leaves k) := by
  refine .current (.guard fun known => ?_)
  have solid : c.current.isFinish = false := by
    rw [Bool.not_eq_true, Bool.and_eq_false_iff, Bool.not_eq_false', Bool.not_eq_false'] at known
    obtain word | quoted := known
    · exact solid_of_isWord word
    · exact solid_of_isQuoted quoted
  refine (concludes_advance (place.ready solid)).bind fun _ _ place => .current ?_
  split
  · exact (concludes_advance place.skip).bind fun _ _ place => .pure place
  · exact .pure place

private theorem concludes_typeGroup (inner : Advances k type) (place : c.Within k) (n : NativeType) :
    Concludes c (typeGroup type n) (Leaves k) := by
  refine .branch (tries_acceptOp place.step _) (fun _ place => concludes_typeElements inner place _) ?_
  exact .branch (tries_acceptOp place.step _) (fun _ place => concludes_typeElements inner place _) (.pure place)

private theorem concludes_typeSigns (place : c.Within k) (n : NativeType) : Concludes c (typeSigns n) (Leaves k) := by
  refine .extra place (concludes_intervalFields place) fun _ place =>
    concludes_loop (fun j below c place n => ?_) place n
  refine .branch (tries_accept place _) (fun _ place => .pure place) ?_
  exact .branch (tries_acceptAny place _) (fun _ place => .pure place) (.pure place)

private theorem concludes_typeSuffix (place : c.Within k) (n : NativeType) : Concludes c (typeSuffix n) (Leaves k) := by
  unfold typeSuffix
  split
  · exact (concludes_zoneWords place).bind fun zone _ place => concludes_typeSigns place _
  · exact concludes_typeSigns place n

theorem concludes_nativeType (inner : Advances k type) (place : c.Within (k + 1)) :
    Concludes c (nativeType type) (Leaves k) := by
  rw [nativeType_eq]
  refine (concludes_typeWords place).bind fun n _ place => ?_
  exact (concludes_typeGroup inner place n).bind fun n _ place => concludes_typeSuffix place n

theorem concludes_typeStep {d : Dialect} (inner : Advances k type) (place : c.Within (k + 1)) :
    Concludes c (typeStep d type) (Leaves k) := by
  refine (concludes_nativeType inner place).bind fun n _ place => ?_
  extract_lets arrays
  have brackets : ∀ ⦃c⦄, c.Within k → ∀ t, Concludes c (arrays t) (Leaves k) := by
    refine fun c place t => concludes_loop (fun j below c place t => .curOp (.peekOp ?_)) place t
    split
    · next bracket =>
      have solid := solid_of_isOp (Bool.and_eq_true_iff.mp bracket).1
      refine (concludes_advance (place.ready solid)).bind fun _ _ place => ?_
      exact (concludes_advance place.skip).bind fun _ _ place => .pure place
    · exact .pure place
  split
  · exact Concludes.bind (.within fun _ => place) fun t _ place => brackets place t
  · rw [pure_bind]
    exact brackets place _

end Types

theorem advances_typeAt (d : Dialect) (depth : Nat) : Advances depth (typeAt d depth) := by
  induction depth with
  | zero => exact .zero
  | succ depth ih => exact fun j below c place => concludes_typeStep (ih.mono (Nat.le_of_lt_succ below)) place

theorem concludes_type (place : c.Within (k + 1)) (d : Dialect) : Concludes c (type d) (Leaves k) := by
  refine .get (fun _ => rfl) ?_
  have deep : c.rest.length < c.bound + 1 := Nat.lt_succ_of_lt (Nat.lt_succ_self _)
  exact (advances_typeAt d _ _ deep place.here).weaken (Nat.le_of_lt_succ place.short)

/-! ### Expressions -/

/-- The parsers for the parts take a token wherever fewer than `k` tokens follow the one at hand. -/
structure Grammar.Advances (k : Nat) (g : Grammar) : Prop where
  expr : ∀ level, Parser.Advances k (g.expr level)
  operand : Parser.Advances k g.operand
  query : Parser.Advances k g.query
  tables : Parser.Advances k g.tables

theorem Grammar.Advances.mono {g : Grammar} (good : g.Advances k) (fewer : j ≤ k) : g.Advances j :=
  ⟨fun level => (good.expr level).mono fewer, good.operand.mono fewer, good.query.mono fewer, good.tables.mono fewer⟩

theorem Grammar.Advances.inside {g : Grammar} (good : g.Advances k) (below : j < k) : g.Advances j :=
  good.mono (Nat.le_of_lt below)

section Expressions

variable {d : Dialect} {g : Grammar} (good : g.Advances k)

include good

theorem concludes_value (place : c.Within k) : Concludes c g.value (Leaves k) := (good.expr _).leaves place

theorem concludes_values (place : c.Within k) : Concludes c g.values (Leaves k) :=
  concludes_commaList (fun _ fewer _ place => concludes_value (good.mono fewer) place) place

theorem concludes_group (place : c.Within (k + 1)) : Concludes c g.group (Leaves k) := by
  refine (concludes_expectOp place _).bind fun _ _ place => ?_
  refine .branch (tries_acceptOp place.step _) (fun _ place => .pure place) ?_
  refine (concludes_values good place).bind fun list _ place => ?_
  exact (concludes_expectOp place.step _).bind fun _ _ place => .pure place

omit good in
theorem solid_of_infixOp {t : Token} {op : InfixOp} (read : infixOp? d t = some op) : t.isFinish = false := by
  unfold infixOp? at read
  split at read
  · next operator => exact solid_of_kind operator (by decide)
  · split at read
    · next word => exact solid_of_isWord word
    · cases read

theorem concludes_negatableTail (place : c.Within (k + 1)) (left : Expr) (pos : Position) (negated : Bool) :
    Concludes c (negatableTail d g left pos negated) (Leaves k) := by
  refine .branch (tries_accept place _) (fun _ place => ?_)
    (.branch (tries_accept place _) (fun _ place => ?_) (.current ?_))
  · refine (concludes_expectOp place.step _).bind fun _ _ place => .curAny ?_
    split
    · refine (good.query.leaves place).bind fun query _ place => ?_
      exact (concludes_expectOp place.step _).bind fun _ _ place => .pure place
    · refine (concludes_values good place).bind fun members _ place => ?_
      exact (concludes_expectOp place.step _).bind fun _ _ place => .pure place
  · refine ((good.expr _).leaves place).bind fun low _ place => ?_
    refine (concludes_expect place.step _).bind fun _ _ place => ?_
    exact ((good.expr _).leaves place).bind fun high _ place => .pure place
  · split
    · exact .expected _
    · next op read =>
      refine (concludes_advance (place.ready (solid_of_infixOp read))).bind fun _ _ place => ?_
      exact ((good.expr _).leaves place).bind fun right _ place => .pure place

theorem concludes_isTail (ready : c.advance.Within k) (left : Expr) : Concludes c (isTail g left) (Leaves k) := by
  refine .position ((concludes_advance ready).bind fun _ _ place => ?_)
  refine (concludes_accept place).bind fun negated _ place => ?_
  refine .branch (tries_accept place.step _) (fun _ place => ?_) (.current (.guard fun _ => ?_))
  · refine (concludes_expect place.step _).bind fun _ _ place => ?_
    exact ((good.expr _).leaves place).bind fun right _ place => .pure place
  · exact (concludes_advance place.skip).bind fun _ _ place => .pure place

omit good in
theorem solid_of_infixPrecedence (binds : Prec.lowest < infixPrecedence d c) : c.current.isFinish = false := by
  by_contra ended
  rw [Bool.not_eq_false] at ended
  have kind : c.current.kind = .finish := by simpa [isFinish] using ended
  have low : infixPrecedence d c = 0 := by
    simp [infixPrecedence, Token.isOp, Token.is, Token.isWord, kind, infixOp?, Prec.lowest]
  exact absurd low (Nat.ne_of_gt binds)

theorem concludes_infixTail (place : c.Within (k + 1)) {prec : Nat} (solid : c.current.isFinish = false) (left : Expr) :
    Concludes c (infixTail d g left prec) (Leaves k) := by
  refine (concludes_accept_ready place (place.ready solid) _).bind fun _ _ ready => .position ?_
  have place := ready.back
  refine .branch (tries_acceptOp place _) (fun _ place => ?_) ?_
  · refine (concludes_value good place).bind fun index _ place => ?_
    exact (concludes_expectOp place.step _).bind fun _ _ place => .pure place
  refine .branch (tries_acceptOp place _) (fun _ place => ?_) ?_
  · exact (concludes_type place.step d).bind fun target _ place => .pure place
  refine .curIs (.ite (fun _ => concludes_isTail good ready left) fun _ => ?_)
  refine .branch (tries_accept place _) (fun _ place => concludes_negatableTail good place.step ..) ?_
  refine .curAny (.ite (fun _ => concludes_negatableTail good place ..) fun _ => ?_)
  refine .current ((concludes_advance ready).bind fun _ _ place => ?_)
  exact ((good.expr _).leaves place).bind fun right _ place => .pure place

theorem concludes_negation (place : c.Within k) (pos : Position) : Concludes c (negation g pos) (Leaves k) := by
  refine ((good.expr _).leaves place).bind fun operand _ place => ?_
  split <;> exact .pure place

theorem concludes_orderItems (place : c.Within k) : Concludes c (orderItems g) (Leaves k) := by
  refine concludes_commaList (fun j fewer c place => ?_) place
  refine (concludes_value (good.mono fewer) place).bind fun e _ place => ?_
  refine (concludes_accept place).bind fun descending _ place => ?_
  refine .extra place (concludes_accept place) fun _ place => ?_
  refine .branch (tries_accept place.step _) (fun _ place => .curIs ?_) (.pure place)
  exact (concludes_acceptAny place).bind fun found _ place => .guard fun _ => .pure place

theorem concludes_orderClause (place : c.Within (k + 1)) : Concludes c (orderClause g) (Leaves k) := by
  refine (concludes_expect place _).bind fun _ _ place => (concludes_expect place.step _).bind fun _ _ place => ?_
  exact concludes_orderItems good place

/-! ### Words with a syntax of their own -/

theorem concludes_caseExpr (ready : c.advance.Within k) : Concludes c (caseExpr g) (Leaves k) := by
  refine .position ((concludes_advance ready).bind fun _ _ place => .curIs ?_)
  refine .choice (.pure place) (concludes_value good place).some fun operand _ place => ?_
  refine (concludes_loop (fun j below c place list => ?_) place _).bind fun list _ place => .guard fun _ => ?_
  · refine .otherwise (tries_accept place _) (.pure place) fun _ place => ?_
    refine (concludes_value (good.inside below) place).bind fun condition _ place => ?_
    refine (concludes_expect place.step _).bind fun _ _ place => ?_
    exact (concludes_value (good.inside below) place).bind fun result _ place => .pure place
  · refine .option (tries_accept place.step _) place (fun _ place => concludes_value good place)
      fun otherwise _ place => ?_
    exact (concludes_expect place.step _).bind fun _ _ place => .pure place

theorem concludes_castCall (ready : c.advance.Within k) : Concludes c (castCall d g) (Leaves k) := by
  refine .current ((concludes_advance ready).bind fun _ _ place =>
    (concludes_advance place.skip).bind fun _ _ place => ?_)
  refine (concludes_value good place).bind fun operand _ place =>
    (concludes_expect place.step _).bind fun _ _ place => ?_
  refine (concludes_type place.step d).bind fun target _ place => ?_
  refine .otherwise (tries_accept place.step _) ?_ fun _ place => .current (.guard fun _ => ?_)
  · exact (concludes_expectOp place.step _).bind fun _ _ place => .pure place
  refine (concludes_advance place.skip).bind fun _ _ place => (concludes_expectOp place.step _).bind fun _ _ place => ?_
  split
  · exact .pure place
  split <;> exact .pure place

theorem concludes_intervalExpr (ready : c.advance.Within k) : Concludes c (intervalExpr g) (Leaves k) := by
  refine .position ((concludes_advance ready).bind fun _ _ place => .current ?_)
  extract_lets unitAfter
  have read : ∀ value ⦃c⦄, c.Within k → Concludes c (unitAfter value) (Leaves k) := by
    refine fun value c place => .current ?_
    split
    · split
      · exact (concludes_advance place.skip).bind fun _ _ place => .pure place
      · exact .expected _
    · exact .expected _
  split
  · refine (concludes_advance place.skip).bind fun _ _ place => ?_
    split
    · split
      · exact .pure place
      · exact .failAt ..
    · exact read _ place
    · exact .failAt ..
  · exact (good.operand.leaves place).bind fun value _ place => read value place

theorem concludes_extractCall (ready : c.advance.Within k) : Concludes c (extractCall g) (Leaves k) := by
  refine .position ((concludes_advance ready).bind fun _ _ place =>
    (concludes_advance place.skip).bind fun _ _ place => ?_)
  refine .current (.guard fun _ => (concludes_advance place.skip).bind fun _ _ place => ?_)
  refine (concludes_expect place.step _).bind fun _ _ place =>
    (concludes_value good place).bind fun operand _ place => ?_
  exact (concludes_expectOp place.step _).bind fun _ _ place => .pure place

theorem concludes_trimCall (ready : c.advance.Within k) : Concludes c (trimCall g) (Leaves k) := by
  refine .position ((concludes_advance ready).bind fun _ _ place =>
    (concludes_advance place.skip).bind fun _ _ place => ?_)
  refine (concludes_accept place).bind fun leading _ place => ?_
  extract_lets -underBinder operands
  have texts : ∀ name ⦃c⦄, c.Within k → Concludes c (operands name) (Leaves k) := by
    refine fun name c place => .curIs (.choice (.pure place) (concludes_value good place).some fun first _ place => ?_)
    refine (concludes_accept place).bind fun fromText _ place => ?_
    extract_lets last
    have closes : ∀ args ⦃c⦄, c.Within k → Concludes c (last args) (Leaves k) :=
      fun args c place => (concludes_expectOp place.step _).bind fun _ _ place => .pure place
    split
    · exact (concludes_value good place).bind fun text _ place => .known (closes _ place)
    · refine .branch (tries_acceptOp place.step _) (fun _ place => ?_) (.known (closes _ place))
      exact (concludes_value good place).bind fun chars _ place => .known (closes _ place)
  split
  · exact .known (texts _ place)
  · refine .branch (tries_accept place.step _) (fun _ place => .known (texts _ place)) ?_
    exact (concludes_accept place).bind fun _ _ place => .known (texts _ place)

theorem concludes_substringFrom (ready : c.advance.Within k) : Concludes c (substringFrom g) (Leaves k) := by
  refine .position ((concludes_advance ready).bind fun _ _ place =>
    (concludes_advance place.skip).bind fun _ _ place => ?_)
  refine (concludes_value good place).bind fun text _ place => (concludes_expect place.step _).bind fun _ _ place => ?_
  refine (concludes_value good place).bind fun start _ place => ?_
  refine .option (tries_accept place.step _) place (fun _ place => concludes_value good place) fun length _ place => ?_
  exact (concludes_expectOp place.step _).bind fun _ _ place => .pure place

theorem concludes_positionIn (ready : c.advance.Within k) : Concludes c (positionIn g) (Leaves k) := by
  refine .position ((concludes_advance ready).bind fun _ _ place =>
    (concludes_advance place.skip).bind fun _ _ place => ?_)
  refine ((good.expr _).leaves place).bind fun needle _ place =>
    (concludes_expect place.step _).bind fun _ _ place => ?_
  refine (concludes_value good place).bind fun haystack _ place => ?_
  exact (concludes_expectOp place.step _).bind fun _ _ place => .pure place

/-! ### Calls -/

theorem concludes_callArgs (place : c.Within k) : Concludes c (callArgs g) (Leaves k) := by
  refine .curOp ?_
  split
  · exact .pure place
  refine concludes_commaList (fun j fewer c place => .get (fun _ => rfl) ?_) place
  split
  · exact (concludes_advance place.skip).bind fun _ _ place => .pure place
  · exact concludes_value (good.mono fewer) place

omit good in
theorem concludes_resolveCall (place : c.Within k) (f : Call) (spelling : String) :
    Concludes c (resolveCall d f spelling) (Leaves k) := by
  unfold resolveCall
  split
  · exact .pure place
  split
  · exact .pure place
  split
  · exact .failAt ..
  extract_lets named
  split
  · exact .pure place
  · exact .within fun _ => place

theorem concludes_frameBound (place : c.Within k) : Concludes c (frameBound g) (Leaves k) := by
  refine .branch (tries_acceptSeq place.step _ _) (fun _ place => .pure place) ?_
  refine .branch (tries_acceptSeq place.step _ _) (fun _ place => .pure place) ?_
  refine .branch (tries_acceptSeq place.step _ _) (fun _ place => .pure place) ?_
  refine ((good.expr _).leaves place).bind fun offset _ place => ?_
  refine .branch (tries_accept place.step _) (fun _ place => .pure place) ?_
  exact .branch (tries_accept place.step _) (fun _ place => .pure place) (.expected _)

theorem concludes_windowFrame (place : c.Within k) : Concludes c (windowFrame g) (Leaves k) := by
  refine .current ((concludes_advance place.skip).bind fun _ _ place => ?_)
  refine .branch (tries_accept place.step _) (fun _ place => ?_) ?_
  · refine (concludes_frameBound good place).bind fun first _ place => ?_
    refine (concludes_expect place.step _).bind fun _ _ place => ?_
    exact (concludes_frameBound good place).bind fun last _ place => .pure place
  · exact (concludes_frameBound good place).bind fun first _ place => .pure place

theorem concludes_windowTail (place : c.Within k) (function : Expr) :
    Concludes c (windowTail g function) (Leaves k) := by
  refine .position ((concludes_advance place.skip).bind fun _ _ place => ?_)
  refine (concludes_expectOp place.step _).bind fun _ _ place => ?_
  refine (concludes_accept place).bind fun partitioned _ place => ?_
  extract_lets -underBinder ordered
  have read : ∀ partitionBy ⦃c⦄, c.Within k → Concludes c (ordered partitionBy) (Leaves k) := by
    refine fun partitionBy c place => .curIs ?_
    refine .choice (concludes_orderClause good place.step) (.pure place) fun orderBy _ place => ?_
    refine .curAny (.choice (concludes_windowFrame good place).some (.pure place) fun frame _ place => ?_)
    exact (concludes_expectOp place.step _).bind fun _ _ place => .pure place
  split
  · refine (concludes_expect place.step _).bind fun _ _ place => ?_
    exact (concludes_values good place).bind fun partitionBy _ place => read partitionBy place
  · exact .known (read [] place)

theorem concludes_argsTail (place : c.Within k) (f : Call) : Concludes c (argsTail g f) (Leaves k) := by
  refine .curIs (.choice (concludes_orderClause good place.step) (.pure place) fun orderBy _ place => ?_)
  refine .branch (tries_accept place.step _) (fun _ place => ?_) (.pure place)
  exact (good.operand.leaves place).bind fun separator _ place => .pure place

theorem concludes_callTail (place : c.Within k) (f : Call) : Concludes c (callTail g f) (Leaves k) := by
  refine (concludes_acceptOp place).bind fun opened _ place => ?_
  -- The stages from the last one back: the nulls, the filter and the order of the group.
  extract_lets nulls filters orders
  have nulled : ∀ f ⦃c⦄, c.Within k → Concludes c (nulls () f) (Leaves k) := by
    refine fun f c place => (concludes_acceptSeq place).bind fun ignored _ place => ?_
    exact .extra place (concludes_acceptSeq place) fun _ place => .pure place
  have filtered : ∀ f ⦃c⦄, c.Within k → Concludes c (filters () f) (Leaves k) := by
    refine fun f c place => .curIs (.peekOp (.ite (fun _ => ?_) fun _ => nulled f place))
    refine (concludes_advance place.skip).bind fun _ _ place => (concludes_advance place.skip).bind fun _ _ place => ?_
    refine (concludes_expect place.step _).bind fun _ _ place => ?_
    refine (concludes_value good place).bind fun condition _ place => ?_
    exact (concludes_expectOp place.step _).bind fun _ _ place => nulled _ place
  have ordered : ∀ f ⦃c⦄, c.Within k → Concludes c (orders () f) (Leaves k) := by
    refine fun f c place => .branch (tries_acceptSeq place.step _ _) (fun _ place => ?_) (filtered f place)
    refine (concludes_expectOp place.step _).bind fun _ _ place => ?_
    refine (concludes_orderClause good place.step).bind fun _ _ place => ?_
    exact (concludes_expectOp place.step _).bind fun _ _ place => filtered _ place
  split
  · refine (concludes_callArgs good place).bind fun args _ place => ?_
    exact (concludes_expectOp place.step _).bind fun _ _ place => ordered _ place
  · exact ordered f place

theorem concludes_functionCall (place : c.Within k) (pos : Position) (name : String) :
    Concludes c (functionCall d g pos name) (Leaves k) := by
  refine (concludes_expectOp place.step _).bind fun _ _ place =>
    (concludes_accept place).bind fun distinct _ place => ?_
  extract_lets start closes
  have read : ∀ f ⦃c⦄, c.Within k → Concludes c (closes () f) (Leaves k) := by
    refine fun f c place => (concludes_expectOp place.step _).bind fun _ _ place => ?_
    refine (concludes_callTail good place f).bind fun f _ place => ?_
    refine (concludes_resolveCall place f name).bind fun e _ place => ?_
    exact .curIs (.ite (fun _ => concludes_windowTail good place e) fun _ => .pure place)
  refine .curOp (.ite (fun _ => ?_) fun _ => read start place)
  refine (concludes_callArgs good place).bind fun args _ place => ?_
  exact (concludes_argsTail good place _).bind fun f _ place => read f place

/-! ### Operands -/

omit good in
theorem concludes_pathStep (place : c.Within (k + 1)) (state : List Ident × Bool) :
    Concludes c (pathStep state) (Round k) := by
  refine .ite (fun _ => .pure place) fun _ => ?_
  refine .branch (tries_acceptOp place _) (fun _ place => ?_) (.get (fun _ => rfl) ?_)
  · refine .branch (tries_acceptOp place.step _) (fun _ place => .pure place) ?_
    exact (concludes_anyIdent place.step).bind fun id _ place => .pure place
  · refine .ite (fun numbered => ?_) fun _ => .pure place
    simp only [Bool.and_eq_true, decide_eq_true_eq] at numbered
    exact (concludes_advance (place.ready (solid_of_kind numbered.1.1 (by decide)))).bind fun _ _ place => .pure place

theorem concludes_columnExpr (place : c.Within (k + 1)) : Concludes c (columnExpr d g) (Leaves k) := by
  refine .position ((concludes_anyIdent place).bind fun first _ place => ?_)
  refine (concludes_loop (fun j below c place state => concludes_pathStep place state) place _).bind
    fun path _ place => ?_
  refine .ite (fun _ => .pure place) fun _ => .curOp (.ite (fun _ => ?_) fun _ => .pure place)
  exact concludes_functionCall good place ..

theorem concludes_lambdaBody (place : c.Within (k + 1)) (pos : Position) (params : List Ident) :
    Concludes c (lambdaBody g pos params) (Leaves k) := by
  refine (concludes_expectOp place _).bind fun _ _ place => ?_
  exact (concludes_value good place).bind fun body _ place => .pure place

theorem concludes_parenthesized (ready : c.advance.Within k) : Concludes c (parenthesized d g) (Leaves k) := by
  refine .position (.get (fun _ => rfl) ((concludes_advance ready).bind fun _ _ place => ?_))
  split
  · refine (good.query.leaves place).bind fun query _ place => ?_
    exact (concludes_expectOp place.step _).bind fun _ _ place => .pure place
  split
  · refine (concludes_commaList (fun _ _ _ place => concludes_anyIdent place.step) place).bind fun params _ place => ?_
    refine (concludes_expectOp place.step _).bind fun _ _ place => concludes_lambdaBody good place.step ..
  refine (concludes_values good place).bind fun values _ inside => ?_
  refine (concludes_expectOp inside.step _).bind fun _ _ place => ?_
  split <;> exact .pure place

theorem concludes_arrayElems (place : c.Within k) (pos : Position) : Concludes c (arrayElems g pos) (Leaves k) := by
  refine .branch (tries_acceptOp place.step _) (fun _ place => .pure place) ?_
  refine (concludes_values good place).bind fun elems _ place => ?_
  exact (concludes_expectOp place.step _).bind fun _ _ place => .pure place

theorem concludes_mapBraces (ready : c.advance.Within k) : Concludes c (mapBraces g) (Leaves k) := by
  refine .position ((concludes_advance ready).bind fun _ _ place => ?_)
  refine (concludes_loop (fun j below c place state => .curOp ?_) place _).bind fun pairs _ place => ?_
  · split
    · exact .pure place
    refine (good.expr _ j below place).bind fun key _ place =>
      (concludes_expectOp place.step _).bind fun _ _ place => ?_
    refine (concludes_value (good.inside below) place).bind fun value _ place => ?_
    exact (concludes_acceptOp place).bind fun _ _ place => .pure place
  · exact (concludes_expectOp place.step _).bind fun _ _ place => .pure place

theorem tries_specialWord (place : c.Within (k + 1)) (solid : c.current.isFinish = false) :
    Concludes c (specialWord d g) fun read => Tries c k read.isSome := by
  have ready := place.ready solid
  have found : ∀ {p : Parser Expr} ⦃c'⦄, Concludes c' p (Leaves k) →
      Concludes c' (some <$> p) fun read => Tries c k read.isSome := fun read => read.map fun _ _ place => place
  refine .get (fun _ => rfl) ?_
  extract_lets t called
  split
  · exact (concludes_advance ready).bind fun _ _ place => .pure place
  · exact (concludes_advance ready).bind fun _ _ place => .pure place
  · exact (concludes_advance ready).bind fun _ _ place => .pure place
  · exact (concludes_advance ready).bind fun _ _ place => found (concludes_negation good place _)
  · exact found (concludes_caseExpr good ready)
  · exact found (concludes_intervalExpr good ready)
  · exact .ite (fun _ => found (concludes_castCall good ready)) fun _ => .pure rfl
  · exact .ite (fun _ => found (concludes_castCall good ready)) fun _ => .pure rfl
  · exact .ite (fun _ => found (concludes_castCall good ready)) fun _ => .pure rfl
  · refine .ite (fun _ => .pure rfl) fun _ => (concludes_advance ready).bind fun _ _ place => ?_
    refine (concludes_advance place.skip).bind fun _ _ place => (good.query.leaves place).bind fun query _ place => ?_
    exact (concludes_expectOp place.step _).bind fun _ _ place => .pure place
  · exact .ite (fun _ => found (concludes_extractCall good ready)) fun _ => .pure rfl
  · refine .ite (fun _ => .pure rfl) fun _ => (concludes_advance ready).bind fun _ _ place => ?_
    exact (concludes_advance place.skip).bind fun _ _ place => found (concludes_arrayElems good place _)
  · exact .ite (fun _ => found (concludes_trimCall good ready)) fun _ => .pure rfl
  · exact .ite (fun _ => found (concludes_substringFrom good ready)) fun _ => .pure rfl
  · exact .ite (fun _ => found (concludes_substringFrom good ready)) fun _ => .pure rfl
  · exact .ite (fun _ => found (concludes_positionIn good ready)) fun _ => .pure rfl
  · exact .pure rfl

theorem concludes_wordExpr (place : c.Within (k + 1)) (solid : c.current.isFinish = false) :
    Concludes c (wordExpr d g) (Leaves k) := by
  have ready := place.ready solid
  refine .find (tries_specialWord good place solid) (fun e _ place => .pure place) (.get (fun _ => rfl) ?_)
  refine .ite (fun _ => ?_) fun _ => ?_
  · exact (concludes_advance ready).bind fun _ _ place => concludes_functionCall good place ..
  -- What is no literal of a type is a function without arguments, a parameter of a lambda or a column.
  extract_lets column others
  have read : Concludes c (others ()) (Leaves k) := by
    unfold others
    split
    · exact (concludes_advance ready).bind fun _ _ place => .pure place
    refine .ite (fun _ => ?_) fun _ => .guard fun _ => concludes_columnExpr good place
    exact (concludes_anyIdent place).bind fun param _ place => concludes_lambdaBody good place.step ..
  refine .ite (fun _ => ?_) fun _ => read
  split
  · refine (Concludes.lift fun _ => ready).bind fun target _ ready => (concludes_advance ready).bind fun _ _ place => ?_
    exact (concludes_advance place.skip).bind fun _ _ place => .pure place
  · exact read

theorem concludes_operandStep (place : c.Within (k + 1)) : Concludes c (operandStep d g) (Leaves k) := by
  have ready {op : String} (mark : c.current.isOp op = true) := place.ready (solid_of_isOp mark)
  refine .current ?_
  split
  · next kind =>
    exact (concludes_advance (place.ready (solid_of_kind kind (by decide)))).bind fun _ _ place => .pure place
  · next kind =>
    exact (concludes_advance (place.ready (solid_of_kind kind (by decide)))).bind fun _ _ place => .pure place
  · next kind =>
    exact (concludes_advance (place.ready (solid_of_kind kind (by decide)))).bind fun _ _ place => .pure place
  · exact concludes_columnExpr good place
  · next kind => exact concludes_wordExpr good place (solid_of_kind kind (by decide))
  · next kind => exact concludes_wordExpr good place (solid_of_kind kind (by decide))
  · refine .ite (fun mark => concludes_parenthesized good (ready mark)) fun _ => ?_
    refine .ite (fun mark => (concludes_advance (ready mark)).bind fun _ _ place => ?_) fun _ => ?_
    · exact concludes_arrayElems good place _
    refine .ite (fun mark => concludes_mapBraces good (ready mark)) fun _ => ?_
    refine .ite (fun mark => (concludes_advance (ready mark)).bind fun _ _ place => ?_) fun _ => ?_
    · exact ((good.expr _).leaves place).bind fun e _ place => .pure place
    refine .ite (fun mark => (concludes_advance (ready mark)).bind fun _ _ place =>
      (good.expr _).leaves place) fun _ => ?_
    refine .ite (fun mark => (concludes_advance (ready mark)).bind fun _ _ place => ?_) fun _ => ?_
    · exact ((good.expr _).leaves place).bind fun e _ place => .pure place
    refine .ite (fun mark => (concludes_advance (ready mark)).bind fun _ _ place => ?_) fun _ => ?_
    · exact concludes_negation good place _
    exact .ite (fun mark => (concludes_advance (ready mark)).bind fun _ _ place => .pure place) fun _ => .expected _

theorem concludes_exprStep (place : c.Within (k + 1)) (level : Nat) : Concludes c (exprStep d g level) (Leaves k) := by
  refine (concludes_operandStep good place).bind fun first _ place => ?_
  refine concludes_loop (fun j below c place left =>
    .get (fun _ => rfl) (.ite (fun _ => ?_) fun binds => ?_)) place first
  · exact .pure place
  have solid : c.current.isFinish = false :=
    solid_of_infixPrecedence (Nat.lt_of_le_of_lt (Nat.zero_le level) (Nat.not_le.mp binds))
  exact (concludes_infixTail (good.inside below) place solid left).bind fun e _ place => .pure place

end Expressions

end SqlDialects.Parser
