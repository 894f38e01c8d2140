import SqlDialects.Parser.Query
import SqlDialects.Proofs.Blame

/-! Expressions and queries blame what stands in the text. A dialect adds the errors of its types, which blame the
type, and those of its functions, which blame the call or an argument of it. -/

namespace SqlDialects

open SqlDialects.Parser

/-- The rule blames the type that it is given. -/
def TypeRule.Blames (rule : TypeRule) : Prop := ∀ ⦃n e⦄, rule n = .error (.parse e) → e.source = "" ∧ e.pos = n.pos

/-- The error stands in the text, whose name it has not yet, or in another one that it names. -/
def Ground.Faults (s : Ground) (e : ParseError) : Prop :=
  e.source = "" ∧ s.place e.pos ∨ e.source ≠ "" ∧ s.foreign e.source e.pos

/-- What a call is answered with can be blamed, and so is what the answer blames itself. -/
structure Ground.Answers (s : Ground) (outcome : Except Error Expr) : Prop where
  makes : ∀ ⦃e⦄, outcome = .ok e → s.Rooted e
  blames : ∀ ⦃e⦄, outcome = .error (.parse e) → s.Faults e

/-- The step answers calls that can be blamed. -/
def Reshape.Locates (s : Ground) (reshape : Reshape) : Prop := ∀ ⦃f⦄, s.Called f → s.Answers (reshape f)

/-- The rules for types blame the type that they are given. -/
class Dialect.BlamesTypes (d : Dialect) : Prop where
  rules : ∀ ⦃name rule⦄, d.types.find? name = some rule → TypeRule.Blames rule

/-- The steps that reshape calls blame what stands in the text. An error that has no source may be passed on as it is.
-/
class Dialect.BlamesCalls (s : Ground) (d : Dialect) : Prop extends d.BlamesTypes where
  calls : ∀ ⦃name rule⦄, d.function? name = some rule → ∀ reshape ∈ rule.reshape, Reshape.Locates s reshape
  bare : s.source ""

/-- The parsers for the parts blame what stands in the text. -/
class Parser.Grammar.On (s : Ground) (g : Grammar) : Prop where
  expr : ∀ level, Locates s s.Rooted (g.expr level)
  operand : Locates s s.Rooted g.operand
  query : Located s g.query
  tables : Located s g.tables

namespace Parser

-- A parser of many parts takes an instance for each of them.
set_option synthInstance.maxSize 1024

variable {s : Ground} {d : Dialect}

/-! ### Types -/

section Types

variable {type : Parser TypeSpec} [Located s type] {n : NativeType}

/-- The name of a type has a place of its own, and the type is blamed there. -/
abbrev Placed (s : Ground) (n : NativeType) : Prop := s.place n.pos

/-- A sign that closes two lists is one character when its first is taken, and closes no third. -/
private theorem holds_splitToken {t : Token} (held : s.Holds t)
    (closes : closesType .angle t = true) (long : 1 < t.text.length) :
    s.Holds (splitToken t) := by
  refine ⟨held.rest closes long, by rintro ⟨⟩, by rintro ⟨⟩, fun _ longer => ?_⟩
  have known : t.text ∈ [">", ">>", ">="] := by
    simp only [closesType, Token.isOp, Bool.or_eq_true, Bool.and_eq_true, beq_iff_eq] at closes
    obtain (⟨_, same⟩ | ⟨_, same⟩) | ⟨_, same⟩ := closes <;> simp [same]
  have short : ∀ text ∈ [">", ">>", ">="], ¬1 < (String.ofList (text.toList.drop 1)).length := by decide
  exact absurd longer (short _ known)

private theorem locates_closing (close : TypeClose) (placed : Placed s n) : Locates s (Placed s) (do
    if closesType close (← current) then
      takeTypeClose close
      return n
    expected (Text.quote close.text)) := by
  -- What closes the list is split where it stands, so the cursor is followed through the step.
  refine ⟨fun c m next on done => ?_, fun c e on failed => ?_⟩
  · obtain ⟨t, _, ⟨⟩, done⟩ := bind_eq_ok done
    split at done
    · next closes =>
      obtain ⟨_, middle, taken, done⟩ := bind_eq_ok done
      cases done
      refine ⟨?_, placed⟩
      cases close with
      | paren =>
        cases taken
        exact on.advance
      | angle =>
        obtain ⟨t, _, ⟨⟩, taken⟩ := bind_eq_ok taken
        dsimp only at taken
        split at taken
        · next long =>
          cases taken
          exact ⟨on.source, List.forall_mem_cons.mpr ⟨holds_splitToken on.current closes long,
            fun t member => on.tokens t (List.mem_cons_of_mem _ member)⟩, on.halt⟩
        · cases taken
          exact on.advance
    · cases done
  · rw [bind_apply, current_apply, ok_bind] at failed
    dsimp only at failed
    split at failed
    · cases close with
      | paren => cases failed
      | angle =>
        rw [bind_apply, takeTypeClose, bind_apply, current_apply, ok_bind] at failed
        dsimp only at failed
        split at failed <;> cases failed
    · cases failed
      exact on.blames _ _

theorem locates_typeElement (placed : Placed s n) : Locates s (Placed s) (typeElement type n) := by
  refine .skip fun t => .ite (.skip fun _ => .skip fun _ => .pure placed) (.skip fun next => .ite ?_ ?_)
  · exact .skip fun _ => .skip fun number => .skip fun _ => .pure placed
  refine .ite (.skip fun _ => .pure placed) (.ite (.skip fun _ => .pure placed) (.skip fun c => .ite ?_ ?_))
  · exact .skip fun _ => .skip fun _ => .skip fun field => .skip fun commented =>
      .ite (.skip fun _ => .pure placed) (.pure placed)
  · exact .skip fun arg => .pure placed

theorem locates_typeElements (close : TypeClose) (placed : Placed s n) :
    Locates s (Placed s) (typeElements type close n) := by
  refine .rounds (fun state : NativeType × Bool => Placed s state.1) placed (fun state kept => ?_) fun state kept => ?_
  · refine .skip fun t => .ite .none ((locates_typeElement kept).bind fun n held => .skip fun comma => ?_)
    exact .found held
  · exact locates_closing close kept

instance located_zoneWords : Located s zoneWords := by
  unfold zoneWords
  infer_instance

instance located_intervalFields : Located s intervalFields := by
  unfold intervalFields
  infer_instance

private theorem locates_typeWords : Locates s (Placed s) typeWords := by
  refine .current fun t held => .guard fun _ => ?_
  refine .skip fun _ => .skip fun next => ?_
  split
  · exact .skip fun _ => .pure held.place
  · exact .pure held.place

private theorem locates_typeSuffix (placed : Placed s n) : Locates s (Placed s) (typeSuffix n) := by
  have signs {n : NativeType} (placed : Placed s n) : Locates s (Placed s) (typeSigns n) := by
    refine .extra (.loop placed fun n kept => ?_)
    exact .branch (.found kept) (.branch (.found kept) .none)
  exact .ite (.skip fun zone => signs placed) (signs placed)

theorem locates_nativeType : Locates s (Placed s) (nativeType type) := by
  rw [nativeType_eq]
  refine locates_typeWords.bind fun n placed => Locates.bind (?_ : Locates s (Placed s) _) fun n placed =>
    locates_typeSuffix placed
  exact .branch (locates_typeElements _ placed) (.branch (locates_typeElements _ placed) (.pure placed))

instance located_typeStep [d.BlamesTypes] : Located s (typeStep d type) := by
  refine ⟨locates_nativeType.bind fun n placed => ?_⟩
  split
  · next rule found =>
    refine Locates.bind (.within (fun _ _ => trivial) fun e failed => ?_ : Locates s (fun _ => True) _) fun t _ => ?_
    · obtain ⟨bare, same⟩ := Dialect.BlamesTypes.rules found failed
      exact .inl ⟨bare, same ▸ placed⟩
    · exact Located.locates
  · exact Located.locates

instance located_typeAt [d.BlamesTypes] (depth : Nat) : Located s (typeAt d depth) := by
  induction depth with
  | zero => exact located_stall
  | succ depth ih => exact located_typeStep

instance located_type [d.BlamesTypes] : Located s (Parser.type d) := by
  unfold Parser.type
  infer_instance

instance located_wholeType [d.BlamesTypes] : Located s (wholeType d) := by
  unfold wholeType
  infer_instance

end Types

/-! ### Parts of expressions -/

section Expressions

variable {g : Grammar} [on : g.On s] {pos : Position} {left : Expr} {f : Call}

instance located_expr (level : Nat) : Located s (g.expr level) := (on.expr level).located

instance located_operand : Located s g.operand := on.operand.located

instance located_query : Located s g.query := on.query

instance located_tables : Located s g.tables := on.tables

instance located_value : Located s g.value := located_expr _

instance located_values : Located s g.values := by
  unfold Grammar.values
  infer_instance

instance located_group : Located s g.group := by
  unfold Grammar.group
  infer_instance

/-- Expressions that can be blamed. -/
abbrev EachRooted (s : Ground) (es : List Expr) : Prop := ∀ e ∈ es, s.Rooted e

theorem locates_value : Locates s s.Rooted g.value := on.expr _

theorem locates_values : Locates s (EachRooted s) g.values :=
    (locates_commaList locates_value).weaken fun _ held => held.2

/-! ### Operators -/

theorem locates_negatableTail (placed : s.place pos) (negated : Bool) :
    Locates s s.Rooted (negatableTail d g left pos negated) := by
  refine .branch (.skip fun _ => .branch ?_ ?_) (.branch ?_ (.skip fun t => ?_))
  · exact .skip fun query => .skip fun _ => .pure (.of placed rfl)
  · exact .skip fun members => .skip fun _ => .pure (.of placed rfl)
  · exact .skip fun low => .skip fun _ => .skip fun high => .pure (.of placed rfl)
  · split
    · exact .expected _
    · refine .skip fun _ => .skip fun right => .pure ?_
      split <;> exact .of placed rfl

theorem locates_isTail : Locates s s.Rooted (isTail g left) := by
  refine .position fun pos placed => .skip fun _ => .skip fun negated => .branch ?_ (.skip fun t => .guard fun _ => ?_)
  · refine .skip fun _ => .skip fun right => .pure ?_
    split <;> exact .of placed rfl
  · exact .skip fun _ => .pure (.of placed rfl)

theorem locates_negation (placed : s.place pos) : Locates s s.Rooted (negation g pos) := by
  refine .skip fun operand => ?_
  split <;> exact .pure (.of placed rfl)

instance located_orderItems : Located s (orderItems g) := by
  unfold orderItems
  infer_instance

instance located_orderClause : Located s (orderClause g) := by
  unfold orderClause
  infer_instance

theorem rooted_operatorCall (placed : s.place pos) (op : InfixOp) (held : s.Rooted left) (right : Expr) :
    s.Rooted (operatorCall pos op left right) := by
  unfold operatorCall
  extract_lets operand call
  have own : s.Rooted call := .of placed rfl
  split
  · split
    · exact .of held.place rfl
    · exact own
  · exact own

/-! ### Words with a syntax of their own -/

theorem locates_caseExpr : Locates s s.Rooted (caseExpr g) := by
  refine .position fun pos placed => .skip fun _ => .skip fun first => .either fun operand => .skip fun arms => ?_
  exact .guard fun _ => .skip fun _ => .either fun otherwise => .skip fun _ => .pure (.of placed rfl)

theorem locates_castCall [d.BlamesTypes] : Locates s s.Rooted (castCall d g) := by
  refine .current fun t held => .skip fun _ => .skip fun _ => .skip fun operand => .skip fun _ => .skip fun target => ?_
  refine .otherwise ?_ (.skip fun format => .guard fun _ => ?_)
  · exact .skip fun _ => .pure (.of held.place rfl)
  refine .skip fun _ => .skip fun _ => ?_
  extract_lets args
  exact .ite (.pure (.of held.place rfl)) (.ite (.pure (.of held.place rfl)) (.pure (.of held.place rfl)))

theorem locates_intervalExpr : Locates s s.Rooted (intervalExpr g) := by
  refine .position fun pos placed => .skip fun _ => .current fun t held => ?_
  extract_lets unitAfter
  have read (value : Expr) : Locates s s.Rooted (unitAfter value) := by
    refine .skip fun word => ?_
    split
    · exact .ite (.skip fun _ => .pure (.of placed rfl)) (.expected _)
    · exact .expected _
  refine .ite (.skip fun _ => ?_) (.skip fun value => read value)
  split
  · split
    · exact .pure (.of placed rfl)
    · exact .failAt held.place _ _
  · exact read _
  · exact .failAt held.place _ _

theorem locates_extractCall : Locates s s.Rooted (extractCall g) := by
  refine .position fun pos placed => .skip fun _ => .skip fun _ => .skip fun t => .guard fun _ => ?_
  exact .skip fun _ => .skip fun _ => .skip fun operand => .skip fun _ => .pure (.of placed rfl)

theorem locates_trimCall : Locates s s.Rooted (trimCall g) := by
  refine .position fun pos placed => .skip fun _ => .skip fun _ => .skip fun leading => ?_
  extract_lets -underBinder operands
  have texts (name : String) : Locates s s.Rooted (operands name) := by
    refine .skip fun _ => .either fun first => .skip fun fromText => ?_
    extract_lets last
    have closes (args : List Expr) : Locates s s.Rooted (last args) := .skip fun _ => .pure (.of placed rfl)
    refine .ite (.skip fun text => .known (closes _))
      (.branch (.skip fun chars => .known (closes _)) (.known (closes _)))
  exact .ite (.known (texts _)) (.branch (.known (texts _)) (.skip fun _ => .known (texts _)))

theorem locates_substringFrom : Locates s s.Rooted (substringFrom g) := by
  refine .position fun pos placed => .skip fun _ => .skip fun _ => .skip fun text =>
    .skip fun _ => .skip fun first => ?_
  exact .skip fun counted => .either fun length => .skip fun _ => .pure (.of placed rfl)

theorem locates_positionIn : Locates s s.Rooted (positionIn g) := by
  refine .position fun pos placed => .skip fun _ => .skip fun _ => .skip fun needle => .skip fun _ => ?_
  exact .skip fun haystack => .skip fun _ => .pure (.of placed rfl)

/-! ### Calls -/

theorem locates_callArgs : Locates s (EachRooted s) (callArgs g) := by
  refine .branch (.pure (List.forall_mem_nil _)) (.weaken
    (locates_commaList (.get fun c here => ?_)) fun _ held => held.2)
  exact .ite (.skip fun _ => .pure (.of here.current.place rfl)) locates_value

omit on in
theorem locates_resolveCall [d.BlamesCalls s] (called : s.Called f) (spelling : String) :
    Locates s s.Rooted (resolveCall d f spelling) := by
  have own : Locates s s.Rooted (pure (.call f)) := .pure (.of called.place rfl)
  unfold resolveCall
  split
  · exact own
  next rule found =>
  refine .ite own (.ite (.failAt called.place _ _) ?_)
  extract_lets named
  have renamed : s.Called named := by
    unfold named
    split
    · exact called
    · exact ⟨called.place, called.args⟩
  split
  · exact .pure (.of renamed.place rfl)
  · next reshape given =>
    have sound := Dialect.BlamesCalls.calls (s := s) found reshape given
    exact .within (fun e made => (sound renamed).makes made) fun e failed => (sound renamed).blames failed

instance located_frameBound : Located s (frameBound g) := by
  unfold frameBound
  infer_instance

instance located_windowFrame : Located s (windowFrame g) := by
  unfold windowFrame
  infer_instance

theorem locates_windowTail (function : Expr) : Locates s s.Rooted (windowTail g function) := by
  refine .position fun pos placed => .skip fun _ => .skip fun _ => .skip fun partitioned => ?_
  extract_lets -underBinder ordered
  have read (partitionBy : List Expr) : Locates s s.Rooted (ordered partitionBy) := by
    refine .skip fun _ => .either fun orderBy => .skip fun _ => .either fun frame => ?_
    exact .skip fun _ => .pure (.of placed rfl)
  exact .ite (.skip fun _ => .skip fun partitionBy => read _) (.known (read _))

theorem locates_argsTail (called : s.Called f) : Locates s s.Called (argsTail g f) := by
  refine .skip fun _ => .either fun orderBy => .branch ?_ (.pure ⟨called.place, called.args⟩)
  refine on.operand.bind fun separator held => .pure ⟨called.place, ?_⟩
  exact List.forall_mem_append.mpr ⟨called.args, List.forall_mem_singleton.mpr held⟩

theorem locates_callTail (called : s.Called f) : Locates s s.Called (callTail g f) := by
  refine .skip fun opened => ?_
  -- The stages from the last one back: the nulls, the filter and the order of the group.
  extract_lets nulls filters orders
  have nulled {f : Call} (called : s.Called f) : Locates s s.Called (nulls () f) :=
    .skip fun ignored => .extra (.pure called)
  have filtered {f : Call} (called : s.Called f) : Locates s s.Called (filters () f) := by
    refine .skip fun _ => .skip fun _ => .ite (.skip fun _ => .skip fun _ => .skip fun _ => ?_) (nulled called)
    exact .skip fun condition => .skip fun _ => nulled ⟨called.place, called.args⟩
  have ordered {f : Call} (called : s.Called f) : Locates s s.Called (orders () f) := by
    refine .branch (.skip fun _ => .skip fun orderBy => ?_) (filtered called)
    exact .skip fun _ => filtered ⟨called.place, called.args⟩
  refine .ite (locates_callArgs.bind fun args held => .skip fun _ => ordered ⟨called.place, ?_⟩) (ordered called)
  exact List.forall_mem_append.mpr ⟨held, called.args⟩

variable [d.BlamesCalls s]

theorem locates_functionCall (placed : s.place pos) (name : String) :
    Locates s s.Rooted (functionCall d g pos name) := by
  refine .skip fun _ => .skip fun distinct => ?_
  extract_lets start closes
  have read {f : Call} (called : s.Called f) : Locates s s.Rooted (closes () f) := by
    refine .skip fun _ => (locates_callTail called).bind fun f called => ?_
    refine (locates_resolveCall called name).bind fun e held => ?_
    exact .skip fun _ => .ite (locates_windowTail e) (.pure held)
  refine .skip fun _ => .ite ?_ (read ⟨placed, List.forall_mem_nil _⟩)
  refine locates_callArgs.bind fun args held => ?_
  exact (locates_argsTail ⟨placed, held⟩).bind fun f called => read called

/-! ### Operands -/

omit on [d.BlamesCalls s] in
instance located_pathStep {state : List Ident × Bool} : Located s (pathStep state) := by
  unfold pathStep
  infer_instance

theorem locates_columnExpr : Locates s s.Rooted (columnExpr d g) := by
  refine .position fun pos placed => .skip fun first => .skip fun state =>
    .ite (.pure (.of placed rfl)) (.skip fun _ => ?_)
  exact .ite (locates_functionCall placed _) (.pure (.of placed rfl))

omit [d.BlamesCalls s] in
theorem locates_lambdaBody (placed : s.place pos) (params : List Ident) :
    Locates s s.Rooted (lambdaBody g pos params) :=
  .skip fun _ => .skip fun _ => .pure (.of placed rfl)

omit [d.BlamesCalls s] in
theorem locates_parenthesized : Locates s s.Rooted (parenthesized d g) := by
  refine .position fun pos placed => .skip fun c => .skip fun _ => .ite ?_ (.ite ?_ ?_)
  · exact .skip fun query => .skip fun _ => .pure (.of placed rfl)
  · exact .skip fun params => .skip fun _ => locates_lambdaBody placed params
  refine locates_values.bind fun values held => .skip fun _ => ?_
  split
  · exact .pure (held _ List.mem_cons_self)
  · exact .pure (.of placed rfl)

omit [d.BlamesCalls s] in
theorem locates_arrayElems (placed : s.place pos) : Locates s s.Rooted (arrayElems g pos) :=
  .branch (.pure (.of placed rfl)) (.skip fun _ => .skip fun _ => .pure (.of placed rfl))

omit [d.BlamesCalls s] in
theorem locates_mapBraces : Locates s s.Rooted (mapBraces g) := by
  refine .position fun pos placed => .skip fun _ => ?_
  extract_lets step
  have round (state : List (Expr × Expr) × Bool) : Located s (step state) := by
    unfold step
    infer_instance
  exact .skip fun state => .skip fun _ => .pure (.of placed rfl)

theorem locates_specialWord : Locates s (fun found => ∀ e ∈ found, s.Rooted e) (specialWord d g) := by
  refine .get fun c here => ?_
  have placed := here.current.place
  extract_lets t called
  split
  · exact .skip fun _ => .found (.of placed rfl)
  · exact .skip fun _ => .found (.of placed rfl)
  · exact .skip fun _ => .found (.of placed rfl)
  · exact .skip fun _ => (locates_negation placed).some
  · exact locates_caseExpr.some
  · exact locates_intervalExpr.some
  · exact .ite locates_castCall.some .none
  · exact .ite locates_castCall.some .none
  · exact .ite locates_castCall.some .none
  · refine .ite .none (.skip fun _ => .skip fun _ => .skip fun query => .skip fun _ => ?_)
    exact .found (.of placed rfl)
  · exact .ite locates_extractCall.some .none
  · exact .ite .none (.skip fun _ => .skip fun _ => (locates_arrayElems placed).some)
  · exact .ite locates_trimCall.some .none
  · exact .ite locates_substringFrom.some .none
  · exact .ite locates_substringFrom.some .none
  · exact .ite locates_positionIn.some .none
  · exact .none

theorem locates_wordExpr : Locates s s.Rooted (wordExpr d g) := by
  refine locates_specialWord.bind fun read held => ?_
  split
  · exact .pure (held _ rfl)
  refine .get fun c here => .ite (.skip fun _ => locates_functionCall here.current.place _) ?_
  -- What is no literal of a type is a function without arguments, a parameter of a lambda or a column.
  extract_lets column others
  have rest : Locates s s.Rooted (others ()) := by
    unfold others
    split
    · exact .skip fun _ => .pure (.of here.current.place rfl)
    · refine .ite (.skip fun param => locates_lambdaBody here.current.place _) (.guard fun _ => ?_)
      exact locates_columnExpr
  refine .ite ?_ rest
  split
  · next rule known =>
    refine Locates.bind (.lift (fun _ _ => trivial) fun e failed => ?_ : Locates s (fun _ => True) _) fun target _ => ?_
    · obtain ⟨bare, same⟩ := Dialect.BlamesTypes.rules known failed
      refine .inl ⟨same ▸ here.current.place, ?_⟩
      rw [bare]
      exact Dialect.BlamesCalls.bare d
    · exact .skip fun _ => .skip fun _ => .pure (.of here.current.place rfl)
  · exact rest

theorem locates_operandStep : Locates s s.Rooted (operandStep d g) := by
  refine .current fun t held => ?_
  have placed := held.place
  split
  · exact .skip fun _ => .pure (.of placed rfl)
  · next quoted => exact .skip fun _ => .pure ⟨placed, by rintro _ ⟨⟩; exact held.quoted quoted⟩
  · exact .skip fun _ => .pure (.of placed rfl)
  · exact locates_columnExpr
  · exact locates_wordExpr
  · exact locates_wordExpr
  · refine .ite locates_parenthesized (.ite (.skip fun _ => locates_arrayElems placed) ?_)
    refine .ite locates_mapBraces (.ite (.skip fun _ => ?_) (.ite (.skip fun _ => on.expr _) ?_))
    · exact .skip fun e => .pure (.of placed rfl)
    refine .ite (.skip fun _ => ?_) (.ite (.skip fun _ => locates_negation placed) ?_)
    · exact .skip fun e => .pure (.of placed rfl)
    · exact .ite (.skip fun _ => .pure (.of placed rfl)) (.expected _)

theorem locates_infixTail (held : s.Rooted left) (prec : Nat) : Locates s s.Rooted (infixTail d g left prec) := by
  refine .skip fun _ => .position fun pos placed => .branch ?_ (.branch ?_ (.branch locates_isTail ?_))
  · exact .skip fun index => .skip fun _ => .pure (.of placed rfl)
  · exact .skip fun target => .pure (.of placed rfl)
  refine .branch (locates_negatableTail placed _) (.branch (locates_negatableTail placed _) (.skip fun t => ?_))
  extract_lets op
  refine .skip fun _ => .skip fun right => .pure ?_
  split
  · exact .of placed rfl
  · exact rooted_operatorCall placed op held right

theorem locates_exprStep (level : Nat) : Locates s s.Rooted (exprStep d g level) := by
  refine locates_operandStep.bind fun first held => .loop held fun left kept => .skip fun c => .ite .none ?_
  exact (locates_infixTail kept _).bind fun e shaped => .found shaped

end Expressions

/-! ### Clauses of queries -/

section Clauses

instance located_label {lexicon : Lexicon} : Located s (label? lexicon) := by
  unfold label?
  infer_instance

instance located_joinWords : Located s joinWords := by
  refine ⟨.skip fun _ => .skip fun _ => .skip fun t => ?_⟩
  split <;> exact Located.locates

instance located_joinKind : Located s joinKind? := by
  refine ⟨.get fun c here => .ite (.pure trivial) (.skip fun kind => .branch (.pure trivial) ?_)⟩
  -- Where no join follows, the cursor is put back.
  refine ⟨?_, ?_⟩
  · rintro _ _ _ _ ⟨⟩
    exact ⟨here, trivial⟩
  · rintro _ _ _ ⟨⟩

variable {g : Grammar} [g.On s]

theorem locates_lateralView {pos : Position} (placed : s.place pos) :
    Locates s (fun _ => True) (lateralView d g pos) := by
  refine .skip fun _ => .skip fun e => ?_
  split
  · exact Located.locates
  · exact .failAt placed _ _

instance located_arrayJoinItem {outer : Bool} : Located s (arrayJoinItem d g outer) := by
  unfold arrayJoinItem
  infer_instance

instance located_lateralViews : Located s (lateralViews? d g) := by
  refine ⟨.position fun pos placed => .branch ?_ Located.locates⟩
  exact (locates_lateralView placed).bind fun _ _ => .pure trivial

instance located_selectItem : Located s (selectItem d g) := by
  unfold selectItem
  infer_instance

instance located_limitClause {tail : QueryTail} : Located s (limitClause g tail) := by
  unfold limitClause
  infer_instance

instance located_offsetClause {tail : QueryTail} : Located s (offsetClause g tail) := by
  unfold offsetClause
  infer_instance

instance located_fetchClause {tail : QueryTail} : Located s (fetchClause g tail) := by
  unfold fetchClause
  infer_instance

instance located_queryTail : Located s (queryTail g) := by
  unfold queryTail
  infer_instance

instance located_withEntry : Located s (withEntry d g) := by
  unfold withEntry
  infer_instance

instance located_withClause : Located s (withClause d g) := by
  unfold withClause
  infer_instance

end Clauses

/-! ### Queries -/

section Queries

variable {g : Grammar} [g.On s] [d.BlamesCalls s]

instance located_tableStep : Located s (tableStep d g) := by
  refine ⟨.get fun c here => .ite ?_ (.skip fun name => .branch ?_ ?_)⟩
  · exact Located.locates
  · refine (locates_functionCall here.current.place _).bind fun e _ => ?_
    split
    · exact Located.locates
    · exact .failAt here.current.place _ _
  · exact Located.locates

instance located_joinStep {left : TableExpr} : Located s (joinStep d g left) := by
  refine ⟨.skip fun pos => .branch Located.locates (.skip fun kind => ?_)⟩
  split <;> exact Located.locates

instance located_tablesStep : Located s (tablesStep d g) := by
  unfold tablesStep
  infer_instance

instance located_selectStep : Located s (selectStep d g) := by
  have views (views : List LateralView) : Located s (do
      match ← lateralViews? d g with
      | some more => return some (views ++ more)
      | none => return none : Parser (Option (List LateralView))) := by
    refine ⟨.skip fun found => ?_⟩
    split <;> exact .pure trivial
  refine ⟨.skip fun pos => .skip fun _ => .skip fun distinct => .extra (.skip fun top => .either fun limit => ?_)⟩
  refine .skip fun items => .skip fun sourced => .either fun source => .skip fun views => ?_
  exact .skip fun filtered => .either fun condition => Located.locates

instance located_queryTerm : Located s (queryTerm d g) := by
  unfold queryTerm
  infer_instance

instance located_setOpStep {left : Query} : Located s (setOpStep d g left) := by
  unfold setOpStep
  infer_instance

instance located_queryStep : Located s (queryStep d g) := by
  unfold queryStep
  infer_instance

end Queries

/-- In the grammar of any depth the parsers blame what stands in the text: those of one level by those of the level
below. -/
instance grammar_on [d.BlamesCalls s] (depth : Nat) : (grammar d depth).On s := by
  induction depth with
  | zero => exact ⟨fun _ => .stall, .stall, located_stall, located_stall⟩
  | succ depth ih => exact ⟨locates_exprStep, locates_operandStep, located_queryStep, located_tablesStep⟩

instance grammarFor_on [d.BlamesCalls s] {c : Cursor} : (grammarFor d c).On s := grammar_on (c.bound + 1)

end Parser

end SqlDialects
