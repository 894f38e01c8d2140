import SqlDialects.Parser.Query
import SqlDialects.Proofs.FunctionBlame

/-! Expressions are read well shaped. What a parser reads is put together from what the parsers for the parts read,
and a dialect adds the names, the types and the calls that its tables make. -/

namespace SqlDialects

variable [Numerals]

/-- What a dialect makes of the names, types and calls of a text is well shaped. -/
structure Dialect.Shaping (d : Dialect) : Prop where
  types : d.ReadsTypes
  calls : d.ReadsCalls
  operators : ∀ entry ∈ d.infixOps.entries, Text.IsUpper entry.2.function
  words : ∀ entry ∈ d.niladic.entries, Text.IsUpper entry.2

/-- The numbers of the text, and those that its strings consist of, are numbers of a tree. Errors may be anywhere. -/
class Ground.Counts (s : Ground) : Prop where
  number : ∀ text, s.number text → Numerals.Admits text
  quoted : ∀ text, s.quoted text → ∀ word ∈ Text.words text, Numeric word → Numerals.Admits word
  place : ∀ pos, s.place pos
  foreign : ∀ source pos, s.foreign source pos

theorem Ground.Counts.blames {s : Ground} [s.Counts] (e : ParseError) : s.Blames e := .inr (foreign _ _)

theorem Ground.Counts.faults {s : Ground} [s.Counts] (e : ParseError) : s.Faults e := by
  by_cases bare : e.source = ""
  · exact .inl ⟨bare, place _⟩
  · exact .inr ⟨bare, foreign _ _⟩

namespace Parser

-- A parser of many parts takes an instance for each of them.
set_option synthInstance.maxSize 1024

variable {s : Ground}

/-- The parsers for the parts read them well shaped. -/
structure Grammar.WellShaped (s : Ground) (g : Grammar) : Prop where
  expr : ∀ level, Locates s Expr.WellShaped (g.expr level)
  operand : Locates s Expr.WellShaped g.operand
  query : Locates s Query.WellShaped g.query
  tables : Locates s TableExpr.WellShaped g.tables

/-- Expressions that are all well shaped. -/
abbrev EachShaped (es : List Expr) : Prop := ∀ e ∈ es, e.WellShaped

/-- Keys of an order that are all well shaped. -/
abbrev OrderShaped (items : List OrderItem) : Prop := ∀ item ∈ items, item.expr.WellShaped

/-- An expression that is well shaped where there is one. -/
abbrev OptionShaped (e : Option Expr) : Prop := ∀ a ∈ e, a.WellShaped

theorem optionShaped_none : OptionShaped none := fun _ none => nomatch none

theorem optionShaped_some {e : Expr} (held : e.WellShaped) : OptionShaped (some e) :=
  fun _ same => Option.some.inj same ▸ held

omit [Numerals] in
theorem yields_nil {γ : Type} {good : γ → Prop} : Locates s (fun list : List γ => ∀ a ∈ list, good a) (pure []) :=
  .pure (List.forall_mem_nil _)

/-! ### Operators -/

section

variable {d : Dialect} {left right : Expr} {pos : Position}

theorem upper_infixOp (shaping : d.Shaping) {t : Token} {op : InfixOp} (read : infixOp? d t = some op) :
    Text.IsUpper op.function := by
  unfold infixOp? at read
  split at read
  · exact shaping.operators _ (mem_of_lookup read)
  · split at read
    · exact shaping.operators _ (mem_of_lookup read)
    · cases read

theorem wellShaped_jsonPath (held : right.WellShaped) : (jsonPath right).WellShaped := by
  unfold jsonPath
  split
  · exact Expr.wellShaped_other (by decide)
  · split
    · exact Expr.wellShaped_other (by decide)
    · split <;> exact Expr.wellShaped_other (by decide)
  · exact held

theorem wellShaped_operatorCall {op : InfixOp} (named : Text.IsUpper op.function) (first : left.WellShaped)
    (second : right.WellShaped) : (operatorCall pos op left right).WellShaped := by
  unfold operatorCall
  extract_lets operand call
  have held : operand.WellShaped := by
    unfold operand
    split
    · exact wellShaped_jsonPath second
    · exact second
  have own : call.WellShaped := Expr.wellShaped_call.mpr (.plain named (by simp [first, held]))
  split
  · next l =>
    have joined := Expr.wellShaped_call.mp first
    split
    · refine Expr.wellShaped_call.mpr ⟨joined.name, ?_, joined.orderBy, joined.filter⟩
      exact forall_mem_concat joined.args held
    · exact own
  · exact own

end

theorem wellShaped_knownCall {pos : Position} {name : String} {args : List Expr} (known : name ∈ callNames)
    (inner : EachShaped args) : (Expr.call { pos, name, args }).WellShaped :=
  Expr.wellShaped_call.mpr (.plain (upper_callNames name known) inner)

theorem yields_type {d : Dialect} (shaping : d.Shaping) : Locates s TypeSpec.WellShaped (type d) := by
  have extensible : Extensible fun _ => True := ⟨fun _ _ _ _ => trivial, fun _ _ _ _ _ => trivial⟩
  have _ := shaping.types.blames
  have located : Located s (type d) := located_type
  refine ⟨fun c t next on done => ⟨(located.locates.reads on done).1, ?_⟩, located.locates.blames⟩
  exact (delivers_typeAt shaping.types extensible (c.bound + 1) (fun _ _ _ => trivial) done).2.wellShaped

section Expressions

variable {d : Dialect} {g : Grammar} (shaping : d.Shaping) (inner : g.WellShaped s)

include inner

theorem yields_value : Locates s Expr.WellShaped g.value := inner.expr _

theorem yields_values : Locates s (fun es => es ≠ [] ∧ EachShaped es) g.values := locates_commaList (yields_value inner)

theorem yields_each : Locates s EachShaped g.values := (yields_values inner).weaken fun _ held => held.2

theorem yields_group : Locates s EachShaped g.group := by
  refine .skip fun _ => .branch yields_nil ?_
  exact (yields_each inner).bind fun list held => .skip fun _ => .pure held

theorem yields_negatableTail {left : Expr} (held : left.WellShaped) (pos : Position) (negated : Bool) :
    Locates s Expr.WellShaped (negatableTail d g left pos negated) := by
  refine .branch (.skip fun _ => .branch ?_ ?_) (.branch ?_ (.skip fun t => ?_))
  · refine inner.query.bind fun query shaped => .skip fun _ => .pure ?_
    exact Expr.wellShaped_inQuery.mpr ⟨held, shaped⟩
  · refine (yields_values inner).bind fun members shaped => .skip fun _ => .pure ?_
    exact Expr.wellShaped_inList.mpr ⟨shaped.1, held, shaped.2⟩
  · refine (inner.expr _).bind fun low first => .skip fun _ => (inner.expr _).bind fun high last => .pure ?_
    exact Expr.wellShaped_between.mpr ⟨held, first, last⟩
  · split
    · exact .expected _
    · refine .skip fun _ => (inner.expr _).bind fun right shaped => .pure ?_
      split <;> simp [held, shaped]

theorem yields_isTail {left : Expr} (held : left.WellShaped) : Locates s Expr.WellShaped (isTail g left) := by
  refine .skip fun pos => .skip fun _ => .skip fun negated => .branch ?_ (.skip fun t => .guard fun _ => ?_)
  · refine .skip fun _ => (inner.expr _).bind fun right shaped => .pure ?_
    split <;> simp [held, shaped]
  · exact .skip fun _ => .pure (Expr.wellShaped_isValue.mpr held)

theorem yields_negation (pos : Position) : Locates s Expr.WellShaped (negation g pos) := by
  refine (inner.expr _).bind fun operand shaped => ?_
  split
  · exact .pure (Expr.wellShaped_existsQuery.mpr (Expr.wellShaped_existsQuery.mp shaped))
  · exact .pure (Expr.wellShaped_unary.mpr shaped)

theorem yields_orderItems : Locates s OrderShaped (orderItems g) := by
  refine Locates.weaken (locates_commaList ?_) fun _ held => held.2
  refine (yields_value inner).bind fun e shaped => .skip fun descending => .extra (.branch ?_ (.pure shaped))
  exact .skip fun first => .skip fun found => .guard fun _ => .pure shaped

theorem yields_orderClause : Locates s OrderShaped (orderClause g) :=
  .skip fun _ => .skip fun _ => yields_orderItems inner

/-! ### Words with a syntax of their own -/

theorem yields_caseExpr : Locates s Expr.WellShaped (caseExpr g) := by
  refine .skip fun pos => .skip fun _ => .skip fun _ => .choice .none (yields_value inner).some fun operand valued => ?_
  refine .rounds (fun list : List When => ∀ arm ∈ list, arm.condition.WellShaped ∧ arm.result.WellShaped)
    (List.forall_mem_nil _) (fun list kept => .otherwise .none ?_) fun list kept => .guard fun nonempty => ?_
  · refine (yields_value inner).bind fun condition tested => .skip fun _ =>
      (yields_value inner).bind fun result shaped => ?_
    exact .found (List.forall_mem_cons.mpr ⟨⟨tested, shaped⟩, kept⟩)
  · refine .option (yields_value inner) fun otherwise last => .skip fun _ => .pure ?_
    refine Expr.wellShaped_caseWhen.mpr ⟨?_, valued, fun arm member => kept arm (List.mem_reverse.mp member), last⟩
    rwa [ne_eq, List.reverse_eq_nil_iff, ← List.isEmpty_iff]

include shaping in
theorem yields_castCall : Locates s Expr.WellShaped (castCall d g) := by
  refine .skip fun t => .skip fun _ => .skip fun _ => (yields_value inner).bind fun operand shaped => .skip fun _ => ?_
  refine (yields_type shaping).bind fun target typed => .otherwise ?_ (.skip fun format => .guard fun _ => ?_)
  · exact .skip fun _ => .pure (Expr.wellShaped_cast.mpr ⟨shaped, typed⟩)
  refine .skip fun _ => .skip fun _ => ?_
  extract_lets args
  have both : EachShaped args := by simp [EachShaped, args, shaped]
  refine .ite (.pure ?_) (.ite (.pure ?_) (.pure ?_))
  · exact Expr.wellShaped_cast.mpr ⟨wellShaped_knownCall (by decide) both, typed⟩
  · exact wellShaped_knownCall (by decide) both
  · exact Expr.wellShaped_cast.mpr ⟨shaped, typed⟩

omit inner in
/-- Only digits, points and dashes are a number. -/
theorem wellShaped_numberOrString {pos : Position} {text : String} (admitted : Numeric text → Numerals.Admits text) :
    (numberOrString pos text).WellShaped := by
  refine Expr.wellShaped_literal.mpr fun number => admitted ?_
  split at number
  · next numeric =>
    rw [Bool.and_eq_true, bne_iff_ne] at numeric
    exact ⟨numeric.1, List.all_eq_true.mp numeric.2⟩
  · cases number

theorem yields_intervalExpr [s.Counts] : Locates s Expr.WellShaped (intervalExpr g) := by
  refine .skip fun pos => .skip fun _ => .current fun t at_hand => ?_
  extract_lets unitAfter
  have read {value : Expr} (held : value.WellShaped) : Locates s Expr.WellShaped (unitAfter value) := by
    refine .skip fun word => ?_
    split
    · next unit neutral =>
      refine .ite (.skip fun _ => .pure ?_) (.expected _)
      exact Expr.wellShaped_interval.mpr ⟨DateUnit.neutral_of_text neutral, held⟩
    · exact .expected _
  split
  · next quoted =>
    have counted (word : String) (inside : word ∈ Text.words t.text) : (numberOrString t.pos word).WellShaped :=
      wellShaped_numberOrString (Ground.Counts.quoted _ (at_hand.quoted quoted) word inside)
    refine .skip fun _ => ?_
    split
    · next split =>
      split
      · next unit neutral =>
        exact .pure (Expr.wellShaped_interval.mpr ⟨DateUnit.neutral_of_text neutral, counted _ (by simp [split])⟩)
      · exact .failAt at_hand.place _ _
    · next split => exact read (counted _ (by simp [split]))
    · exact .failAt at_hand.place _ _
  · exact inner.operand.bind fun value held => read held

theorem yields_extractCall : Locates s Expr.WellShaped (extractCall g) := by
  refine .skip fun pos => .skip fun _ => .skip fun _ => .skip fun t => .guard fun _ => .skip fun _ => .skip fun _ => ?_
  refine (yields_value inner).bind fun operand shaped => .skip fun _ => .pure ?_
  exact Expr.wellShaped_extract.mpr shaped

theorem yields_trimCall : Locates s Expr.WellShaped (trimCall g) := by
  refine .skip fun pos => .skip fun _ => .skip fun _ => .skip fun leading => ?_
  extract_lets -underBinder operands
  have texts {name : String} (known : name ∈ callNames) : Locates s Expr.WellShaped (operands name) := by
    refine .skip fun _ => .choice .none (yields_value inner).some fun first shaped => .skip fun fromText => ?_
    extract_lets last
    have closes {args : List Expr} (held : EachShaped args) : Locates s Expr.WellShaped (last args) :=
      .skip fun _ => .pure (wellShaped_knownCall known held)
    have own : EachShaped first.toList := fun e member => shaped e (Option.mem_toList.mp member)
    refine .ite ?_ (.branch ?_ (.known (closes own)))
    · exact (yields_value inner).bind fun text held => .known (closes (List.forall_mem_cons.mpr ⟨held, own⟩))
    · refine (yields_value inner).bind fun chars held => .known (closes ?_)
      exact forall_mem_concat own held
  refine .ite (.known (texts (by decide))) (.branch (.known (texts (by decide))) ?_)
  exact .skip fun _ => .known (texts (by decide))

theorem yields_substringFrom : Locates s Expr.WellShaped (substringFrom g) := by
  refine .skip fun pos => .skip fun _ => .skip fun _ => (yields_value inner).bind fun text held => .skip fun _ => ?_
  refine (yields_value inner).bind fun first start => .option (yields_value inner) fun length counted => ?_
  refine .skip fun _ => .pure (wellShaped_knownCall (by decide) ?_)
  have rest : EachShaped length.toList := fun e member => counted e (Option.mem_toList.mp member)
  exact List.forall_mem_cons.mpr ⟨held, List.forall_mem_cons.mpr ⟨start, rest⟩⟩

theorem yields_positionIn : Locates s Expr.WellShaped (positionIn g) := by
  refine .skip fun pos => .skip fun _ => .skip fun _ => (inner.expr _).bind fun needle held => .skip fun _ => ?_
  refine (yields_value inner).bind fun haystack searched => .skip fun _ => .pure (wellShaped_knownCall (by decide) ?_)
  simp [EachShaped, held, searched]

/-! ### Calls -/

theorem yields_callArgs : Locates s EachShaped (callArgs g) := by
  refine .branch yields_nil (Locates.weaken (locates_commaList (.skip fun c => .ite ?_ (yields_value inner))) ?_)
  · exact .skip fun _ => .pure Expr.wellShaped_star
  · exact fun _ held => held.2

omit inner in
include shaping in
theorem yields_resolveCall [s.Counts] {f : Call} (shaped : f.WellShaped) (spelling : String) :
    Locates s Expr.WellShaped (resolveCall d f spelling) := by
  have own : Locates s Expr.WellShaped (pure (.call f)) := .pure (Expr.wellShaped_call.mpr shaped)
  unfold resolveCall
  split
  · exact own
  next rule found =>
  have sound := shaping.calls.found found
  refine .ite own (.ite (.failAt (Ground.Counts.place _) _ _) ?_)
  extract_lets named
  have renamed : named.WellShaped := by
    unfold named
    split
    · exact shaped
    · exact ⟨sound.named, shaped.args, shaped.orderBy, shaped.filter⟩
  split
  · exact .pure (Expr.wellShaped_call.mpr renamed)
  · next reshape given =>
    exact .within (fun e made => sound.reshaped reshape given renamed made) fun e _ => Ground.Counts.faults e

theorem yields_frameBound : Locates s FrameBound.WellShaped (frameBound g) := by
  have fixed (kind : String) : FrameBound.WellShaped ⟨kind, none⟩ := fun _ none => nomatch none
  refine .branch (.pure (fixed _)) (.branch (.pure (fixed _)) (.branch (.pure (fixed _)) ?_))
  refine (inner.expr _).bind fun offset held => ?_
  have moving (kind : String) : FrameBound.WellShaped ⟨kind, some offset⟩ := by simpa [FrameBound.WellShaped] using held
  exact .branch (.pure (moving _)) (.branch (.pure (moving _)) (.expected _))

theorem yields_windowFrame : Locates s Frame.WellShaped (windowFrame g) := by
  refine .skip fun t => .skip fun _ => .branch ?_ ?_
  · refine (yields_frameBound inner).bind fun first held => .skip fun _ =>
      (yields_frameBound inner).bind fun last kept => ?_
    exact .pure ⟨held, by simpa using kept⟩
  · exact (yields_frameBound inner).bind fun first held => .pure ⟨held, fun _ none => nomatch none⟩

theorem yields_windowTail {function : Expr} (shaped : function.WellShaped) :
    Locates s Expr.WellShaped (windowTail g function) := by
  refine .skip fun pos => .skip fun _ => .skip fun _ => .skip fun partitioned => ?_
  extract_lets -underBinder ordered
  have read {partitionBy : List Expr} (parts : EachShaped partitionBy) :
    Locates s Expr.WellShaped (ordered partitionBy) := by
    refine .skip fun _ => .choice (yields_orderClause inner) yields_nil fun orderBy keys => .skip fun _ => ?_
    refine .choice (yields_windowFrame inner).some .none fun frame held => .skip fun _ => .pure ?_
    exact Expr.wellShaped_window.mpr ⟨shaped, parts, keys, held⟩
  refine .ite (.skip fun _ => (yields_each inner).bind fun partitionBy parts => read parts) (.known (read ?_))
  exact List.forall_mem_nil _

theorem yields_argsTail {f : Call} (shaped : f.WellShaped) : Locates s Call.WellShaped (argsTail g f) := by
  refine .skip fun _ => .choice (yields_orderClause inner) yields_nil fun orderBy keys => .branch ?_ (.pure ?_)
  · refine inner.operand.bind fun separator held => .pure ⟨shaped.name, ?_, keys, shaped.filter⟩
    exact forall_mem_concat shaped.args held
  · exact ⟨shaped.name, shaped.args, keys, shaped.filter⟩

theorem yields_callTail {f : Call} (shaped : f.WellShaped) : Locates s Call.WellShaped (callTail g f) := by
  refine .skip fun opened => ?_
  -- The stages from the last one back: the nulls, the filter and the order of the group.
  extract_lets nulls filters orders
  have nulled {f : Call} (shaped : f.WellShaped) : Locates s Call.WellShaped (nulls () f) :=
    .skip fun ignored => .extra (.pure shaped)
  have filtered {f : Call} (shaped : f.WellShaped) : Locates s Call.WellShaped (filters () f) := by
    refine .skip fun _ => .skip fun _ => .ite (.skip fun _ => .skip fun _ => .skip fun _ => ?_) (nulled shaped)
    refine (yields_value inner).bind fun condition held => .skip fun _ => nulled ?_
    exact ⟨shaped.name, shaped.args, shaped.orderBy, optionShaped_some held⟩
  have ordered {f : Call} (shaped : f.WellShaped) : Locates s Call.WellShaped (orders () f) := by
    refine .branch (.skip fun _ => (yields_orderClause inner).bind fun orderBy keys => ?_) (filtered shaped)
    exact .skip fun _ => filtered ⟨shaped.name, shaped.args, keys, shaped.filter⟩
  refine .ite ((yields_callArgs inner).bind fun args held => .skip fun _ => ordered ?_) (ordered shaped)
  exact ⟨shaped.name, List.forall_mem_append.mpr ⟨held, shaped.args⟩, shaped.orderBy, shaped.filter⟩

include shaping

theorem yields_functionCall [s.Counts] (pos : Position) (name : String) :
    Locates s Expr.WellShaped (functionCall d g pos name) := by
  refine .skip fun _ => .skip fun distinct => ?_
  extract_lets start closes
  have read {f : Call} (shaped : f.WellShaped) : Locates s Expr.WellShaped (closes () f) := by
    refine .skip fun _ => (yields_callTail inner shaped).bind fun f shaped => ?_
    refine (yields_resolveCall shaping shaped name).bind fun e held => ?_
    exact .skip fun _ => .ite (yields_windowTail inner held) (.pure held)
  have named : Text.IsUpper (Text.upper name) := Text.upper_upper name
  have started {args : List Expr} (held : EachShaped args) : Call.WellShaped { start with args } :=
    ⟨named, held, fun _ none => (nomatch none), fun _ none => nomatch none⟩
  refine .skip fun _ => .ite ?_ (read (started (List.forall_mem_nil _)))
  refine (yields_callArgs inner).bind fun args held => ?_
  exact (yields_argsTail inner (started held)).bind fun f shaped => read shaped

/-! ### Operands -/

omit [Numerals] inner shaping in
theorem yields_pathStep {state : List Ident × Bool} (started : state.1 ≠ []) :
    Locates s (fun next => ∀ state ∈ next, state.1 ≠ []) (pathStep state) := by
  refine .ite .none (.branch (.branch (.found started) (.skip fun id => .found ?_)) (.skip fun c => .ite ?_ .none))
  · exact List.cons_ne_nil _ _
  · exact .skip fun _ => .found (List.cons_ne_nil _ _)

theorem yields_columnExpr [s.Counts] : Locates s Expr.WellShaped (columnExpr d g) := by
  refine .skip fun pos => .skip fun first => ?_
  refine .rounds (fun state => state.1 ≠ []) (List.cons_ne_nil _ _) (fun _ started => yields_pathStep started)
    fun state nonempty => .ite (.pure Expr.wellShaped_star) (.skip fun _ => .ite ?_ (.pure ?_))
  · exact yields_functionCall shaping inner ..
  · exact Expr.wellShaped_column.mpr (List.reverse_eq_nil_iff.not.mpr nonempty)

omit shaping in
theorem yields_lambdaBody (pos : Position) (params : List Ident) :
    Locates s Expr.WellShaped (lambdaBody g pos params) :=
  .skip fun _ => (yields_value inner).bind fun _ held => .pure (Expr.wellShaped_lambda.mpr held)

omit shaping in
theorem yields_parenthesized : Locates s Expr.WellShaped (parenthesized d g) := by
  refine .skip fun pos => .skip fun c => .skip fun _ => .ite ?_ (.ite ?_ ?_)
  · exact inner.query.bind fun query held => .skip fun _ => .pure (Expr.wellShaped_subquery.mpr held)
  · exact .skip fun params => .skip fun _ => yields_lambdaBody inner ..
  refine (yields_each inner).bind fun values held => .skip fun _ => ?_
  split
  · exact .pure (held _ List.mem_cons_self)
  · exact .pure (Expr.wellShaped_struct.mpr ⟨.inl rfl, held⟩)

omit shaping in
theorem yields_arrayElems (pos : Position) : Locates s Expr.WellShaped (arrayElems g pos) := by
  refine .branch (.pure (Expr.wellShaped_array.mpr (List.forall_mem_nil _))) ?_
  exact (yields_each inner).bind fun elems held => .skip fun _ => .pure (Expr.wellShaped_array.mpr held)

omit shaping in
theorem yields_mapBraces : Locates s Expr.WellShaped (mapBraces g) := by
  refine .skip fun pos => .skip fun _ => ?_
  refine .rounds (fun state : List (Expr × Expr) × Bool => ∀ e ∈ state.1, e.1.WellShaped ∧ e.2.WellShaped)
    (List.forall_mem_nil _) (fun state kept => .skip fun _ => .ite .none ?_) fun state kept => .skip fun _ => .pure ?_
  · refine (yields_value inner).bind fun key first => .skip fun _ => (yields_value inner).bind fun value last => ?_
    exact .skip fun _ => .found (List.forall_mem_cons.mpr ⟨⟨first, last⟩, kept⟩)
  · refine Expr.wellShaped_map.mpr ⟨by simp, ?_, ?_⟩
    · simpa using fun key value member => (kept (key, value) member).1
    · simpa using fun value key member => (kept (key, value) member).2

theorem yields_specialWord [s.Counts] : Locates s OptionShaped (specialWord d g) := by
  refine .skip fun c => ?_
  extract_lets t called
  split
  · exact .skip fun _ => .found (Expr.wellShaped_other (by decide))
  · exact .skip fun _ => .found (Expr.wellShaped_other (by decide))
  · exact .skip fun _ => .found (Expr.wellShaped_other (by decide))
  · exact .skip fun _ => (yields_negation inner _).some
  · exact (yields_caseExpr inner).some
  · exact (yields_intervalExpr inner).some
  · exact .ite (yields_castCall shaping inner).some .none
  · exact .ite (yields_castCall shaping inner).some .none
  · exact .ite (yields_castCall shaping inner).some .none
  · refine .ite .none (.skip fun _ => .skip fun _ => inner.query.bind fun query held => .skip fun _ => ?_)
    exact .found (Expr.wellShaped_existsQuery.mpr held)
  · exact .ite (yields_extractCall inner).some .none
  · exact .ite .none (.skip fun _ => .skip fun _ => (yields_arrayElems inner _).some)
  · exact .ite (yields_trimCall inner).some .none
  · exact .ite (yields_substringFrom inner).some .none
  · exact .ite (yields_substringFrom inner).some .none
  · exact .ite (yields_positionIn inner).some .none
  · exact .none

theorem yields_wordExpr [s.Counts] : Locates s Expr.WellShaped (wordExpr d g) := by
  refine (yields_specialWord shaping inner).bind fun read held => ?_
  split
  · exact .pure (held _ rfl)
  refine .skip fun c => .ite (.skip fun _ => yields_functionCall shaping inner ..) ?_
  -- What is no literal of a type is a function without arguments, a parameter of a lambda or a column.
  extract_lets column others
  have rest : Locates s Expr.WellShaped (others ()) := by
    unfold others
    split
    · next name known =>
      refine .skip fun _ => .pure (Expr.wellShaped_call.mpr (.plain ?_ (List.forall_mem_nil _)))
      exact shaping.words _ (mem_of_lookup known)
    · refine .ite (.skip fun param => yields_lambdaBody inner ..) (.guard fun _ => ?_)
      exact yields_columnExpr shaping inner
  refine .ite ?_ rest
  split
  · next rule known =>
    have typed : ∀ target, rule { pos := c.current.pos, name := c.current.upper } = .ok target → target.WellShaped := by
      intro target made
      have formed : NativeType.Formed (fun _ => True) { pos := c.current.pos, name := c.current.upper } :=
        ⟨trivial, List.forall_mem_nil _, List.forall_mem_nil _⟩
      exact ((shaping.types.found known).sound formed made).wellShaped
    refine (Locates.lift typed fun e _ => Ground.Counts.blames e).bind fun target held => .skip fun _ =>
      .skip fun _ => .pure ?_
    exact Expr.wellShaped_cast.mpr ⟨Expr.wellShaped_other (by decide), held⟩
  · exact rest

theorem yields_operandStep [s.Counts] : Locates s Expr.WellShaped (operandStep d g) := by
  refine .current fun t at_hand => ?_
  split
  · next number => exact .skip fun _ => .pure (Expr.wellShaped_number.mpr
      (Ground.Counts.number _ (at_hand.number number)))
  · exact .skip fun _ => .pure (Expr.wellShaped_other (by decide))
  · exact .skip fun _ => .pure Expr.wellShaped_param
  · exact yields_columnExpr shaping inner
  · exact yields_wordExpr shaping inner
  · exact yields_wordExpr shaping inner
  · refine .ite (yields_parenthesized inner) (.ite (.skip fun _ => yields_arrayElems inner _) ?_)
    refine .ite (yields_mapBraces inner) (.ite (.skip fun _ => ?_) (.ite (.skip fun _ => inner.expr _) ?_))
    · exact (inner.expr _).bind fun e held => .pure (Expr.wellShaped_unary.mpr held)
    refine .ite (.skip fun _ => ?_) (.ite (.skip fun _ => yields_negation inner _) ?_)
    · refine (inner.expr _).bind fun e held => .pure (wellShaped_knownCall (by decide) ?_)
      exact List.forall_mem_singleton.mpr held
    · exact .ite (.skip fun _ => .pure Expr.wellShaped_star) (.expected _)

theorem yields_infixTail {left : Expr} (held : left.WellShaped) (prec : Nat) :
    Locates s Expr.WellShaped (infixTail d g left prec) := by
  refine .skip fun _ => .skip fun pos => .branch ?_ (.branch ?_ ?_)
  · refine (yields_value inner).bind fun index shaped => .skip fun _ => .pure ?_
    exact Expr.wellShaped_subscript.mpr ⟨held, shaped⟩
  · exact (yields_type shaping).bind fun target typed => .pure (Expr.wellShaped_cast.mpr ⟨held, typed⟩)
  refine .branch (yields_isTail inner held) (.branch (yields_negatableTail inner held ..) ?_)
  refine .branch (yields_negatableTail inner held ..) (.skip fun t => ?_)
  extract_lets op
  have named : Text.IsUpper op.function := by
    unfold op
    cases read : infixOp? d t with
    | none => exact Text.isUpper_empty
    | some op => exact upper_infixOp shaping read
  refine .skip fun _ => (inner.expr _).bind fun right shaped => .pure ?_
  split
  · exact Expr.wellShaped_binary.mpr ⟨held, shaped⟩
  · exact wellShaped_operatorCall named held shaped

theorem yields_exprStep [s.Counts] (level : Nat) : Locates s Expr.WellShaped (exprStep d g level) := by
  refine (yields_operandStep shaping inner).bind fun first held => .loop held fun left kept =>
    .skip fun c => .ite .none ?_
  exact (yields_infixTail shaping inner kept _).bind fun e shaped => .found shaped

end Expressions

end Parser

end SqlDialects
