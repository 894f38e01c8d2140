import SqlDialects.Proofs.WrittenTables

/-! Queries, written and read back. The terms of a set operation are read from the left like joined tables. A term
that is printed without parentheses must have no clauses of its own behind it: they would be read as those of the
whole. -/

namespace SqlDialects

open Token SqlDialects.Parser

variable {d : Dialect} {lexicon : Lexicon} {heads : List Head} {ts us : List Token} {c : Cursor}

/-! ### Clauses of a query -/

/-- The query without the clauses behind its terms. -/
def Query.core : Query → Query
  | .select s => .select { s with orderBy := [], limit := none, offset := none }
  | .setOp pos op all left right _ _ => .setOp pos op all left right [] none

/-- There are no clauses. -/
def Parser.QueryTail.IsEmpty (tail : QueryTail) : Prop := tail.orderBy = [] ∧ tail.limit = none ∧ tail.offset = none

theorem Query.core_eq {q : Query} (empty : q.tail.IsEmpty) : q.core = q := by
  cases q with
  | select s =>
    obtain ⟨orders, limit, offset⟩ := empty
    obtain ⟨⟩ := s
    simp_all [Query.core, Query.tail]
  | setOp pos op all left right orderBy limit =>
    obtain ⟨orders, limit, _⟩ := empty
    simp_all [Query.core, Query.tail]

theorem bareOrder_eq_nil {items : List OrderItem} : bareOrder items = [] ↔ items = [] := by
  obtain _ | ⟨⟨⟩, _⟩ := items <;> simp [bareOrder]

theorem bareOption_eq_none {value : Option Expr} : bareOption value = none ↔ value = none := by
  cases value <;> simp [bareOption]

theorem addTo_bare {q read : Query} {tail : QueryTail} (terms : read.bare = q.core.bare)
    (clauses : tail.bare = q.tail.bare) :
    (tail.addTo read).bare = q.bare := by
  obtain ⟨orderBy, limit, offset⟩ := tail
  cases q with
  | select s =>
    cases read with
    | setOp => simp [Query.core, Query.bare] at terms
    | select r =>
      obtain ⟨⟩ := s
      obtain ⟨_, _, _, _, _, _, _, _, _, readOrder, readLimit, readOffset⟩ := r
      simp only [Query.core, Query.bare, Select.bare, Query.select.injEq, Select.mk.injEq, bareOrder,
        bareOption, bareOrder_eq_nil,
        bareOption_eq_none, true_and] at terms
      obtain ⟨ctes, distinct, items, source, views, condition, groups, having, rfl, rfl, rfl⟩ := terms
      simp only [QueryTail.bare, Query.tail, QueryTail.mk.injEq] at clauses
      obtain ⟨orders, limits, offsets⟩ := clauses
      cases orderBy <;> cases limit <;> cases offset <;>
        simp_all [QueryTail.addTo, Query.bare, Select.bare]
  | setOp pos op all left right order bound =>
    cases read with
    | select => simp [Query.core, Query.bare] at terms
    | setOp =>
      simp only [Query.core, Query.bare, Query.setOp.injEq] at terms
      simp only [QueryTail.bare, Query.tail, QueryTail.mk.injEq] at clauses
      simp_all [QueryTail.addTo, Query.bare]

/-! ### Terms -/

/-- What stands behind all terms of a query. -/
def chainEnds : List Head := [.word "ORDER", .word "LIMIT", .word "OFFSET", .word "FETCH"] ++ queryEnds

/-- What stands behind one term: also another term. -/
def termEnds : List Head := [.word "UNION", .word "INTERSECT", .word "EXCEPT"] ++ chainEnds

/-- Terms with their text and tokens. All of them are read by the rounds of the loop. -/
structure WrittenTerms (d : Dialect) (q : Query) (text : String) (ts : List Token) : Prop where
  spelled : Spells d.toLexicon text.toList ts
  starts : StartsQuery ts
  chained : ∀ (depth : Nat) (c : Cursor) (tail : List Token), ts.length < depth → Follows d.toLexicon termEnds tail →
    c.Shows (ts ++ tail) → ∃ first start read next, queryTerm d (grammar d depth) c = .ok (first, start) ∧
      Repeats (setOpStep d (grammar d depth)) first start read next ∧ next.Shows tail ∧ read.bare = q.bare

/-- One term is a chain by itself. -/
theorem written_term {q : Query} {text : String} (spelled : Spells d.toLexicon text.toList ts)
    (starts : StartsQuery ts)
    (parses : Parses d (queryTerm d) termEnds (fun read => read.bare = q.bare) ts) : WrittenTerms d q text ts := by
  refine ⟨spelled, starts, fun depth c tail enough follows shown => ?_⟩
  obtain ⟨read, next, done, left, same⟩ := parses depth c tail enough follows shown
  exact ⟨read, next, read, next, done, .refl _ _ _, left, same⟩

section Enclosed

variable {q : Query} {text : String}

theorem WholeQuery.enclosed_parses (whole : WholeQuery d q text ts) :
    Parses d (queryTerm d) termEnds (fun read => read.bare = q.bare) (enclosed ts) := by
  intro depth c tail enough follows shown
  have shown : c.Shows (punctuation "(" :: (ts ++ punctuation ")" :: tail)) := by simpa [enclosed] using shown
  have isOpen : acceptOp "(" c = .ok (true, c.advance) := by
    rw [acceptOp_apply, ← isOp_bare, shown.current]
    rfl
  have after := shown.advance' (List.append_ne_nil_of_right_ne_nil ts (List.cons_ne_nil _ tail))
  obtain ⟨read, middle, done, left, same⟩ := whole.inside depth enough after
  refine ⟨read, middle.advance, ?_, left.advance' follows.nonempty, same⟩
  exact bind_ok isOpen (bind_ok done (bind_ok (expectOp_mark left) rfl))

end Enclosed

/-! ### Whole queries -/

/-- A query whose text has two parts: its terms, and the clauses behind them. -/
structure WrittenQuery (d : Dialect) (q : Query) (text back : String) (ts us : List Token) : Prop where
  printed : ∀ p : Printer, p.dialect = d → p.keyed = false → p.queryText q = .ok (text ++ back)
  terms : WrittenTerms d q.core text ts
  single : q.isSelect = true → Parses d (queryTerm d) termEnds (fun read => read.bare = q.core.bare) ts
  behind : SpellsTail d.toLexicon back.toList us
  tail : Parses d queryTail queryEnds (fun read => read.bare = q.tail.bare) us
  follows : ∀ tail, Follows d.toLexicon queryEnds tail → Follows d.toLexicon chainEnds (us ++ tail)
  missing : q.tail.IsEmpty → back = "" ∧ us = []

section Query

variable {q : Query} {text back : String}

/-- No term stands behind the terms of a query. -/
theorem setOpStep_stops {tail : List Token} (follows : Follows d.toLexicon chainEnds tail)
    (shown : c.Shows tail) (g : Grammar)
    (left : Query) : setOpStep d g left c = .ok (none, c) := by
  refine bind_ok (current_apply c) (bind_ok (accept_none (follows.any_is shown ?_)) rfl)
  decide

theorem WrittenQuery.whole (ready : d.ReadsQueries) (written : WrittenQuery d q text back ts us) :
    WholeQuery d q (text ++ back) (ts ++ us) := by
  obtain ⟨first, rest, shape, opens⟩ := written.terms.starts.opens
  refine ⟨written.printed, ?_, written.terms.starts.append us, ?_⟩
  · rw [String.toList_append]
    exact written.terms.spelled.clauses ready.regular.lexicon written.behind
  · intro depth c tail enough follows shown
    rw [List.length_append] at enough
    rw [List.append_assoc] at shown
    have noWith : accept "WITH" c = .ok (false, c) := by
      have shown : c.Shows (first :: (rest ++ (us ++ tail))) := by simpa [shape] using shown
      refine accept_none ?_
      rw [List.any_cons, List.any_nil, Bool.or_false, ← is_bare, shown.current]
      exact opens.is (by decide)
    have chain := written.follows tail follows
    have within : ∀ head ∈ chainEnds, head ∈ termEnds := fun head member => List.mem_append_right _ member
    obtain ⟨one, start, read, middle, begun, repeats, left, same⟩ :=
      written.terms.chained depth c _ (by omega) (chain.mono within) shown
    obtain ⟨clauses, next, done, ended, equal⟩ := written.tail depth middle tail (by omega) follows left
    refine ⟨_, next, ?_, ended, addTo_bare same equal⟩
    refine bind_ok (bind_ok noWith (pure_apply ..)) (bind_ok begun ?_)
    refine bind_ok (repeats.loop (setOpStep_stops chain left _ read)) (bind_ok done ?_)
    rw [addCtes_nil]
    rfl

/-- A term that is printed without parentheses has no `OFFSET`. -/
def Query.Shielded (right : Bool) (q : Query) : Prop := q.needsParens right = true ∨ q.tail.offset = none

theorem Query.tail_of_plain {right : Bool} (shielded : q.Shielded right) (plain : q.needsParens right = false) :
    q.tail.IsEmpty ∧ (right = true → q.isSelect = true) := by
  have offset : q.tail.offset = none := by
    obtain parens | offset := shielded
    · rw [plain] at parens
      cases parens
    · exact offset
  cases q with
  | select s =>
    simp only [Query.needsParens, Bool.or_eq_false_iff, Bool.not_eq_false', List.isEmpty_iff,
      Option.isSome_eq_false_iff,
      Option.isNone_iff_eq_none] at plain
    exact ⟨⟨plain.1.1, plain.1.2, offset⟩, fun _ => rfl⟩
  | setOp =>
    simp only [Query.needsParens, Bool.or_eq_false_iff, Bool.not_eq_false', List.isEmpty_iff,
      Option.isSome_eq_false_iff,
      Option.isNone_iff_eq_none] at plain
    exact ⟨⟨plain.1.2, plain.2, offset⟩, fun isRight => by rw [plain.1.1] at isRight; cases isRight⟩

theorem WrittenQuery.left (ready : d.ReadsQueries)
    (written : WrittenQuery d q text back ts us) (shielded : q.Shielded false) :
    ∃ vs, WrittenTerms d q (Printer.paren (q.needsParens false) (text ++ back)) vs := by
  cases parens : q.needsParens false with
  | true =>
    have whole := written.whole ready
    exact ⟨_, written_term (enclosed_spelled ready.regular.lexicon whole.spelled)
      whole.starts.enclosed whole.enclosed_parses⟩
  | false =>
    obtain ⟨empty, _⟩ := Query.tail_of_plain shielded parens
    obtain ⟨rfl, rfl⟩ := written.missing empty
    have terms := written.terms
    rw [Query.core_eq empty] at terms
    exact ⟨ts, by simpa [Printer.paren] using terms⟩

theorem WrittenQuery.right (ready : d.ReadsQueries)
    (written : WrittenQuery d q text back ts us) (shielded : q.Shielded true) :
    ∃ vs, Spells d.toLexicon (Printer.paren (q.needsParens true) (text ++ back)).toList vs ∧
      StartsQuery vs ∧ Parses d (queryTerm d) termEnds (fun read => read.bare = q.bare) vs := by
  cases parens : q.needsParens true with
  | true =>
    have whole := written.whole ready
    exact ⟨_, enclosed_spelled ready.regular.lexicon whole.spelled, whole.starts.enclosed, whole.enclosed_parses⟩
  | false =>
    obtain ⟨empty, isSelect⟩ := Query.tail_of_plain shielded parens
    obtain ⟨rfl, rfl⟩ := written.missing empty
    have single := written.single (isSelect rfl)
    rw [Query.core_eq empty] at single
    exact ⟨ts, by simpa [Printer.paren] using written.terms.spelled, written.terms.starts, single⟩

end Query

section Tail

variable {q : Query} {text : String} {orders : List String} {limit offset : Option String} {os : List Token}
  {ls fs : Option (List Token)}

/-- The text of the clauses behind the terms. -/
def tailText (d : Dialect) (orders : List String) (limit offset : Option String) : String :=
  ({ dialect := d } : Printer).tailText orders limit offset

theorem tailText_printed {p : Printer} (target : p.dialect = d) :
    p.tailText orders limit offset = tailText d orders limit offset := by
  subst target
  rfl

theorem written_query (ready : d.ReadsQueries) (terms : WrittenTerms d q.core text ts)
    (single : q.isSelect = true → Parses d (queryTerm d) termEnds (fun read => read.bare = q.core.bare) ts)
    (clauses : WrittenTail d q.tail orders limit offset os ls fs)
    (printed : ∀ p : Printer, p.dialect = d → p.keyed = false →
      p.queryText q = .ok (text ++ tailText d orders limit offset)) :
    WrittenQuery d q text (tailText d orders limit offset) ts (tailTokens d os ls fs) := by
  refine ⟨printed, terms, single, clauses.spelled ready rfl, clauses.parses ready,
    fun tail follows => ?_, fun empty => ?_⟩
  · have within : ∀ head ∈ queryEnds, head ∈ chainEnds := fun head member => List.mem_append_right _ member
    exact clauses.follows (follows.mono within) (by decide)
  · obtain ⟨noTokens, rfl, rfl, rfl⟩ := clauses.missing empty
    refine ⟨?_, noTokens⟩
    unfold tailText Printer.tailText
    split <;> rfl

end Tail

/-! ### Set operations -/

section SetOperation

variable {left right : Query} {leftText rightText leftBack rightBack op : String}
    {orderBy : List OrderItem} {limit : Option Expr}
  {us vs ws : List Token}

def setOpWords (op : String) (all : Bool) : List String := if all then [op, "ALL"] else [op]

private theorem setOp_known : ∀ op ∈ ["UNION", "INTERSECT", "EXCEPT"], op ∈ queryWords ∧ .word op ∈ termEnds ∧
    op ∈ ["UNION", "INTERSECT", "EXCEPT", "MINUS"] ∧ op ≠ "MINUS" := by
  decide

private theorem setOpStep_shows (known : op ∈ ["UNION", "INTERSECT", "EXCEPT"]) (all : Bool)
    (starts : StartsQuery us)
    (parses : Parses d (queryTerm d) termEnds (fun read => read.bare = right.bare) us) (depth : Nat) {tail : List Token}
    (enough : us.length < depth) (follows : Follows d.toLexicon termEnds tail)
    (shown : c.Shows ((setOpWords op all).map (word d.toLexicon) ++ (us ++ tail))) (read : Query) :
    ∃ second next, setOpStep d (grammar d depth) read c =
    .ok (some (.setOp c.current.pos op all read second [] none), next) ∧
      next.Shows tail ∧ second.bare = right.bare := by
  obtain ⟨listed, _, joins, noMinus⟩ := setOp_known op known
  have more : us ++ tail ≠ [] := List.append_ne_nil_of_right_ne_nil us follows.nonempty
  have no {m : Cursor} (shown : m.Shows (us ++ tail)) (w : String) (other : "SELECT" ≠ w) : m.current.is w = false := by
    obtain ⟨one, rest, rfl, opens⟩ := starts.opens
    rw [← is_bare, Cursor.Shows.current shown]
    exact opens.is other
  have current : c.current.bare = word d.toLexicon op := by cases all <;> exact Cursor.Shows.current shown
  have upper : c.current.upper = op := by rw [← upper_bare, current, upper_word, upper_queryWord op listed]
  have isOp : acceptAny ["UNION", "INTERSECT", "EXCEPT", "MINUS"] c = .ok (true, c.advance) := by
    cases all <;> exact accept_word listed _ joins shown
  -- behind the operator stands `ALL`, or the term itself
  obtain ⟨middle, accepted, after⟩ : ∃ middle, accept "ALL" c.advance = .ok (all, middle) ∧
    middle.Shows (us ++ tail) := by
    cases all with
    | true =>
      have shown : c.Shows (word d.toLexicon op :: word d.toLexicon "ALL" :: (us ++ tail)) := shown
      exact ⟨_, accept_word (by decide) ["ALL"] (by decide) shown.advance, shown.advance.advance' more⟩
    | false =>
      have after : c.advance.Shows (us ++ tail) := Cursor.Shows.advance' shown more
      exact ⟨_, accept_none (by simpa using no after "ALL" (by decide)), after⟩
  obtain ⟨second, next, done, ended, equal⟩ := parses depth middle tail enough follows after
  have noDistinct : accept "DISTINCT" middle = .ok (false, middle) :=
    accept_none (by simpa using no after "DISTINCT" (by decide))
  refine ⟨second, next, ?_, ended, equal⟩
  refine bind_ok (current_apply c) (bind_ok isOp (bind_ok accepted (bind_ok noDistinct (bind_ok done ?_))))
  rw [upper, if_neg noMinus]
  rfl

theorem terms_joined (ready : d.ReadsQueries) (known : op ∈ ["UNION", "INTERSECT", "EXCEPT"]) (all : Bool)
    (first : WrittenTerms d left leftText ts) (spelled : Spells d.toLexicon rightText.toList us)
    (starts : StartsQuery us)
    (parses : Parses d (queryTerm d) termEnds (fun read => read.bare = right.bare) us) (pos : Position) :
    WrittenTerms d (.setOp pos op all left right [] none)
    (leftText ++ " " ++ op ++ (if all then " ALL" else "") ++ " " ++ rightText)
      (ts ++ ((setOpWords op all).map (word d.toLexicon) ++ us)) := by
  have regular := ready.regular.lexicon
  obtain ⟨listed, ends, _⟩ := setOp_known op known
  refine ⟨?_, first.starts.append _, fun depth c tail enough follows shown => ?_⟩
  · have words : ∀ w ∈ setOpWords op all, w ∈ queryWords := by
      cases all with
      | true => exact List.forall_mem_cons.mpr ⟨listed, by decide⟩
      | false => exact List.forall_mem_cons.mpr ⟨listed, by simp⟩
    have behind := (spellsTail_words regular words).append regular (.inr ⟨_, rfl, spelled⟩)
    have whole := first.spelled.clauses regular behind
    have shape : wordsText (setOpWords op all) = ' ' :: (op ++ if all then " ALL" else "").toList := by
      cases all <;> simp [setOpWords, wordsText]
    simpa [shape] using whole
  · simp only [List.length_append] at enough
    rw [List.append_assoc, List.append_assoc] at shown
    have another : Follows d.toLexicon termEnds ((setOpWords op all).map (word d.toLexicon) ++ (us ++ tail)) := by
      refine ⟨.word op, ends, by simp [allHeads, listed], ?_⟩
      cases all <;> exact ⟨_, rfl⟩
    obtain ⟨one, start, read, middle, begun, repeats, left, same⟩ := first.chained depth c _ (by omega) another shown
    obtain ⟨second, next, stepped, ended, equal⟩ :=
      setOpStep_shows known all starts parses depth (by omega) follows left read
    have shorter : next.rest.length < middle.rest.length := by
      refine left.shorter ended ?_
      simp only [List.length_append]
      cases all <;> simp [setOpWords] <;> omega
    refine ⟨one, start, _, next, begun, repeats.snoc stepped shorter, ended, ?_⟩
    simp only [Query.bare, same, equal]

theorem written_setOp (ready : d.ReadsQueries) (known : op ∈ ["UNION", "INTERSECT", "EXCEPT"]) (all : Bool)
    (first : WrittenQuery d left leftText leftBack ts us) (second : WrittenQuery d right rightText rightBack vs ws)
    (shieldedLeft : left.Shielded false) (shieldedRight : right.Shielded true)
    (clauses : TailTree d { orderBy, limit }) (pos : Position) :
    ∃ text back ts us, WrittenQuery d (.setOp pos op all left right orderBy limit) text back ts us := by
  obtain ⟨_, terms⟩ := first.left ready shieldedLeft
  obtain ⟨_, spelled, starts, parses⟩ := second.right ready shieldedRight
  have joined := terms_joined ready known all terms spelled starts parses pos
  obtain ⟨orders, limitText, offsetText, _, _, _, behind⟩ := clauses.exists_written ready
  refine ⟨_, _, _, _, written_query ready joined (by nofun) behind fun p target unkeyed => ?_⟩
  have ordered := orderBy_printed behind.ordered target unkeyed
  have limited := behind.limited.printed target unkeyed
  obtain rfl : offsetText = none := by
    have shifted := behind.shifted.printed target unkeyed
    exact (Except.ok.inj shifted).symm
  rw [Printer.queryText, (first.whole ready).printed p target unkeyed, (second.whole ready).printed p target unkeyed]
  simp only [bind, Except.bind, ordered, limited, pure, Except.pure]
  rw [tailText_printed target]

end SetOperation

/-! ### Selects -/

/-- What stands behind the items of a select. -/
def itemEnds : List Head := .word "FROM" :: fromEnds

theorem bareExprs_alike {read values : List Expr} (alike : List.Forall₂ (fun r e => r.bare = e.bare) read values) :
    bareExprs read = bareExprs values := by
  induction alike with
  | nil => rfl
  | cons same _ ih => rw [bareExprs, bareExprs, same, ih]

theorem bareItems_alike {read items : List SelectItem} (alike : List.Forall₂ SelectItem.Alike read items) :
    bareItems read = bareItems items := by
  induction alike with
  | nil => rfl
  | @cons one other read items same _ ih =>
    obtain ⟨e, label⟩ := one
    obtain ⟨e', label'⟩ := other
    obtain ⟨value, rfl⟩ : e.bare = e'.bare ∧ label = label' := same
    rw [bareItems, bareItems, value, ih]

theorem bareOption_alike {read value : Option Expr} (alike : Option.Rel (fun r e => r.bare = e.bare) read value) :
    bareOption read = bareOption value := by
  cases alike with
  | none => rfl
  | some same => exact congrArg some same

theorem bareSource_alike {read source : Option TableExpr}
    (alike : Option.Rel (fun r t => r.bare = t.bare) read source) :
    bareSource read = bareSource source := by
  cases alike with
  | none => rfl
  | some same => exact congrArg some same

/-- The parts of a select with their texts and tokens. -/
structure WrittenSelect (d : Dialect) (s : Select) (items : List String) (source condition : Option String)
    (groups : List String) (having : Option String) (is fs cs gs hs : List Token) : Prop where
  bindings : s.ctes = []
  views : s.lateralViews = []
  items : Series (WrittenItem d) s.items items is
  source : Optional d.toLexicon "FROM" (WrittenTable d) s.source source fs
  condition : Optional d.toLexicon "WHERE" (WrittenValue d) s.condition condition cs
  groups : ListClause d.toLexicon ["GROUP", "BY"] (WrittenValue d) s.groupBy groups gs
  having : Optional d.toLexicon "HAVING" (WrittenValue d) s.having having hs

section Select

variable {s : Select} {items groups : List String}
    {source condition having : Option String} {is fs cs gs hs : List Token}

/-- What stands behind each clause, the last one first. -/
private theorem WrittenSelect.ends (written : WrittenSelect d s items source condition groups having is fs cs gs hs)
    {tail : List Token} (follows : Follows d.toLexicon termEnds tail) :
    Follows d.toLexicon itemEnds (fs ++ (cs ++ (gs ++ (hs ++ tail)))) ∧
      Follows d.toLexicon fromEnds (cs ++ (gs ++ (hs ++ tail))) ∧
      Follows d.toLexicon (.word "GROUP" :: .word "HAVING" :: termEnds) (gs ++ (hs ++ tail)) ∧
      Follows d.toLexicon (.word "HAVING" :: termEnds) (hs ++ tail) := by
  have atHaving : Follows d.toLexicon (.word "HAVING" :: termEnds) (hs ++ tail) :=
    written.having.follows (by decide) List.mem_cons_self (follows.mono fun head => List.mem_cons_of_mem _)
  have atGroup : Follows d.toLexicon (.word "GROUP" :: .word "HAVING" :: termEnds) (gs ++ (hs ++ tail)) :=
    written.groups.follows (by decide) List.mem_cons_self (atHaving.mono fun head => List.mem_cons_of_mem _)
  have atWhere : Follows d.toLexicon fromEnds (cs ++ (gs ++ (hs ++ tail))) :=
    written.condition.follows (by decide) (by decide) (atGroup.mono (by decide))
  have atFrom : Follows d.toLexicon itemEnds (fs ++ (cs ++ (gs ++ (hs ++ tail)))) :=
    written.source.follows (by decide) List.mem_cons_self (atWhere.mono fun head => List.mem_cons_of_mem _)
  exact ⟨atFrom, atWhere, atGroup, atHaving⟩

theorem WrittenValue.parses_before (ready : d.ReadsQueries)
    (within : ∀ head ∈ heads, head ∈ allHeads) (e : Expr) (text : String)
    (ts : List Token) (written : WrittenValue d e text ts) :
    Parses d Grammar.value heads (fun read => read.bare = e.bare) ts :=
  (Written.parses ready written).mono within

private theorem groups_parse (ready : d.ReadsQueries) {values : List Expr}
    (clause : ListClause d.toLexicon ["GROUP", "BY"] (WrittenValue d) values groups gs)
      (depth : Nat) {tail : List Token}
    (enough : gs.length < depth) (follows : Follows d.toLexicon (.word "HAVING" :: termEnds) tail)
      (shown : c.Shows (gs ++ tail)) :
    ∃ read next, next.Shows tail ∧ bareExprs read = bareExprs values ∧ ∀ {β : Type} (k : List Expr → Parser β), (do
      if ← accept "GROUP" then
        expect "BY"
        k (← (grammar d depth).values)
      else
        k (← pure []) : Parser β) c = k read next := by
  cases clause with
  | missing =>
    have noGroup : accept "GROUP" c = .ok (false, c) :=
      accept_none (by simpa using follows.is shown (w := "GROUP") (by decide))
    exact ⟨[], c, shown, rfl, fun k => bind_ok noGroup (bind_ok (pure_apply ..) rfl)⟩
  | @present values texts ts series =>
    have shown : c.Shows (word d.toLexicon "GROUP" :: word d.toLexicon "BY" :: (ts ++ tail)) := shown
    have start := shown.advance.advance' (List.append_ne_nil_of_right_ne_nil ts follows.nonempty)
    simp only [List.map_cons, List.map_nil, List.length_append, List.length_cons, List.length_nil] at enough
    obtain ⟨read, next, done, left, alike⟩ :=
      series.parses (WrittenValue.parses_before ready (by decide)) (by decide) depth _ tail (by omega) follows start
    refine ⟨read, next, left, bareExprs_alike alike, fun k => ?_⟩
    refine bind_ok (accept_word (by decide) ["GROUP"] (by decide) shown) ?_
    exact bind_ok (expect_word (by decide) shown.advance) (bind_ok done rfl)

/-- No view stands behind the tables. -/
private theorem no_views {tail : List Token} (follows : Follows d.toLexicon fromEnds tail)
    (shown : c.Shows tail) (g : Grammar) :
    lateralViews? d g c = .ok (none, c) := by
  have is (w : String) (absent : .word w ∉ fromEnds) : c.current.is w = false := follows.is shown absent
  have noStart : startsWith c ["LATERAL", "VIEW"] = false := by
    have current : (c.ahead 0).is "LATERAL" = false := is "LATERAL" (by decide)
    simp [startsWith, current]
  have noSeq : acceptSeq ["LATERAL", "VIEW"] c = .ok (false, c) := by
    refine bind_ok (get_apply c) ?_
    rw [noStart]
    rfl
  refine bind_ok (position_apply c) (bind_ok noSeq ?_)
  simp only [bind_apply, curIs_apply, peekIs, get_apply, ok_bind, is "ARRAY" (by decide),
    is "LEFT" (by decide), Bool.false_and,
    Bool.or_false, Bool.false_eq_true, if_false, pure_apply]

/-- What a select reads behind its items. -/
private def selectClauses (d : Dialect) (g : Grammar) (pos : Position) (distinct : Bool) (limit : Option Expr)
    (items : List SelectItem) : Parser Select := do
  let source ← if ← accept "FROM" then some <$> tablesStep d g else pure none
  let lateralViews ← loop (fun views => do
    match ← lateralViews? d g with
    | some more => return some (views ++ more)
    | none => return none) []
  let condition ← if ← acceptAny ["PREWHERE", "WHERE"] then some <$> g.value else pure none
  let groupBy ← do
    if ← accept "GROUP" then
      expect "BY"
      g.values
    else pure []
  let having ← if ← accept "HAVING" then some <$> g.value else pure none
  return { pos, distinct, items, source, lateralViews, condition, groupBy, having, limit }

private theorem clauses_parse (ready : d.ReadsQueries)
    (written : WrittenSelect d s items source condition groups having is fs cs gs hs)
    (depth : Nat) {tail : List Token} (enough : (fs ++ (cs ++ (gs ++ hs))).length < depth)
      (follows : Follows d.toLexicon termEnds tail)
    (shown : c.Shows (fs ++ (cs ++ (gs ++ (hs ++ tail))))) (pos : Position) (list : List SelectItem)
    (alike : List.Forall₂ SelectItem.Alike list s.items) :
    ∃ read next, selectClauses d (grammar d depth) pos s.distinct none list c = .ok (read, next) ∧ next.Shows tail ∧
      (Query.select read).bare = (Query.select s).core.bare := by
  simp only [List.length_append] at enough
  obtain ⟨_, ends, atGroup, atHaving⟩ := written.ends follows
  have table (t : TableExpr) (text : String) (ts : List Token) (own : WrittenTable d t text ts) :
      Parses d (tablesStep d) fromEnds (fun read => read.bare = t.bare) ts := own.parses
  obtain ⟨found, start, readSource, first, isFrom, sourced, seen, sameSource⟩ :=
    written.source.parses ["FROM"] (by decide) (by decide) (by decide) table depth (by omega) ends shown
  obtain ⟨filtered, middle, readCondition, second, isWhere, conditioned, left, sameCondition⟩ :=
    written.condition.parses ["PREWHERE", "WHERE"] (by decide) (by decide) (by decide)
      (WrittenValue.parses_before ready (by decide)) depth (by omega) atGroup seen
  obtain ⟨readGroups, third, left, sameGroups, grouped⟩ :=
    groups_parse ready written.groups depth (by omega) atHaving left
  obtain ⟨kept, last, readHaving, next, isHaving, restricted, left, sameHaving⟩ :=
    written.having.parses ["HAVING"] (by decide) (by decide) (by decide)
      (WrittenValue.parses_before ready (by decide)) depth (by omega) follows left
  have viewless : loop (fun views => do
      match ← lateralViews? d (grammar d depth) with
      | some more => return some (views ++ more)
      | none => return none) [] first = .ok (([] : List LateralView), first) :=
    (Repeats.refl _ _ _).loop (bind_ok (no_views ends seen _) rfl)
  refine ⟨{ pos, distinct := s.distinct, items := list, source := readSource, condition :=
    readCondition, groupBy := readGroups,
            having := readHaving }, next, ?_, left, ?_⟩
  · refine bind_ok isFrom (branch_ok sourced (bind_ok viewless (bind_ok isWhere (branch_ok conditioned ?_))))
    exact (grouped _).trans (bind_ok isHaving (branch_ok restricted rfl))
  · obtain ⟨⟩ := s
    obtain rfl := written.bindings
    obtain rfl := written.views
    simp only [Query.core, Query.bare, Select.bare, bareItems_alike alike, bareSource_alike sameSource,
      bareOption_alike sameCondition,
      sameGroups, bareOption_alike sameHaving]

def selectTokens (lexicon : Lexicon) (distinct : Bool) (is fs cs gs hs : List Token) : List Token :=
  (if distinct then ["SELECT", "DISTINCT"] else ["SELECT"]).map (word lexicon) ++ (is ++ (fs ++ (cs ++ (gs ++ hs))))

private theorem items_start {list : List SelectItem} (series : Series (WrittenItem d) list items is) :
    ∃ first rest, is = first :: rest ∧ ∀ w ∈ selectWords, first.is w = false := by
  have own (item : SelectItem) (text : String) (ts : List Token) (written : WrittenItem d item text ts) :
      ∃ first rest, ts = first :: rest ∧ ∀ w ∈ selectWords, first.is w = false := by
    cases written with
    | star => exact ⟨_, _, rfl, fun w _ => rfl⟩
    | value kept written begins =>
      obtain ⟨first, rest, rfl, _⟩ := written.headed
      exact ⟨first, _, rfl, (begins.head written.spelled).1⟩
  cases series with
  | single written => exact own _ _ _ written
  | cons written _ =>
    obtain ⟨first, rest, rfl, starts⟩ := own _ _ _ written
    exact ⟨first, _, rfl, starts⟩

private theorem items_parse (ready : d.ReadsQueries)
    (written : WrittenSelect d s items source condition groups having is fs cs gs hs)
    (depth : Nat) {tail : List Token} (enough : (is ++ (fs ++ (cs ++ (gs ++ hs)))).length < depth)
    (follows : Follows d.toLexicon termEnds tail)
      (shown : c.Shows (is ++ (fs ++ (cs ++ (gs ++ (hs ++ tail)))))) (pos : Position) :
    (∀ w ∈ selectWords, accept w c = .ok (false, c)) ∧ ∃ read next, (do
      let limit ← if ← accept "TOP" then some <$> (grammar d depth).operand else pure none
      let items ← commaList (selectItem d (grammar d depth))
      selectClauses d (grammar d depth) pos s.distinct limit items :
      Parser Select) c = .ok (read, next) ∧ next.Shows tail ∧
        (Query.select read).bare = (Query.select s).core.bare := by
  have no : ∀ w ∈ selectWords, accept w c = .ok (false, c) := by
    intro w member
    obtain ⟨first, rest, rfl, starts⟩ := items_start written.items
    have current : c.current.bare = first := Cursor.Shows.current shown
    refine accept_none ?_
    rw [List.any_cons, List.any_nil, Bool.or_false, ← is_bare, current]
    exact starts w member
  rw [List.length_append] at enough
  obtain ⟨atFrom, _⟩ := written.ends follows
  have each := @WrittenItem.parses d (.mark "," :: itemEnds) ready (by decide) (by decide)
  obtain ⟨list, middle, listed, left, alike⟩ := written.items.parses each (by decide) depth c _ (by omega) atFrom shown
  obtain ⟨read, next, done, ended, same⟩ := clauses_parse ready written depth (by omega) follows left pos list alike
  exact ⟨no, read, next, bind_ok (no "TOP" (by decide)) (bind_ok (pure_apply ..) (bind_ok listed done)), ended, same⟩

private theorem select_parses (ready : d.ReadsQueries)
    (written : WrittenSelect d s items source condition groups having is fs cs gs hs) :
    Parses d (queryTerm d) termEnds (fun read => read.bare = (Query.select s).core.bare)
      (selectTokens d.toLexicon s.distinct is fs cs gs hs) := by
  intro depth c tail enough follows shown
  rw [selectTokens, List.length_append] at enough
  simp only [selectTokens, List.append_assoc] at shown
  have nonempty {front : List Token} : front ++ (fs ++ (cs ++ (gs ++ (hs ++ tail)))) ≠ [] :=
    List.append_ne_nil_of_right_ne_nil _ (written.ends follows).1.nonempty
  have select : c.current.bare = word d.toLexicon "SELECT" := by
    cases distinct : s.distinct <;> rw [distinct] at shown <;> exact Cursor.Shows.current shown
  have noGroup : acceptOp "(" c = .ok (false, c) := by
    rw [acceptOp_apply, ← isOp_bare, select, isOp_word]
    rfl
  suffices ∃ read next, selectStep d (grammar d depth) c = .ok (read, next) ∧ next.Shows tail ∧
      (Query.select read).bare = (Query.select s).core.bare by
    obtain ⟨read, next, done, left, same⟩ := this
    exact ⟨.select read, next, bind_ok noGroup (bind_ok done rfl), left, same⟩
  cases distinct : s.distinct with
  | true =>
    rw [distinct] at shown
    have shown : c.Shows (word d.toLexicon "SELECT" :: word d.toLexicon "DISTINCT" ::
      (is ++ (fs ++ (cs ++ (gs ++ (hs ++ tail)))))) := shown
    have start := shown.advance.advance' nonempty
    obtain ⟨_, read, next, done, left, same⟩ := items_parse ready written depth (by omega) follows start c.current.pos
    rw [distinct] at done
    refine ⟨read, next, ?_, left, same⟩
    refine bind_ok (position_apply c) (bind_ok (expect_word (by decide) shown) ?_)
    exact bind_ok (accept_word (by decide) ["DISTINCT"] (by decide) shown.advance) done
  | false =>
    rw [distinct] at shown
    have shown : c.Shows (word d.toLexicon "SELECT" :: (is ++ (fs ++ (cs ++ (gs ++ (hs ++ tail)))))) := shown
    have start := shown.advance' nonempty
    obtain ⟨no, read, next, done, left, same⟩ := items_parse ready written depth (by omega) follows start c.current.pos
    rw [distinct] at done
    refine ⟨read, next, ?_, left, same⟩
    refine bind_ok (position_apply c) (bind_ok (expect_word (by decide) shown) ?_)
    exact bind_ok (no "DISTINCT" (by decide)) (bind_ok (no "ALL" (by decide)) done)

/-- The text of a select in front of the clauses behind it. -/
def selectText (distinct : Bool) (items : List String) (source condition : Option String) (groups : List String)
    (having : Option String) : String :=
  "SELECT " ++ (if distinct then "DISTINCT " else "") ++ Printer.commas items ++ Printer.clause " FROM " source ++
    Printer.clause " WHERE " condition ++ Printer.listClause " GROUP BY " groups ++ Printer.clause " HAVING " having

private theorem select_spelled (ready : d.ReadsQueries)
    (written : WrittenSelect d s items source condition groups having is fs cs gs hs) (distinct : Bool) :
    Spells d.toLexicon (selectText distinct items source condition groups having).toList
      (selectTokens d.toLexicon distinct is fs cs gs hs) := by
  have regular := ready.regular.lexicon
  have value (e : Expr) (text : String) (ts : List Token) (own : WrittenValue d e text ts) :
    Spells d.toLexicon text.toList ts :=
    own.spelled
  have table (t : TableExpr) (text : String) (ts : List Token) (own : WrittenTable d t text ts) :
      Spells d.toLexicon text.toList ts := own.spelled
  have list := written.items.spelled regular (WrittenItem.spelled ready)
  have source := written.source.spelled regular (by decide) " FROM " (by decide) table
  have condition := written.condition.spelled regular (by decide) " WHERE " (by decide) value
  have groups := written.groups.spelled regular (by decide) " GROUP BY " (by decide) value
  have having := written.having.spelled regular (by decide) " HAVING " (by decide) value
  have whole := list.clauses regular
    (source.append regular (condition.append regular (groups.append regular having)))
  cases distinct with
  | true =>
    have spelled := (spells_queryWord regular (w := "SELECT") (by decide)).spaced regular
      ((spells_queryWord regular (w := "DISTINCT") (by decide)).spaced regular whole)
    simpa [selectText, selectTokens] using spelled
  | false =>
    have spelled := (spells_queryWord regular (w := "SELECT") (by decide)).spaced regular whole
    simpa [selectText, selectTokens] using spelled

private theorem optional_printed {value : Option Expr} {text : Option String} {w : String}
    (clause : Optional d.toLexicon w (WrittenValue d) value text ts) {p : Printer} (target : p.dialect = d)
    (unkeyed : p.keyed = false) : p.exprOption value = .ok text := by
  cases clause with
  | missing => rfl
  | present own =>
    rw [Printer.exprOption, own.printed p target unkeyed]
    rfl

private theorem source_printed {value : Option TableExpr} {text : Option String} {w : String}
    (clause : Optional d.toLexicon w (WrittenTable d) value text ts) {p : Printer} (target : p.dialect = d)
    (unkeyed : p.keyed = false) : p.tableOption value = .ok text := by
  cases clause with
  | missing => rfl
  | present own =>
    rw [Printer.tableOption, own.printed p target unkeyed]
    rfl

private theorem groups_printed {values : List Expr} {texts : List String} {ws : List String}
    (clause : ListClause d.toLexicon ws (WrittenValue d) values texts ts) {p : Printer} (target : p.dialect = d)
    (unkeyed : p.keyed = false) : p.exprs values = .ok texts := by
  cases clause with
  | missing => rfl
  | present series =>
    induction series with
    | single own =>
      rw [Printer.exprs_cons, own.printed p target unkeyed]
      rfl
    | cons own _ ih =>
      rw [Printer.exprs_cons, own.printed p target unkeyed, ih]
      rfl

theorem written_select (ready : d.ReadsQueries)
    (written : WrittenSelect d s items source condition groups having is fs cs gs hs)
    (clauses : TailTree d (Query.select s).tail) : ∃ text back ts us, WrittenQuery d (.select s) text back ts us := by
  obtain ⟨orders, limit, offset, os, ls, offs, behind⟩ := clauses.exists_written ready
  have starts : StartsQuery (selectTokens d.toLexicon s.distinct is fs cs gs hs) := by
    have select : (word d.toLexicon "SELECT").is "SELECT" = true := by
      rw [is_word, upper_queryWord "SELECT" (by decide)]
      rfl
    cases distinct : s.distinct <;> exact ⟨_, _, rfl, .inl select⟩
  have parses := select_parses ready written
  have terms : WrittenTerms d (Query.select s).core _ _ :=
    written_term (select_spelled ready written s.distinct) starts parses
  refine ⟨_, _, _, _, written_query ready terms (fun _ => parses) behind fun p target unkeyed => ?_⟩
  have itemTexts := items_printed target unkeyed written.items
  have sourceText := source_printed written.source target unkeyed
  have conditionText := optional_printed written.condition target unkeyed
  have groupTexts := groups_printed written.groups target unkeyed
  have havingText := optional_printed written.having target unkeyed
  have orderTexts := orderBy_printed behind.ordered target unkeyed
  have limitText := behind.limited.printed target unkeyed
  have offsetText := behind.shifted.printed target unkeyed
  obtain ⟨bindings, views⟩ := written
  cases s
  dsimp only [Query.tail] at *
  subst bindings views
  rw [Printer.queryText, Printer.select]
  simp only [Printer.cteTexts, Printer.views, itemTexts, sourceText, conditionText, groupTexts, havingText,
    orderTexts, limitText,
    offsetText, bind, Except.bind, pure, Except.pure, tailText_printed target]
  split <;> simp [selectText, String.append_assoc]

end Select

end SqlDialects
