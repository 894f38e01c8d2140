import SqlDialects.Proofs.WrittenStatements

/-! Scripts of queries, values, drops, views and tables. A script of them is read as as many statements, and each as
its own text. -/

namespace SqlDialects

open Token SqlDialects.Parser

variable {d : Dialect}

/-- Queries, values whose text does not start with two parentheses, drops, views of a query, and tables of a query or
of columns with a comment. -/
inductive StatementTree (d : Dialect) : Statement → Prop
  | query {q : Query} (tree : QueryTree d q) : StatementTree d (.query q)
  | value {e : Expr} {text : String} (pos : Position) (tree : ValueTree d e)
    (printed : ({ dialect := d } : Printer).expr e = .ok text) (plain : ¬OpensTwice text) :
    StatementTree d (.expression pos e)
  | drop {object : String} {first : Ident} {rest : List Ident} (pos : Position) (known : object ∈ ["TABLE", "VIEW"])
    (ifExists : Bool) (kept : ∀ id ∈ first :: rest, id.Kept d) :
    StatementTree d (.drop pos object ifExists (first :: rest))
  | view {q : Query} {first : Ident} {rest : List Ident} (pos : Position) (orReplace temporary ifNotExists : Bool)
    (kept : ∀ id ∈ first :: rest, id.Kept d) (tree : QueryTree d q) :
    StatementTree d (.createView { pos, orReplace, temporary, ifNotExists, name := first :: rest, query := q })
  | table {q : Query} {first : Ident} {rest : List Ident} (pos : Position) (temporary ifNotExists : Bool)
    (kept : ∀ id ∈ first :: rest, id.Kept d) (tree : QueryTree d q) :
    StatementTree d (.createTable { pos, temporary, ifNotExists, name := first :: rest, query := some q })
  | columns {columns : List ColumnDef} {query : Option Query} {first : Ident} {rest : List Ident} (pos : Position)
    (temporary ifNotExists : Bool) (comment : Option String) (kept : ∀ id ∈ first :: rest, id.Kept d)
    (nonempty : columns ≠ []) (each : ∀ column ∈ columns, ColumnTree d column) (asked : ∀ q ∈ query, QueryTree d q) :
    StatementTree d
      (.createTable { pos, temporary, ifNotExists, name := first :: rest, columns, comment, query })

private theorem createdTable_printed {p : Printer} {pos : Position} {temporary ifNotExists : Bool} {first : Ident}
    {rest : List Ident} {q : Query} {text : String} (printed : p.queryText q = .ok text)
    (path : p.path (first :: rest) = columnText p.dialect.toLexicon first rest) :
    p.statement (.createTable { pos, temporary, ifNotExists, name := first :: rest, query := some q }) =
      .ok (createText p.dialect.toLexicon "TABLE" false temporary ifNotExists first rest (" AS " ++ text)) := by
  simp [Printer.statement, Printer.createTable, Printer.tableBody, Printer.tableClauses, Printer.tableHead,
    Printer.rawProperties, Printer.keyModel, Printer.clause, Printer.propertyLists, Printer.sortKey, Printer.isBareCopy,
    createText, createWords, printed, path, bind, Except.bind, pure, Except.pure, String.append_assoc,
    temporaryWords_text, absentWords_text, replaceWords, String.join_cons, String.join_append]

theorem StatementTree.standalone (ready : d.ReadsQueries) {s : Statement} (tree : StatementTree d s) :
    ∃ text ts, (∀ p : Printer, p.dialect = d → p.keyed = false → p.statement s = .ok text) ∧
      Spells d.toLexicon text.toList ts ∧ Standalone d (·.bare = s.bare) ts := by
  cases tree with
  | query tree =>
    obtain ⟨_, _, _, _, written⟩ := tree.written ready
    have whole := written.whole ready
    refine ⟨_, _, whole.printed, whole.spelled, whole.standalone.mono ?_⟩
    rintro _ ⟨read, rfl, same⟩
    exact congrArg Statement.query same
  | value pos tree printed plain =>
    obtain ⟨text, ts, written⟩ := tree.exists_written ready
    obtain rfl := Except.ok.inj (printed.symm.trans (written.printed { dialect := d } rfl rfl))
    refine ⟨_, ts, written.printed, written.spelled, (Written.standalone ready written plain).mono ?_⟩
    rintro _ ⟨place, read, rfl, same⟩
    exact congrArg (Statement.expression {}) same
  | @drop object first rest pos known ifExists kept =>
    refine ⟨dropText d.toLexicon object ifExists first rest, _, fun p target unkeyed => ?_,
      spells_drop ready known ifExists kept, (drop_standalone known ifExists (kept first List.mem_cons_self)).mono ?_⟩
    · rw [Printer.statement, path_printed kept target unkeyed, dropText]
    · rintro _ ⟨place, rfl⟩
      rfl
  | @view q first rest pos orReplace temporary ifNotExists kept tree =>
    obtain ⟨_, _, _, _, written⟩ := tree.written ready
    have whole := written.whole ready
    have spelled := spellsTail_as ready.regular.lexicon whole.spelled
    refine ⟨_, _, fun p target unkeyed => ?_,
      spells_create ready (by decide) orReplace temporary ifNotExists kept spelled,
      (view_standalone whole orReplace temporary ifNotExists (kept first List.mem_cons_self)).mono ?_⟩
    · rw [Printer.statement, Printer.createView, whole.printed p target unkeyed, path_printed kept target unkeyed]
      simp [createText, createWords, Printer.columnList, bind, Except.bind, pure, Except.pure, String.append_assoc,
        replaceWords_text, temporaryWords_text, absentWords_text, String.join_cons, String.join_append]
    · rintro _ ⟨place, read, same, rfl⟩
      simp [Statement.bare, CreateView.bare, same]
  | @table q first rest pos temporary ifNotExists kept tree =>
    obtain ⟨_, _, _, _, written⟩ := tree.written ready
    have whole := written.whole ready
    have spelled := spellsTail_as ready.regular.lexicon whole.spelled
    refine ⟨_, _, fun p target unkeyed => ?_, spells_create ready (by decide) false temporary ifNotExists kept spelled,
      (table_standalone whole temporary ifNotExists (kept first List.mem_cons_self)).mono ?_⟩
    · subst target
      exact createdTable_printed (whole.printed p rfl unkeyed) (path_printed kept rfl unkeyed)
    · rintro _ ⟨place, read, same, rfl⟩
      simp [Statement.bare, CreateTable.bare, same]
  | @columns columns query first rest pos temporary ifNotExists comment kept nonempty each asked =>
    obtain ⟨texts, us, series⟩ := exists_columns ready nonempty each
    obtain ⟨text, ts, source⟩ := exists_source ready asked
    have spelled := spells_tableText ready.regular.lexicon series comment source
    refine ⟨_, _, fun p target unkeyed => ?_, spells_create ready (by decide) false temporary ifNotExists kept spelled,
      (columnTable_standalone series comment source temporary ifNotExists (kept first List.mem_cons_self)).mono ?_⟩
    · subst target
      exact columnTable_printed unkeyed series comment source pos temporary ifNotExists (path_printed kept rfl unkeyed)
    · rintro _ ⟨place, read, query', same, equal, rfl⟩
      simp [Statement.bare, CreateTable.bare, same, equal]

/-- A numbered column that is never empty. -/
example : StatementTree MySql.profile.dialect (.createTable {
    pos := {}, name := [⟨"t", false⟩], comment := some "kept"
    columns := [{ pos := {}, name := ⟨"id", false⟩, type := { name := "INT" }, notNull := true,
                  autoIncrement := true }] }) := by
  have kept {name : String} (known : name ∈ ["t", "id"]) : (⟨name, false⟩ : Ident).Kept MySql.profile.dialect := by
    simp only [List.mem_cons, List.not_mem_nil, or_false] at known
    obtain rfl | rfl := known <;> exact fun _ => ⟨⟨_, _, rfl, by decide, by decide⟩, by decide +kernel⟩
  have typed : KeptType MySql.profile.dialect { name := "INT" } :=
    ⟨rfl, by decide, by decide +kernel, "INT", [], ⟨_, _, rfl, by decide, by decide⟩, by decide +kernel,
      fun pos => ⟨{ pos, name := "INT" }, by cbv, rfl⟩⟩
  have column : ColumnTree MySql.profile.dialect
      { pos := {}, name := ⟨"id", false⟩, type := { name := "INT" }, notNull := true, autoIncrement := true } :=
    ⟨kept (by decide), fun _ => by decide +kernel, typed, by simp⟩
  exact .columns {} false false (some "kept") (List.forall_mem_singleton.mpr (kept (by decide))) (by simp)
    (List.forall_mem_singleton.mpr column) (by simp)

/-- What is read of a statement in a script is what its text is read as, but for the places in the two texts. -/
def ReadsAsOwn (d : Dialect) (text : String) (s : Statement) : Prop :=
  ∃ own, Statement.parse d text = .ok own ∧ s.bare = own.bare

theorem ReadsAsOwn.bare_eq {texts : List String} {found statements : List Statement}
    (first : List.Forall₂ (ReadsAsOwn d) texts found) (second : List.Forall₂ (ReadsAsOwn d) texts statements) :
    found.map Statement.bare = statements.map Statement.bare := by
  induction first generalizing statements with
  | nil =>
    cases second
    rfl
  | cons held _ ih =>
    obtain ⟨own, parsed, same⟩ := held
    obtain _ | ⟨⟨own', parsed', same'⟩, rest⟩ := second
    obtain rfl : own = own' := Except.ok.inj (parsed.symm.trans parsed')
    exact congrArg₂ List.cons (same.trans same'.symm) (ih rest)

theorem exists_script (ready : d.ReadsQueries) {statements : List Statement}
    (trees : ∀ s ∈ statements, StatementTree d s) :
    ∃ texts tss, List.Forall₂ (ReadsAsOwn d) texts statements ∧ (∀ p : Printer, p.dialect = d → p.keyed = false →
        List.Forall₂ (fun s text => p.statement s = .ok text) statements texts) ∧
      List.Forall₂ (fun text ts => Spells d.toLexicon text.toList ts) texts tss ∧
      List.Forall₂ (fun text ts => Standalone d (ReadsAsOwn d text) ts) texts tss := by
  induction statements with
  | nil => exact ⟨[], [], .nil, fun _ _ _ => .nil, .nil, .nil⟩
  | cons s statements ih =>
    obtain ⟨tree, trees⟩ := List.forall_mem_cons.mp trees
    obtain ⟨text, ts, printed, spelled, alone⟩ := tree.standalone ready
    obtain ⟨texts, tss, read, others, spells, each⟩ := ih trees
    obtain ⟨own, parsed, same⟩ := alone.reads.parse spelled
    refine ⟨text :: texts, ts :: tss, .cons ⟨own, parsed, same.symm⟩ read, fun p target unkeyed => ?_,
      .cons spelled spells, .cons (alone.mono ?_) each⟩
    · exact .cons (printed p target unkeyed) (others p target unkeyed)
    · exact fun read held => ⟨own, parsed, held.trans same.symm⟩

/-- A script is read as as many statements as it has texts, and each of them as its text by itself. -/
theorem script_read_back {entry : Entry} (member : entry ∈ Registry.standard.entries) {statements : List Statement}
    (trees : ∀ s ∈ statements, StatementTree entry.dialect s) :
    ∃ texts found, statements.mapM ({ dialect := entry.dialect } : Printer).statement = .ok texts ∧
      Statement.parseAll entry.dialect ("\n;\n".intercalate texts) = .ok found ∧ found.length = statements.length ∧
      List.Forall₂ (ReadsAsOwn entry.dialect) texts found := by
  have ready := registered_readsQueries member
  obtain ⟨texts, tss, read, printed, spelled, alone⟩ := exists_script ready trees
  obtain ⟨found, parsed, each⟩ := parseAll_script ready.regular.lexicon spelled alone
  exact ⟨texts, found, mapM_ok_iff.mpr (printed { dialect := entry.dialect } rfl rfl), parsed,
    each.length_eq.symm.trans read.length_eq, each⟩

/-- A view over a query, the query with a string behind it, and the end of the view. -/
theorem view_script_read_back : ∃ statements texts found, statements = [
      .createView
        { ifNotExists := true, name := [⟨"v", false⟩],
          query := .select (starSelect (.ref {} [⟨"a", false⟩] none false)) },
      .query (.select (starSelect (.ref {} [⟨"v", false⟩] none false))), .expression {} (.literal {} .string "x;y"),
      .drop {} "VIEW" true [⟨"v", false⟩]] ∧
    (∀ s ∈ statements, StatementTree MySql.profile.dialect s) ∧
    statements.mapM ({ dialect := MySql.profile.dialect } : Printer).statement = .ok texts ∧
    Statement.parseAll MySql.profile.dialect ("\n;\n".intercalate texts) = .ok found ∧
    found.length = statements.length ∧
    List.Forall₂ (ReadsAsOwn MySql.profile.dialect) texts found := by
  have kept {name : String} (known : name ∈ ["a", "v"]) :
    ∀ id ∈ [(⟨name, false⟩ : Ident)], id.Kept MySql.profile.dialect := by
    intro id only
    obtain rfl := List.mem_singleton.mp only
    simp only [List.mem_cons, List.not_mem_nil, or_false] at known
    obtain rfl | rfl := known <;> exact fun _ => ⟨⟨_, _, rfl, by decide, by decide⟩, by decide +kernel⟩
  have stars {name : String} (known : name ∈ ["a", "v"]) :
      QueryTree MySql.profile.dialect (.select (starSelect (.ref {} [⟨name, false⟩] none false))) :=
    starSelect_tree (.ref {} (kept known) (by simp [KeptLabel]) (by simp))
  have text : StatementTree MySql.profile.dialect (.expression {} (.literal {} .string "x;y")) :=
    .value {} (.string {} "x;y") (show _ = Except.ok "'x;y'" by rfl) (by decide)
  have trees : ∀ s ∈ [
      .createView
        { ifNotExists := true, name := [⟨"v", false⟩],
          query := .select (starSelect (.ref {} [⟨"a", false⟩] none false)) },
      .query (.select (starSelect (.ref {} [⟨"v", false⟩] none false))), .expression {} (.literal {} .string "x;y"),
      .drop {} "VIEW" true [⟨"v", false⟩]], StatementTree MySql.profile.dialect s := by
    intro s member
    simp only [List.mem_cons, List.not_mem_nil, or_false] at member
    obtain rfl | rfl | rfl | rfl := member
    · exact .view {} false false true (kept (by decide)) (stars (by decide))
    · exact .query (stars (by decide))
    · exact text
    · exact .drop {} (by decide) true (kept (by decide))
  obtain ⟨texts, found, done⟩ := @script_read_back (Entry.ofProfile MySql.profile) (by simp [Registry.standard]) _ trees
  exact ⟨_, texts, found, rfl, trees, done⟩

/-- An option in front of the columns and a location take the semicolon behind them, with what follows. -/
theorem separators_taken :
    (Statement.parse Teradata.profile.dialect "CREATE TABLE t, NO FALLBACK").isOk = true ∧
    (Statement.parse Teradata.profile.dialect "SELECT 1").isOk = true ∧
    (Statement.parseAll Teradata.profile.dialect ("\n;\n".intercalate ["CREATE TABLE t, NO FALLBACK",
      "SELECT 1"])).toOption.map
      List.length = some 1 ∧
    (Statement.parse Hive.profile.dialect "CREATE TABLE t (a INT) LOCATION").isOk = true ∧
    (Statement.parse Hive.profile.dialect "SELECT 1").isOk = true ∧
    (Statement.parseAll Hive.profile.dialect ("\n;\n".intercalate ["CREATE TABLE t (a INT) LOCATION",
      "SELECT 1"])).toOption.map
      List.length = some 1 := by
  decide +kernel

end SqlDialects
