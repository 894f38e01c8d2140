import SqlDialects.Proofs.FunctionBlame
import SqlDialects.Proofs.StatementBlame

/-! Where the errors of a text point to. A reading of statements goes over the tokens of the text, so an error has a
place in it. There are two exceptions: where a call for a difference of dates is wrong about an argument that is a
difference of quarters itself, the error has no place, and an error in a type that is given as a string has its place
in the string. -/

namespace SqlDialects

open SqlDialects.Parser

/-! ### Places of a text -/

namespace Position

theorem start_locates (sql : String) : Position.start.Locates sql :=
  (locates_advance (List.nil_append _).symm : (Position.start.advance []).Locates sql)

/-- A text without characters has no other place. -/
theorem Locates.eq_start {pos : Position} (locates : pos.Locates "") : pos = .start := by
  obtain ⟨offset, line, column⟩ := pos
  obtain ⟨inside, lines, columns⟩ := locates
  obtain rfl : offset = 0 := Nat.le_zero.mp inside
  obtain rfl : line = 1 := lines
  obtain rfl : column = 1 := columns
  rfl

end Position

/-- What is left of a sign that closes two lists stands behind the first of its characters. -/
theorem Token.locates_splitToken {sql : String} {t : Token} {before after : List Char}
    (split : sql.toList = before ++ after)
    (place : t.pos = .advance .start before) (taken : t.kind.isVerbatim → t.text.toList <+: after)
    (closes : closesType .angle t = true) : (splitToken t).pos.Locates sql := by
  have shape : t.kind.isVerbatim = true ∧ t.text ∈ [">", ">>", ">="] := by
    simp only [closesType, Token.isOp, Bool.or_eq_true, Bool.and_eq_true, beq_iff_eq] at closes
    obtain (⟨kind | kind, same⟩ | ⟨kind | kind, same⟩) | ⟨kind | kind, same⟩ :=
      closes <;> simp [kind, same, TokenKind.isVerbatim]
  obtain ⟨isVerbatim, known⟩ := shape
  obtain ⟨more, text⟩ : ∃ more, t.text.toList = '>' :: more := by
    simp only [List.mem_cons, List.not_mem_nil, or_false] at known
    obtain same | same | same := known <;> exact ⟨_, congrArg String.toList same⟩
  obtain ⟨rest, rfl⟩ := taken isVerbatim
  have behind : (splitToken t).pos = Position.start.advance (before ++ ['>']) := by
    rw [Position.advance_append, ← place]
    rfl
  have whole : sql.toList = (before ++ ['>']) ++ (more ++ rest) := by rw [split, text]; simp
  rw [behind]
  exact Position.locates_advance whole

/-! ### Tokens of a text -/

/-- The ground holds what there is in the text. -/
structure Ground.Reads (s : Ground) (lexicon : Lexicon) (sql : String) : Prop where
  place : ∀ pos, pos.Locates sql → s.place pos
  source : s.source sql
  quoted : ∀ tokens, Token.tokenize lexicon sql = .ok tokens → ∀ t ∈ tokens, t.kind = .string → s.quoted t.text
  number : ∀ tokens, Token.tokenize lexicon sql = .ok tokens → ∀ t ∈ tokens, t.kind = .number → s.number t.text
  halt : s.Blames { pos := .start, expected := "progress", found := "none" }

variable {s : Ground} {lexicon : Lexicon} {sql : String}

theorem Cursor.on_ofText (reads : s.Reads lexicon sql) (regular : lexicon.Regular) {c : Cursor}
    (loaded : Cursor.ofText lexicon sql = .ok c) : c.On s := by
  obtain ⟨tokens, read, loaded⟩ := ok_of_bind loaded
  have holds : ∀ t ∈ tokens, s.Holds t := by
    intro t member
    obtain ⟨before, after, split, place, taken⟩ := (Token.covers_of_tokenize regular read).standing rfl t member
    refine ⟨reads.place _ (place ▸ Position.locates_advance split), reads.quoted tokens read t member,
      reads.number tokens read t member, fun closes _ => ?_⟩
    exact reads.place _ (Token.locates_splitToken split place taken closes)
  have halts (e : ParseError) (same : Error.parse { pos := .start, expected := "progress", found :=
    "none" } = .parse e) :
      s.Blames e := by
    cases same
    exact reads.halt
  split at loaded <;> cases loaded
  · refine ⟨reads.source, List.forall_mem_singleton.mpr ⟨reads.place _ (Position.start_locates sql), ?_, ?_, ?_⟩, halts⟩
    · rintro ⟨⟩
    · rintro ⟨⟩
    · rintro ⟨⟩
  · exact ⟨reads.source, holds, halts⟩

/-- A reading of a text blames what stands in it, and a text without tokens has another kind of error. -/
theorem run_blames (reads : s.Reads lexicon sql) (regular : lexicon.Regular) {α : Type} {p : Cursor → Parser α}
    (located : ∀ c, Located s (p c)) {e : ParseError}
    (failed : (Cursor.ofText lexicon sql >>= fun c => (p c).run' c) = .error (.parse e)) : s.Blames e := by
  cases loaded : Cursor.ofText lexicon sql with
  | error other =>
    rw [loaded] at failed
    obtain rfl : other = .parse e := Except.error.inj failed
    cases lexed : Token.tokenize lexicon sql with
    | error lexical =>
      obtain ⟨_, _, rfl, _⟩ := Token.fails_of_tokenize regular lexed
      rw [Cursor.ofText, lexed] at loaded
      cases loaded
    | ok tokens =>
      rw [Cursor.ofText, lexed] at loaded
      cases tokens <;> cases loaded
  | ok c =>
    rw [loaded] at failed
    have on := Cursor.on_ofText reads regular loaded
    change ((p c c).map Prod.fst) = _ at failed
    cases outcome : p c c with
    | ok r =>
      rw [outcome] at failed
      cases failed
    | error other =>
      rw [outcome] at failed
      obtain rfl : other = .parse e := Except.error.inj failed
      exact (located c).locates.blames on outcome

/-! ### Types in quotes -/

/-- What a text that is one type has. An error without a source would be that of a reading without an end. -/
def Ground.ofType (text : String) : Ground where
  place pos := pos.Locates text
  source name := name = text
  quoted _ := True
  number _ := True
  foreign source pos := source = "" ∧ pos = .start

theorem parseType_blames {d : Dialect} (types : d.BlamesTypes) (regular : d.toLexicon.Regular)
    {text : String} {e : ParseError}
    (failed : parseType d text = .error (.parse e)) : (Ground.ofType text).Blames e := by
  have reads : (Ground.ofType text).Reads d.toLexicon text :=
    ⟨fun _ held => held, rfl, fun _ _ _ _ _ => trivial, fun _ _ _ _ _ => trivial, .inr ⟨rfl, rfl⟩⟩
  exact run_blames reads regular (fun _ => located_wholeType) failed

/-! ### Statements -/

namespace Entry

/-- The text of a string of the text. -/
def QuotedIn (entry : Entry) (sql text : String) : Prop :=
  ∃ tokens, Token.tokenize entry.dialect.toLexicon sql = .ok tokens ∧ ∃ t ∈ tokens, t.kind = .string ∧ t.text = text

/-- A number of the text. -/
def NumberIn (entry : Entry) (sql text : String) : Prop :=
  ∃ tokens, Token.tokenize entry.dialect.toLexicon sql = .ok tokens ∧ ∃ t ∈ tokens, t.kind = .number ∧ t.text = text

/-- What a text has in a dialect. -/
def ground (entry : Entry) (sql : String) : Ground where
  place pos := pos.Locates sql ∨ entry.name ∈ differing ∧ pos = {}
  source _ := True
  quoted := entry.QuotedIn sql
  number := entry.NumberIn sql
  foreign source pos := entry.name = "clickhouse" ∧ entry.QuotedIn sql source ∧ pos.Locates source

theorem ground_reads (entry : Entry) (sql : String) : (entry.ground sql).Reads entry.dialect.toLexicon sql where
  place _ held := .inl held
  source := trivial
  quoted tokens read t member kind := ⟨tokens, read, t, member, kind, rfl⟩
  number tokens read t member kind := ⟨tokens, read, t, member, kind, rfl⟩
  halt := .inl ⟨.inl (Position.start_locates sql), trivial⟩

theorem faults_of_quoted {entry : Entry} (cast : entry.name = "clickhouse") {text : String}
    (quoted : entry.QuotedIn sql text)
    {e : ParseError} (failed : parseType ClickHouse.typeBase text = .error (.parse e)) :
    (entry.ground sql).Faults e := by
  obtain ⟨place, rfl⟩ | ⟨bare, first⟩ := parseType_blames ClickHouse.reads_typeBase.blames (by decide +kernel) failed
  · by_cases empty : e.source = ""
    · rw [empty] at place
      exact .inl ⟨empty, .inl (place.eq_start ▸ Position.start_locates sql)⟩
    · exact .inr ⟨empty, cast, quoted, place⟩
  · exact .inl ⟨bare, .inl (first ▸ Position.start_locates sql)⟩

/-- The steps of a dialect blame what stands in the text if a missing place may be blamed where dates differ, and a
type in quotes where types are read out of quotes. -/
theorem blames_calls {entry : Entry} (member : entry ∈ Registry.standard.entries) {s : Ground} (bare : s.source "")
    (zero : entry.name ∈ differing → s.place {})
    (types : entry.name = "clickhouse" → ∀ text, s.quoted text →
      ∀ e, parseType ClickHouse.typeBase text = .error (.parse e) → s.Faults e) : entry.dialect.BlamesCalls s where
  toBlamesTypes := (registered_reads member).blames
  calls _ _ found reshape given := by
    -- Which numbers there are is of no interest here.
    let _ := Numerals.any
    exact Reshape.locates_known (((registered_known member).found found).reshaped reshape given) zero types
  bare := bare

theorem ground_calls {entry : Entry} (member : entry ∈ Registry.standard.entries) (sql : String) :
    entry.dialect.BlamesCalls (entry.ground sql) :=
  blames_calls member trivial (fun differs => .inr ⟨differs, rfl⟩) fun cast _ quoted _ failed =>
  faults_of_quoted cast quoted failed

end Entry

/-- The place of an error is one of the text, but for the differences of dates in quarters, which have no place, and
for the types that ClickHouse reads in quotes, of which the error names the quoted text. -/
theorem statement_error_placed {entry : Entry} (member : entry ∈ Registry.standard.entries)
    {sql : String} {e : ParseError}
    (failed : Statement.parse entry.dialect sql = .error (.parse e) ∨
      Statement.parseAll entry.dialect sql = .error (.parse e)) :
    e.pos.Locates sql ∨ entry.name ∈ differing ∧ e.pos = {} ∨
      entry.name = "clickhouse" ∧ entry.QuotedIn sql e.source ∧ e.pos.Locates e.source := by
  have calls := Entry.ground_calls member sql
  have blames : (entry.ground sql).Blames e := by
    obtain one | all := failed
    · exact run_blames (entry.ground_reads sql) (registered_regular member).lexicon (fun _ => located_oneStatement) one
    · exact run_blames (entry.ground_reads sql) (registered_regular member).lexicon (fun _ => located_script) all
  obtain ⟨place | unplaced, _⟩ | quoted := blames
  · exact .inl place
  · exact .inr (.inl unplaced)
  · exact .inr (.inr quoted)

/-- The fault that a reading ends with. -/
def parseFault? {α : Type} : Except Error α → Option ParseError
  | .error (.parse e) => some e
  | _ => none

theorem eq_of_parseFault? {α : Type} {outcome : Except Error α} {e : ParseError}
    (failed : parseFault? outcome = some e) :
    outcome = .error (.parse e) := by
  unfold parseFault? at failed
  split at failed <;> cases failed
  rfl

theorem unfinished_select_placed : ∃ e : ParseError, e.pos = ⟨6, 1, 7⟩ ∧
    Statement.parse Hive.profile.dialect "SELECT" = .error (.parse e) ∧ e.pos.Locates "SELECT" := by
  have failed : parseFault? (Statement.parse Hive.profile.dialect "SELECT") =
      some ⟨⟨6, 1, 7⟩, "expression", "end of input", "SELECT"⟩ := by
    decide +kernel
  refine ⟨_, rfl, eq_of_parseFault? failed, ?_⟩
  have hive : Entry.ofProfile Hive.profile ∈ Registry.standard.entries := by simp [Registry.standard]
  obtain place | ⟨differs, _⟩ | ⟨other, _⟩ := statement_error_placed hive (.inl (eq_of_parseFault? failed))
  · exact place
  · exact absurd differs (by decide +kernel)
  · exact absurd other (by decide +kernel)

/-- The inner difference is a division that is made without a place. -/
theorem quarters_unplaced :
    ¬∀ entry ∈ Registry.standard.entries, ∀ sql e, Statement.parse entry.dialect sql = .error (.parse e) →
      1 ≤ e.pos.line ∧ e.pos.Locates sql := by
  have mySql : Entry.ofProfile MySql.profile ∈ Registry.standard.entries := by simp [Registry.standard]
  have inner : parseFault? (Statement.parse MySql.profile.dialect
    "SELECT timestampdiff(timestampdiff('quarter', a, b), x, y)") =
      some ⟨{}, "date unit", "BinaryOp", "SELECT timestampdiff(timestampdiff('quarter', a, b), x, y)"⟩ := by
    decide +kernel
  intro claimed
  exact absurd (claimed _ mySql _ _ (eq_of_parseFault? inner)).1 (by decide)

end SqlDialects
