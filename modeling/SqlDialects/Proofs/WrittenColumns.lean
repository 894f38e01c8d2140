import SqlDialects.Proofs.Scripts
import SqlDialects.Proofs.TypeTokens

/-! Columns of a table as texts. A name, a type of one word, and marks in the order in which they are printed: the
loop over the marks takes them one by one and stops at the comma or the parenthesis behind them. -/

namespace SqlDialects

open Token SqlDialects.Parser

variable {d : Dialect} {c : Cursor} {ts us tail : List Token} {t : TypeSpec}

/-! ### Types of one word -/

/-- A type that is printed as a word with numbers, which are read as the type again. -/
structure KeptType (d : Dialect) (t : TypeSpec) : Prop where
  canonical : t.native = false
  plain : t.name ∉ ["ARRAY", "MAP", "STRUCT"]
  supported : d.unsupportedTypes.contains t.name = false
  reads : ∃ w params, IsWord w ∧
    ({ dialect := d } : Printer).plainType t.name t.params = w ++ Printer.typeParams params ∧
    ∀ pos, ∃ read, spelled d { pos, name := Text.upper w, params := params.map Int.repr } = .ok read ∧
      read.bare = t.bare

theorem KeptType.printed (kept : KeptType d t) {p : Printer} (target : p.dialect = d) :
    p.typeSpec t = .ok (({ dialect := d } : Printer).plainType t.name t.params) := by
  obtain ⟨pos, name, params, elems, fields, native⟩ := t
  obtain rfl : native = false := kept.canonical
  have plain := kept.plain
  simp only [List.mem_cons, List.not_mem_nil, or_false, not_or] at plain
  subst target
  have supported : p.dialect.unsupportedTypes.contains name = false := kept.supported
  rw [Printer.typeSpec, if_neg Bool.false_ne_true, supported, if_neg Bool.false_ne_true]
  simp [plain, Printer.plainType]

/-- The type is written in front of whatever closes it, and its tokens are read as the type. -/
theorem KeptType.written (regular : d.toLexicon.Regular) (kept : KeptType d t) :
    ∃ w us, SpellsBefore d.toLexicon Closes (({ dialect := d } : Printer).plainType t.name t.params).toList
      (word d.toLexicon w :: us) ∧ ReadsType d t (word d.toLexicon w :: us) := by
  obtain ⟨w, params, ⟨c, cs, shape, starts, all⟩, text, means⟩ := kept.reads
  obtain ⟨us, group, spells⟩ := spellsBefore_params regular (spellsBefore_word regular shape starts all) params
  rw [text]
  refine ⟨w, us, spells, (SpellsName.single w).reads group fun n same => ?_⟩
  rw [foldl_numbers, List.nil_append] at same
  obtain ⟨pos, name, numbers, args, fields, unsigned⟩ := n
  simp only [NativeType.bare, NativeType.mk.injEq, bareElems_eq, bareFields_eq, List.map_nil,
    List.map_eq_nil_iff] at same
  obtain ⟨_, rfl, rfl, rfl, rfl, rfl⟩ := same
  exact means pos

/-! ### Marks -/

/-- What is said of a column behind its type, except that it is never empty. -/
inductive ColumnMark
  | counted
  | value (e : Expr)
  | primaryKey
  | unique
  | comment (text : String)

def ColumnMark.set (c : ColumnDef) : ColumnMark → ColumnDef
  | .counted => { c with autoIncrement := true }
  | .value e => { c with defaultValue := some e }
  | .primaryKey => { c with primaryKey := true }
  | .unique => { c with unique := true }
  | .comment text => { c with comment := some text }

theorem ColumnMark.bare_set {a b : ColumnDef} (same : a.bare = b.bare) (mark : ColumnMark) :
    (mark.set a).bare = (mark.set b).bare := by
  obtain ⟨_, _, _, _, _, _, _, _, _⟩ := a
  obtain ⟨_, _, _, _, _, _, _, _, _⟩ := b
  cases mark <;> simp_all [ColumnMark.set, ColumnDef.bare]

theorem ColumnMark.bare_foldl {a b : ColumnDef} (same : a.bare = b.bare) (marks : List ColumnMark) :
    (marks.foldl ColumnMark.set a).bare = (marks.foldl ColumnMark.set b).bare := by
  induction marks generalizing a b with
  | nil => exact same
  | cons mark _ ih => exact ih (mark.bare_set same)

def ColumnDef.marks (c : ColumnDef) : List ColumnMark :=
  (if c.autoIncrement then [.counted] else []) ++ (c.defaultValue.map .value).toList ++
    (if c.primaryKey then [.primaryKey] else []) ++ (if c.unique then [.unique] else []) ++
    (c.comment.map .comment).toList

/-- A column before its marks are read. -/
def ColumnDef.unmarked (c : ColumnDef) : ColumnDef :=
  { pos := c.pos, name := c.name, type := c.type, notNull := c.notNull }

theorem ColumnDef.set_marks (c : ColumnDef) : c.marks.foldl ColumnMark.set c.unmarked = c := by
  obtain ⟨pos, name, type, notNull, value, counted, primary, unique, comment⟩ := c
  cases value <;> cases counted <;> cases primary <;> cases unique <;> cases comment <;> rfl

/-- What stands behind a column, and what stands behind a mark. -/
def columnEnds : List Head := [.mark ",", .mark ")"]

def markEnds : List Head :=
  columnEnds ++ [.word "AUTO_INCREMENT", .word "DEFAULT", .word "PRIMARY", .word "UNIQUE", .word "COMMENT"]

def stringOf (text : String) : Token := { kind := .string, text, pos := {}, stop := 0 }

/-- A mark with the text in front of which there is a blank, and its tokens. -/
inductive WrittenMark (d : Dialect) : ColumnMark → String → List Token → Prop
  | counted : WrittenMark d .counted " AUTO_INCREMENT" [word d.toLexicon "AUTO_INCREMENT"]
  | value {e : Expr} {text : String} {ts : List Token} (placed : Placed d (Prec.comparison + 1) e e text ts) :
    WrittenMark d (.value e) (" DEFAULT " ++ e.atLevel (Prec.comparison + 1) text) (word d.toLexicon "DEFAULT" :: ts)
  | primaryKey : WrittenMark d .primaryKey " PRIMARY KEY" [word d.toLexicon "PRIMARY", word d.toLexicon "KEY"]
  | unique : WrittenMark d .unique " UNIQUE" [word d.toLexicon "UNIQUE"]
  | comment (text : String) : WrittenMark d (.comment text) (" COMMENT " ++ Printer.quoteString d.toLexicon text)
    [word d.toLexicon "COMMENT", stringOf text]

inductive WrittenMarks (d : Dialect) : List ColumnMark → String → List Token → Prop
  | nil : WrittenMarks d [] "" []
  | cons {mark : ColumnMark} {marks : List ColumnMark} {text texts : String} {ts us : List Token}
    (own : WrittenMark d mark text ts) (rest : WrittenMarks d marks texts us) :
    WrittenMarks d (mark :: marks) (text ++ texts) (ts ++ us)

section Marks

variable {mark : ColumnMark} {marks more : List ColumnMark} {text texts : String}

theorem WrittenMark.spelled (regular : d.toLexicon.Regular) (written : WrittenMark d mark text ts) :
    SpellsTail d.toLexicon text.toList ts := by
  cases written with
  | counted =>
    exact spellsTail_words regular (show ∀ w ∈ ["AUTO_INCREMENT"], w ∈ queryWords by decide)
  | value placed =>
    simpa using spellsTail_word regular (w := "DEFAULT") (by decide) placed.spelled
  | primaryKey =>
    exact spellsTail_words regular (show ∀ w ∈ ["PRIMARY", "KEY"], w ∈ queryWords by decide)
  | unique =>
    exact spellsTail_words regular (show ∀ w ∈ ["UNIQUE"], w ∈ queryWords by decide)
  | comment text =>
    simpa [stringOf] using spellsTail_word regular (w := "COMMENT") (by decide) (spells_string regular text)

theorem WrittenMarks.spelled (regular : d.toLexicon.Regular) (written : WrittenMarks d marks text ts) :
    SpellsTail d.toLexicon text.toList ts := by
  induction written with
  | nil => exact spellsTail_nil
  | cons own _ ih =>
    rw [String.toList_append]
    exact (own.spelled regular).append regular ih

theorem WrittenMarks.append (first : WrittenMarks d marks text ts) (second : WrittenMarks d more texts us) :
    WrittenMarks d (marks ++ more) (text ++ texts) (ts ++ us) := by
  induction first with
  | nil => simpa using second
  | cons own _ ih =>
    rw [String.append_assoc, List.append_assoc]
    exact .cons own ih

theorem WrittenMark.optional (written : WrittenMark d mark text ts) (present : Bool) :
    WrittenMarks d (if present then [mark] else []) (if present then text else "") (if present then ts else []) := by
  cases present with
  | true => simpa using WrittenMarks.cons written .nil
  | false => exact .nil

theorem WrittenMarks.follows (written : WrittenMarks d marks text ts) (follows : Follows d.toLexicon columnEnds tail) :
    Follows d.toLexicon markEnds (ts ++ tail) := by
  have word {w : String} (known : w ∈ ["AUTO_INCREMENT", "DEFAULT", "PRIMARY", "UNIQUE", "COMMENT"])
      (rest : List Token) : Follows d.toLexicon markEnds (word d.toLexicon w :: rest) := by
    have all : ∀ w ∈ ["AUTO_INCREMENT", "DEFAULT", "PRIMARY", "UNIQUE", "COMMENT"],
      Head.word w ∈ markEnds ∧ Head.word w ∈ allHeads := by decide
    exact ⟨.word w, (all w known).1, (all w known).2, rest, rfl⟩
  cases written with
  | nil => exact follows.mono (by decide)
  | cons own rest => cases own <;> exact word (by decide) _

/-! ### Reading marks -/

private theorem accept_absent {w : String} (absent : c.current.is w = false) : accept w c = .ok (false, c) := by
  rw [accept_apply, absent]
  rfl

private theorem accept_queryWord {w : String} (known : w ∈ queryWords) (shown : c.Shows (word d.toLexicon w :: us)) :
    accept w c = .ok (true, c.advance) := by
  have own : c.current.is w = true := by
    rw [← is_bare, shown.current, is_word, upper_queryWord w known, beq_self_eq_true]
  rw [accept_apply, own]
  rfl

private theorem queryWord_apart {w other : String} (known : w ∈ queryWords)
    (shown : c.Shows (word d.toLexicon w :: us)) (apart : w ≠ other) : c.current.is other = false := by
  rw [← is_bare, shown.current, is_word, upper_queryWord w known, beq_eq_false_iff_ne]
  exact apart

/-- Marks that are read behind `NOT NULL`, `NULL` and a default are none of these. -/
private theorem laterWord_apart {w : String} (known : w ∈ ["AUTO_INCREMENT", "PRIMARY", "UNIQUE", "COMMENT"])
    (shown : c.Shows (word d.toLexicon w :: us)) :
    acceptSeq ["NOT", "NULL"] c = .ok (false, c) ∧ accept "NULL" c = .ok (false, c) ∧
      accept "DEFAULT" c = .ok (false, c) := by
  have listed : ∀ w ∈ ["AUTO_INCREMENT", "PRIMARY", "UNIQUE", "COMMENT"], w ∈ queryWords ∧
      w ≠ "NOT" ∧ w ≠ "NULL" ∧ w ≠ "DEFAULT" := by
    decide
  obtain ⟨word, notNot, notNull, notDefault⟩ := listed w known
  exact ⟨acceptSeq_none (queryWord_apart word shown notNot), accept_absent (queryWord_apart word shown notNull),
    accept_absent (queryWord_apart word shown notDefault)⟩

private theorem keyWord_noCount {w : String} (known : w ∈ ["PRIMARY", "UNIQUE", "COMMENT"])
    (shown : c.Shows (word d.toLexicon w :: us)) :
    acceptAny ["AUTO_INCREMENT", "AUTOINCREMENT", "IDENTITY"] c = .ok (false, c) := by
  have listed : ∀ w ∈ ["PRIMARY", "UNIQUE", "COMMENT"], w ∈ queryWords ∧
      ∀ other ∈ ["AUTO_INCREMENT", "AUTOINCREMENT", "IDENTITY"], w ≠ other := by
    decide
  obtain ⟨word, apart⟩ := listed w known
  refine accept_none (List.any_eq_false.mpr fun other counts => Bool.eq_false_iff.mp ?_)
  exact queryWord_apart word shown (apart other counts)

theorem skipConstraintState_stops (follows : Follows d.toLexicon markEnds tail) (shown : c.Shows tail) :
    skipConstraintState c = .ok ((), c) := by
  have apart : ∀ w ∈ ["DISABLE", "ENABLE", "NOVALIDATE", "VALIDATE", "RELY", "NORELY", "USING", "BTREE", "HASH",
      "ENFORCED"], Head.word w ∉ markEnds := by
    decide
  have none := accept_none (follows.any_is shown apart)
  have noNot : acceptSeq ["NOT", "ENFORCED"] c = .ok (false, c) := acceptSeq_none (follows.is shown (by decide))
  exact loop_none (bind_ok none (bind_ok noNot rfl))

theorem skipOptionalGroup_stops (absent : c.current.isOp "(" = false) : skipOptionalGroup c = .ok ((), c) := by
  have noGroup : curOp "(" c = .ok (false, c) := by rw [curOp_apply, absent]
  exact bind_ok noGroup rfl

/-- The expression behind `DEFAULT` ends in front of the next mark. -/
theorem placed_parses (ready : d.ReadsQueries) {e : Expr} (placed : Placed d (Prec.comparison + 1) e e text ts)
    {depth : Nat} (enough : ts.length < depth) (follows : Follows d.toLexicon markEnds tail)
    (shown : c.Shows (ts ++ tail)) :
    ∃ read next, (grammar d depth).expr Prec.comparison c = .ok (read, next) ∧ next.Shows tail ∧
      read.bare = e.bare := by
  obtain ⟨depth, rfl⟩ := Nat.exists_eq_succ_of_ne_zero (show depth ≠ 0 by omega)
  have binds := follows.tailPrec ready
  exact placed.reads.ends depth (by omega) (by decide) follows.continues (by rw [binds]; decide)
    (by rw [binds]; decide) shown

section Step

variable {g : Grammar} {column : ColumnDef}

private theorem counted_step (follows : Follows d.toLexicon markEnds tail)
    (shown : c.Shows (word d.toLexicon "AUTO_INCREMENT" :: tail)) :
    columnAttribute d g column c = .ok (some { column with autoIncrement := true }, c.advance) := by
  obtain ⟨noNot, noNull, noDefault⟩ := laterWord_apart (w := "AUTO_INCREMENT") (by decide) shown
  have taken := accept_word (by decide) ["AUTO_INCREMENT", "AUTOINCREMENT", "IDENTITY"] (by decide) shown
  have noGroup := skipOptionalGroup_stops (follows.isOp (shown.advance' follows.nonempty) (by decide))
  unfold columnAttribute
  exact bind_ok noNot (bind_ok noNull (bind_ok noDefault (bind_ok taken (bind_ok noGroup rfl))))

private theorem value_step {next : Cursor} {read : Expr} (shown : c.Shows (word d.toLexicon "DEFAULT" :: us))
    (parsed : g.expr Prec.comparison c.advance = .ok (read, next)) :
    columnAttribute d g column c = .ok (some { column with defaultValue := some read }, next) := by
  have apart {other : String} := @queryWord_apart d c us "DEFAULT" other (by decide) shown
  have noNot : acceptSeq ["NOT", "NULL"] c = .ok (false, c) := acceptSeq_none (apart (by decide))
  have noNull : accept "NULL" c = .ok (false, c) := accept_absent (apart (by decide))
  have taken := accept_queryWord (w := "DEFAULT") (by decide) shown
  unfold columnAttribute
  exact bind_ok noNot (bind_ok noNull (bind_ok taken (bind_ok parsed rfl)))

private theorem primaryKey_step (follows : Follows d.toLexicon markEnds tail)
    (shown : c.Shows (word d.toLexicon "PRIMARY" :: word d.toLexicon "KEY" :: tail)) :
    columnAttribute d g column c = .ok (some { column with primaryKey := true }, c.advance.advance) := by
  obtain ⟨noNot, noNull, noDefault⟩ := laterWord_apart (w := "PRIMARY") (by decide) shown
  have noCount := keyWord_noCount (w := "PRIMARY") (by decide) shown
  have taken : acceptSeq ["PRIMARY", "KEY"] c = .ok (true, c.advance.advance) := by
    have primary : c.current.is "PRIMARY" = true := by
      rw [← is_bare, shown.current, is_word, upper_queryWord "PRIMARY" (by decide), beq_self_eq_true]
    have key : c.peek.is "KEY" = true := by
      rw [← is_bare, shown.peek, is_word, upper_queryWord "KEY" (by decide), beq_self_eq_true]
    rw [acceptSeq_pair, primary, key]
    rfl
  have stops := skipConstraintState_stops follows (shown.advance.advance' follows.nonempty)
  unfold columnAttribute
  exact bind_ok noNot (bind_ok noNull (bind_ok noDefault (bind_ok noCount (bind_ok taken (bind_ok stops rfl)))))

private theorem unique_step (follows : Follows d.toLexicon markEnds tail)
    (shown : c.Shows (word d.toLexicon "UNIQUE" :: tail)) :
    columnAttribute d g column c = .ok (some { column with unique := true }, c.advance) := by
  have apart {other : String} := @queryWord_apart d c tail "UNIQUE" other (by decide) shown
  obtain ⟨noNot, noNull, noDefault⟩ := laterWord_apart (w := "UNIQUE") (by decide) shown
  have noCount := keyWord_noCount (w := "UNIQUE") (by decide) shown
  have noPrimary : acceptSeq ["PRIMARY", "KEY"] c = .ok (false, c) := acceptSeq_none (apart (by decide))
  have taken := accept_queryWord (w := "UNIQUE") (by decide) shown
  have noKey : accept "KEY" c.advance = .ok (false, c.advance) :=
    accept_absent (follows.is (shown.advance' follows.nonempty) (by decide))
  unfold columnAttribute
  exact bind_ok noNot (bind_ok noNull (bind_ok noDefault (bind_ok noCount (bind_ok noPrimary
    (bind_ok taken (bind_ok noKey rfl))))))

theorem stringToken_shows {text what : String} (shown : c.Shows (stringOf text :: tail)) :
    stringToken what c = .ok (text, c.advance) := by
  have kind : ¬c.current.kind ≠ .string := by
    rw [← kind_bare, shown.current]
    exact not_not_intro rfl
  have inside : c.current.text = text := by
    rw [← text_bare, shown.current]
    rfl
  simp only [stringToken, bind_apply, current_apply, ok_bind, if_neg kind, advance_apply, inside, pure_apply]

private theorem comment_step {text : String}
    (shown : c.Shows (word d.toLexicon "COMMENT" :: stringOf text :: tail)) :
    columnAttribute d g column c = .ok (some { column with comment := some text }, c.advance.advance) := by
  have apart {other : String} := @queryWord_apart d c _ "COMMENT" other (by decide) shown
  obtain ⟨noNot, noNull, noDefault⟩ := laterWord_apart (w := "COMMENT") (by decide) shown
  have noCount := keyWord_noCount (w := "COMMENT") (by decide) shown
  have noPrimary : acceptSeq ["PRIMARY", "KEY"] c = .ok (false, c) := acceptSeq_none (apart (by decide))
  have noUnique : accept "UNIQUE" c = .ok (false, c) := accept_absent (apart (by decide))
  have taken := accept_queryWord (w := "COMMENT") (by decide) shown
  have read : stringToken "comment string" c.advance = .ok (text, c.advance.advance) := stringToken_shows shown.advance
  unfold columnAttribute
  exact bind_ok noNot (bind_ok noNull (bind_ok noDefault (bind_ok noCount (bind_ok noPrimary
    (bind_ok noUnique (bind_ok taken (bind_ok read rfl)))))))

end Step

/-- One round of the loop takes a mark. -/
theorem WrittenMark.step (ready : d.ReadsQueries) (written : WrittenMark d mark text ts) (column : ColumnDef)
    {depth : Nat} (enough : ts.length < depth) (follows : Follows d.toLexicon markEnds tail)
    (shown : c.Shows (ts ++ tail)) :
    ∃ read next, columnAttribute d (grammar d depth) column c = .ok (some read, next) ∧ next.Shows tail ∧
      read.bare = (mark.set column).bare := by
  cases written with
  | counted => exact ⟨_, _, counted_step follows shown, Cursor.Shows.advance' shown follows.nonempty, rfl⟩
  | @value e text us placed =>
    have start : c.advance.Shows (us ++ tail) :=
      Cursor.Shows.advance' shown (List.append_ne_nil_of_right_ne_nil us follows.nonempty)
    obtain ⟨read, next, parsed, left, same⟩ := placed_parses ready placed (Nat.lt_of_succ_lt enough) follows start
    exact ⟨_, next, value_step shown parsed, left, by simp [ColumnMark.set, ColumnDef.bare, bareOption, same]⟩
  | primaryKey =>
    exact ⟨_, _, primaryKey_step follows shown,
      Cursor.Shows.advance' (Cursor.Shows.advance shown) follows.nonempty, rfl⟩
  | unique => exact ⟨_, _, unique_step follows shown, Cursor.Shows.advance' shown follows.nonempty, rfl⟩
  | comment text =>
    exact ⟨_, _, comment_step shown, Cursor.Shows.advance' (Cursor.Shows.advance shown) follows.nonempty, rfl⟩

/-- The loop takes all marks. -/
theorem WrittenMarks.repeats (ready : d.ReadsQueries) (written : WrittenMarks d marks text ts) {column : ColumnDef}
    {depth : Nat} (enough : ts.length < depth) (follows : Follows d.toLexicon columnEnds tail)
    (shown : c.Shows (ts ++ tail)) :
    ∃ read next, Repeats (columnAttribute d (grammar d depth)) column c read next ∧ next.Shows tail ∧
      read.bare = (marks.foldl ColumnMark.set column).bare := by
  induction written generalizing c column with
  | nil => exact ⟨column, c, .refl .., shown, rfl⟩
  | @cons mark marks text texts ts us own rest ih =>
    rw [List.length_append] at enough
    rw [List.append_assoc] at shown
    obtain ⟨first, middle, stepped, between, same⟩ :=
      own.step ready column (show ts.length < depth by omega) (rest.follows follows) shown
    obtain ⟨read, next, others, left, equal⟩ := @ih middle first (show us.length < depth by omega) between
    have shorter : middle.rest.length < c.rest.length := by
      refine shown.shorter between ?_
      have some : 0 < ts.length := by cases own <;> simp
      simp only [List.length_append]
      omega
    refine ⟨read, next, Relation.ReflTransGen.head ⟨stepped, shorter⟩ others, left, equal.trans ?_⟩
    exact ColumnMark.bare_foldl same marks

/-- Nothing begins a mark behind a column. -/
theorem columnAttribute_stops (follows : Follows d.toLexicon columnEnds tail) (shown : c.Shows tail)
    (g : Grammar) (column : ColumnDef) : columnAttribute d g column c = .ok (none, c) := by
  have absent (w : String) : c.current.is w = false := follows.is shown (by simp [columnEnds])
  have no (w : String) : accept w c = .ok (false, c) := accept_absent (absent w)
  have noSeq (w : String) (words : List String) : acceptSeq (w :: words) c = .ok (false, c) := acceptSeq_none (absent w)
  have noAny (words : List String) : acceptAny words c = .ok (false, c) := accept_none (by simp [absent])
  have noCheck : ¬(c.current.is "CHECK" && c.peek.isOp "(") = true := by simp [absent]
  have noFormula : ¬c.current.is "GENERATED" = true := by simp [absent]
  have noAggregate : ¬isAggregateMark c = true := by simp [isAggregateMark, absent]
  have behind : (do
      if ← accept "CONSTRAINT" then
        let _ ← anyIdent
        return true
      if ← accept "KEY" then return true
      if isAggregateMark c then
        advance
        return true
      return false : Parser Bool) c = .ok (false, c) :=
    bind_ok (no "CONSTRAINT") (bind_ok (no "KEY") (congrFun (if_neg noAggregate) c))
  have noMore : skipAttribute d g c = .ok (false, c) := by
    unfold skipAttribute
    refine bind_ok (get_apply c) (bind_ok (noAny _) (bind_ok (no _) (bind_ok (noAny _) (bind_ok (noAny _)
      (bind_ok (noSeq _ _) (bind_ok (no _) (bind_ok (noSeq _ _) (bind_ok (noAny _) (bind_ok (noSeq _ _)
      (bind_ok (no _) ?_))))))))))
    exact (congrFun (if_neg noCheck) c).trans ((congrFun (if_neg noFormula) c).trans behind)
  unfold columnAttribute
  exact bind_ok (noSeq _ _) (bind_ok (no _) (bind_ok (no _) (bind_ok (noAny _) (bind_ok (noSeq _ _)
    (bind_ok (no _) (bind_ok (no _) (bind_ok noMore rfl)))))))

end Marks

/-! ### Columns -/

/-- Words that open a query or an entry of the column list that is no column. -/
def elementWords : List String :=
  ["CONSTRAINT", "PRIMARY", "UNIQUE", "FOREIGN", "CHECK", "KEY", "INDEX", "FULLTEXT", "SPATIAL", "SELECT", "WITH"]

/-- A column of a kept name and type, whose default is read back. -/
structure ColumnTree (d : Dialect) (column : ColumnDef) : Prop where
  named : column.name.Kept d
  apart : column.name.quoted = false → Text.upper column.name.name ∉ elementWords
  typed : KeptType d column.type
  value : ∀ e ∈ column.defaultValue, ValueTree d e

def nullTokens (lexicon : Lexicon) (notNull : Bool) : List Token :=
  if notNull then [word lexicon "NOT", word lexicon "NULL"] else []

/-- A column with its text, whose tokens are read as the column in front of what ends one. -/
structure WrittenColumn (d : Dialect) (column : ColumnDef) (text : String) (ts : List Token) : Prop where
  printed : ∀ p : Printer, p.dialect = d → p.keyed = false → p.columnDef column = .ok text
  spelled : Spells d.toLexicon text.toList ts
  starts : ∃ t us, ts = t :: us ∧ ∀ w ∈ elementWords, t.is w = false
  parses : Parses d (columnDef d) columnEnds (·.bare = column.bare) ts

section Column

variable {column : ColumnDef}

theorem endsType_marks (follows : Follows d.toLexicon markEnds tail) : EndsType tail := by
  obtain ⟨head, member, known, rest, rfl⟩ := follows
  have words : ∀ w ∈ typeFollowers, Head.word w ∉ markEnds := by decide
  have marks : ∀ mark ∈ ["<", "(", "["], Head.mark mark ∉ markEnds := by decide
  refine ⟨_, rest, rfl, fun w follower => ?_, fun mark opens => ?_⟩
  · rw [Head.is_token known, decide_eq_false_iff_not]
    rintro rfl
    exact words w follower member
  · rw [Head.isOp_token known, decide_eq_false_iff_not]
    rintro rfl
    exact marks mark opens member

/-- `NOT NULL` goes on with no type. -/
theorem endsType_null (follows : Follows d.toLexicon markEnds tail) (notNull : Bool) :
    EndsType (nullTokens d.toLexicon notNull ++ tail) := by
  cases notNull with
  | false => exact endsType_marks follows
  | true =>
    refine ⟨word d.toLexicon "NOT", _, rfl, fun w follower => ?_, fun mark _ => isOp_word ..⟩
    rw [is_word, upper_words "NOT" (by decide), beq_eq_false_iff_ne]
    revert w
    decide

/-- The first round of the loop takes `NOT NULL`. -/
theorem null_repeats (follows : Follows d.toLexicon markEnds tail) (g : Grammar) {notNull : Bool}
    (plain : column.notNull = false) (shown : c.Shows (nullTokens d.toLexicon notNull ++ tail)) :
    ∃ next, Repeats (columnAttribute d g) column c { column with notNull } next ∧ next.Shows tail := by
  cases notNull with
  | false =>
    refine ⟨c, ?_, shown⟩
    rw [← plain]
    exact .refl ..
  | true =>
    have shown : c.Shows (word d.toLexicon "NOT" :: word d.toLexicon "NULL" :: tail) := shown
    have first : c.current.is "NOT" = true := by
      rw [← is_bare, shown.current, is_word, upper_words "NOT" (by decide), beq_self_eq_true]
    have second : c.peek.is "NULL" = true := by
      rw [← is_bare, shown.peek, is_word, upper_words "NULL" (by decide), beq_self_eq_true]
    have taken : acceptSeq ["NOT", "NULL"] c = .ok (true, c.advance.advance) := by
      rw [acceptSeq_pair, first, second]
      rfl
    have left := shown.advance.advance' follows.nonempty
    have enabled : accept "DISABLE" c.advance.advance = .ok (false, c.advance.advance) :=
      accept_absent (follows.is left (by decide))
    have unsaid : accept "ENABLE" c.advance.advance = .ok (false, c.advance.advance) :=
      accept_absent (follows.is left (by decide))
    have stepped : columnAttribute d g column c = .ok (some { column with notNull := true }, c.advance.advance) := by
      unfold columnAttribute
      exact bind_ok taken (bind_ok enabled (bind_ok unsaid rfl))
    refine ⟨c.advance.advance, (Repeats.refl ..).snoc stepped (shown.shorter left ?_), left⟩
    simp only [List.length_cons]
    omega

theorem columnDef_parses (ready : d.ReadsQueries) {text : String} {us : List Token}
    (typed : ReadsType d column.type ts) (marked : WrittenMarks d column.marks text us) :
    Parses d (columnDef d) columnEnds (·.bare = column.bare)
      (column.name.token d.toLexicon :: (ts ++ (nullTokens d.toLexicon column.notNull ++ us))) := by
  intro depth c tail enough follows shown
  simp only [List.length_cons, List.length_append] at enough
  have shown : c.Shows (column.name.token d.toLexicon ::
      (ts ++ (nullTokens d.toLexicon column.notNull ++ (us ++ tail)))) := by
    simpa using shown
  have behind := marked.follows follows
  have start : c.advance.Shows (ts ++ (nullTokens d.toLexicon column.notNull ++ (us ++ tail))) :=
    shown.advance' (List.append_ne_nil_of_right_ne_nil _ (List.append_ne_nil_of_right_ne_nil _ behind.nonempty))
  have room : ts.length ≤ c.advance.bound + 1 := by
    rw [start.bound_eq, List.length_append]
    omega
  obtain ⟨t, middle, type, atNull, same⟩ := typed room (endsType_null behind column.notNull) start
  let first : ColumnDef := { pos := c.current.pos, name := column.name, type := t }
  obtain ⟨last, nulls, atMarks⟩ :=
    @null_repeats d middle (us ++ tail) first behind (grammar d depth) column.notNull rfl atNull
  obtain ⟨read, next, marks, left, equal⟩ :=
    marked.repeats ready (show us.length < depth by omega) follows atMarks
  have looped := (nulls.trans marks).loop (columnAttribute_stops follows left (grammar d depth) read)
  refine ⟨read, next, bind_ok (position_apply ..) (bind_ok (anyIdent_shows shown) (bind_ok type looped)), left, ?_⟩
  have unmarked : ({ first with notNull := column.notNull } : ColumnDef).bare = column.unmarked.bare := by
    simp [first, ColumnDef.unmarked, ColumnDef.bare, same]
  exact (equal.trans (ColumnMark.bare_foldl unmarked column.marks)).trans (congrArg ColumnDef.bare column.set_marks)

theorem spellsTail_null (regular : d.toLexicon.Regular) (notNull : Bool) :
    SpellsTail d.toLexicon (if notNull then " NOT NULL" else "").toList (nullTokens d.toLexicon notNull) := by
  have shapes : ∀ w ∈ ["NOT", "NULL"], w.toList.head?.any isIdentStart ∧ w.toList.tail.all isIdentChar := by decide
  have second := spells_letters regular (shapes "NULL" (by decide))
  cases notNull with
  | false => exact spellsTail_nil
  | true => exact .inr ⟨_, rfl, (spells_letters regular (shapes "NOT" (by decide))).spaced regular second⟩

/-- The default of a column as it is printed. -/
def defaultText (p : Printer) (column : ColumnDef) : Except Error String :=
  match column.defaultValue with
  | none => pure ""
  | some e => do pure (" DEFAULT " ++ (← p.exprAt (Prec.comparison + 1) e))

theorem columnDef_printed (p : Printer) : p.columnDef column = (do
    let type ← p.typeSpec column.type
    let value ← defaultText p column
    return p.ident column.name ++ " " ++ type ++ (if column.notNull then " NOT NULL" else "") ++
      (if column.autoIncrement then " AUTO_INCREMENT" else "") ++ value ++
      (if column.primaryKey then " PRIMARY KEY" else "") ++ (if column.unique then " UNIQUE" else "") ++
      p.comment column.comment) := by
  unfold Printer.columnDef defaultText
  cases column.defaultValue with
  | none => rfl
  | some e => simp only [bind_assoc, pure_bind]

theorem exists_default (ready : d.ReadsQueries) (value : ∀ e ∈ column.defaultValue, ValueTree d e) :
    ∃ text ts, WrittenMarks d (column.defaultValue.map .value).toList text ts ∧
      ∀ p : Printer, p.dialect = d → p.keyed = false → defaultText p column = .ok text := by
  unfold defaultText
  cases given : column.defaultValue with
  | none => exact ⟨"", [], .nil, fun _ _ _ => rfl⟩
  | some e =>
    obtain ⟨text, _, written⟩ := (value e given).exists_written ready
    obtain ⟨ts, placed⟩ := written.placed ready.regular (show Prec.comparison + 1 ≤ Prec.access + 1 by decide)
    refine ⟨_, _, .cons (.value placed) .nil, fun p target unkeyed => ?_⟩
    simp [Printer.exprAt, written.printed p target unkeyed, bind, Except.bind, pure, Except.pure]

/-- The marks of a column in the order in which they are printed. -/
theorem exists_marks (ready : d.ReadsQueries) (value : ∀ e ∈ column.defaultValue, ValueTree d e) :
    ∃ default text ts, WrittenMarks d column.marks text ts ∧
      (∀ p : Printer, p.dialect = d → p.keyed = false → defaultText p column = .ok default) ∧
      text = (if column.autoIncrement then " AUTO_INCREMENT" else "") ++ default ++
        (if column.primaryKey then " PRIMARY KEY" else "") ++ (if column.unique then " UNIQUE" else "") ++
        Printer.clause " COMMENT " (column.comment.map (Printer.quoteString d.toLexicon)) := by
  obtain ⟨default, us, written, printed⟩ := exists_default ready value
  have comment : ∃ ts, WrittenMarks d (column.comment.map .comment).toList
      (Printer.clause " COMMENT " (column.comment.map (Printer.quoteString d.toLexicon))) ts := by
    cases column.comment with
    | none => exact ⟨[], .nil⟩
    | some text => exact ⟨_, by simpa [Printer.clause] using WrittenMarks.cons (.comment text) .nil⟩
  obtain ⟨vs, commented⟩ := comment
  have first := (WrittenMark.counted.optional column.autoIncrement).append written
  have keys := (first.append (WrittenMark.primaryKey.optional column.primaryKey)).append
    (WrittenMark.unique.optional column.unique)
  exact ⟨default, _, _, keys.append commented, printed, rfl⟩

theorem ColumnTree.exists_written (ready : d.ReadsQueries) (tree : ColumnTree d column) :
    ∃ text ts, WrittenColumn d column text ts := by
  have regular := ready.regular.lexicon
  obtain ⟨w, us, spells, typed⟩ := tree.typed.written regular
  obtain ⟨default, text, vs, marked, printed, shape⟩ := exists_marks ready tree.value
  have name := spells_token regular ready.quotes tree.named.isName
  have type : Spells d.toLexicon _ _ := spells.weaken fun tail breaks c held => .inl (breaks c held)
  have behind := (spellsTail_null regular column.notNull).append regular (marked.spelled regular)
  have whole := (name.spaced regular type).clauses regular behind
  refine ⟨column.name.spelling d.toLexicon ++ " " ++ ({ dialect := d } : Printer).plainType column.type.name
    column.type.params ++ ((if column.notNull then " NOT NULL" else "") ++ text), _, ?_, by simpa using whole, ?_,
    columnDef_parses ready typed marked⟩
  · intro p target unkeyed
    rw [columnDef_printed, tree.typed.printed target, printed p target unkeyed, tree.named.printed target unkeyed]
    subst target
    simp [shape, bind, Except.bind, pure, Except.pure, Printer.comment, String.append_assoc]
    rfl
  · refine ⟨_, _, rfl, fun w known => ?_⟩
    unfold Ident.token
    split
    · rfl
    · next bare =>
      rw [is_word, beq_eq_false_iff_ne]
      rintro rfl
      exact tree.apart (by simpa using bare) known

end Column

/-! ### Lists of columns -/

section Columns

variable {column : ColumnDef} {columns : List ColumnDef} {text : String} {texts : List String} {depth : Nat}

theorem mapM_ok_iff {α β : Type} {f : α → Except Error β} {as : List α} {bs : List β} :
    as.mapM f = .ok bs ↔ List.Forall₂ (fun a b => f a = .ok b) as bs := by
  induction as generalizing bs with
  | nil => simp [pure, Except.pure, eq_comm]
  | cons a as ih =>
    rw [List.mapM_cons, List.forall₂_cons_left_iff]
    simp only [← ih]
    cases f a with
    | error fault => simp [bind, Except.bind]
    | ok b => cases as.mapM f <;> simp [bind, Except.bind, pure, Except.pure, eq_comm]

theorem columns_printed (series : Series (WrittenColumn d) columns texts ts) {p : Printer} (target : p.dialect = d)
    (unkeyed : p.keyed = false) : columns.mapM p.columnDef = .ok texts := by
  refine mapM_ok_iff.mpr ?_
  induction series with
  | single own => exact .cons (own.printed p target unkeyed) .nil
  | cons own _ ih => exact .cons (own.printed p target unkeyed) ih

theorem constraint_none (absent : ∀ w ∈ elementWords, c.current.is w = false) (g : Grammar) (pos : Position)
    (name : String) : constraint? d g pos name c = .ok (none, c) := by
  have no (w : String) (known : w ∈ elementWords) (more : Bool) : ¬(c.current.is w && more) = true := by
    simp [absent w known]
  have noIndex (more : Bool) : ¬(["KEY", "INDEX", "FULLTEXT", "SPATIAL"].any c.current.is && more) = true := by
    have listed : ∀ w ∈ ["KEY", "INDEX", "FULLTEXT", "SPATIAL"], w ∈ elementWords := by decide
    have none : ["KEY", "INDEX", "FULLTEXT", "SPATIAL"].any c.current.is = false :=
      List.any_eq_false.mpr fun w member => Bool.eq_false_iff.mp (absent w (listed w member))
    simp [none]
  unfold constraint?
  refine bind_ok (get_apply c) ?_
  refine (congrFun (if_neg (no "PRIMARY" (by decide) _)) c).trans ?_
  refine (congrFun (if_neg (no "UNIQUE" (by decide) _)) c).trans ?_
  refine (congrFun (if_neg (no "FOREIGN" (by decide) _)) c).trans ?_
  refine (congrFun (if_neg (no "CHECK" (by decide) _)) c).trans ?_
  exact (congrFun (if_neg (noIndex _)) c).trans rfl

theorem WrittenColumn.shorter (written : WrittenColumn d column text ts) (us : List Token) :
    us.length < (ts ++ us).length := by
  obtain ⟨t, vs, rfl, _⟩ := written.starts
  simp only [List.length_cons, List.length_append]
  omega

theorem tableElement_parses (written : WrittenColumn d column text ts) (table : CreateTable) :
    Parses d (fun g => tableElement d g table) columnEnds
      (fun t => ∃ read, t = { table with columns := table.columns ++ [read] } ∧ read.bare = column.bare) ts := by
  intro depth c tail enough follows shown
  obtain ⟨read, next, parsed, left, same⟩ := written.parses depth c tail enough follows shown
  have absent : ∀ w ∈ elementWords, c.current.is w = false := by
    obtain ⟨t, us, rfl, apart⟩ := written.starts
    have current : c.current.bare = t := Cursor.Shows.current shown
    intro w known
    rw [← is_bare, current, apart w known]
  have unnamed : accept "CONSTRAINT" c = .ok (false, c) := accept_absent (absent "CONSTRAINT" (by decide))
  refine ⟨_, next, ?_, left, read, rfl, same⟩
  unfold tableElement
  exact bind_ok (position_apply c) (bind_ok unnamed (bind_ok rfl
    (bind_ok (constraint_none absent _ _ _) (bind_ok parsed rfl))))

theorem columns_start (series : Series (WrittenColumn d) columns texts ts) :
    ∃ t us, ts = t :: us ∧ ∀ w ∈ elementWords, t.is w = false := by
  cases series with
  | single own => exact own.starts
  | cons own rest =>
    obtain ⟨t, us, rfl, apart⟩ := own.starts
    exact ⟨t, _, rfl, apart⟩

/-- A round of the loop over what stands behind the first member. -/
def foldStep {α : Type} (item : α → Parser α) (a : α) : Parser (Option α) := do
  if ← acceptOp "," then return some (← item a) else return none

theorem foldStep_comma {α : Type} {item : α → Parser α} {a b : α} {next : Cursor}
    (comma : c.current.isOp "," = true) (taken : item a c.advance = .ok (b, next)) :
    foldStep item a c = .ok (some b, next) := by
  simp only [foldStep, bind_apply, acceptOp_apply, comma, if_true, ok_bind, taken, pure_apply]

theorem foldStep_stops {α : Type} {item : α → Parser α} {a : α} (apart : c.current.isOp "," = false) :
    foldStep item a c = .ok (none, c) := by
  simp only [foldStep, bind_apply, acceptOp_apply, apart, Bool.false_eq_true, if_false, ok_bind, pure_apply]

/-- The first column is read by itself, and every further one by a round of the loop. -/
private theorem columns_run (series : Series (WrittenColumn d) columns texts ts) (table : CreateTable)
    (enough : ts.length < depth) (shown : c.Shows (ts ++ punctuation ")" :: tail)) :
    ∃ first middle read next, tableElement d (grammar d depth) table c = .ok (first, middle) ∧
      middle.rest.length < c.rest.length ∧
      Repeats (foldStep (tableElement d (grammar d depth))) first middle
        { table with columns := table.columns ++ read } next ∧
      next.Shows (punctuation ")" :: tail) ∧ read.map ColumnDef.bare = columns.map ColumnDef.bare := by
  induction series generalizing c table with
  | single own =>
    have follows : Follows d.toLexicon columnEnds (punctuation ")" :: tail) := ⟨.mark ")", by decide, by decide, _, rfl⟩
    obtain ⟨_, middle, parsed, left, read, rfl, same⟩ := tableElement_parses own table depth c _ enough follows shown
    exact ⟨_, middle, [read], middle, parsed, shown.shorter left (own.shorter _), .refl .., left, by simp [same]⟩
  | @cons column columns text texts ts us own rest ih =>
    simp only [List.length_append, List.length_cons] at enough
    rw [List.append_assoc, List.cons_append] at shown
    have follows : Follows d.toLexicon columnEnds (punctuation "," :: (us ++ punctuation ")" :: tail)) :=
      ⟨.mark ",", by decide, by decide, _, rfl⟩
    obtain ⟨_, middle, parsed, atComma, head, rfl, same⟩ :=
      tableElement_parses own table depth c _ (show ts.length < depth by omega) follows shown
    have start : middle.advance.Shows (us ++ punctuation ")" :: tail) := atComma.advance' (by simp)
    obtain ⟨second, after, read, next, element, fewer, others, left, equal⟩ :=
      ih { table with columns := table.columns ++ [head] } (show us.length < depth by omega) start
    have comma : middle.current.isOp "," = true := by
      rw [← isOp_bare, atComma.current]
      decide
    have stepped := foldStep_comma comma element
    have shorter : after.rest.length < middle.rest.length := fewer.trans (atComma.shorter start (by simp))
    have taken := shown.shorter atComma (own.shorter _)
    refine ⟨_, middle, head :: read, next, parsed, taken, ?_, left, by simp [same, equal]⟩
    have whole : ({ table with columns := table.columns ++ head :: read } : CreateTable) =
        { table with columns := table.columns ++ [head] ++ read } := by
      rw [List.append_assoc, List.singleton_append]
    rw [whole]
    exact Relation.ReflTransGen.head ⟨stepped, shorter⟩ others

theorem columns_shows (series : Series (WrittenColumn d) columns texts ts) (table : CreateTable)
    (enough : ts.length < depth) (shown : c.Shows (ts ++ punctuation ")" :: tail)) :
    ∃ read next, commaFold (tableElement d (grammar d depth)) table c =
        .ok ({ table with columns := table.columns ++ read }, next) ∧
      next.Shows (punctuation ")" :: tail) ∧ read.map ColumnDef.bare = columns.map ColumnDef.bare := by
  obtain ⟨first, middle, read, next, element, _, rounds, left, same⟩ := columns_run series table enough shown
  have apart : next.current.isOp "," = false := by
    rw [← isOp_bare, left.current]
    decide
  exact ⟨read, next, bind_ok element (rounds.loop (foldStep_stops apart)), left, same⟩

theorem exists_columns (ready : d.ReadsQueries) (nonempty : columns ≠ [])
    (each : ∀ column ∈ columns, ColumnTree d column) : ∃ texts ts, Series (WrittenColumn d) columns texts ts :=
  exists_series nonempty fun column member => (each column member).exists_written ready

end Columns

end SqlDialects
