import SqlDialects.Proofs.RoundTrip

/-! Quotes cannot be left from inside. Whatever stands between the quotes that a dialect writes, strings and
names are read back as single tokens with the same text, and what is written for a name is read as that name. -/

namespace SqlDialects

variable {lexicon : Lexicon}

/-- Names have quotes of their own. -/
structure Lexicon.QuotesNames (lexicon : Lexicon) : Prop where
  names : lexicon.identQuotes ≠ []
  apart : ∀ mark ∈ lexicon.identQuotes, mark ∉ lexicon.stringQuotes

/-- A name that is written without quotes although it is no word: the number of a tuple element or a
placeholder. -/
def Ident.isExempt (id : Ident) : Bool :=
  !id.quoted && (id.name.startsWith "$\x7b" || (id.name != "" && id.name.toList.all Char.isDigit))

namespace Token

/-! ### Quoted names -/

/-- Where backslashes do not escape, the inside of a string is that of a name. -/
theorem stringBody_eq_doubled (mark : Char) (cs : List Char) :
    Printer.stringBody mark false cs = Printer.doubled mark cs := by
  fun_induction Printer.stringBody mark false cs with
  | case1 => rfl
  | case2 => simp [Printer.doubled]
  | case3 c _ escapes | case6 c next cs _ escapes _ ih | case7 c next cs _ escapes _ ih => simp at escapes
  | case4 c different _ => simp [Printer.doubled, different]
  | case5 next cs ih => simp [ih, Printer.doubled]
  | case8 c next cs different _ ih => simp [ih, Printer.doubled, different]

theorem spells_quotedName (regular : lexicon.Regular) (quotes : lexicon.QuotesNames) (name : String) :
    Spells lexicon (Printer.quoteIdent lexicon name).toList
      [{ kind := .quotedWord, text := name, upper := Text.upper name, pos := {}, stop := 0 }] := by
  obtain ⟨mark, others, first⟩ := List.exists_cons_of_ne_nil quotes.names
  have isQuote : mark ∈ lexicon.identQuotes := by simp [first]
  have isMark : mark ∈ marks := regular.quotes mark (List.mem_append_right _ isQuote)
  have solid : mark ∉ [' ', '\t', '\n', '\r', '#'] ∧ mark ≠ '-' ∧ mark ≠ '/' := by
    simp only [marks, List.mem_cons, List.not_mem_nil, or_false] at isMark
    obtain rfl | rfl | rfl := isMark <;> decide
  have read (pos : Position) : readLexeme lexicon pos mark (Printer.doubled mark name.toList ++ [mark]) =
      .ok ⟨.quotedWord, name.toList, []⟩ := by
    unfold readLexeme
    rw [if_neg (by simpa using quotes.apart mark isQuote), if_pos (by simpa using isQuote),
      ← stringBody_eq_doubled, readQuoted_stringBody isMark]
  have spelled := spells_lexeme regular solid.1 (fun equal => absurd equal solid.2.1)
    (fun equal => absurd equal solid.2.2) read
  simpa [Printer.quoteIdent, first, Lexeme.upper] using spelled

/-! ### Single tokens -/

/-- The text is read as the token and the end, up to their places. -/
def ReadsAs (lexicon : Lexicon) (text : String) (t : Token) : Prop :=
  ∃ read last, tokenize lexicon text = .ok [read, last] ∧ read.bare = t ∧ last.bare = finish

theorem Spells.readsAs {text : String} {t : Token} (spelled : Spells lexicon text.toList [t]) :
    ReadsAs lexicon text t := by
  obtain ⟨tokens, read, equal⟩ := spelled.tokenize
  match tokens with
  | [] | [_] | _ :: _ :: _ :: _ => simp at equal
  | [first, last] =>
    simp only [List.map_cons, List.map_nil, List.cons_append, List.nil_append, List.cons.injEq, and_true] at equal
    exact ⟨first, last, read, equal.1, equal.2⟩

end Token

/-! ### Names -/

private theorem word_of_needsQuotes {id : Ident} (bare : id.quoted = false) (plain : id.isExempt = false)
    (unneeded : Printer.needsQuotes lexicon id.name = false) :
    lexicon.isReserved (Text.upper id.name) = false ∧
      ∃ c cs, id.name.toList = c :: cs ∧ isIdentStart c = true ∧ cs.all isIdentChar = true := by
  unfold Printer.needsQuotes at unneeded
  rw [Bool.or_eq_false_iff] at unneeded
  obtain ⟨free, shaped⟩ := unneeded
  refine ⟨free, ?_⟩
  cases shape : id.name.toList with
  | nil => simp [shape] at shaped
  | cons c cs =>
    have named : id.name ≠ "" := by
      intro empty
      simp [empty] at shape
    have letters : (c :: cs).all Char.isDigit = false := by
      simp only [Ident.isExempt, bare, bne_iff_ne.mpr named, shape, Bool.not_false, Bool.true_and,
        Bool.or_eq_false_iff] at plain
      exact plain.2
    simp only [shape] at shaped
    split at shaped
    · next digit =>
      rw [List.all_cons, digit, Bool.true_and] at letters
      simp [letters] at shaped
    · simp only [Bool.or_eq_false_iff, Bool.not_eq_false'] at shaped
      exact ⟨c, cs, rfl, shaped.1, shaped.2⟩

private theorem ident_readsAs (regular : lexicon.Regular) (quotes : lexicon.QuotesNames) {p : Printer}
    (target : p.dialect.toLexicon = lexicon) {id : Ident} (plain : id.isExempt = false) :
    ∃ t, Token.ReadsAs lexicon (p.ident id) t ∧ t.text = id.name ∧ Parser.isName lexicon t = true := by
  have quoted : Token.ReadsAs lexicon (Printer.quoteIdent lexicon id.name) _ :=
    (Token.spells_quotedName regular quotes id.name).readsAs
  have noTemplate : (!id.quoted && id.name.startsWith "$\x7b") = false := by
    simp only [Ident.isExempt, Bool.and_or_distrib_left, Bool.or_eq_false_iff] at plain
    exact plain.1
  unfold Printer.ident
  rw [if_neg (by simp [noTemplate]), target]
  split
  · exact ⟨_, quoted, rfl, rfl⟩
  · next unneeded =>
    simp only [Bool.or_eq_true, not_or, Bool.not_eq_true] at unneeded
    obtain ⟨free, c, cs, shape, starts, all⟩ := word_of_needsQuotes unneeded.1.1 plain unneeded.2
    refine ⟨_, (Token.spells_word regular shape starts all).readsAs, rfl, ?_⟩
    unfold Parser.isName Token.word
    dsimp only
    split <;> simp_all

theorem Parser.ident_apply (c : Cursor) : Parser.ident lexicon c =
    if c.current.isTemplate || isName lexicon c.current then
      .ok (⟨c.current.text, c.current.isQuoted⟩, c.advance)
    else expected "identifier" c := by
  simp only [Parser.ident, bind_apply, current_apply, ok_bind]
  split <;> rfl

private theorem Token.ReadsAs.ident {text : String} {t : Token} (reads : Token.ReadsAs lexicon text t)
    (isName : Parser.isName lexicon t = true) : ∃ c id next, Cursor.ofText lexicon text = .ok c ∧
      Parser.ident lexicon c = .ok (id, next) ∧ id.name = t.text ∧ next.current.isFinish = true := by
  obtain ⟨read, last, tokens, rfl, ended⟩ := reads
  let c : Cursor := { source := text, current := read, rest := [last] }
  refine ⟨c, ⟨read.text, read.isQuoted⟩, c.advance, ?_, ?_, rfl, ?_⟩
  · rw [Cursor.ofText, tokens]
    rfl
  · have taken : Parser.isName lexicon read = true := isName
    exact (Parser.ident_apply c).trans (if_pos (by simp [c, taken]))
  · change last.isFinish = true
    rw [← Token.isFinish_bare, ended]
    rfl

/-! ### The registered dialects -/

theorem registered_quotesNames {entry : Entry} (member : entry ∈ Registry.standard.entries) :
    entry.dialect.QuotesNames := by
  have checked : ∀ entry ∈ Registry.standard.entries, entry.dialect.identQuotes.isEmpty = false ∧
      entry.dialect.identQuotes.all (fun mark => !entry.dialect.stringQuotes.contains mark) = true := by
    decide +kernel
  obtain ⟨nonempty, apart⟩ := checked entry member
  exact ⟨List.isEmpty_eq_false_iff.mp nonempty, by simpa using apart⟩

/-- In every registered dialect a quoted text is read back as one string, a quoted name as one name, and what
is written for a name as one token that the parser takes for the same name. -/
theorem quotes_read_back {entry : Entry} (member : entry ∈ Registry.standard.entries) :
    (∀ value, ∃ t last, Token.tokenize entry.dialect.toLexicon (Printer.quoteString entry.dialect.toLexicon value) =
        .ok [t, last] ∧ t.kind = .string ∧ t.text = value ∧ last.kind = .finish) ∧
    (∀ name, ∃ t last, Token.tokenize entry.dialect.toLexicon (Printer.quoteIdent entry.dialect.toLexicon name) =
        .ok [t, last] ∧ t.kind = .quotedWord ∧ t.text = name ∧ last.kind = .finish) ∧
    ∀ (p : Printer) (id : Ident), p.dialect = entry.dialect → id.isExempt = false →
      (∃ t last, Token.tokenize entry.dialect.toLexicon (p.ident id) = .ok [t, last] ∧ last.kind = .finish) ∧
      ∃ c read next, Cursor.ofText entry.dialect.toLexicon (p.ident id) = .ok c ∧
        Parser.ident entry.dialect.toLexicon c = .ok (read, next) ∧ read.name = id.name ∧
        next.current.isFinish = true := by
  have regular := (registered_regular member).lexicon
  have quotes := registered_quotesNames member
  refine ⟨?_, ?_, ?_⟩
  · intro value
    obtain ⟨t, last, tokens, equal, ended⟩ := (Token.spells_string regular value).readsAs
    exact ⟨t, last, tokens, congrArg Token.kind equal, congrArg Token.text equal, congrArg Token.kind ended⟩
  · intro name
    obtain ⟨t, last, tokens, equal, ended⟩ := (Token.spells_quotedName regular quotes name).readsAs
    exact ⟨t, last, tokens, congrArg Token.kind equal, congrArg Token.text equal, congrArg Token.kind ended⟩
  · intro p id target plain
    obtain ⟨t, reads, text, isName⟩ := ident_readsAs regular quotes (congrArg Dialect.toLexicon target) plain
    obtain ⟨c, read, next, loaded, taken, name, atEnd⟩ := reads.ident isName
    obtain ⟨first, last, tokens, _, ended⟩ := reads
    exact ⟨⟨first, last, tokens, congrArg Token.kind ended⟩, c, read, next, loaded, taken, name.trans text, atEnd⟩

/-- A name that would end its quotes and start a comment. -/
theorem hostile_name_read_back : ∃ t last c read next,
    Token.tokenize MySql.profile.dialect.toLexicon
      (({ dialect := MySql.profile.dialect } : Printer).ident ⟨"Select\x60; --\\", false⟩) = .ok [t, last] ∧
    Cursor.ofText MySql.profile.dialect.toLexicon
      (({ dialect := MySql.profile.dialect } : Printer).ident ⟨"Select\x60; --\\", false⟩) = .ok c ∧
    Parser.ident MySql.profile.dialect.toLexicon c = .ok (read, next) ∧ read.name = "Select\x60; --\\" := by
  obtain ⟨_, _, names⟩ := @quotes_read_back (Entry.ofProfile MySql.profile) (by simp [Registry.standard])
  obtain ⟨⟨t, last, tokens, _⟩, c, read, next, loaded, taken, name, _⟩ :=
    names { dialect := MySql.profile.dialect } ⟨"Select\x60; --\\", false⟩ rfl (by decide +kernel)
  exact ⟨t, last, c, read, next, tokens, loaded, taken, name⟩

example : ({ dialect := MySql.profile.dialect } : Printer).ident ⟨"a\x60b", false⟩ =
    "\x60a\x60\x60b\x60" := by decide +kernel

end SqlDialects
