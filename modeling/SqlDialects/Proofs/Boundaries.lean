import SqlDialects.Proofs.Numerals
import SqlDialects.Proofs.Quoting

/-! Where tokens end. A text that is followed by what cannot go on with its last token is read as the same tokens
whatever comes later; so texts are put together out of parts, each with its own condition on what follows. -/

namespace SqlDialects

/-- No operator begins with two closing angles. -/
def Lexicon.SplitsAngles (lexicon : Lexicon) : Prop := ∀ op ∈ lexicon.longOperators, ¬['>', '>'] <+: op.toList

namespace Token

variable {lexicon : Lexicon} {ends later : List Char → Prop} {front back : List Char} {ts us : List Token}

/-- The text is read as the tokens in front of every text that begins as it must. -/
def SpellsBefore (lexicon : Lexicon) (ends : List Char → Prop) (cs : List Char) (ts : List Token) : Prop :=
  ∀ (tail : List Char) (pos : Position), ends tail → ∃ tokens next,
    tokens.map bare = ts ∧ scan lexicon pos (cs ++ tail) = (scan lexicon next tail).map (tokens ++ ·)

/-- However the text goes on, its tokens have the property if it has tokens. -/
def Leads (lexicon : Lexicon) (holds : List Token → Prop) (cs : List Char) : Prop :=
  ∀ (tail : List Char) (pos : Position) (tokens : List Token),
    scan lexicon pos (cs ++ tail) = .ok tokens → holds (tokens.map bare)

/-- The text does not begin with a character of some kind. -/
def StopsAt (kind : Char → Bool) (tail : List Char) : Prop := ∀ c ∈ tail.head?, kind c = false

/-- Texts after which there is nothing, a break or a closing angle. -/
def Closes (tail : List Char) : Prop := ∀ c ∈ tail.head?, isBreak c ∨ c = '>'

/-! ### Parts -/

theorem Spells.before (spelled : Spells lexicon front ts) : SpellsBefore lexicon Breaks front ts := spelled

theorem SpellsBefore.weaken (spelled : SpellsBefore lexicon ends front ts) (implied : ∀ tail, later tail → ends tail) :
    SpellsBefore lexicon later front ts :=
  fun tail pos held => spelled tail pos (implied tail held)

theorem SpellsBefore.append (first : SpellsBefore lexicon ends front ts) (last : SpellsBefore lexicon later back us)
    (meets : ∀ tail, later tail → ends (back ++ tail)) : SpellsBefore lexicon later (front ++ back) (ts ++ us) := by
  intro tail pos held
  obtain ⟨frontTokens, middle, rfl, scanned⟩ := first (back ++ tail) pos (meets tail held)
  obtain ⟨backTokens, next, rfl, rest⟩ := last tail middle held
  refine ⟨frontTokens ++ backTokens, next, List.map_append, ?_⟩
  rw [List.append_assoc, scanned, rest]
  cases scan lexicon next tail <;> simp [Except.map]

theorem SpellsBefore.leads {holds : List Token → Prop} (first : SpellsBefore lexicon ends front ts)
    (last : Leads lexicon holds back) (meets : ∀ tail, ends (back ++ tail)) :
    Leads lexicon (fun all => ∃ rest, all = ts ++ rest ∧ holds rest) (front ++ back) := by
  intro tail pos tokens scanned
  obtain ⟨frontTokens, middle, rfl, equal⟩ := first (back ++ tail) pos (meets tail)
  rw [List.append_assoc, equal] at scanned
  cases rest : scan lexicon middle (back ++ tail) with
  | error e => rw [rest] at scanned; cases scanned
  | ok more =>
    rw [rest] at scanned
    cases scanned
    exact ⟨more.map bare, List.map_append, last tail middle more rest⟩

theorem Leads.weaken {holds implied : List Token → Prop} (leads : Leads lexicon holds front)
    (weaker : ∀ ts, holds ts → implied ts) : Leads lexicon implied front :=
  fun tail pos tokens scanned => weaker _ (leads tail pos tokens scanned)

theorem Leads.append {holds : List Token → Prop} (leads : Leads lexicon holds front) (back : List Char) :
    Leads lexicon holds (front ++ back) := by
  intro tail pos tokens scanned
  rw [List.append_assoc] at scanned
  exact leads (back ++ tail) pos tokens scanned

theorem leads_any {holds : List Token → Prop} (always : ∀ ts, holds ts) : Leads lexicon holds front :=
  fun _ _ _ _ => always _

/-! ### Words, names and brackets -/

theorem spellsBefore_lexeme (regular : lexicon.Regular) {c : Char} {cs text : List Char} {kind : TokenKind}
    (solid : c ∉ [' ', '\t', '\n', '\r', '#']) (slash : c ≠ '/')
    (dash : c = '-' → ∀ tail, ends tail → (cs ++ tail).head? ≠ some '-')
    (read : ∀ pos tail, ends tail → readLexeme lexicon pos c (cs ++ tail) = .ok ⟨kind, text, tail⟩) :
    SpellsBefore lexicon ends (c :: cs)
      [{ kind, text := String.ofList text, upper := (⟨kind, text, []⟩ : Lexeme).upper, pos := {}, stop := 0 }] := by
  intro tail pos held
  have still : skipGap lexicon .code pos (c :: (cs ++ tail)) = .ok (pos, c :: (cs ++ tail)) :=
    skipGap_still solid (fun equal => dash equal tail held) (fun equal => absurd equal slash)
  exact ⟨[_], _, rfl, scan_lexeme regular still (read pos tail held)⟩

theorem spellsBefore_word (regular : lexicon.Regular) {text : String} {c : Char} {cs : List Char}
    (shape : text.toList = c :: cs) (starts : isIdentStart c) (all : cs.all isIdentChar) :
    SpellsBefore lexicon (StopsAt isIdentChar) text.toList [word lexicon text] := by
  obtain ⟨solid, noDash, noSlash⟩ := start_solid starts
  have whole : String.ofList (c :: cs) = text := by rw [← shape, String.ofList_toList]
  have spelled : SpellsBefore lexicon (StopsAt isIdentChar) (c :: cs) _ :=
    spellsBefore_lexeme regular solid noSlash (fun equal => absurd equal noDash) fun pos tail stops =>
      readLexeme_word regular pos starts all stops
  rw [whole] at spelled
  rw [shape]
  unfold word
  split <;> simp_all [Lexeme.upper]

/-- A name in quotes. -/
def quotedWord (name : String) : Token :=
  { kind := .quotedWord, text := name, upper := Text.upper name, pos := {}, stop := 0 }

theorem spellsBefore_quotedName (regular : lexicon.Regular) (quotes : lexicon.QuotesNames) (name : String) :
    SpellsBefore lexicon (StopsAt marks.contains) (Printer.quoteIdent lexicon name).toList [quotedWord name] := by
  obtain ⟨mark, others, first⟩ := List.exists_cons_of_ne_nil quotes.names
  have isQuote : mark ∈ lexicon.identQuotes := by simp [first]
  have isMark : mark ∈ marks := regular.quotes mark (List.mem_append_right _ isQuote)
  have facts : ∀ mark ∈ marks, mark ∉ [' ', '\t', '\n', '\r', '#'] ∧ mark ≠ '-' ∧ mark ≠ '/' ∧ mark ≠ '\\' :=
    forall_of_all (by decide)
  obtain ⟨solid, noDash, noSlash, noEscape⟩ := facts mark isMark
  have inside : readQuoted false mark (Printer.doubled mark name.toList ++ [mark]) = some (name.toList, []) := by
    rw [← stringBody_eq_doubled, readQuoted_stringBody isMark]
  have read (pos : Position) (tail : List Char) (stops : StopsAt marks.contains tail) :
      readLexeme lexicon pos mark (Printer.doubled mark name.toList ++ [mark] ++ tail) =
        .ok ⟨.quotedWord, name.toList, tail⟩ := by
    have clear : ∀ c ∈ tail.head?, c ≠ mark := by
      rintro c held rfl
      simpa [isMark] using stops c held
    unfold readLexeme
    rw [if_neg (by simpa using quotes.apart mark isQuote), if_pos (by simpa using isQuote),
      readQuoted_append noEscape clear inside]
    rfl
  have spelled := spellsBefore_lexeme regular solid noSlash (fun equal => absurd equal noDash) read
  simpa [Printer.quoteIdent, first, Lexeme.upper, quotedWord] using spelled

theorem spellsBefore_bracket (regular : lexicon.Regular) {c : Char} (bracket : c ∈ ['(', ')', ',']) :
    SpellsBefore lexicon (fun _ => True) [c] [punctuation (String.ofList [c])] := by
  have facts : ∀ c ∈ ['(', ')', ','], c ∉ [' ', '\t', '\n', '\r', '#'] ∧ c ≠ '-' ∧ c ≠ '/' :=
    forall_of_all (by decide)
  obtain ⟨solid, noDash, noSlash⟩ := facts c bracket
  exact spellsBefore_lexeme regular solid noSlash (fun equal => absurd equal noDash) fun pos tail _ =>
    readLexeme_bracket regular bracket

/-- A blank makes no token. -/
theorem SpellsBefore.blank (regular : lexicon.Regular) (spelled : SpellsBefore lexicon ends back ts) :
    SpellsBefore lexicon ends (' ' :: back) ts := by
  intro tail pos held
  obtain ⟨tokens, next, equal, scanned⟩ := spelled tail (pos.next ' ') held
  refine ⟨tokens, next, equal, ?_⟩
  rw [← scanned]
  exact scan_congr regular skipGap_blank

/-- Two texts with a comma and a blank between them. -/
theorem SpellsBefore.comma (regular : lexicon.Regular) (first : SpellsBefore lexicon ends front ts)
    (meets : ∀ tail, ends (',' :: tail)) (last : SpellsBefore lexicon later back us) :
    SpellsBefore lexicon later (front ++ ',' :: ' ' :: back) (ts ++ punctuation "," :: us) := by
  have comma : SpellsBefore lexicon later (',' :: ' ' :: back) (punctuation "," :: us) :=
    (spellsBefore_bracket regular (c := ',') (by decide)).append (last.blank regular) fun _ _ => trivial
  exact first.append comma fun tail _ => meets (' ' :: (back ++ tail))

theorem SpellsBefore.leads_comma (regular : lexicon.Regular) {holds : List Token → Prop}
    (first : SpellsBefore lexicon ends front ts) (meets : ∀ tail, ends (',' :: tail))
      (last : Leads lexicon holds back) :
    Leads lexicon (fun all => ∃ rest, all = ts ++ punctuation "," :: rest ∧ holds rest)
    (front ++ ',' :: ' ' :: back) := by
  have blank : Leads lexicon holds (' ' :: back) := by
    intro tail pos tokens scanned
    refine last tail (pos.next ' ') tokens ?_
    rw [← scanned]
    exact (scan_congr regular skipGap_blank).symm
  have comma := (spellsBefore_bracket regular (c := ',') (by decide)).leads blank fun _ => trivial
  refine (first.leads comma fun tail => meets _).weaken ?_
  rintro _ ⟨_, rfl, rest, rfl, held⟩
  exact ⟨rest, rfl, held⟩

/-! ### Operators and numbers -/

private theorem longOperators_alone (regular : lexicon.Regular) {c : Char} {tail : List Char}
    (apart : ∀ d ∈ tail.head?, d ∈ singleOperators → ∀ op ∈ lexicon.longOperators, ¬[c, d] <+: op.toList) :
    (lexicon.longOperators.find? fun op => op.toList.isPrefixOf (c :: tail)) = none := by
  apply List.find?_eq_none.mpr
  intro op member isPrefix
  obtain ⟨several, singles⟩ := Lexicon.mem_longOperators member regular
  have taken : op.toList <+: c :: tail := by simpa using isPrefix
  match shape : op.toList with
  | [] | [_] => simp [shape] at several
  | first :: second :: more =>
    rw [shape] at taken
    obtain ⟨rfl, later⟩ := List.cons_prefix_cons.mp taken
    cases tail with
    | nil => simp at later
    | cons d tail =>
      obtain ⟨rfl, _⟩ := List.cons_prefix_cons.mp later
      refine apart second rfl (singles second (by simp [shape])) op member ?_
      rw [shape]
      exact ⟨more, rfl⟩

private theorem spellsBefore_single (regular : lexicon.Regular) {c : Char} (single : c ∈ singleOperators)
    (solid : c ∉ ['#', '/']) (dash : c = '-' → ∀ tail, ends tail → tail.head? ≠ some '-')
    (apart : ∀ tail, ends tail → ∀ d ∈ tail.head?, d ∈ singleOperators →
      ∀ op ∈ lexicon.longOperators, ¬[c, d] <+: op.toList) :
    SpellsBefore lexicon ends [c]
      [{ kind := if c = ':' then .punctuation else .operator, text := String.ofList [c], pos := {}, stop := 0 }] := by
  simp only [List.mem_cons, List.not_mem_nil, or_false, not_or] at solid
  have spelled : SpellsBefore lexicon ends [c] _ :=
    spellsBefore_lexeme regular (single_solid c single solid.1) solid.2 dash fun pos tail held => by
      rw [List.nil_append, readLexeme_single regular single, longOperators_alone regular (apart tail held)]
  split at spelled <;> simp_all [Lexeme.upper]

theorem spellsBefore_mark (regular : lexicon.Regular) {c : Char}
    (single : c ∈ singleOperators) (solid : c ∉ ['#', '/']) :
    SpellsBefore lexicon (StopsAt singleOperators.contains) [c]
      [{ kind := if c = ':' then .punctuation else .operator, text := String.ofList [c], pos := {}, stop := 0 }] := by
  refine spellsBefore_single regular single solid (fun _ tail stops dash => ?_) fun tail stops d held isSingle => ?_
  · exact absurd (stops '-' dash) (by decide)
  · simpa [isSingle] using stops d held

theorem spellsBefore_angle (regular : lexicon.Regular) (splits : lexicon.SplitsAngles) :
    SpellsBefore lexicon Closes ['>'] [operator ">"] := by
  refine spellsBefore_single regular (by decide) (by decide) (fun equal => absurd equal (by decide)) ?_
  intro tail closes d held isSingle
  have noBreak : ∀ d ∈ singleOperators, isBreak d = false := forall_of_all (by decide)
  have angle : d = '>' := by simpa [noBreak d isSingle] using closes d held
  rw [angle]
  exact splits

/-- A number. -/
def number (text : String) : Token := { kind := .number, text, pos := {}, stop := 0 }

/-- What ends a number. -/
def EndsNumber : List Char → Prop := StopsAt fun c => isIdentChar c || c == '.'

theorem readNumber_digits {cs tail : List Char} (nonempty : cs ≠ []) (digits : ∀ c ∈ cs, c.isDigit = true)
    (stops : EndsNumber tail) : readNumber (cs ++ tail) = (cs, tail) := by
  have noDigit : ∀ c ∈ tail.head?, ¬c.isDigit = true := by
    intro c held isDigit
    simpa [isIdentChar, isDigit] using stops c held
  have taken : (cs ++ tail).takeWhile Char.isDigit = cs := by
    rw [List.takeWhile_append_of_pos digits]
    cases tail with
    | nil => simp
    | cons d tail => rw [List.takeWhile_cons_of_neg (noDigit d rfl), List.append_nil]
  have dropped : (cs ++ tail).dropWhile Char.isDigit = tail := by
    rw [List.dropWhile_append_of_pos digits]
    cases tail with
    | nil => rfl
    | cons d tail => exact List.dropWhile_cons_of_neg (noDigit d rfl)
  have noMark : ∀ d ∈ (cs ++ tail).tail.head?, (d == 'x' || d == 'X') = false := by
    intro d held
    rw [Bool.eq_false_iff]
    intro mark
    have letter : d = 'x' ∨ d = 'X' := by simpa using mark
    cases cs with
    | nil => exact nonempty rfl
    | cons c more =>
      cases more with
      | nil => obtain rfl | rfl := letter <;> exact absurd (stops _ held) (by decide)
      | cons e more =>
        have isDigit := digits d (by simp_all)
        obtain rfl | rfl := letter <;> exact absurd isDigit (by decide)
  rw [readNumber_decimal noMark, readNumber.readDecimal, taken, dropped]
  cases tail with
  | nil => simp [readFraction, readExponent]
  | cons d tail =>
    have noPoint : d ≠ '.' := by
      rintro rfl
      exact absurd (stops '.' rfl) (by decide)
    have noPower : (d = 'e' || d = 'E') = false := by
      rw [Bool.eq_false_iff]
      intro power
      have letter : d = 'e' ∨ d = 'E' := by simpa using power
      obtain rfl | rfl := letter <;> exact absurd (stops _ rfl) (by decide)
    cases tail <;> simp [readFraction, readExponent, noPoint, noPower]

theorem spellsBefore_digits (regular : lexicon.Regular) {text : String} (nonempty : text.toList ≠ [])
    (digits : ∀ c ∈ text.toList, c.isDigit = true) :
    SpellsBefore lexicon EndsNumber text.toList [number text] := by
  obtain ⟨c, cs, shape⟩ := List.exists_cons_of_ne_nil nonempty
  have digit : c.isDigit = true := digits c (by simp [shape])
  have differs {d : Char} (other : d.isDigit = false) : c ≠ d := by
    rintro rfl
    rw [digit] at other
    cases other
  have plain : c ∉ ['\x27', '\x22', '\x60'] := by
    simp [differs (show '\x27'.isDigit = false by decide), differs (show '\x22'.isDigit = false by decide),
      differs (show '\x60'.isDigit = false by decide)]
  have solid : c ∉ [' ', '\t', '\n', '\r', '#'] := by
    simp [differs (show ' '.isDigit = false by decide), differs (show '\t'.isDigit = false by decide),
      differs (show '\n'.isDigit = false by decide), differs (show '\r'.isDigit = false by decide),
      differs (show '#'.isDigit = false by decide)]
  have read (pos : Position) (tail : List Char) (stops : EndsNumber tail) :
      readLexeme lexicon pos c (cs ++ tail) = .ok ⟨.number, c :: cs, tail⟩ := by
    unfold readLexeme
    rw [if_neg (not_string regular plain), if_neg (not_name regular plain)]
    rw [if_neg (by simp [differs (show '$'.isDigit = false by decide)]), if_neg (differs (by decide)),
      if_pos (by simp [digit]), ← List.cons_append, ← shape, readNumber_digits nonempty digits stops]
  have spelled := spellsBefore_lexeme regular solid (differs (by decide))
    (fun equal => absurd equal (differs (by decide))) read
  simpa [number, Lexeme.upper, ← shape] using spelled

/-- A whole number, with its sign. -/
def integer (n : Int) : List Token :=
  if 0 ≤ n then [number n.toNat.repr] else [operator "-", number (-n).toNat.repr]

theorem spellsBefore_integer (regular : lexicon.Regular) (n : Int) :
    SpellsBefore lexicon EndsNumber n.repr.toList (integer n) := by
  have natural (m : Nat) : SpellsBefore lexicon EndsNumber m.repr.toList [number m.repr] :=
    spellsBefore_digits regular (digits_repr m).1 (digits_repr m).2
  rw [Int.repr_eq_if, integer]
  split
  · exact natural _
  · obtain ⟨d, ds, shape⟩ := List.exists_cons_of_ne_nil (digits_repr (-n).toNat).1
    have digit : d.isDigit = true := (digits_repr (-n).toNat).2 d (by simp [shape])
    have facts : ∀ c ∈ singleOperators, c.isDigit = false := forall_of_all (by decide)
    have noSign : singleOperators.contains d = false := by
      rw [Bool.eq_false_iff]
      intro single
      rw [facts d (by simpa using single)] at digit
      cases digit
    rw [String.toList_append]
    refine (spellsBefore_mark regular (c := '-') (by decide) (by decide)).append (natural _) fun tail _ => ?_
    rintro c held
    rw [shape] at held
    cases held
    exact noSign

theorem spellsBefore_integers (regular : lexicon.Regular) {params : List Int} (nonempty : params ≠ []) :
    SpellsBefore lexicon EndsNumber (Printer.commas (params.map Int.repr)).toList
      ([punctuation ","].intercalate (params.map integer)) := by
  induction params with
  | nil => exact absurd rfl nonempty
  | cons n params ih =>
    cases params with
    | nil => simpa [Printer.commas] using spellsBefore_integer regular n
    | cons m params =>
      have shape : (Printer.commas ((n :: m :: params).map Int.repr)).toList =
          n.repr.toList ++ ',' :: ' ' :: (Printer.commas ((m :: params).map Int.repr)).toList := by
        simp [Printer.commas, String.intercalate_cons_cons]
      have tokens : [punctuation ","].intercalate ((n :: m :: params).map integer) =
          integer n ++ punctuation "," :: [punctuation ","].intercalate ((m :: params).map integer) := by
        simp [List.intercalate_cons_cons]
      rw [shape, tokens]
      refine (spellsBefore_integer regular n).comma regular (fun tail => ?_) (ih (List.cons_ne_nil m params))
      rintro c ⟨⟩
      decide

end Token

end SqlDialects
