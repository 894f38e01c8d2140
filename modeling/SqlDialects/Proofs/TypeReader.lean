import SqlDialects.Proofs.Reader
import SqlDialects.Proofs.TypeRules

/-! The types that are read from a text. Types nest without bound, and what holds of the types inside is kept by every
step of the reader; a native type is called what the text calls it, so it has a name unless the text has an empty one.
-/

namespace SqlDialects

/-! ### Names in a text -/

namespace Token

variable {lexicon : Lexicon}

private theorem readLexeme_named {pos : Position} {c : Char} {cs : List Char} {lexeme : Lexeme}
    (read : readLexeme lexicon pos c cs = .ok lexeme)
    (name : lexeme.kind = .keyword ∨ lexeme.kind = .word ∨ lexeme.kind = .quotedWord) :
    lexeme.kind = .quotedWord ∨ IsWord (String.ofList lexeme.text) := by
  unfold readLexeme at read
  by_cases string : lexicon.stringQuotes.contains c = true
  · rw [if_pos string] at read
    split at read <;> cases read
    simp at name
  rw [if_neg string] at read
  by_cases quoted : lexicon.identQuotes.contains c = true
  · rw [if_pos quoted] at read
    split at read <;> cases read
    exact .inl rfl
  rw [if_neg quoted] at read
  by_cases opened : (c = '$' && cs.head? = some '\x7b') = true
  · rw [if_pos opened] at read
    split at read <;> cases read
    simp at name
  rw [if_neg opened] at read
  by_cases mark : c = '?'
  · rw [if_pos mark] at read
    cases read
    simp at name
  rw [if_neg mark] at read
  by_cases digit : (c.isDigit || (c = '.' && cs.head?.any Char.isDigit)) = true
  · rw [if_pos digit] at read
    cases read
    simp at name
  rw [if_neg digit] at read
  by_cases starts : isIdentStart c = true
  · rw [if_pos starts] at read
    cases read
    have inside : isIdentChar c = true := by simp [isIdentChar, starts]
    refine .inr ⟨c, cs.takeWhile isIdentChar, ?_, starts, List.all_takeWhile⟩
    rw [String.toList_ofList, List.takeWhile_cons_of_pos inside]
  rw [if_neg starts] at read
  by_cases bracket : brackets.contains c = true
  · rw [if_pos bracket] at read
    cases read
    simp at name
  rw [if_neg bracket] at read
  split at read
  · cases read
    simp at name
  split at read <;> cases read
  split at name <;> simp at name

theorem lexeme_of_mem {fuel : Nat} {pos : Position} {cs : List Char} {tokens : List Token}
    (read : tokensFrom lexicon fuel pos cs = .ok tokens) {t : Token} (member : t ∈ tokens) (inside : t.kind ≠ .finish) :
    ∃ place c rest lexeme, readLexeme lexicon place c rest = .ok lexeme ∧ t.kind = lexeme.kind ∧
      t.text = String.ofList lexeme.text ∧ t.upper = lexeme.upper := by
  induction fuel generalizing pos cs tokens with
  | zero =>
    cases read
    rw [List.mem_singleton.mp member] at inside
    exact absurd rfl inside
  | succ fuel ih =>
    rw [tokensFrom] at read
    split at read
    · cases read
    · cases read
      rw [List.mem_singleton.mp member] at inside
      exact absurd rfl inside
    split at read
    · cases read
    next lexeme taken =>
    dsimp only at read
    split at read
    · cases read
    next later rest =>
    cases read
    obtain rfl | behind := List.mem_cons.mp member
    · exact ⟨_, _, _, lexeme, taken, rfl, rfl, rfl⟩
    · exact ih rest behind

theorem tokensFrom_named {fuel : Nat} {pos : Position} {cs : List Char} {tokens : List Token}
    (read : tokensFrom lexicon fuel pos cs = .ok tokens) {t : Token} (member : t ∈ tokens)
    (name : (t.isWord || t.isQuoted) = true) : t.upper = Text.upper t.text ∧ (t.isQuoted = true ∨ IsWord t.text) := by
  have inside : t.kind ≠ .finish := by
    intro last
    simp [isWord, isQuoted, last] at name
  obtain ⟨_, _, _, lexeme, taken, kind, text, upper⟩ := lexeme_of_mem read member inside
  -- The upper-case form is that of the text for these three kinds alone.
  have kinds : lexeme.kind = .keyword ∨ lexeme.kind = .word ∨ lexeme.kind = .quotedWord := by
    simpa [isWord, isQuoted, kind, or_assoc] using name
  rw [upper, text]
  refine ⟨?_, (readLexeme_named taken kinds).imp_left fun quoted => by simp [isQuoted, kind, quoted]⟩
  obtain known | known | known := kinds <;> simp [Lexeme.upper, known]

theorem tokensFrom_blank {fuel : Nat} {pos : Position} {cs : List Char} {tokens : List Token}
    (read : tokensFrom lexicon fuel pos cs = .ok tokens) {t : Token} (member : t ∈ tokens)
    (name : (t.isWord || t.isQuoted) = true) (empty : t.upper = "") : t.isQuoted = true ∧ t.text = "" := by
  obtain ⟨upper, quoted | ⟨c, cs, shape, _⟩⟩ := tokensFrom_named read member name
  · rw [upper, ← String.toList_inj, Text.toList_upper] at empty
    exact ⟨quoted, String.toList_inj.mp (List.map_eq_nil_iff.mp empty)⟩
  · rw [upper, ← String.toList_inj, Text.toList_upper, shape] at empty
    cases empty

end Token

/-! ### The reader -/

/-- The names among the tokens have a property. -/
def Cursor.Named (own : String → Prop) (c : Cursor) : Prop :=
  ∀ t ∈ c.current :: c.rest, (t.isWord || t.isQuoted) = true → own t.upper

theorem Cursor.Named.advance {own : String → Prop} {c : Cursor} (named : c.Named own) : c.advance.Named own := by
  unfold Cursor.advance
  split
  · exact named
  · next t ts shape =>
    intro u member
    refine named u (List.mem_cons_of_mem _ ?_)
    rw [shape]
    exact member

namespace Parser

/-- The zones that a name of a time can have. -/
def zones : List String := [" WITH TIME ZONE", " WITHOUT TIME ZONE"]

/-- A name that has the property keeps it with the words that extend it. -/
structure Extensible (own : String → Prop) : Prop where
  continued : ∀ name, own name → ∀ word ∈ continuationsOf name, own (name ++ " " ++ word)
  zoned : ∀ name ∈ ["TIMESTAMP", "TIME"], own name → ∀ zone ∈ zones, own (name ++ zone)

variable {own : String → Prop} {α β : Type} {good : α → Prop} {p : Parser α}

/-- The parser keeps what holds of the names, and what it reads is good. -/
def Delivers (own : String → Prop) (good : α → Prop) (p : Parser α) : Prop :=
  ∀ ⦃c a c'⦄, c.Named own → p c = .ok (a, c') → c'.Named own ∧ good a

/-- The parser keeps what holds of the names. -/
abbrev Passes (own : String → Prop) (p : Parser α) : Prop := Delivers own (fun _ => True) p

namespace Delivers

protected theorem pure {a : α} (holds : good a) : Delivers own good (pure a) := by
  rintro c _ _ named ⟨⟩
  exact ⟨named, holds⟩

protected theorem expected (what : String) : Delivers own good (expected what) := fun _ _ _ _ done => nomatch done

protected theorem stall : Delivers own good (stall : Parser α) := fun _ _ _ _ done => nomatch done

protected theorem bind {next : α → Parser β} {good' : β → Prop} (first : Delivers own good p)
    (rest : ∀ a, good a → Delivers own good' (next a)) : Delivers own good' (p >>= next) := by
  intro c b c' named done
  obtain ⟨a, middle, read, later⟩ := bind_eq_ok done
  obtain ⟨still, holds⟩ := first named read
  exact rest a holds still later

protected theorem look {f : Cursor → α} (holds : ∀ c : Cursor, c.Named own → good (f c)) :
    Delivers own good (fun c => .ok (f c, c)) := by
  rintro c _ _ named ⟨⟩
  exact ⟨named, holds c named⟩

protected theorem weaken (delivers : Delivers own good p) {good' : α → Prop} (implied : ∀ a, good a → good' a) :
    Delivers own good' p :=
  fun _ _ _ named done => (delivers named done).imp_right (implied _)

protected theorem loop {step : α → Parser (Option α)} {a : α} (initial : good a)
    (kept : ∀ a, good a → Delivers own (fun next => ∀ b, next = some b → good b) (step a)) :
    Delivers own good (loop step a) := by
  suffices rounds : ∀ fuel a, good a → Delivers own good (iterate fuel step a) from
    fun c _ _ named done => rounds _ a initial named done
  have looks : Delivers own (fun _ : Cursor => True) get := .look fun _ _ => trivial
  intro fuel
  induction fuel with
  | zero => exact fun a _ => .stall
  | succ fuel ih =>
    refine fun a holds => looks.bind fun before _ => (kept a holds).bind fun next good => ?_
    cases next with
    | none => exact .pure holds
    | some b =>
      refine looks.bind fun after _ => ?_
      split
      · exact ih b (good b rfl)
      · exact .stall

end Delivers

namespace Passes

protected theorem bind {next : α → Parser β} {good' : β → Prop} (first : Passes own p)
    (rest : ∀ a, Delivers own good' (next a)) : Delivers own good' (p >>= next) :=
  Delivers.bind first fun a _ => rest a

protected theorem look {f : Cursor → α} : Passes own (fun c => .ok (f c, c)) := Delivers.look fun _ _ => trivial

protected theorem loop {step : α → Parser (Option α)} {a : α} (passes : ∀ a, Passes own (step a)) :
    Passes own (loop step a) :=
  Delivers.loop trivial fun a _ => (passes a).weaken fun _ _ _ _ => trivial

end Passes

theorem delivers_current : Delivers own (fun t => (t.isWord || t.isQuoted) = true → own t.upper) current :=
  .look fun _ named => named _ List.mem_cons_self

theorem passes_current : Passes own current := Passes.look

theorem passes_peek : Passes own peek := Passes.look

theorem passes_get : Passes own get := Passes.look

theorem passes_advance : Passes own advance := by
  rintro c _ _ named ⟨⟩
  exact ⟨named.advance, trivial⟩

theorem passes_acceptAny (words : List String) : Passes own (acceptAny words) := by
  refine Passes.look.bind fun found => ?_
  split
  · exact passes_advance.bind fun _ => .pure trivial
  · exact .pure trivial

theorem passes_acceptOp (op : String) : Passes own (acceptOp op) := by
  refine Passes.look.bind fun found => ?_
  split
  · exact passes_advance.bind fun _ => .pure trivial
  · exact .pure trivial

theorem passes_acceptSeq (words : List String) : Passes own (acceptSeq words) := by
  have skip : ∀ (words : List String) (c : Cursor), c.Named own → (words.foldl (fun c _ => c.advance) c).Named own := by
    intro words
    induction words with
    | nil => exact fun _ named => named
    | cons _ words ih => exact fun c named => ih c.advance named.advance
  have skips : Passes own (modify fun c => words.foldl (fun c _ => c.advance) c) := by
    rintro c _ _ named ⟨⟩
    exact ⟨skip words c named, trivial⟩
  refine passes_get.bind fun c => ?_
  split
  · exact skips.bind fun _ => .pure trivial
  · exact .pure trivial

theorem passes_expectOp (op : String) : Passes own (expectOp op) := by
  refine Passes.look.bind fun found => ?_
  split
  · exact passes_advance
  · exact .expected _

theorem passes_skipWhile (wanted : Token → Bool) : Passes own (skipWhile wanted) := by
  refine Passes.bind (Passes.loop fun _ => ?_) fun _ => .pure trivial
  refine passes_current.bind fun t => ?_
  split
  · exact .pure trivial
  · exact passes_advance.bind fun _ => .pure trivial

theorem passes_skipGroup : Passes own skipGroup := by
  refine Passes.look.bind fun start => (passes_expectOp _).bind fun _ => ?_
  refine Passes.bind (Passes.loop fun depth => ?_) fun _ => passes_get.bind fun _ => .pure trivial
  split
  · exact .pure trivial
  refine passes_current.bind fun t => ?_
  extract_lets deeper
  have passes : Passes own (deeper ()) := by
    refine passes_advance.bind fun _ => ?_
    split
    · exact .pure trivial
    split <;> exact .pure trivial
  split
  · exact Passes.bind (.expected _) fun _ => passes
  · exact passes

theorem delivers_zoneWords : Delivers own (fun zone => zone = "" ∨ zone ∈ zones) zoneWords := by
  refine (passes_acceptSeq _).bind fun _ => ?_
  split
  · exact .pure (.inr (by decide))
  refine (passes_acceptSeq _).bind fun _ => ?_
  split
  · exact .pure (.inr (by decide))
  refine (passes_acceptSeq _).bind fun _ => ?_
  split
  · exact .pure (.inr (by decide))
  · exact .pure (.inl rfl)

theorem passes_intervalFields : Passes own intervalFields := by
  refine Passes.bind (Passes.loop fun _ => ?_) fun _ => .pure trivial
  refine Passes.bind Passes.look fun wanted => ?_
  split
  · exact .pure trivial
  refine passes_advance.bind fun _ => Passes.look.bind fun opens => ?_
  extract_lets more
  split
  · exact passes_skipGroup.bind fun _ => .pure trivial
  · exact .pure trivial

variable {type : Parser TypeSpec} {n : NativeType}

theorem delivers_typeElement (element : Delivers own (TypeSpec.Formed own) type) (formed : n.Formed own) :
    Delivers own (NativeType.Formed own) (typeElement type n) := by
  -- A parameter that is no type leaves the types as they are.
  have written (params : List String) : Delivers own (NativeType.Formed own) (pure { n with params }) :=
    .pure ⟨formed.named, formed.args, formed.fields⟩
  refine passes_current.bind fun t => ?_
  split
  · exact passes_advance.bind fun _ => (passes_skipWhile _).bind fun _ => written _
  refine passes_peek.bind fun next => ?_
  split
  · exact passes_advance.bind fun _ => passes_current.bind fun _ => passes_advance.bind fun _ => written _
  split
  · exact passes_advance.bind fun _ => written _
  split
  · exact passes_advance.bind fun _ => written _
  refine passes_get.bind fun c => ?_
  split
  · refine passes_advance.bind fun _ => (passes_acceptOp _).bind fun _ => element.bind fun fieldType inner => ?_
    have field : Delivers own (NativeType.Formed own) (pure { n with fields := n.fields ++ [⟨t.text, fieldType⟩] }) :=
      by
      refine .pure ⟨formed.named, formed.args, ?_⟩
      simpa [or_imp, forall_and] using ⟨formed.fields, inner⟩
    refine (passes_acceptAny _).bind fun comment => ?_
    extract_lets rest
    split
    · exact passes_advance.bind fun _ => field
    · exact field
  · refine element.bind fun arg inner => .pure ⟨formed.named, ?_, formed.fields⟩
    simpa [or_imp, forall_and] using ⟨formed.args, inner⟩

theorem passes_takeTypeClose (close : TypeClose) : Passes own (takeTypeClose close) := by
  refine passes_current.bind fun t => ?_
  split
  · exact passes_advance
  split
  · rintro c _ _ named ⟨⟩
    refine ⟨fun u member => ?_, trivial⟩
    obtain rfl | later := List.mem_cons.mp member
    · exact fun word => nomatch word
    · exact named u (List.mem_cons_of_mem _ later)
  · exact passes_advance

theorem delivers_typeElements (element : Delivers own (TypeSpec.Formed own) type) (close : TypeClose)
    (formed : n.Formed own) : Delivers own (NativeType.Formed own) (typeElements type close n) := by
  unfold typeElements
  extract_lets step
  have elements : Delivers own (fun state : NativeType × Bool => state.1.Formed own) (loop step (n, false)) := by
    refine .loop formed fun state formed => passes_current.bind fun t => ?_
    split
    · exact .pure fun _ none => nomatch none
    refine (delivers_typeElement element formed).bind fun n formed => (passes_acceptOp _).bind fun _ => .pure ?_
    rintro _ ⟨⟩
    exact formed
  refine elements.bind fun state formed => passes_current.bind fun t => ?_
  split
  · exact (passes_takeTypeClose close).bind fun _ => .pure formed
  · exact .expected _

theorem delivers_nativeType (extensible : Extensible own) (element : Delivers own (TypeSpec.Formed own) type) :
    Delivers own (NativeType.Formed own) (nativeType type) := by
  refine delivers_current.bind fun t named => ?_
  -- The stages from the last one back: the signs, the zone, the types inside and the name.
  extract_lets start signs zone inside name
  have signed : ∀ n : NativeType, n.Formed own → Delivers own (NativeType.Formed own) (signs () n) := by
    intro n formed
    unfold signs
    extract_lets words
    have read : Delivers own (NativeType.Formed own) (words ()) := by
      refine Delivers.loop formed fun n formed => (passes_acceptAny _).bind fun unsigned => ?_
      split
      · refine .pure ?_
        rintro _ ⟨⟩
        exact ⟨formed.named, formed.args, formed.fields⟩
      refine (passes_acceptAny _).bind fun other => ?_
      split
      · refine .pure ?_
        rintro _ ⟨⟩
        exact formed
      · exact .pure fun _ none => nomatch none
    split
    · exact passes_intervalFields.bind fun _ => read
    · exact read
  have zoned : ∀ n : NativeType, n.Formed own → Delivers own (NativeType.Formed own) (zone () n) := by
    intro n formed
    unfold zone
    split
    · next timed =>
      refine delivers_zoneWords.bind fun words known => signed _ ⟨?_, formed.args, formed.fields⟩
      obtain rfl | known := known
      · rw [String.append_empty]
        exact formed.named
      · exact extensible.zoned _ (by simpa using timed) formed.named words known
    · exact signed n formed
  have elements : ∀ n : NativeType, n.Formed own → Delivers own (NativeType.Formed own) (inside () n) := by
    intro n formed
    refine (passes_acceptOp _).bind fun angle => ?_
    split
    · exact (delivers_typeElements element _ formed).bind zoned
    refine (passes_acceptOp _).bind fun paren => ?_
    split
    · exact (delivers_typeElements element _ formed).bind zoned
    · exact zoned n formed
  split
  · exact fun _ _ _ _ done => nomatch done
  next known =>
  have word : (t.isWord || t.isQuoted) = true := by
    rwa [Bool.not_eq_true, Bool.and_eq_false_iff, Bool.not_eq_false', Bool.not_eq_false', ← Bool.or_eq_true] at known
  have started : start.Formed own := ⟨named word, fun _ inside => (nomatch inside), fun _ inside => (nomatch inside)⟩
  refine passes_advance.bind fun _ => passes_current.bind fun next => ?_
  split
  · next word found =>
    refine passes_advance.bind fun _ => elements _ ⟨?_, started.args, started.fields⟩
    exact extensible.continued _ started.named word (List.mem_of_find?_eq_some found)
  · exact elements start started

theorem delivers_within {outcome : Except Error α} (holds : ∀ a, outcome = .ok a → good a) :
    Delivers own good (within outcome) := by
  intro c a _ named done
  cases outcome with
  | error e => cases e <;> cases done
  | ok a =>
    cases done
    exact ⟨named, holds a rfl⟩

theorem fits_intParams (n : NativeType) : ∀ m ∈ n.intParams, Decimal.fits 64 m := by
  intro m member
  obtain ⟨text, _, read⟩ := List.mem_filterMap.mp member
  unfold NativeType.leadingInt? at read
  dsimp only at read
  split at read
  · next n _ =>
    by_cases fits : Decimal.fits 64 n
    · rw [if_pos fits] at read
      exact Option.some.inj read ▸ fits
    · rw [if_neg fits] at read
      cases read
  · cases read

theorem delivers_typeStep {d : Dialect} (sound : d.ReadsTypes) (extensible : Extensible own)
    (element : Delivers own (TypeSpec.Formed own) type) :
    Delivers own (TypeSpec.Formed own) (typeStep d type) := by
  refine (delivers_nativeType extensible element).bind fun n formed => ?_
  extract_lets arrays
  have brackets (t : TypeSpec) (formed : t.Formed own) : Delivers own (TypeSpec.Formed own) (arrays t) := by
    refine Delivers.loop formed fun t formed => Passes.look.bind fun opens => Passes.look.bind fun closes => ?_
    split
    · refine passes_advance.bind fun _ => passes_advance.bind fun _ => .pure ?_
      rintro _ ⟨⟩
      exact TypeRule.formed_array rfl (by simpa using formed)
    · exact .pure fun _ none => nomatch none
  split
  · next rule found => exact (delivers_within fun t made => (sound.found found).sound formed made).bind brackets
  · exact Delivers.bind (.pure (.native rfl formed.named (fits_intParams n) formed.args formed.fields)) brackets

theorem delivers_typeAt {d : Dialect} (sound : d.ReadsTypes) (extensible : Extensible own) (depth : Nat) :
    Delivers own (TypeSpec.Formed own) (typeAt d depth) := by
  induction depth with
  | zero => exact .stall
  | succ depth ih => exact delivers_typeStep sound extensible ih

theorem delivers_wholeType {d : Dialect} (sound : d.ReadsTypes) (extensible : Extensible own) :
    Delivers own (TypeSpec.Formed own) (wholeType d) := by
  refine Delivers.bind (passes_get.bind fun c => delivers_typeAt sound extensible _) fun t formed => ?_
  refine Passes.look.bind fun ended => ?_
  extract_lets read
  split
  · exact Passes.bind (.expected _) fun _ => .pure formed
  · exact .pure formed

theorem parseType_delivers {d : Dialect} (sound : d.ReadsTypes) (extensible : Extensible own)
    {sql : String} {t : TypeSpec}
    (names : ∀ tokens, Token.tokenize d.toLexicon sql = .ok tokens → ∀ token ∈ tokens,
      (token.isWord || token.isQuoted) = true → own token.upper)
    (parsed : parseType d sql = .ok t) : t.Formed own := by
  obtain ⟨c, loaded, rest⟩ := ok_of_bind parsed
  obtain ⟨⟨_, c'⟩, read, ⟨⟩⟩ : ∃ r, wholeType d c = .ok r ∧ r.1 = t := by
    change (wholeType d c).map Prod.fst = .ok t at rest
    cases outcome : wholeType d c with
    | error e => simp [outcome, Except.map] at rest
    | ok r => exact ⟨r, rfl, by simpa [outcome, Except.map] using rest⟩
  obtain ⟨tokens, lexed, started⟩ := ok_of_bind loaded
  refine (delivers_wholeType sound extensible (fun token member name => ?_) read).2
  have listed : token ∈ tokens := by
    cases tokens with
    | nil =>
      cases started
      rw [List.mem_singleton.mp member] at name
      cases name
    | cons first later =>
      cases started
      exact member
  exact names tokens lexed token listed name

theorem parseType_formed {d : Dialect} (sound : d.ReadsTypes) {sql : String} {t : TypeSpec}
    (parsed : parseType d sql = .ok t) :
    t.Formed fun name => name = "" → ∃ tokens, Token.tokenize d.toLexicon sql = .ok tokens ∧
      ∃ token ∈ tokens, token.isQuoted = true ∧ token.text = "" := by
  refine parseType_delivers sound ⟨?_, ?_⟩ (fun tokens lexed token member name empty => ?_) parsed
  · intro name _ word _ empty
    simp at empty
  · intro name _ named zone _ empty
    exact named (String.append_eq_empty_iff.mp empty).1
  · exact ⟨tokens, lexed, token, member, Token.tokensFrom_blank lexed member name empty⟩

end Parser

end SqlDialects
