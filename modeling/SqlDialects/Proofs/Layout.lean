import SqlDialects.Proofs.Coverage

/-! Layout is insignificant. A token ends where its part of the text ends, whatever blank follows, so the parts
that the tokens take from a text, with other blanks and line ends between them and none of the comments, are
read as the same tokens again. -/

namespace SqlDialects

namespace Text

theorem takeBytes_left (front back : List Char) : takeBytes (byteCount front) (front ++ back) = front := by
  induction front with
  | nil => exact takeBytes.eq_1 back
  | cons c front ih =>
    have wide := c.utf8Size_pos
    obtain ⟨n, size⟩ : ∃ n, byteCount (c :: front) = n + 1 := ⟨byteCount (c :: front) - 1, by rw [byteCount]; omega⟩
    have left : n + 1 - c.utf8Size = byteCount front := by
      rw [← size, byteCount, Nat.add_sub_cancel_left]
    rw [size, List.cons_append, takeBytes, left, ih]

theorem dropBytes_left (front back : List Char) : dropBytes (byteCount front) (front ++ back) = back := by
  have whole := takeBytes_append_dropBytes (byteCount front) (front ++ back)
  rw [takeBytes_left] at whole
  exact List.append_cancel_left whole

theorem slice_eq {s : String} {front middle back : List Char} (split : s.toList = front ++ middle ++ back) :
    slice s (byteCount front) (byteCount (front ++ middle)) = String.ofList middle := by
  rw [slice, split, List.append_assoc, dropBytes_left, byteCount_append, Nat.add_sub_cancel_left, takeBytes_left]

/-- Blanks, tabs and the two characters that end lines. -/
def IsLayout (gap : String) : Prop := ∀ c ∈ gap.toList, c ∈ [' ', '\t', '\r', '\n']

-- The characters of the text are looked at, and not all that there are.
instance (gap : String) : Decidable (IsLayout gap) := List.decidableBAll _ gap.toList

end Text

open Text

/-- The parts of a text that the tokens take, each behind a gap of its own, and one more gap at the end. -/
def relaid (sql : String) : List (String × Token) → String → String
  | [], last => last
  | (gap, t) :: parts, last => gap ++ (slice sql t.pos.offset t.stop ++ relaid sql parts last)

namespace Token

variable {lexicon : Lexicon}

/-! ### Gaps -/

private theorem skipGap_layout {pos : Position} {c : Char} {cs : List Char} (blank : c ∈ [' ', '\t', '\r', '\n']) :
    skipGap lexicon .code pos (c :: cs) = skipGap lexicon .code (pos.next c) cs := by
  simp only [List.mem_cons, List.not_mem_nil, or_false] at blank
  obtain rfl | rfl | rfl | rfl := blank <;> rw [skipGap] <;> simp

theorem Spells.layout (regular : lexicon.Regular) {gap : String} (blank : IsLayout gap)
    {cs : List Char} {ts : List Token}
    (spelled : Spells lexicon cs ts) : Spells lexicon (gap.toList ++ cs) ts := by
  unfold IsLayout at blank
  generalize gap.toList = gap at blank ⊢
  induction gap with
  | nil => exact spelled
  | cons c gap ih =>
    intro tail pos broken
    have rest : Spells lexicon (gap ++ cs) ts := ih fun d member => blank d (List.mem_cons_of_mem c member)
    obtain ⟨tokens, next, equal, scanned⟩ := rest tail (pos.next c) broken
    refine ⟨tokens, next, equal, ?_⟩
    rw [← scanned]
    exact scan_congr regular (skipGap_layout (blank c List.mem_cons_self))

theorem breaks_layout {gap : String} (blank : IsLayout gap) (nonempty : gap ≠ "") (cs : List Char) :
    Breaks (gap.toList ++ cs) := by
  unfold IsLayout at blank
  cases equal : gap.toList with
  | nil => exact absurd (String.toList_eq_nil_iff.mp equal) nonempty
  | cons c rest =>
    have known : ∀ c ∈ [' ', '\t', '\r', '\n'], isBreak c = true := forall_of_all (by decide)
    exact breaks_cons (known c (blank c (by simp [equal])))

/-! ### Parts -/

theorem Covers.parts {sql : String} {front rest : List Char} {tokens : List Token}
    (covers : Covers lexicon front rest tokens) (split : sql.toList = front ++ rest) :
    ∃ body last, tokens = body ++ [last] ∧ last.bare = Token.finish ∧
      ∀ t ∈ body, t.isFinish = false ∧ Spells lexicon (slice sql t.pos.offset t.stop).toList [t.bare] := by
  induction covers with
  | @finish front gap t plain separates place stop => exact ⟨[], t, rfl, plain, by simp⟩
  | @token front gap taken rest t ts goes separates place nonempty stop verbatim spelled _ ih =>
    have whole : sql.toList = front ++ gap ++ taken ++ rest := by simpa using split
    obtain ⟨body, last, rfl, plain, others⟩ := ih whole
    refine ⟨t :: body, last, rfl, plain, List.forall_mem_cons.mpr ⟨⟨?_, ?_⟩, others⟩⟩
    · rw [isFinish, beq_eq_false_iff_ne]
      exact goes
    · rw [place, Position.offset_start_advance, stop, slice_eq whole, String.toList_ofList]
      exact spelled

/-- The induction goes over the tokens that are left. Behind the first one stands a gap or nothing at all. -/
theorem spells_relaid (regular : lexicon.Regular) {sql last : String} (ends : IsLayout last)
    {parts : List (String × Token)}
    (spelled : ∀ part ∈ parts, Spells lexicon (slice sql part.2.pos.offset part.2.stop).toList [part.2.bare])
    (gaps : ∀ part ∈ parts, IsLayout part.1) (apart : ∀ part ∈ parts.tail, part.1 ≠ "") :
    Spells lexicon (relaid sql parts last).toList (parts.map fun part => part.2.bare) := by
  induction parts with
  | nil =>
    have blank := Spells.layout regular ends spells_nil
    rwa [List.append_nil] at blank
  | cons part parts ih =>
    obtain ⟨gap, t⟩ := part
    obtain ⟨own, spelled⟩ := List.forall_mem_cons.mp spelled
    obtain ⟨blank, gaps⟩ := List.forall_mem_cons.mp gaps
    have later := ih spelled gaps fun part member => apart part (List.mem_of_mem_tail member)
    rw [relaid, String.toList_append, String.toList_append]
    apply Spells.layout regular blank
    by_cases alone : (relaid sql parts last).toList = []
    · cases parts with
      | nil =>
        rw [alone, List.append_nil]
        exact own
      | cons next parts =>
        have nonempty := apart next List.mem_cons_self
        rw [relaid, String.toList_append, List.append_eq_nil_iff, String.toList_eq_nil_iff] at alone
        exact absurd alone.1 nonempty
    · apply own.append _ alone later
      cases parts with
      | nil =>
        have nonempty : last ≠ "" := fun empty => alone (by rw [empty]; rfl)
        have broken := breaks_layout ends nonempty []
        rwa [List.append_nil] at broken
      | cons next parts =>
        rw [relaid, String.toList_append]
        exact breaks_layout (gaps next List.mem_cons_self) (apart next List.mem_cons_self) _

end Token

/-- In every dialect a text keeps its tokens under any other layout: with the parts that they take behind gaps of
blanks, tabs and line ends, of which all but the first and the last must not be empty, the same kinds, texts and
upper-case forms are read. -/
theorem layout_insignificant {entry : Entry} (member : entry ∈ Registry.standard.entries) {sql : String}
    {tokens : List Token} (read : Token.tokenize entry.dialect.toLexicon sql = .ok tokens)
      {parts : List (String × Token)}
    {last : String} (kept : parts.map Prod.snd = tokens.filter fun t => !t.isFinish)
    (gaps : ∀ part ∈ parts, IsLayout part.1) (apart : ∀ part ∈ parts.tail, part.1 ≠ "") (ends : IsLayout last) :
    ∃ others, Token.tokenize entry.dialect.toLexicon (relaid sql parts last) = .ok others ∧
      others.map (fun t => (t.kind, t.text, t.upper)) = tokens.map fun t => (t.kind, t.text, t.upper) := by
  have regular := (registered_regular member).lexicon
  obtain ⟨body, finish, rfl, plain, spelled⟩ := (Token.covers_of_tokenize regular read).parts rfl
  have isFinish : finish.isFinish = true := by
    rw [Token.isFinish, ← Token.kind_bare, plain]
    rfl
  have isBody : parts.map Prod.snd = body := by
    have goes : ∀ t ∈ body, (!t.isFinish) = true := fun t held => by rw [(spelled t held).1, Bool.not_false]
    rw [kept, List.filter_append, List.filter_eq_self.mpr goes]
    simp [isFinish]
  have own : ∀ part ∈ parts, Token.Spells entry.dialect.toLexicon
      (slice sql part.2.pos.offset part.2.stop).toList [part.2.bare] := by
    intro part held
    apply (spelled part.2 _).2
    rw [← isBody]
    exact List.mem_map_of_mem held
  obtain ⟨others, again, same⟩ := (Token.spells_relaid regular ends own gaps apart).tokenize
  refine ⟨others, again, ?_⟩
  have bare : others.map Token.bare = (body ++ [finish]).map Token.bare := by
    rw [same, List.map_append, ← isBody, List.map_map, List.map_singleton, plain]
    rfl
  have content := congrArg (List.map fun t : Token => (t.kind, t.text, t.upper)) bare
  rw [List.map_map, List.map_map] at content
  exact content

/-- A word, brackets, a number and, behind a comment, a string with a quote in it. -/
theorem layout_insignificant_comment : ∃ others,
    Token.tokenize MySql.profile.dialect.toLexicon "f\n(\t 1.5 ,\r\n'it''s'\n) " = .ok others ∧
      others.map (fun t => (t.kind, t.text, t.upper)) =
        [(.word, "f", "F"), (.punctuation, "(", ""), (.number, "1.5", ""), (.punctuation, ",", ""),
          (.string, "it's", ""),
          (.punctuation, ")", ""), (.finish, "", "")] := by
  let sql := "f(1.5,/*x*/'it''s')"
  let tokens : List Token := [⟨.word, "f", "F", ⟨0, 1, 1⟩, 1⟩, ⟨.punctuation, "(", "", ⟨1, 1, 2⟩, 2⟩,
    ⟨.number, "1.5", "", ⟨2, 1, 3⟩, 5⟩, ⟨.punctuation, ",", "", ⟨5, 1, 6⟩, 6⟩, ⟨.string, "it's", "", ⟨11, 1, 12⟩, 18⟩,
    ⟨.punctuation, ")", "", ⟨18, 1, 19⟩, 19⟩, ⟨.finish, "", "", ⟨19, 1, 20⟩, 19⟩]
  have read : Token.tokenize (Entry.ofProfile MySql.profile).dialect.toLexicon sql = .ok tokens := by
    have outcome : (Token.tokenize (Entry.ofProfile MySql.profile).dialect.toLexicon sql).toOption = some tokens := by
      decide +kernel
    cases held : Token.tokenize (Entry.ofProfile MySql.profile).dialect.toLexicon sql with
    | error e =>
      rw [held] at outcome
      cases outcome
    | ok found =>
      rw [held] at outcome
      exact congrArg _ (Option.some.inj outcome)
  have parted : relaid sql (["", "\n", "\t ", " ", "\r\n", "\n"].zip tokens) " " = "f\n(\t 1.5 ,\r\n'it''s'\n) " := by
    decide +kernel
  have member : Entry.ofProfile MySql.profile ∈ Registry.standard.entries := by simp [Registry.standard]
  rw [← parted]
  exact layout_insignificant member read (by decide +kernel) (by decide +kernel) (by decide +kernel) (by decide +kernel)

end SqlDialects
