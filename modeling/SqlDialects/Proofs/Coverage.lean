import Mathlib.Data.List.Induction
import SqlDialects.Proofs.RoundTrip
import SqlDialects.Proofs.TokenParts

/-! The tokens of a text account for all of its bytes. A gap is made of blanks and comments, a token that is
no string and no quoted name is its part of the text, and the line and column of every place are those of its
offset. All of this follows from one fact: the lexer stands at the place that the characters before it lead to. -/

namespace SqlDialects

/-! ### Bytes -/

namespace Text

/-- The bytes of characters in UTF-8. -/
def encoded (cs : List Char) : List UInt8 := cs.flatMap String.utf8EncodeChar

/-- The bytes of a text. -/
def bytes (s : String) : List UInt8 := s.toUTF8.data.toList

/-- The bytes of a text from one offset up to another. -/
def cut (s : String) (start stop : Nat) : List UInt8 := ((bytes s).take stop).drop start

def lineFeed : UInt8 := 10

/-- The offset at which the last line of the bytes starts. -/
def lineStart (before : List UInt8) : Nat := before.length - before.reverse.idxOf lineFeed

theorem bytes_eq (s : String) : bytes s = encoded s.toList := by
  have form : s.toByteArray = s.toList.utf8Encode := by
    rw [← String.toByteArray_ofList, String.ofList_toList]
  rw [bytes, String.toUTF8_eq_toByteArray, form, List.utf8Encode]
  simp [encoded]

theorem encoded_append (front back : List Char) : encoded (front ++ back) = encoded front ++ encoded back :=
  List.flatMap_append

theorem length_encoded (cs : List Char) : (encoded cs).length = byteCount cs := by
  induction cs with
  | nil => rfl
  | cons c cs ih => simp_all [encoded, byteCount]

theorem length_bytes (s : String) : (bytes s).length = byteCount s.toList := by
  rw [bytes_eq, length_encoded]

theorem byteCount_pos {cs : List Char} (nonempty : cs ≠ []) : 0 < byteCount cs := by
  obtain ⟨c, rest, rfl⟩ := List.exists_cons_of_ne_nil nonempty
  have wide := c.utf8Size_pos
  simp only [byteCount]
  omega

theorem take_bytes {s : String} {front back : List Char} (split : s.toList = front ++ back) :
    (bytes s).take (byteCount front) = encoded front := by
  rw [bytes_eq, split, encoded_append, ← length_encoded, List.take_left]

theorem cut_eq {s : String} {front middle back : List Char} (split : s.toList = front ++ middle ++ back) :
    cut s (byteCount front) (byteCount (front ++ middle)) = encoded middle := by
  rw [cut, take_bytes split, encoded_append, ← length_encoded front, List.drop_left]

private theorem high_of_mem {c : Char} (wide : 128 ≤ c.val.toNat) {b : UInt8} (held : b ∈ String.utf8EncodeChar c) :
    128 ≤ b.toNat := by
  have high (n : Nat) (least : 128 ≤ n) (most : n < 256) : 128 ≤ (UInt8.ofNat n).toNat := by
    rw [UInt8.toNat_ofNat']
    omega
  unfold String.utf8EncodeChar at held
  dsimp only at held
  split at held
  · omega
  split at held
  · simp only [List.mem_cons, List.not_mem_nil, or_false] at held
    obtain rfl | rfl := held <;> exact high _ (by omega) (by omega)
  split at held
  · simp only [List.mem_cons, List.not_mem_nil, or_false] at held
    obtain rfl | rfl | rfl := held <;> exact high _ (by omega) (by omega)
  · simp only [List.mem_cons, List.not_mem_nil, or_false] at held
    obtain rfl | rfl | rfl | rfl := held <;> exact high _ (by omega) (by omega)

private theorem lineFeed_notMem {c : Char} (other : c ≠ '\n') : lineFeed ∉ String.utf8EncodeChar c := by
  intro held
  by_cases wide : 128 ≤ c.val.toNat
  · exact absurd (high_of_mem wide held) (by decide)
  have single : String.utf8EncodeChar c = [UInt8.ofNat c.val.toNat] := by
    unfold String.utf8EncodeChar
    exact if_pos (by omega)
  rw [single, List.mem_singleton] at held
  have code : 10 = c.val.toNat % 256 := by simpa [lineFeed] using congrArg UInt8.toNat held
  apply other
  apply Char.ext
  apply UInt32.toNat_inj.mp
  change c.val.toNat = 10
  omega

theorem lineStart_append {before bs : List UInt8} (free : lineFeed ∉ bs) :
    lineStart (before ++ bs) = lineStart before := by
  have inside : lineFeed ∉ bs.reverse := by simpa using free
  simp only [lineStart, List.reverse_append, List.idxOf_append, if_neg inside, List.length_append, List.length_reverse]
  omega

end Text

open Text

/-! ### Places -/

namespace Position

/-- The place is where its offset lies in the text. -/
structure Locates (pos : Position) (sql : String) : Prop where
  inside : pos.offset ≤ (bytes sql).length
  line : pos.line = 1 + ((bytes sql).take pos.offset).count lineFeed
  column : pos.column = pos.offset - lineStart ((bytes sql).take pos.offset) + 1

theorem advance_append (pos : Position) (front back : List Char) :
    pos.advance (front ++ back) = (pos.advance front).advance back :=
  List.foldl_append

private theorem start_advance (front : List Char) : start.advance front =
    ⟨byteCount front, 1 + (encoded front).count lineFeed, byteCount front - lineStart (encoded front) + 1⟩ := by
  induction front using List.reverseRecOn with
  | nil => rfl
  | append_singleton front c ih =>
    have size : byteCount (front ++ [c]) = byteCount front + c.utf8Size := by simp [byteCount]
    rw [advance_append, ih, size, encoded_append]
    change next _ c = _
    unfold next
    split
    · next feed =>
      subst feed
      have unit : encoded ['\n'] = [lineFeed] := rfl
      simp [unit, lineStart, length_encoded, show '\n'.utf8Size = 1 from rfl]
      omega
    · next other =>
      have free : lineFeed ∉ encoded [c] := by simpa [encoded] using lineFeed_notMem other
      have least : lineStart (encoded front) ≤ byteCount front := by
        rw [← length_encoded]
        exact Nat.sub_le _ _
      simp only [lineStart_append free, List.count_append, List.count_eq_zero_of_not_mem free, Position.mk.injEq,
        true_and, Nat.add_zero]
      omega

@[simp] theorem offset_start_advance (front : List Char) : (start.advance front).offset = byteCount front := by
  rw [start_advance]

theorem locates_advance {sql : String} {front back : List Char} (split : sql.toList = front ++ back) :
    (start.advance front).Locates sql := by
  have size : (bytes sql).length = byteCount front + byteCount back := by
    rw [length_bytes, split, byteCount_append]
  refine ⟨?_, ?_, ?_⟩
  · rw [offset_start_advance, size]
    omega
  · rw [offset_start_advance, take_bytes split, start_advance]
  · rw [offset_start_advance, take_bytes split, start_advance]

end Position

/-! ### Gaps -/

/-- What opens a comment that ends with its line. -/
def Lexicon.lineMarks (lexicon : Lexicon) : List (List Char) :=
  ['-', '-'] :: if lexicon.hashComments then [['#']] else []

namespace Token

variable {lexicon : Lexicon}

/-- Characters that are only blanks and comments. At the end of a text the last line may be a comment
without a line feed. -/
inductive Separates (lexicon : Lexicon) (final : Prop) : List Char → Prop
  | nil : Separates lexicon final []
  | blank {c : Char} {cs : List Char} (isBlank : c ∈ [' ', '\t', '\r', '\n']) (rest : Separates lexicon final cs) :
      Separates lexicon final (c :: cs)
  | line {mark body cs : List Char} (opens : mark ∈ lexicon.lineMarks) (inside : '\n' ∉ body)
      (rest : Separates lexicon final cs) : Separates lexicon final (mark ++ (body ++ '\n' :: cs))
  | lastLine {mark body : List Char} (ends : final) (opens : mark ∈ lexicon.lineMarks) (inside : '\n' ∉ body) :
      Separates lexicon final (mark ++ body)
  | block {body cs : List Char} (inside : ¬['*', '/'] <:+: body ++ ['*']) (rest : Separates lexicon final cs) :
      Separates lexicon final ('/' :: '*' :: (body ++ '*' :: '/' :: cs))

theorem Separates.mono {final other : Prop} (implies : final → other) {cs : List Char}
    (separates : Separates lexicon final cs) : Separates lexicon other cs := by
  induction separates with
  | nil => exact .nil
  | blank isBlank _ ih => exact .blank isBlank ih
  | line opens inside _ ih => exact .line opens inside ih
  | lastLine ends opens inside => exact .lastLine (implies ends) opens inside
  | block inside _ ih => exact .block inside ih

/-- What is skipped from inside a gap: up to the end of the comment at hand and on from there. -/
private def Leaves (lexicon : Lexicon) (final : Prop) : Gap → List Char → Prop
  | .code, cs => Separates lexicon final cs
  | .lineComment, cs => (∃ body rest, cs = body ++ '\n' :: rest ∧ '\n' ∉ body ∧ Separates lexicon final rest) ∨
      final ∧ '\n' ∉ cs
  | .blockComment _, cs => ∃ body rest, cs = body ++ '*' :: '/' :: rest ∧ ¬['*', '/'] <:+: body ++ ['*'] ∧
      Separates lexicon final rest

private theorem separates_line {final : Prop} {mark cs : List Char} (opens : mark ∈ lexicon.lineMarks)
    (leaves : Leaves lexicon final .lineComment cs) : Separates lexicon final (mark ++ cs) := by
  obtain ⟨body, rest, rfl, inside, separates⟩ | ⟨ends, inside⟩ := leaves
  · exact .line opens inside separates
  · exact .lastLine ends opens inside

private theorem leaves_line {final : Prop} {c : Char} {cs : List Char}
    (leaves : Leaves lexicon final (if c = '\n' then .code else .lineComment) cs) :
    Leaves lexicon final .lineComment (c :: cs) := by
  split at leaves
  · next feed =>
    subst feed
    exact .inl ⟨[], cs, rfl, by simp, leaves⟩
  · next other =>
    obtain ⟨body, rest, rfl, inside, separates⟩ | ⟨ends, inside⟩ := leaves
    · exact .inl ⟨c :: body, rest, rfl, by simp [inside, Ne.symm other], separates⟩
    · exact .inr ⟨ends, by simp [inside, Ne.symm other]⟩

private theorem leaves_block {final : Prop} {opened : Position} {c : Char} {cs rest : List Char}
    (goes : ∀ more, c = '*' → cs ++ rest = '/' :: more → False)
    (leaves : Leaves lexicon final (.blockComment opened) cs) :
    Leaves lexicon final (.blockComment opened) (c :: cs) := by
  obtain ⟨body, others, rfl, inside, separates⟩ := leaves
  refine ⟨c :: body, others, rfl, ?_, separates⟩
  rw [List.cons_append, List.infix_cons_iff]
  rintro (start | later)
  · obtain ⟨star, slash⟩ := List.cons_prefix_cons.mp start
    cases body with
    | nil => simp at slash
    | cons d ds =>
      obtain ⟨same, _⟩ := List.cons_prefix_cons.mp slash
      exact goes _ star.symm (by rw [← same]; rfl)
  · exact inside later

private theorem skipGap_leaves {gap : Gap} {pos next : Position} {cs rest : List Char}
    (skipped : skipGap lexicon gap pos cs = .ok (next, rest)) :
    ∃ taken, cs = taken ++ rest ∧ next = pos.advance taken ∧ Leaves lexicon (rest = []) gap taken := by
  fun_induction skipGap lexicon gap pos cs with
  | case1 => cases skipped
  | case2 gap pos noBlock =>
    cases skipped
    refine ⟨[], rfl, rfl, ?_⟩
    cases gap with
    | code => exact .nil
    | lineComment => exact .inr ⟨rfl, by simp⟩
    | blockComment opened => exact absurd rfl (noBlock opened)
  | case3 pos cs ih =>
    obtain ⟨taken, rfl, rfl, leaves⟩ := ih skipped
    have opens : ['-', '-'] ∈ lexicon.lineMarks := List.mem_cons_self
    exact ⟨'-' :: '-' :: taken, rfl, rfl, separates_line opens leaves⟩
  | case4 pos cs ih =>
    obtain ⟨taken, rfl, rfl, body, others, rfl, inside, separates⟩ := ih skipped
    exact ⟨'/' :: '*' :: _, rfl, rfl, .block inside separates⟩
  | case5 pos c cs _ _ isBlank ih =>
    obtain ⟨taken, rfl, rfl, leaves⟩ := ih skipped
    simp only [Bool.or_eq_true, decide_eq_true_eq] at isBlank
    exact ⟨c :: taken, rfl, rfl, .blank (by simp; tauto) leaves⟩
  | case6 pos c cs _ _ _ opens ih =>
    obtain ⟨taken, rfl, rfl, leaves⟩ := ih skipped
    simp only [Bool.and_eq_true, decide_eq_true_eq] at opens
    obtain ⟨rfl, hashes⟩ := opens
    have opens : ['#'] ∈ lexicon.lineMarks := by simp [Lexicon.lineMarks, hashes]
    exact ⟨'#' :: taken, rfl, rfl, separates_line opens leaves⟩
  | case7 =>
    cases skipped
    exact ⟨[], rfl, rfl, .nil⟩
  | case8 pos c cs ih =>
    obtain ⟨taken, rfl, rfl, leaves⟩ := ih skipped
    exact ⟨c :: taken, rfl, rfl, leaves_line leaves⟩
  | case9 _ pos cs ih =>
    obtain ⟨taken, rfl, rfl, leaves⟩ := ih skipped
    exact ⟨'*' :: '/' :: taken, rfl, rfl, [], taken, rfl, by decide, leaves⟩
  | case10 _ pos c cs goes ih =>
    obtain ⟨taken, rfl, rfl, leaves⟩ := ih skipped
    exact ⟨c :: taken, rfl, rfl, leaves_block goes leaves⟩

/-- The error is about a place within the characters. -/
private def FailsWithin (pos : Position) (cs : List Char) (e : Error) : Prop :=
  ∃ front back fault, cs = front ++ back ∧ e = .lex (pos.advance front) fault

private theorem FailsWithin.append {pos : Position} {cs : List Char} {e : Error} (front : List Char)
    (fails : FailsWithin (pos.advance front) cs e) : FailsWithin pos (front ++ cs) e := by
  obtain ⟨more, back, fault, rfl, rfl⟩ := fails
  exact ⟨front ++ more, back, fault, by rw [List.append_assoc], by rw [Position.advance_append]⟩

private theorem skipGap_fails {gap : Gap} {pos : Position} {cs : List Char} {e : Error}
    (failed : skipGap lexicon gap pos cs = .error e) :
    (∃ opened fault, gap = .blockComment opened ∧ e = .lex opened fault) ∨ FailsWithin pos cs e := by
  fun_induction skipGap lexicon gap pos cs with
  | case1 opened =>
    cases failed
    exact .inl ⟨opened, _, rfl, rfl⟩
  | case2 => cases failed
  | case3 pos cs ih =>
    obtain ⟨_, _, other, _⟩ | fails := ih failed
    · cases other
    · exact .inr (fails.append ['-', '-'])
  | case4 pos cs ih =>
    obtain ⟨_, fault, equal, rfl⟩ | fails := ih failed
    · cases equal
      exact .inr ⟨[], _, fault, rfl, rfl⟩
    · exact .inr (fails.append ['/', '*'])
  | case5 pos c cs _ _ _ ih | case6 pos c cs _ _ _ _ ih =>
    obtain ⟨_, _, other, _⟩ | fails := ih failed
    · cases other
    · exact .inr (fails.append [c])
  | case7 => cases failed
  | case8 pos c cs ih =>
    obtain ⟨_, _, other, _⟩ | fails := ih failed
    · split at other <;> cases other
    · exact .inr (fails.append [c])
  | case9 _ pos cs ih =>
    obtain ⟨_, _, other, _⟩ | fails := ih failed
    · cases other
    · exact .inr (fails.append ['*', '/'])
  | case10 _ pos c cs _ ih =>
    obtain unclosed | fails := ih failed
    · exact .inl unclosed
    · exact .inr (fails.append [c])

/-! ### What a token takes -/

private theorem readTemplate_splits {cs text rest : List Char} (read : readTemplate cs = some (text, rest)) :
    text ++ rest = cs := by
  induction cs generalizing text rest with
  | nil => cases read
  | cons c cs ih =>
    unfold readTemplate at read
    split at read
    · cases read
      rfl
    · obtain ⟨⟨inner, left⟩, held, equal⟩ := Option.map_eq_some_iff.mp read
      cases equal
      exact congrArg (c :: ·) (ih held)

end Token

/-- Tokens that are their part of the text; strings and quoted names lose their quotes. -/
def TokenKind.isVerbatim : TokenKind → Bool
  | .keyword | .word | .number | .operator | .punctuation | .parameter => true
  | .finish | .quotedWord | .string => false

namespace Token

/-- A token that is read is not the end, and its text is what was taken unless it lost its quotes. -/
private theorem readLexeme_splits (lexicon : Lexicon) (pos : Position) (c : Char) (cs : List Char) :
    match readLexeme lexicon pos c cs with
    | .ok lexeme => lexeme.kind ≠ .finish ∧ (lexeme.kind.isVerbatim → lexeme.text ++ lexeme.rest = c :: cs)
    | .error e => ∃ fault, e = .lex pos fault := by
  fun_cases readLexeme lexicon pos c cs with
  | case1 | case3 => simp [TokenKind.isVerbatim]
  | case2 | case4 | case6 | case13 => exact ⟨_, rfl⟩
  | case5 _ _ _ text rest read => exact ⟨by simp, fun _ => readTemplate_splits read⟩
  | case7 | case10 => exact ⟨by simp, fun _ => rfl⟩
  | case8 _ _ _ _ _ text rest read =>
    have splits := readNumber_splits (c :: cs)
    rw [read] at splits
    exact ⟨by simp, fun _ => splits⟩
  | case9 _ _ _ _ _ _ text kind =>
    refine ⟨?_, fun _ => List.takeWhile_append_dropWhile⟩
    simp only [kind]
    split <;> simp
  | case11 _ _ _ _ _ _ _ op found =>
    have leads : op.toList <+: c :: cs := by simpa using List.find?_some found
    refine ⟨by simp, fun _ => ?_⟩
    rw [← String.length_toList]
    exact List.prefix_iff_eq_append.mp leads
  | case12 =>
    refine ⟨?_, fun _ => rfl⟩
    dsimp only
    split <;> simp

/-! ### The whole text -/

/-- Tokens of the characters behind the front of a text, each behind its gap. -/
inductive Covers (lexicon : Lexicon) : List Char → List Char → List Token → Prop
  | finish {front gap : List Char} {t : Token} (plain : t.bare = Token.finish) (separates : Separates lexicon True gap)
      (place : t.pos = .advance .start (front ++ gap)) (stop : t.stop = byteCount (front ++ gap)) :
      Covers lexicon front gap [t]
  | token {front gap taken rest : List Char} {t : Token} {ts : List Token} (goes : t.kind ≠ .finish)
      (separates : Separates lexicon False gap) (place : t.pos = .advance .start (front ++ gap))
      (nonempty : taken ≠ []) (stop : t.stop = byteCount (front ++ gap ++ taken))
      (verbatim : t.kind.isVerbatim → t.text.toList = taken) (spelled : Spells lexicon taken [t.bare])
      (covers : Covers lexicon (front ++ gap ++ taken) rest ts) :
      Covers lexicon front (gap ++ taken ++ rest) (t :: ts)

private theorem after_append (pos : Position) (taken rest : List Char) :
    after pos (taken ++ rest) rest = pos.advance taken := by
  simp [after]

private theorem scan_covers (regular : lexicon.Regular) (front cs : List Char) :
    match scan lexicon (.advance .start front) cs with
    | .ok tokens => Covers lexicon front cs tokens
    | .error e => FailsWithin (.advance .start front) cs e := by
  -- The position is that behind the front, so with a token taken the front grows by its gap and its characters.
  induction size : cs.length using Nat.strongRecOn generalizing front cs with
  | ind n ih =>
  cases skipped : skipGap lexicon .code (.advance .start front) cs with
  | error e =>
    simp only [scan, tokensFrom, skipped]
    obtain ⟨_, _, other, _⟩ | fails := skipGap_fails skipped
    · cases other
    · exact fails
  | ok found =>
    obtain ⟨next, remaining⟩ := found
    obtain ⟨gap, rfl, rfl, separates⟩ := skipGap_leaves skipped
    rw [← Position.advance_append] at skipped
    cases remaining with
    | nil =>
      rw [scan_finish skipped, List.append_nil]
      exact .finish rfl (separates.mono fun _ => trivial) rfl (Position.offset_start_advance _)
    | cons c cs =>
      have splits := readLexeme_splits lexicon (.advance .start (front ++ gap)) c cs
      cases read : readLexeme lexicon (.advance .start (front ++ gap)) c cs with
      | error e =>
        simp only [scan, tokensFrom, skipped, read]
        rw [read] at splits
        obtain ⟨fault, rfl⟩ := splits
        exact ⟨gap, c :: cs, fault, rfl, by rw [Position.advance_append]⟩
      | ok lexeme =>
        rw [read] at splits
        obtain ⟨goes, verbatim⟩ := splits
        obtain ⟨taken, rfl, spelled⟩ := spells_part regular skipped read
        have place : after (.advance .start (front ++ gap)) (c :: (taken ++ lexeme.rest)) lexeme.rest =
            .advance .start (front ++ gap ++ c :: taken) := by
          rw [← List.cons_append, after_append, ← Position.advance_append]
        have shorter : lexeme.rest.length < n := by
          simp only [List.length_append, List.length_cons] at size
          omega
        have covered := ih _ shorter (front ++ gap ++ c :: taken) lexeme.rest rfl
        rw [scan_lexeme regular skipped read, place]
        have whole : gap ++ c :: (taken ++ lexeme.rest) = gap ++ c :: taken ++ lexeme.rest := by simp
        rw [whole]
        cases scanned : scan lexicon (.advance .start (front ++ gap ++ c :: taken)) lexeme.rest with
        | error e =>
          rw [scanned] at covered
          rw [List.append_assoc, Position.advance_append] at covered
          exact covered.append (gap ++ c :: taken)
        | ok tokens =>
          rw [scanned] at covered
          have separated := separates.mono (List.cons_ne_nil _ _)
          refine .token goes separated rfl (List.cons_ne_nil _ _) (Position.offset_start_advance _) ?_ spelled covered
          intro isVerbatim
          have text := verbatim isVerbatim
          rw [← List.cons_append, List.append_cancel_right_eq] at text
          exact (String.toList_ofList).trans text

theorem covers_of_tokenize (regular : lexicon.Regular) {sql : String} {tokens : List Token}
    (read : tokenize lexicon sql = .ok tokens) : Covers lexicon [] sql.toList tokens := by
  have covered := scan_covers regular [] sql.toList
  rw [tokenize_eq_scan] at read
  change scan lexicon (.advance .start []) sql.toList = .ok tokens at read
  rw [read] at covered
  exact covered

theorem fails_of_tokenize (regular : lexicon.Regular) {sql : String} {e : Error}
    (failed : tokenize lexicon sql = .error e) :
    ∃ pos fault, e = .lex pos fault ∧ pos.Locates sql := by
  have covered := scan_covers regular [] sql.toList
  rw [tokenize_eq_scan] at failed
  change scan lexicon (.advance .start []) sql.toList = .error e at failed
  rw [failed] at covered
  obtain ⟨front, back, fault, split, rfl⟩ := covered
  exact ⟨_, fault, rfl, Position.locates_advance split⟩

theorem Covers.standing {sql : String} {front rest : List Char} {tokens : List Token}
    (covers : Covers lexicon front rest tokens)
    (split : sql.toList = front ++ rest) : ∀ t ∈ tokens, ∃ before after, sql.toList = before ++ after ∧
      t.pos = .advance .start before ∧ (t.kind.isVerbatim → t.text.toList <+: after) := by
  induction covers with
  | @finish front gap t plain separates place stop =>
    refine List.forall_mem_singleton.mpr ⟨front ++ gap, [], by rw [split, List.append_nil], place, fun isVerbatim => ?_⟩
    rw [show t.text = "" from congrArg Token.text plain]
    exact List.nil_prefix
  | @token front gap taken rest t ts goes separates place nonempty stop verbatim spelled covers ih =>
    have whole : sql.toList = front ++ gap ++ taken ++ rest := by simpa using split
    refine List.forall_mem_cons.mpr ⟨⟨front ++ gap, taken ++ rest,
      by simpa using split, place, fun isVerbatim => ?_⟩, ih whole⟩
    exact ⟨rest, by rw [verbatim isVerbatim]⟩

/-- Every token with the offset at which the one before it stops, the first with the given one. -/
def stops (start : Nat) (tokens : List Token) : List (Nat × Token) := (start :: tokens.map stop).zip tokens

/-- The tokens account for the bytes of the text from an offset on. -/
structure Accounts (lexicon : Lexicon) (sql : String) (start : Nat) (tokens : List Token) : Prop where
  ends : ∃ body last, tokens = body ++ [last] ∧
    last.kind = .finish ∧ last.pos.offset = (bytes sql).length ∧ last.stop = (bytes sql).length ∧
    ∀ t ∈ body, t.kind ≠ .finish ∧ t.pos.offset < t.stop
  gaps : ∀ before t, (before, t) ∈ stops start tokens → before ≤ t.pos.offset ∧
    ∃ gap, Separates lexicon (t.kind = .finish) gap ∧ cut sql before t.pos.offset = encoded gap
  verbatim : ∀ t ∈ tokens, t.kind.isVerbatim → bytes t.text = cut sql t.pos.offset t.stop
  located : ∀ t ∈ tokens, t.pos.Locates sql

private theorem Covers.accounts {sql : String} {front rest : List Char} {tokens : List Token}
    (covers : Covers lexicon front rest tokens) (split : sql.toList = front ++ rest) :
    Accounts lexicon sql (byteCount front) tokens := by
  -- In both cases the gap of the first token is the text between the front and the token's place.
  have between {front gap back : List Char} {t : Token} (whole : sql.toList = front ++ gap ++ back)
      (place : t.pos = .advance .start (front ++ gap)) (separates : Separates lexicon (t.kind = .finish) gap) :
      byteCount front ≤ t.pos.offset ∧
        ∃ gap, Separates lexicon (t.kind = .finish) gap ∧ cut sql (byteCount front) t.pos.offset = encoded gap := by
    rw [place, Position.offset_start_advance]
    refine ⟨?_, gap, separates, cut_eq whole⟩
    rw [byteCount_append]
    exact Nat.le_add_right _ _
  induction covers with
  | @finish front gap t plain separates place stop =>
    have ends : t.kind = .finish := by rw [← kind_bare, plain, Token.finish]
    have whole : sql.toList = front ++ gap ++ [] := by simpa using split
    have size : byteCount (front ++ gap) = (bytes sql).length := by rw [length_bytes, split]
    have offset : t.pos.offset = (bytes sql).length := by rw [place, Position.offset_start_advance, size]
    refine ⟨⟨[], t, rfl, ends, offset, stop.trans size, by simp⟩, ?_, ?_, ?_⟩
    · intro before other held
      cases List.mem_singleton.mp held
      exact between whole place (separates.mono fun _ => ends)
    · intro other held isVerbatim
      cases List.mem_singleton.mp held
      rw [ends] at isVerbatim
      cases isVerbatim
    · intro other held
      cases List.mem_singleton.mp held
      rw [place]
      exact Position.locates_advance whole
  | @token front gap taken rest t ts goes separates place nonempty stop verbatim _ _ ih =>
    have whole : sql.toList = front ++ gap ++ taken ++ rest := by simpa using split
    have later := ih whole
    have offset : t.pos.offset = byteCount (front ++ gap) := by rw [place, Position.offset_start_advance]
    refine ⟨?_, ?_, ?_, ?_⟩
    · obtain ⟨body, last, rfl, finish, atEnd, stopsThere, others⟩ := later.ends
      refine ⟨t :: body, last, rfl, finish, atEnd, stopsThere, List.forall_mem_cons.mpr ⟨⟨goes, ?_⟩, others⟩⟩
      have wide := byteCount_pos nonempty
      rw [offset, stop, byteCount_append _ taken]
      omega
    · intro before other held
      change (before, other) ∈ (byteCount front, t) :: stops t.stop ts at held
      obtain first | held := List.mem_cons.mp held
      · cases first
        exact between (by simpa using split) place (separates.mono False.elim)
      · rw [stop] at held
        exact later.gaps before other held
    · refine List.forall_mem_cons.mpr ⟨fun isVerbatim => ?_, later.verbatim⟩
      rw [bytes_eq, verbatim isVerbatim, offset, stop, cut_eq whole]
    · refine List.forall_mem_cons.mpr ⟨?_, later.located⟩
      rw [place]
      exact Position.locates_advance (show sql.toList = front ++ gap ++ (taken ++ rest) by simpa using split)

end Token

/-- In every dialect the tokens account for the whole text, and a text that is no row of tokens is refused at a
place in it. -/
theorem tokens_account {entry : Entry} (member : entry ∈ Registry.standard.entries) (sql : String) :
    match Token.tokenize entry.dialect.toLexicon sql with
    | .ok tokens => Token.Accounts entry.dialect.toLexicon sql 0 tokens
    | .error e => ∃ pos fault, e = .lex pos fault ∧ pos.Locates sql := by
  have regular := (registered_regular member).lexicon
  cases read : Token.tokenize entry.dialect.toLexicon sql with
  | ok tokens => exact (Token.covers_of_tokenize regular read).accounts rfl
  | error e => exact Token.fails_of_tokenize regular read

/-- Comments of both kinds, letters of two bytes and a string over two lines. -/
theorem multiline_text_accounted : ∃ tokens,
    Token.tokenize MySql.profile.dialect.toLexicon "SELECT é -- ü\n\t'a\nb' # end" = .ok tokens ∧
    tokens.map (fun t => (t.kind, t.pos, t.stop)) =
      [(.keyword, ⟨0, 1, 1⟩, 6), (.word, ⟨7, 1, 8⟩, 9), (.string, ⟨17, 2, 2⟩, 22), (.finish, ⟨28, 3, 9⟩, 28)] ∧
    Token.Accounts MySql.profile.dialect.toLexicon "SELECT é -- ü\n\t'a\nb' # end" 0 tokens := by
  have accounted := @tokens_account (Entry.ofProfile MySql.profile) (by simp [Registry.standard])
    "SELECT é -- ü\n\t'a\nb' # end"
  have places : (Token.tokenize (Entry.ofProfile MySql.profile).dialect.toLexicon
      "SELECT é -- ü\n\t'a\nb' # end").toOption.map (List.map fun t => (t.kind, t.pos, t.stop)) = some
      [(.keyword, ⟨0, 1, 1⟩, 6), (.word, ⟨7, 1, 8⟩, 9), (.string, ⟨17, 2, 2⟩, 22), (.finish, ⟨28, 3, 9⟩, 28)] := by
    decide +kernel
  cases held : Token.tokenize (Entry.ofProfile MySql.profile).dialect.toLexicon "SELECT é -- ü\n\t'a\nb' # end" with
  | error e =>
    rw [held] at places
    cases places
  | ok tokens =>
    rw [held] at accounted places
    exact ⟨tokens, held, Option.some.inj places, accounted⟩

end SqlDialects
