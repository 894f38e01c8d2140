import Mathlib.Data.List.TakeWhile
import SqlDialects.Proofs.PatternMeaning

/-! What is left of a neutral pattern that is written in a native language and read again. Literal characters are
written without quotes and tokens without anything between them, so that letters can be read as tokens, quote marks be
dropped and two tokens be taken for a longer one. The pattern keeps its meaning exactly if none of this happens: if
the parts of what is written are one for each sign. -/

namespace SqlDialects.DatePattern

/-! ### Signs and the parts written for them -/

/-- Both letters stand for seconds. -/
def seconds (letter : Char) : Char := if letter = 'S' then 's' else letter

def Sign.seconds : Sign → Sign
  | .directive letter => .directive (DatePattern.seconds letter)
  | .plain c => .plain c

/-- What is written for a sign. -/
def Sign.native (p : DatePattern) : Sign → List Char
  | .directive letter =>
    match p.token? ['%', letter] with
    | some token => token.toList
    | none => ['%', letter]
  | .plain c => [c]

/-- The language has a token for each directive. -/
def Writable (p : DatePattern) (signs : List Sign) : Prop :=
  ∀ letter, .directive letter ∈ signs → (p.token? ['%', letter]).isSome

/-- The part is what was written for the sign. -/
inductive Wrote (p : DatePattern) : Sign → Piece → Prop
  | directive {letter reread : Char} {token : String} (written : p.token? ['%', letter] = some token)
      (same : seconds reread = seconds letter) : Wrote p (.directive letter) (.token token.toList reread)
  | plain (c : Char) : Wrote p (.plain c) (.single c)

variable {p : DatePattern} {cs : List Char} {signs : List Sign} {pieces : List Piece}

theorem writeFrom_signs (read : signs? cs = some signs) : p.writeFrom cs = signs.flatMap (Sign.native p) := by
  fun_induction signs? cs generalizing signs with
  | case1 => cases read; rfl
  | case2 => cases read
  | case3 c cs ih =>
    obtain ⟨later, held, rfl⟩ := Option.map_eq_some_iff.mp read
    by_cases percent : c = '%'
    · simp [writeFrom, percent, Sign.native, ih held]
    · cases found : p.token? ['%', c] <;>
        simp only [writeFrom, percent, if_false, List.flatMap_cons, Sign.native, found, ih held]
  | case4 c cs single pair ih =>
    obtain ⟨later, held, rfl⟩ := Option.map_eq_some_iff.mp read
    have single : p.writeFrom (c :: cs) = c :: p.writeFrom cs := writeFrom.eq_2 p c cs pair
    exact single.trans (congrArg (c :: ·) (ih held))

private theorem signs?_append {sign : Sign} (lettered : sign ≠ .directive '%') (cs : List Char) :
    signs? (sign.text ++ cs) = (signs? cs).map (sign :: ·) := by
  cases sign with
  | directive letter =>
    have other : letter ≠ '%' := fun percent => lettered (percent ▸ rfl)
    simp [Sign.text, signs?, other]
  | plain c =>
    by_cases percent : c = '%'
    · simp [Sign.text, signs?, percent]
    · cases cs <;> simp [Sign.text, signs?, percent]

/-! ### The tables -/

/-- What the table of a language has to do with the tokens that are written: they have no quote mark in them and are
spelled in one-byte characters, each is read as its directive, and what starts with it and has its directive is no
longer. -/
structure Rereadable (p : DatePattern) : Prop where
  marks : ∀ c, p.mark = some c → c ≠ '%' ∧ ∀ pair ∈ p.pairs, c ∉ pair.1.toList ∧ c ∉ pair.2.toList
  narrow : ∀ pair ∈ p.pairs, ∀ c ∈ pair.1.toList, c.utf8Size = 1
  reread : ∀ pair ∈ p.pairs, p.token? pair.2.toList = some pair.1 →
    ∃ other ∈ p.pairs, p.directive? pair.1.toList = some other.2 ∧
    other.2.toList.map seconds = pair.2.toList.map seconds
  longest : ∀ pair ∈ p.pairs, p.token? pair.2.toList = some pair.1 → ∀ other ∈ p.pairs,
    pair.1.toList.map p.shown <+: other.1.toList.map p.shown →
      other.2.toList.map seconds = pair.2.toList.map seconds → other.1.length = pair.1.length

theorem rereadable_of_mem (known : p ∈ [java, postgres, oracle, teradata]) : p.Rereadable := by
  have checked : ∀ p ∈ [java, postgres, oracle, teradata],
      (∀ pair ∈ p.pairs, (p.mark.all fun c => c != '%' && !pair.1.toList.contains c && !pair.2.toList.contains c) =
        true) ∧
      (∀ pair ∈ p.pairs, (pair.1.toList.all fun c => c.utf8Size == 1) = true) ∧
      ∀ pair ∈ p.pairs, p.token? pair.2.toList = some pair.1 →
        (p.pairs.any fun other => p.directive? pair.1.toList == some other.2 &&
          other.2.toList.map seconds == pair.2.toList.map seconds) = true ∧
        ∀ other ∈ p.pairs, (pair.1.toList.map p.shown).isPrefixOf (other.1.toList.map p.shown) = true →
          other.2.toList.map seconds = pair.2.toList.map seconds → other.1.length = pair.1.length := by
    decide +kernel
  obtain ⟨marks, narrow, tables⟩ := checked p known
  refine ⟨fun c mark => ?_, ?_, ?_, ?_⟩
  · have each : ∀ pair ∈ p.pairs, c ≠ '%' ∧ c ∉ pair.1.toList ∧ c ∉ pair.2.toList := by
      intro pair member
      simpa [mark, and_assoc] using marks pair member
    have some : p.pairs ≠ [] := by simpa using (regular_of_mem known).nonempty
    obtain ⟨pair, member⟩ := List.exists_mem_of_ne_nil _ some
    exact ⟨(each pair member).1, fun pair member => (each pair member).2⟩
  · intro pair member
    simpa using narrow pair member
  · intro pair member preferred
    simpa using (tables pair member preferred).1
  · intro pair member preferred other listed starts
    exact (tables pair member preferred).2 other listed (List.isPrefixOf_iff_prefix.mpr starts)

theorem token?_eq_some {letter : Char} {token : String} (written : p.token? ['%', letter] = some token) :
    ∃ pair ∈ p.pairs, pair.1 = token ∧ pair.2.toList = ['%', letter] := by
  obtain ⟨pair, found, same⟩ := Option.map_eq_some_iff.mp written
  exact ⟨pair, List.mem_of_find?_eq_some found, same, by simpa using List.find?_some found⟩

private theorem exists_of_directive? {run : List Char} {directive : String}
    (known : p.directive? run = some directive) :
    ∃ pair ∈ p.pairs, pair.1.toList.map p.shown = run.map p.shown ∧ pair.2 = directive := by
  obtain ⟨pair, found, same⟩ := Option.map_eq_some_iff.mp known
  exact ⟨pair, List.mem_of_find?_eq_some found, by simpa using List.find?_some found, same⟩

/-- What is needed of the token that is written for a directive. -/
structure Preferred (p : DatePattern) (letter : Char) (run : List Char) : Prop where
  nonempty : run ≠ []
  unmarked : ∀ c ∈ run, p.mark ≠ some c
  narrow : ∀ c ∈ run, c.utf8Size = 1
  reread : ∃ again, p.directive? run = some (String.ofList ['%', again]) ∧ seconds again = seconds letter
  longest : ∀ longer again, p.directive? longer = some (String.ofList ['%', again]) → seconds again = seconds letter →
    run <+: longer → longer = run

theorem Rereadable.preferred (rereadable : p.Rereadable) (regular : p.Regular) {letter : Char} {token : String}
    (written : p.token? ['%', letter] = some token) : Preferred p letter token.toList := by
  obtain ⟨pair, member, rfl, spelled⟩ := token?_eq_some written
  have held : p.token? pair.2.toList = some pair.1 := spelled ▸ written
  refine ⟨(regular.tokens pair member).1, ?_, rereadable.narrow pair member, ?_, ?_⟩
  · intro c inside mark
    exact ((rereadable.marks c mark).2 pair member).1 inside
  · obtain ⟨other, listed, known, same⟩ := rereadable.reread pair member held
    obtain ⟨again, _, _, directive⟩ := regular.directives other listed
    refine ⟨again, directive ▸ known, ?_⟩
    simpa [spelled, directive, seconds] using same
  · intro longer again known same front
    obtain ⟨other, listed, shown, directive⟩ := exists_of_directive? known
    have starts : pair.1.toList.map p.shown <+: other.1.toList.map p.shown := shown ▸ front.map p.shown
    have equal : other.2.toList.map seconds = pair.2.toList.map seconds := by simp [directive, spelled, same]
    have size := rereadable.longest pair member held other listed starts equal
    have lengths := congrArg List.length shown
    simp only [List.length_map, String.length_toList] at lengths
    refine (front.eq_of_length ?_).symm
    rw [String.length_toList]
    omega

/-! ### Reading what was written -/

theorem mark_not_mem_readFrom (rereadable : p.Rereadable) {mark : Char} (marked : p.mark = some mark)
    (fuel : Nat) (cs : List Char) : mark ∉ p.readFrom p.tokens fuel cs := by
  obtain ⟨percent, clean⟩ := rereadable.marks mark marked
  induction fuel generalizing cs with
  | zero => simp [readFrom]
  | succ fuel ih =>
    cases cs with
    | nil => simp [readFrom]
    | cons c cs =>
      rw [readFrom]
      split
      · next here =>
        obtain rfl : c = mark := Option.some.inj (here.trans marked)
        have kept : c ∉ cs.takeWhile (· != c) := fun member => by simpa using List.mem_takeWhile_imp member
        split
        · next ended =>
          rw [← List.takeWhile_append_dropWhile (p := (· != c)) (l := cs), ended, List.append_nil]
          exact kept
        · next rest ended =>
          rw [List.mem_append, not_or]
          exact ⟨kept, ih rest⟩
      · next plain =>
        split
        · next token directive found =>
          obtain ⟨run, rest, _, _, known, _⟩ := matchToken?_some found
          obtain ⟨pair, member, _, rfl⟩ := exists_of_directive? known
          rw [List.mem_append, not_or]
          exact ⟨(clean pair member).2, ih _⟩
        · rw [List.mem_append, not_or]
          refine ⟨?_, ih cs⟩
          have other : mark ≠ c := by
            rintro rfl
            exact plain marked.symm
          split <;> simp [other, percent]

private theorem signs_of_append {first : Sign} (sign : Sign) (lettered : sign ≠ .directive '%')
    (same : (signs? (sign.text ++ cs)).map (List.map Sign.seconds) = some ((first :: signs).map Sign.seconds)) :
    sign.seconds = first.seconds ∧ (signs? cs).map (List.map Sign.seconds) = some (signs.map Sign.seconds) := by
  rw [signs?_append lettered, Option.map_map, Option.map_eq_some_iff] at same
  obtain ⟨later, read, equal⟩ := same
  obtain ⟨here, rest⟩ := List.cons.inj equal
  exact ⟨here, by rw [read, Option.map_some, rest]⟩

/-- The signs that are read from a text are those of the written ones, seconds aside. -/
def Rereads (p : DatePattern) (fuel : Nat) (cs : List Char) (signs : List Sign) : Prop :=
  (signs? (p.readFrom p.tokens fuel cs)).map (List.map Sign.seconds) = some (signs.map Sign.seconds)

theorem Rereads.plain {c : Char} {fuel : Nat} (regular : p.Regular) (rereadable : p.Rereadable)
    (reads : p.Rereads (fuel + 1) (c :: cs) (.plain c :: signs)) :
    p.mark ≠ some c ∧ (∀ run, run <+: c :: cs → p.directive? run = none) ∧ p.Rereads fuel cs signs := by
  have unmarked : p.mark ≠ some c := by
    intro marked
    -- The mark would be among the signs, but a reader never lets it through.
    have absent := mark_not_mem_readFrom rereadable marked (fuel + 1) (c :: cs)
    obtain ⟨read, text, equal⟩ := Option.map_eq_some_iff.mp reads
    obtain ⟨first, rest, rfl, here, _⟩ := List.map_eq_cons_iff.mp equal
    obtain rfl : first = .plain c := by
      cases first with
      | directive letter => cases here
      | plain d => exact here
    rw [← text_of_signs? text, List.flatMap_cons, List.mem_append, not_or, Sign.text] at absent
    refine absent.1 ?_
    split <;> simp [*]
  rw [Rereads, readFrom, if_neg (Ne.symm unmarked)] at reads
  split at reads
  · next token directive found =>
    -- A directive stands where a character was written.
    obtain ⟨run, rest, _, _, known, _⟩ := matchToken?_some found
    obtain ⟨_, _, letter, other, rfl⟩ := regular.token known
    rw [String.toList_ofList] at reads
    have lettered : Sign.directive letter ≠ .directive '%' := fun equal => other (Sign.directive.inj equal)
    cases (signs_of_append (.directive letter) lettered reads).1
  · next missed =>
    exact ⟨unmarked, fun run front => matchToken?_none missed front,
      (signs_of_append (.plain c) Sign.noConfusion reads).2⟩

/-- If the directive of a written token is read back, it was read from this token and no longer one. -/
theorem Rereads.directive {letter : Char} {run : List Char} {fuel : Nat} (regular : p.Regular)
    (preferred : Preferred p letter run) (reads : p.Rereads (fuel + 1) (run ++ cs) (.directive letter :: signs)) :
    ∃ again, p.directive? run = some (String.ofList ['%', again]) ∧ seconds again = seconds letter ∧
      (∀ longer, longer <+: run ++ cs → run.length < longer.length → p.directive? longer = none) ∧
      p.Rereads fuel cs signs := by
  obtain ⟨again, known, same⟩ := preferred.reread
  obtain ⟨c, more, rfl⟩ := List.exists_cons_of_ne_nil preferred.nonempty
  have unmarked := preferred.unmarked c List.mem_cons_self
  rw [Rereads, List.cons_append, readFrom, if_neg (Ne.symm unmarked), ← List.cons_append] at reads
  split at reads
  · next token directive found =>
    obtain ⟨taken, rest, split, rfl, held, longest⟩ := matchToken?_some found
    obtain ⟨_, _, read, other, rfl⟩ := regular.token held
    rw [String.toList_ofList] at reads
    have lettered : Sign.directive read ≠ .directive '%' := fun equal => other (Sign.directive.inj equal)
    obtain ⟨here, later⟩ := signs_of_append (.directive read) lettered reads
    -- The token that was taken is no shorter than the written one, so that it starts with it.
    have front : c :: more <+: taken := by
      refine List.prefix_of_prefix_length_le (List.prefix_append _ _) ⟨rest, split.symm⟩
        (Nat.le_of_not_lt fun less => ?_)
      rw [longest _ (List.prefix_append _ _) less] at known
      cases known
    obtain rfl := preferred.longest taken read held (Sign.directive.inj here) front
    have size : (String.ofList ((c :: more).map p.shown)).utf8ByteSize = (c :: more).length := by
      rw [utf8ByteSize_ofList (regular.token held).2.1, List.length_map]
    rw [size, dropCut_append preferred.narrow] at later
    exact ⟨read, held, Sign.directive.inj here, longest, later⟩
  · next missed =>
    rw [matchToken?_none missed (List.prefix_append _ _)] at known
    cases known

theorem Rereads.splits (regular : p.Regular) (rereadable : p.Rereadable) (writable : Writable p signs) {fuel : Nat}
    (enough : (signs.flatMap (Sign.native p)).length < fuel)
      (reads : p.Rereads fuel (signs.flatMap (Sign.native p)) signs) :
    ∃ pieces, Splits p (signs.flatMap (Sign.native p)) pieces ∧ List.Forall₂ (Wrote p) signs pieces := by
  induction signs generalizing fuel with
  | nil => exact ⟨[], .nil, .nil⟩
  | cons sign signs ih =>
    have later : Writable p signs := fun letter member => writable letter (List.mem_cons_of_mem _ member)
    obtain ⟨fuel, rfl⟩ := Nat.exists_eq_succ_of_ne_zero (show fuel ≠ 0 by omega)
    rw [List.flatMap_cons, List.length_append] at enough
    rw [List.flatMap_cons] at reads ⊢
    cases sign with
    | plain c =>
      obtain ⟨unmarked, unknown, others⟩ := reads.plain regular rereadable
      rw [Sign.native, List.length_singleton] at enough
      obtain ⟨pieces, splits, wrote⟩ := ih later (by omega) others
      exact ⟨_, .single unmarked unknown splits, .cons (.plain c) wrote⟩
    | directive letter =>
      obtain ⟨token, written⟩ := Option.isSome_iff_exists.mp (writable letter List.mem_cons_self)
      have preferred := rereadable.preferred regular written
      have native : (Sign.directive letter).native p = token.toList := by rw [Sign.native, written]
      rw [native] at reads enough ⊢
      obtain ⟨again, known, same, longest, others⟩ := reads.directive regular preferred
      have some : 0 < token.toList.length := List.length_pos_iff.mpr preferred.nonempty
      obtain ⟨pieces, splits, wrote⟩ := ih later (by omega) others
      obtain ⟨c, run, spelled⟩ := List.exists_cons_of_ne_nil preferred.nonempty
      have wroteToken : Wrote p (.directive letter) (.token token.toList again) := .directive written same
      rw [spelled] at known longest wroteToken ⊢
      exact ⟨_, .token (preferred.unmarked c (spelled ▸ List.mem_cons_self)) known longest splits,
        .cons wroteToken wrote⟩

/-! ### Patterns whose parts are those written -/

/-- The parts mean what the signs do that they were written for. -/
theorem signs_of_wrote (wrote : List.Forall₂ (Wrote p) signs pieces) :
    (pieces.flatMap Piece.signs).map Sign.seconds = signs.map Sign.seconds := by
  induction wrote with
  | nil => rfl
  | cons first _ ih =>
    rw [List.flatMap_cons, List.map_append, ih, List.map_cons]
    cases first with
    | directive written same => simp [Piece.signs, Sign.seconds, same]
    | plain c => rfl

theorem narrow_of_wrote (rereadable : p.Rereadable) (wrote : List.Forall₂ (Wrote p) signs pieces) : Narrow pieces := by
  induction wrote with
  | nil => exact fun run letter member => nomatch member
  | cons first _ ih =>
    intro run letter member
    obtain rfl | later := List.mem_cons.mp member
    · cases first with
      | directive written same =>
        obtain ⟨pair, listed, rfl, _⟩ := token?_eq_some written
        exact rereadable.narrow pair listed
    · exact ih run letter later

theorem unquoted_of_wrote (wrote : List.Forall₂ (Wrote p) signs pieces) (run : List Char) : .quoted run ∉ pieces := by
  induction wrote with
  | nil => exact List.not_mem_nil
  | cons first _ ih =>
    rw [List.mem_cons, not_or]
    refine ⟨?_, ih⟩
    rintro rfl
    cases first

/-- A pattern is read back exactly if it falls into the parts that were written for its signs. -/
theorem reread_iff (regular : p.Regular) (rereadable : p.Rereadable) {canonical : String}
    (read : signs? canonical.toList = some signs) (writable : Writable p signs) :
    (signs? (p.toCanonical (p.fromCanonical canonical)).toList).map (List.map Sign.seconds) =
        some (signs.map Sign.seconds) ↔
      ∃ pieces, Splits p (p.fromCanonical canonical).toList pieces ∧ List.Forall₂ (Wrote p) signs pieces := by
  have text : (p.fromCanonical canonical).toList = signs.flatMap (Sign.native p) := by
    rw [fromCanonical, if_neg (by simp [regular.nonempty]), String.toList_ofList, writeFrom_signs read]
  constructor
  · intro same
    have enough := Nat.lt_succ_of_le (length_le_utf8ByteSize (p.fromCanonical canonical))
    rw [text] at enough ⊢
    rw [toCanonical, if_neg (by simp [regular.nonempty]), String.toList_ofList, text] at same
    exact Rereads.splits regular rereadable writable enough same
  · rintro ⟨pieces, splits, wrote⟩
    have unquoted := unquoted_of_wrote wrote
    rw [toCanonical_splits regular splits (narrow_of_wrote rereadable wrote),
      (signs?_written_iff (splits.lettered regular)).mpr fun run member =>
      absurd member (unquoted run), Option.map_some,
      signs_of_wrote wrote]

/-- The character is no quote mark and in no token of the language. -/
def Apart (p : DatePattern) (c : Char) : Prop :=
  p.mark ≠ some c ∧ ∀ pair ∈ p.pairs, p.shown c ∉ pair.1.toList.map p.shown

/-- Literal characters are apart from the tokens, and one of them stands between any two directives. -/
inductive Spaced (p : DatePattern) : List Sign → Prop
  | nil : Spaced p []
  | plain {c : Char} {signs : List Sign} (apart : p.Apart c) (later : Spaced p signs) : Spaced p (.plain c :: signs)
  | last (letter : Char) : Spaced p [.directive letter]
  | directive {letter c : Char} {signs : List Sign} (later : Spaced p (.plain c :: signs)) :
    Spaced p (.directive letter :: .plain c :: signs)

theorem Apart.unknown {c : Char} {run : List Char} (apart : p.Apart c) (member : c ∈ run) :
    p.directive? run = none := by
  refine Option.eq_none_iff_forall_ne_some.mpr fun directive known => ?_
  obtain ⟨pair, listed, shown, _⟩ := exists_of_directive? known
  have held := apart.2 pair listed
  rw [shown] at held
  exact held (List.mem_map_of_mem member)

/-- Literal characters and tokens that stand apart are read as they were written. -/
theorem Spaced.splits (regular : p.Regular) (rereadable : p.Rereadable)
    (writable : Writable p signs) (spaced : Spaced p signs) :
    ∃ pieces, Splits p (signs.flatMap (Sign.native p)) pieces ∧ List.Forall₂ (Wrote p) signs pieces := by
  -- A token is as long as it can be if nothing follows it or a character apart.
  have token {letter : Char} {signs : List Sign} (known : (p.token? ['%', letter]).isSome)
      (ends : ∀ c ∈ (signs.flatMap (Sign.native p)).head?, p.Apart c) {pieces : List Piece}
      (splits : Splits p (signs.flatMap (Sign.native p)) pieces) (wrote : List.Forall₂ (Wrote p) signs pieces) :
      ∃ pieces, Splits p ((Sign.directive letter :: signs).flatMap (Sign.native p)) pieces ∧
        List.Forall₂ (Wrote p) (.directive letter :: signs) pieces := by
    obtain ⟨token, written⟩ := Option.isSome_iff_exists.mp known
    have preferred := rereadable.preferred regular written
    obtain ⟨again, known, same⟩ := preferred.reread
    have native : (Sign.directive letter).native p = token.toList := by rw [Sign.native, written]
    have wroteToken : Wrote p (.directive letter) (.token token.toList again) := .directive written same
    have longest : ∀ longer, longer <+: token.toList ++ signs.flatMap (Sign.native p) →
      token.toList.length < longer.length →
        p.directive? longer = none := by
      intro longer front exceeds
      obtain ⟨more, rfl⟩ := List.prefix_of_prefix_length_le (List.prefix_append _ _) front (Nat.le_of_lt exceeds)
      have rest := (List.prefix_append_right_inj _).mp front
      cases more with
      | nil => simp at exceeds
      | cons c more =>
        obtain ⟨others, equal⟩ := rest
        exact (ends c (by simp [← equal])).unknown (by simp)
    obtain ⟨c, run, spelled⟩ := List.exists_cons_of_ne_nil preferred.nonempty
    rw [List.flatMap_cons, native]
    rw [spelled] at known longest wroteToken ⊢
    exact ⟨_, .token (preferred.unmarked c (spelled ▸ List.mem_cons_self)) known longest splits, .cons wroteToken wrote⟩
  induction spaced with
  | nil => exact ⟨[], .nil, .nil⟩
  | @plain c signs apart _ ih =>
    obtain ⟨pieces, splits, wrote⟩ := ih fun letter member => writable letter (List.mem_cons_of_mem _ member)
    refine ⟨_, .single apart.1 (fun run front => ?_) splits, .cons (.plain c) wrote⟩
    cases run with
    | nil => exact Option.eq_none_iff_forall_ne_some.mpr fun directive known => absurd rfl (regular.token known).1
    | cons d run =>
      obtain ⟨rest, equal⟩ := front
      exact apart.unknown (by simp [(List.cons.inj equal).1])
  | last letter => exact token (writable letter List.mem_cons_self) (by simp) .nil .nil
  | @directive letter c signs later ih =>
    obtain ⟨pieces, splits, wrote⟩ := ih fun other member => writable other (List.mem_cons_of_mem _ member)
    cases later with
    | plain apart => exact token (writable letter List.mem_cons_self) (by simpa [Sign.native] using apart) splits wrote

/-- A neutral pattern whose directives have tokens is written in each of the four languages and read again. Seconds
aside, its signs are read back exactly if what is written falls into one part for each of them. They are if no
character and no token touches another token. -/
theorem written_pattern_faithful_iff {p : DatePattern}
    (known : p ∈ [java, postgres, oracle, teradata]) {canonical : String}
    {signs : List Sign} (read : signs? canonical.toList = some signs) (writable : Writable p signs) :
    ((signs? (p.toCanonical (p.fromCanonical canonical)).toList).map (List.map Sign.seconds) =
      some (signs.map Sign.seconds) ↔
      ∃ pieces, Splits p (p.fromCanonical canonical).toList pieces ∧ List.Forall₂ (Wrote p) signs pieces) ∧
    (Spaced p signs →
      (signs? (p.toCanonical (p.fromCanonical canonical)).toList).map (List.map Sign.seconds) =
      some (signs.map Sign.seconds)) := by
  have regular := regular_of_mem known
  have rereadable := rereadable_of_mem known
  have exactly := reread_iff regular rereadable read writable
  refine ⟨exactly, fun spaced => exactly.mpr ?_⟩
  rw [fromCanonical, if_neg (by simp [regular.nonempty]), String.toList_ofList, writeFrom_signs read]
  exact spaced.splits regular rereadable writable

theorem dashed_date_kept : java ∈ [java, postgres, oracle, teradata] ∧
    signs? "%Y-%m-%d".toList = some [.directive 'Y', .plain '-', .directive 'm', .plain '-', .directive 'd'] ∧
    Writable java [.directive 'Y', .plain '-', .directive 'm', .plain '-', .directive 'd'] ∧
    Spaced java [.directive 'Y', .plain '-', .directive 'm', .plain '-', .directive 'd'] ∧
    (signs? (java.toCanonical (java.fromCanonical "%Y-%m-%d")).toList).map (List.map Sign.seconds) =
      some [.directive 'Y', .plain '-', .directive 'm', .plain '-', .directive 'd'] := by
  have read : signs? "%Y-%m-%d".toList =
      some [.directive 'Y', .plain '-', .directive 'm', .plain '-', .directive 'd'] := by decide
  have writable : Writable java [.directive 'Y', .plain '-', .directive 'm', .plain '-', .directive 'd'] := by
    intro letter member
    simp only [List.mem_cons, Sign.directive.injEq, reduceCtorEq, List.not_mem_nil, or_false, false_or] at member
    obtain rfl | rfl | rfl := member <;> decide
  have dash : java.Apart '-' := ⟨by decide, by decide⟩
  have spaced : Spaced java [.directive 'Y', .plain '-', .directive 'm', .plain '-', .directive 'd'] :=
    .directive (.plain dash (.directive (.plain dash (.last 'd'))))
  exact ⟨by simp, read, writable, spaced, (written_pattern_faithful_iff (by simp) read writable).2 spaced⟩

/-- Two months without a zero in front of them become one with it, and a letter after a year becomes a day. -/
theorem patterns_fused :
    signs? "%c%c".toList = some [.directive 'c', .directive 'c'] ∧
      signs? (java.toCanonical (java.fromCanonical "%c%c")).toList = some [.directive 'm'] ∧
    signs? "%Yd".toList = some [.directive 'Y', .plain 'd'] ∧
      signs? (java.toCanonical (java.fromCanonical "%Yd")).toList = some [.directive 'Y', .directive 'e'] := by
  have month : Splits java (java.fromCanonical "%c%c").toList [.token "MM".toList 'm'] := by
    have written : java.fromCanonical "%c%c" = "MM" := by decide
    have longest : ∀ longer, longer <+: "MM".toList → 2 < longer.length → java.directive? longer = none :=
      forall_front (by decide)
    rw [written]
    exact @Splits.token java 'M' 'm' ['M'] [] [] (by decide) (by decide) longest .nil
  have day : Splits java (java.fromCanonical "%Yd").toList [.token "yyyy".toList 'Y', .token "d".toList 'e'] := by
    have written : java.fromCanonical "%Yd" = "yyyyd" := by decide
    have last : ∀ longer, longer <+: "d".toList → 1 < longer.length → java.directive? longer = none :=
      forall_front (by decide)
    have longest : ∀ longer, longer <+: "yyyyd".toList → 4 < longer.length → java.directive? longer = none :=
      forall_front (by decide)
    rw [written]
    exact @Splits.token java 'y' 'Y' "yyy".toList ['d'] _ (by decide) (by decide) longest
      (@Splits.token java 'd' 'e' [] [] [] (by decide) (by decide) last .nil)
  have regular := regular_of_mem (p := java) (by simp)
  have narrow {pieces : List Piece} (checked : (pieces.all fun
      | .token run _ => run.all fun c => c.utf8Size == 1
      | _ => true) = true) : Narrow pieces := by
    intro run letter member
    simpa using List.all_eq_true.mp checked _ member
  refine ⟨by decide, ?_, by decide, ?_⟩
  · rw [toCanonical_splits regular month (narrow (by decide))]
    decide
  · rw [toCanonical_splits regular day (narrow (by decide))]
    decide

end SqlDialects.DatePattern
