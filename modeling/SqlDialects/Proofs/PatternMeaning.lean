import Mathlib.Data.List.Basic
import SqlDialects.DatePattern
import SqlDialects.Proofs.Lexer

/-! What date patterns mean. A native pattern is a sequence of quoted runs, of tokens that are as long as they can be
and of single characters; a neutral one is a sequence of directives and plain characters. Reading a native pattern
keeps its meaning exactly if no percent sign stands in quotes: outside them it is doubled, inside them it is copied.
-/

namespace SqlDialects.DatePattern

/-! ### Neutral patterns -/

/-- A part of a neutral pattern. -/
inductive Sign
  | directive (letter : Char)
  | plain (c : Char)
deriving DecidableEq

/-- What a neutral pattern says, where a percent sign is written twice; nothing if a percent sign ends it. -/
def signs? : List Char → Option (List Sign)
  | [] => some []
  | ['%'] => none
  | '%' :: c :: cs => (signs? cs).map ((if c = '%' then .plain '%' else .directive c) :: ·)
  | c :: cs => (signs? cs).map (.plain c :: ·)

def Sign.text : Sign → List Char
  | .directive letter => ['%', letter]
  | .plain c => if c = '%' then ['%', '%'] else [c]

private theorem signs?_plain {c : Char} (other : c ≠ '%') (cs : List Char) :
    signs? (c :: cs) = (signs? cs).map (.plain c :: ·) := by
  cases cs <;> simp [signs?, other]

theorem text_of_signs? {cs : List Char} {signs : List Sign} (read : signs? cs = some signs) :
    signs.flatMap Sign.text = cs := by
  fun_induction signs? cs generalizing signs with
  | case1 => cases read; rfl
  | case2 => cases read
  | case3 c cs ih =>
    obtain ⟨later, held, rfl⟩ := Option.map_eq_some_iff.mp read
    by_cases percent : c = '%'
    · simp [percent, Sign.text, ih held]
    · simp [percent, Sign.text, ih held]
  | case4 c cs _ _ ih =>
    obtain ⟨later, held, rfl⟩ := Option.map_eq_some_iff.mp read
    have other : c ≠ '%' := by
      rintro rfl
      cases cs <;> simp_all
    simp [other, Sign.text, ih held]

theorem signs?_text {signs : List Sign} (lettered : .directive '%' ∉ signs) :
    signs? (signs.flatMap Sign.text) = some signs := by
  induction signs with
  | nil => rfl
  | cons sign signs ih =>
    have later := ih fun member => lettered (List.mem_cons_of_mem _ member)
    cases sign with
    | directive letter =>
      have other : letter ≠ '%' := by
        rintro rfl
        exact lettered List.mem_cons_self
      simp [Sign.text, signs?, other, later]
    | plain c =>
      by_cases percent : c = '%'
      · simp [Sign.text, signs?, percent, later]
      · simp [Sign.text, percent, signs?_plain percent, later]

/-! ### Native patterns -/

/-- A part of a native pattern. -/
inductive Piece
  | quoted (run : List Char)
  | token (run : List Char) (letter : Char)
  | single (c : Char)
deriving DecidableEq

/-- What the part means. -/
def Piece.signs : Piece → List Sign
  | .quoted run => run.map .plain
  | .token _ letter => [.directive letter]
  | .single c => [.plain c]

/-- A character as far as the tokens tell characters apart. -/
def shown (p : DatePattern) (c : Char) : Char := if p.foldCase then Text.upperChar c else c

/-- The directive of a token of the language: that of the first entry which spells the run. -/
def directive? (p : DatePattern) (run : List Char) : Option String :=
  (p.pairs.find? fun pair => pair.1.toList.map p.shown == run.map p.shown).map (·.2)

/-- The parts of a native pattern from left to right. At a quote mark a run of plain text starts, which the next mark or
the end of the pattern ends; else the longest token is taken, or a single character where there is none. -/
inductive Splits (p : DatePattern) : List Char → List Piece → Prop
  | nil : Splits p [] []
  | closed {c : Char} {run rest : List Char} {pieces : List Piece} (mark : p.mark = some c) (inside : c ∉ run)
      (later : Splits p rest pieces) : Splits p (c :: run ++ c :: rest) (.quoted run :: pieces)
  | opened {c : Char} {run : List Char} (mark : p.mark = some c) (inside : c ∉ run) : Splits p (c :: run) [.quoted run]
  | token {c letter : Char} {run rest : List Char} {pieces : List Piece} (unmarked : p.mark ≠ some c)
      (known : p.directive? (c :: run) = some (String.ofList ['%', letter]))
      (longest : ∀ longer, longer <+: c :: run ++ rest → (c :: run).length < longer.length → p.directive? longer = none)
      (later : Splits p rest pieces) : Splits p (c :: run ++ rest) (.token (c :: run) letter :: pieces)
  | single {c : Char} {rest : List Char} {pieces : List Piece} (unmarked : p.mark ≠ some c)
      (unknown : ∀ run, run <+: c :: rest → p.directive? run = none) (later : Splits p rest pieces) :
    Splits p (c :: rest) (.single c :: pieces)

/-- The entries of a language: no token is empty, tokens take a byte for each character, and every directive is a
percent sign with a letter. -/
structure Regular (p : DatePattern) : Prop where
  nonempty : p.pairs.isEmpty = false
  tokens : ∀ pair ∈ p.pairs, pair.1.toList ≠ [] ∧ ∀ c ∈ pair.1.toList, (p.shown c).utf8Size = 1
  directives : ∀ pair ∈ p.pairs, ∃ letter ∈ pair.2.toList, letter ≠ '%' ∧ pair.2 = String.ofList ['%', letter]

variable {p : DatePattern} {cs run : List Char} {pieces : List Piece}

/-! ### The table of tokens -/

/-- The spelling of an entry in the table. -/
def key (p : DatePattern) (native : String) : String := if p.foldCase then Text.upper native else native

theorem toList_key (native : String) : (p.key native).toList = native.toList.map p.shown := by
  by_cases folds : p.foldCase
  · rw [key, if_pos folds, Text.toList_upper, show p.shown = Text.upperChar from funext fun c => if_pos folds]
  · rw [key, if_neg folds, show p.shown = id from funext fun c => if_neg folds, List.map_id]

/-- Entries under new spellings are kept, in their order. -/
private theorem mem_distinct {pairs : List (String × String)} {found : String × String} :
    found ∈ pairs.foldl (fun seen pair => if seen.any (·.1 == pair.1) then seen else seen ++ [pair]) [] ↔
      pairs.find? (·.1 == found.1) = some found := by
  suffices general : ∀ seen : List (String × String), (∀ x ∈ seen, ∀ y ∈ seen, x.1 = y.1 → x = y) →
      (found ∈ pairs.foldl (fun seen pair => if seen.any (·.1 == pair.1) then seen else seen ++ [pair]) seen ↔
        (seen ++ pairs).find? (·.1 == found.1) = some found) by
    simpa using general [] (by simp)
  induction pairs with
  | nil =>
    intro seen unique
    rw [List.append_nil, List.foldl_nil]
    refine ⟨fun member => ?_, List.mem_of_find?_eq_some⟩
    cases first : seen.find? (·.1 == found.1) with
    | none => exact absurd member (by simpa using fun held => List.find?_eq_none.mp first found held)
    | some other =>
      have same : other.1 = found.1 := by simpa using List.find?_some first
      rw [unique other (List.mem_of_find?_eq_some first) found member same]
  | cons pair pairs ih =>
    intro seen unique
    rw [List.foldl_cons]
    split
    · next known =>
      -- An entry whose spelling is there already is never the first one.
      rw [ih seen unique, List.find?_append, List.find?_append, List.find?_cons]
      obtain ⟨earlier, held, same⟩ := List.any_eq_true.mp known
      by_cases here : pair.1 = found.1
      · have first : (seen.find? (·.1 == found.1)).isSome := by
          rw [List.find?_isSome]
          exact ⟨earlier, held, by rw [← here]; exact same⟩
        obtain ⟨other, first⟩ := Option.isSome_iff_exists.mp first
        simp [first]
      · rw [beq_eq_false_iff_ne.mpr here]
    · next fresh =>
      rw [ih, List.append_assoc, List.singleton_append]
      intro x left y right same
      simp only [List.mem_append, List.mem_singleton] at left right
      obtain old | rfl := left <;> obtain old' | rfl := right
      · exact unique x old y old' same
      · exact absurd (List.any_eq_true.mpr ⟨x, old, by simpa using same⟩) fresh
      · exact absurd (List.any_eq_true.mpr ⟨y, old', by simpa using same.symm⟩) fresh
      · rfl

/-- The table has each spelling with the directive of its first entry. -/
theorem mem_tokens {token directive : String} : (token, directive) ∈ p.tokens ↔
    (p.pairs.map fun pair => (p.key pair.1, pair.2)).find? (·.1 == token) = some (token, directive) := by
  rw [tokens, List.mem_mergeSort]
  exact mem_distinct

theorem directive?_eq_some_iff {directive : String} :
    p.directive? run = some directive ↔ (String.ofList (run.map p.shown), directive) ∈ p.tokens := by
  have same : (fun pair : String × String => pair.1.toList.map p.shown == run.map p.shown) =
      (fun pair => pair.1 == String.ofList (run.map p.shown)) ∘ fun pair => (p.key pair.1, pair.2) := by
    funext pair
    rw [Bool.eq_iff_iff]
    simp [← toList_key, ← String.toList_inj]
  rw [mem_tokens, List.find?_map, directive?, Option.map_eq_some_iff, Option.map_eq_some_iff, ← same]
  refine exists_congr fun pair => and_congr_right fun found => ?_
  have spelled : pair.1.toList.map p.shown = run.map p.shown := by simpa using List.find?_some found
  have equal : p.key pair.1 = String.ofList (run.map p.shown) := by
    rw [← String.toList_inj, toList_key, spelled, String.toList_ofList]
  simp [equal]

/-! ### Matching -/

private theorem matches_iff {token : String} :
    token.toList.isPrefixOf (if p.foldCase then (cs.take token.length).map Text.upperChar else cs) = true ↔
      token.toList <+: cs.map p.shown := by
  rw [List.isPrefixOf_iff_prefix]
  by_cases folds : p.foldCase
  · rw [if_pos folds, show p.shown = Text.upperChar from funext fun c => if_pos folds, ← String.length_toList,
      List.map_take, List.prefix_iff_eq_take, List.take_take, Nat.min_self, ← List.prefix_iff_eq_take]
  · rw [if_neg folds, show p.shown = id from funext fun c => if_neg folds, List.map_id]

/-- No spelling of the table that the text starts with is longer than the one that is taken. -/
theorem matchToken?_longest {token directive : String} (found : p.matchToken? p.tokens cs = some (token, directive)) :
    (token, directive) ∈ p.tokens ∧ token.toList <+: cs.map p.shown ∧
      ∀ other ∈ p.tokens, other.1.toList <+: cs.map p.shown → other.1.length ≤ token.length := by
  have sorted : p.tokens.Pairwise fun a b => decide (b.1.length ≤ a.1.length) = true := by
    apply List.pairwise_mergeSort
    · intro a b c first second
      simp only [decide_eq_true_eq] at first second ⊢
      omega
    · intro a b
      simp only [Bool.or_eq_true, decide_eq_true_eq]
      omega
  obtain ⟨taken, before, after, split, passed⟩ := List.find?_eq_some_iff_append.mp found
  refine ⟨List.mem_of_find?_eq_some found, matches_iff.mp taken, ?_⟩
  intro other member starts
  rw [split, List.mem_append, List.mem_cons] at member
  obtain earlier | rfl | later := member
  · have missed := passed other earlier
    rw [Bool.not_eq_true', ← Bool.not_eq_true] at missed
    exact absurd (matches_iff.mpr starts) missed
  · exact Nat.le_refl _
  · rw [split] at sorted
    exact of_decide_eq_true ((List.pairwise_cons.mp (List.pairwise_append.mp sorted).2.1).1 other later)

theorem matchToken?_some {token directive : String} (found : p.matchToken? p.tokens cs = some (token, directive)) :
    ∃ run rest, cs = run ++ rest ∧ token = String.ofList (run.map p.shown) ∧ p.directive? run = some directive ∧
      ∀ longer, longer <+: cs → run.length < longer.length → p.directive? longer = none := by
  obtain ⟨member, starts, longest⟩ := matchToken?_longest found
  have spelled : (cs.take token.length).map p.shown = token.toList := by
    rw [List.map_take, ← String.length_toList]
    exact (List.prefix_iff_eq_take.mp starts).symm
  have equal : token = String.ofList ((cs.take token.length).map p.shown) := by
    rw [spelled, String.ofList_toList]
  have size : (cs.take token.length).length = token.length := by
    have lengths := congrArg List.length spelled
    rwa [List.length_map, String.length_toList] at lengths
  refine ⟨cs.take token.length, cs.drop token.length, (List.take_append_drop _ _).symm, equal, ?_, ?_⟩
  · rw [directive?_eq_some_iff, ← equal]
    exact member
  · intro longer inFront exceeds
    rw [size] at exceeds
    refine Option.eq_none_iff_forall_ne_some.mpr fun other known => ?_
    have bound := longest _ (directive?_eq_some_iff.mp known) (by simpa using inFront.map p.shown)
    rw [← String.length_toList, String.toList_ofList, List.length_map] at bound
    omega

theorem matchToken?_none (missed : p.matchToken? p.tokens cs = none) (inFront : run <+: cs) :
    p.directive? run = none := by
  refine Option.eq_none_iff_forall_ne_some.mpr fun directive known => ?_
  have failed := List.find?_eq_none.mp missed _ (directive?_eq_some_iff.mp known)
  rw [matches_iff, String.toList_ofList] at failed
  exact failed (inFront.map p.shown)

theorem matchToken?_of_longest {directive : String} (inFront : run <+: cs) (known : p.directive? run = some directive)
    (longest : ∀ longer, longer <+: cs → run.length < longer.length → p.directive? longer = none) :
    p.matchToken? p.tokens cs = some (String.ofList (run.map p.shown), directive) := by
  cases outcome : p.matchToken? p.tokens cs with
  | none => rw [matchToken?_none outcome inFront] at known; cases known
  | some found =>
    obtain ⟨token, other⟩ := found
    obtain ⟨taken, rest, split, rfl, held, limit⟩ := matchToken?_some outcome
    have front : taken <+: cs := ⟨rest, split.symm⟩
    have size : taken.length = run.length := by
      refine Nat.le_antisymm (Nat.le_of_not_lt fun less => ?_) (Nat.le_of_not_lt fun less => ?_)
      · rw [longest taken front less] at held; cases held
      · rw [limit run inFront less] at known; cases known
    obtain rfl : taken = run := (List.prefix_of_prefix_length_le front inFront (Nat.le_of_eq size)).eq_of_length size
    rw [known] at held
    cases held
    rfl

/-! ### Reading -/

/-- What is written for a part: a plain percent sign is doubled unless it stands in quotes. -/
def Piece.written : Piece → List Char
  | .quoted run => run
  | .token _ letter => ['%', letter]
  | .single c => if c = '%' then ['%', '%'] else [c]

/-- The tokens of a pattern are spelled with characters of one byte each. -/
def Narrow (pieces : List Piece) : Prop := ∀ run letter, Piece.token run letter ∈ pieces → ∀ c ∈ run, c.utf8Size = 1

theorem dropCut_append (narrow : ∀ c ∈ run, c.utf8Size = 1) (rest : List Char) :
    dropCut run.length (run ++ rest) = rest := by
  induction run with
  | nil => cases rest <;> rfl
  | cons c run ih =>
    have one : c.utf8Size = 1 := narrow c List.mem_cons_self
    rw [List.length_cons, List.cons_append, dropCut, if_pos (by omega), one, Nat.add_sub_cancel]
    exact ih fun d member => narrow d (List.mem_cons_of_mem _ member)

theorem utf8ByteSize_ofList (narrow : ∀ c ∈ run, c.utf8Size = 1) : (String.ofList run).utf8ByteSize = run.length := by
  induction run with
  | nil => rfl
  | cons c run ih =>
    have split : String.ofList (c :: run) = String.singleton c ++ String.ofList run := by
      rw [← String.toList_inj]
      simp
    rw [split, String.utf8ByteSize_append, ih fun d member =>
      narrow d (List.mem_cons_of_mem _ member), List.length_cons]
    have one : c.utf8Size = 1 := narrow c List.mem_cons_self
    simp [one, Nat.add_comm]

theorem Regular.token (regular : p.Regular) {directive : String} (known : p.directive? run = some directive) :
    run ≠ [] ∧ (∀ c ∈ run.map p.shown, c.utf8Size = 1) ∧ ∃ letter, letter ≠ '%' ∧
    directive = String.ofList ['%', letter] := by
  obtain ⟨pair, found, rfl⟩ := Option.map_eq_some_iff.mp known
  have member := List.mem_of_find?_eq_some found
  have spelled : pair.1.toList.map p.shown = run.map p.shown := by simpa using List.find?_some found
  obtain ⟨nonempty, narrow⟩ := regular.tokens pair member
  obtain ⟨letter, _, other, directive⟩ := regular.directives pair member
  refine ⟨?_, ?_, letter, other, directive⟩
  · rintro rfl
    simp [nonempty] at spelled
  · rw [← spelled]
    simpa using narrow

/-- The text up to the next mark and the text after it. -/
private theorem split_mark (mark : Char) (cs : List Char) :
    mark ∉ cs ∧ cs.dropWhile (· != mark) = [] ∨ ∃ run rest, cs = run ++ mark :: rest ∧ mark ∉ run ∧
      cs.takeWhile (· != mark) = run ∧ cs.dropWhile (· != mark) = mark :: rest := by
  induction cs with
  | nil => exact .inl (by simp)
  | cons c cs ih =>
    by_cases here : c = mark
    · exact .inr ⟨[], cs, by simp [here]⟩
    · obtain ⟨absent, ended⟩ | ⟨run, rest, rfl, absent, taken, dropped⟩ := ih
      · exact .inl (by simp [here, Ne.symm here, absent, ended])
      · exact .inr ⟨c :: run, rest, by simp [here, Ne.symm here, absent, taken, dropped]⟩

private theorem takeWhile_mark {mark : Char} (absent : mark ∉ run) (rest : List Char) :
    (run ++ mark :: rest).takeWhile (· != mark) = run ∧ (run ++ mark :: rest).dropWhile (· != mark) = mark :: rest := by
  have passes : ∀ c ∈ run, (c != mark) = true := by
    intro c member
    rw [bne_iff_ne]
    rintro rfl
    exact absent member
  rw [List.takeWhile_append_of_pos passes, List.dropWhile_append_of_pos passes]
  simp

/-- Every pattern has its parts. -/
theorem exists_splits (regular : p.Regular) (cs : List Char) : ∃ pieces, Splits p cs pieces := by
  induction size : cs.length using Nat.strongRecOn generalizing cs with
  | _ size ih =>
    subst size
    cases cs with
    | nil => exact ⟨[], .nil⟩
    | cons c cs =>
      by_cases marked : p.mark = some c
      · obtain ⟨absent, _⟩ | ⟨run, rest, rfl, absent, _⟩ := split_mark c cs
        · exact ⟨_, .opened marked absent⟩
        · obtain ⟨pieces, later⟩ := ih rest.length (by simp only [List.length_append, List.length_cons]; omega) rest rfl
          exact ⟨_, .closed marked absent later⟩
      cases outcome : p.matchToken? p.tokens (c :: cs) with
      | none =>
        obtain ⟨pieces, later⟩ := ih cs.length (by simp) cs rfl
        exact ⟨_, .single marked (fun run inFront => matchToken?_none outcome inFront) later⟩
      | some found =>
        obtain ⟨run, rest, split, _, known, longest⟩ := matchToken?_some outcome
        obtain ⟨nonempty, _, letter, _, directive⟩ := regular.token known
        obtain ⟨first, run, rfl⟩ := List.exists_cons_of_ne_nil nonempty
        rw [List.cons_append, List.cons.injEq] at split
        obtain ⟨rfl, rfl⟩ := split
        obtain ⟨pieces, later⟩ := ih rest.length (by simp only [List.length_append, List.length_cons]; omega) rest rfl
        exact ⟨_, .token marked (directive ▸ known) longest later⟩

/-- The reader goes from part to part. -/
theorem readFrom_splits (regular : p.Regular) (splits : Splits p cs pieces) (narrow : Narrow pieces) {fuel : Nat}
    (enough : cs.length < fuel) : p.readFrom p.tokens fuel cs = pieces.flatMap Piece.written := by
  induction splits generalizing fuel with
  | nil => cases fuel <;> rfl
  | @closed c run rest pieces mark inside later ih =>
    obtain ⟨fuel, rfl⟩ := Nat.exists_eq_succ_of_ne_zero (show fuel ≠ 0 by omega)
    obtain ⟨taken, dropped⟩ := takeWhile_mark inside rest
    have more := ih (fun run letter member => narrow run letter (List.mem_cons_of_mem _ member))
      (show rest.length < fuel by simp at enough; omega)
    rw [List.cons_append, readFrom, if_pos mark.symm, dropped, taken]
    simp [Piece.written, more]
  | @opened c run mark inside =>
    obtain ⟨fuel, rfl⟩ := Nat.exists_eq_succ_of_ne_zero (show fuel ≠ 0 by omega)
    have dropped : run.dropWhile (· != c) = [] := by
      obtain ⟨_, ended⟩ | ⟨before, after, rfl, _⟩ := split_mark c run
      · exact ended
      · simp at inside
    rw [readFrom, if_pos mark.symm, dropped]
    simp [Piece.written]
  | @token c letter run rest pieces unmarked known longest later ih =>
    obtain ⟨fuel, rfl⟩ := Nat.exists_eq_succ_of_ne_zero (show fuel ≠ 0 by omega)
    have taken := matchToken?_of_longest (List.prefix_append _ rest) known longest
    have plain := narrow (c :: run) letter List.mem_cons_self
    have size : (String.ofList ((c :: run).map p.shown)).utf8ByteSize = (c :: run).length := by
      rw [utf8ByteSize_ofList (regular.token known).2.1, List.length_map]
    have more := ih (fun run letter member => narrow run letter (List.mem_cons_of_mem _ member))
      (show rest.length < fuel by simp at enough; omega)
    rw [List.cons_append] at taken ⊢
    rw [readFrom, if_neg (Ne.symm unmarked), taken]
    dsimp only
    rw [size, ← List.cons_append, dropCut_append plain, more]
    simp [Piece.written]
  | @single c rest pieces unmarked unknown later ih =>
    obtain ⟨fuel, rfl⟩ := Nat.exists_eq_succ_of_ne_zero (show fuel ≠ 0 by omega)
    have missed : p.matchToken? p.tokens (c :: rest) = none := by
      refine Option.eq_none_iff_forall_ne_some.mpr fun ⟨token, directive⟩ found => ?_
      obtain ⟨run, left, split, _, known, _⟩ := matchToken?_some found
      rw [unknown run ⟨left, split.symm⟩] at known
      cases known
    have more := ih (fun run letter member => narrow run letter (List.mem_cons_of_mem _ member))
      (show rest.length < fuel by simp at enough; omega)
    rw [readFrom, if_neg (Ne.symm unmarked), missed, more]
    simp [Piece.written]

/-- A text has no more characters than bytes. -/
theorem length_le_utf8ByteSize (format : String) : format.toList.length ≤ format.utf8ByteSize := by
  have bytes (cs : List Char) : cs.length ≤ (String.ofList cs).utf8ByteSize := by
    induction cs with
    | nil => exact Nat.zero_le _
    | cons c cs ih =>
      have split : String.ofList (c :: cs) = String.singleton c ++ String.ofList cs := by
        rw [← String.toList_inj]
        simp
      have some : 0 < c.utf8Size := c.utf8Size_pos
      rw [split, String.utf8ByteSize_append, String.utf8ByteSize_singleton, List.length_cons]
      omega
  have enough := bytes format.toList
  rwa [String.ofList_toList] at enough

theorem toCanonical_splits (regular : p.Regular) {format : String} (splits : Splits p format.toList pieces)
    (narrow : Narrow pieces) : (p.toCanonical format).toList = pieces.flatMap Piece.written := by
  have enough := length_le_utf8ByteSize format
  rw [toCanonical, if_neg (by simp [regular.nonempty]), String.toList_ofList]
  exact readFrom_splits regular splits narrow (Nat.lt_succ_of_le enough)

/-! ### Percent signs -/

/-- The percent signs that stand in quotes. -/
def Piece.percents : Piece → Nat
  | .quoted run => run.count '%'
  | _ => 0

/-- A percent sign takes two characters in a neutral pattern. -/
private theorem length_plain (run : List Char) :
    ((run.map Sign.plain).flatMap Sign.text).length = run.length + run.count '%' := by
  induction run with
  | nil => rfl
  | cons c run ih =>
    rw [List.map_cons, List.flatMap_cons, List.length_append, ih, List.length_cons]
    by_cases percent : c = '%'
    · rw [percent, List.count_cons_self, Sign.text, if_pos rfl, List.length_cons, List.length_singleton]
      omega
    · rw [List.count_cons_of_ne percent, Sign.text, if_neg percent, List.length_singleton]
      omega

private theorem text_plain {run : List Char} (free : '%' ∉ run) : (run.map Sign.plain).flatMap Sign.text = run := by
  induction run with
  | nil => rfl
  | cons c run ih =>
    rw [List.mem_cons, not_or] at free
    rw [List.map_cons, List.flatMap_cons, ih free.2, Sign.text, if_neg (Ne.symm free.1), List.singleton_append]

/-- What is written for a part falls short of its meaning by the percent signs in quotes. -/
theorem Piece.length_signs (piece : Piece) :
    (piece.signs.flatMap Sign.text).length = piece.written.length + piece.percents := by
  cases piece with
  | quoted run => exact length_plain run
  | token run letter => rfl
  | single c => rw [signs, List.flatMap_singleton]; rfl

theorem Piece.text_signs (piece : Piece) (free : ∀ run, piece = .quoted run → '%' ∉ run) :
    piece.signs.flatMap Sign.text = piece.written := by
  cases piece with
  | quoted run => exact text_plain (free run rfl)
  | token run letter => rfl
  | single c => rw [signs, List.flatMap_singleton]; rfl

/-- What is written means the parts exactly if no percent sign stands in quotes. -/
theorem signs?_written_iff (lettered : ∀ run, .token run '%' ∉ pieces) :
    signs? (pieces.flatMap Piece.written) = some (pieces.flatMap Piece.signs) ↔
    ∀ run, .quoted run ∈ pieces → '%' ∉ run := by
  constructor
  · intro read run member
    -- The text of the meaning is longer than what is written by every percent sign in quotes.
    have lengths (pieces : List Piece) : ((pieces.flatMap Piece.signs).flatMap Sign.text).length =
        (pieces.flatMap Piece.written).length + (pieces.map Piece.percents).sum := by
      induction pieces with
      | nil => rfl
      | cons piece pieces ih =>
        simp only [List.flatMap_cons, List.flatMap_append, List.length_append, ih, piece.length_signs, List.map_cons,
          List.sum_cons]
        omega
    have total := lengths pieces
    rw [text_of_signs? read] at total
    have none : (Piece.quoted run).percents = 0 :=
      List.sum_eq_zero_iff_forall_eq_nat.mp (Nat.left_eq_add.mp total) _ (List.mem_map_of_mem member)
    exact List.count_eq_zero.mp none
  · intro free
    have same : pieces.flatMap Piece.written = (pieces.flatMap Piece.signs).flatMap Sign.text := by
      rw [List.flatMap_assoc]
      exact List.flatMap_congr fun piece member => (piece.text_signs fun run equal => free run (equal ▸ member)).symm
    rw [same]
    refine signs?_text fun member => ?_
    obtain ⟨piece, listed, sign⟩ := List.mem_flatMap.mp member
    cases piece with
    | quoted run => simp [Piece.signs] at sign
    | token run letter =>
      simp only [Piece.signs, List.mem_singleton, Sign.directive.injEq] at sign
      exact lettered run (sign ▸ listed)
    | single c => simp [Piece.signs] at sign

/-- The letters of directives are no percent signs. -/
theorem Splits.lettered (regular : p.Regular) (splits : Splits p cs pieces) (run : List Char) :
    .token run '%' ∉ pieces := by
  induction splits with
  | nil => exact List.not_mem_nil
  | closed _ _ _ ih | single _ _ _ ih => simpa using ih
  | opened => simp
  | token _ known _ _ ih =>
    obtain ⟨_, _, other, plain, directive⟩ := regular.token known
    have letters := congrArg String.toList directive
    simp only [String.toList_ofList, List.cons.injEq, and_true, true_and] at letters
    intro member
    obtain equal | later := List.mem_cons.mp member
    · cases equal
      exact plain letters.symm
    · exact ih later

/-! ### The four languages -/

theorem regular_of_mem (known : p ∈ [java, postgres, oracle, teradata]) : p.Regular := by
  have checked : ∀ p ∈ [java, postgres, oracle, teradata], p.pairs.isEmpty = false ∧ ∀ pair ∈ p.pairs,
      (!pair.1.toList.isEmpty && pair.1.toList.all fun c => (p.shown c).utf8Size == 1) = true ∧
      (pair.2.toList.any fun letter => letter != '%' && pair.2 == String.ofList ['%', letter]) = true := by
    decide +kernel
  obtain ⟨nonempty, entries⟩ := checked p known
  exact ⟨nonempty, fun pair member => by simpa using (entries pair member).1, fun pair member => by
    simpa using (entries pair member).2⟩

/-- Every pattern of the four languages has its parts. If its tokens are spelled with characters of one byte, the
neutral pattern that is made of it means these parts exactly if no percent sign stands in quotes. -/
theorem neutral_pattern_faithful_iff {p : DatePattern} (known : p ∈ [java, postgres, oracle, teradata])
    (format : String) : (∃ pieces, Splits p format.toList pieces) ∧
      ∀ pieces, Splits p format.toList pieces → Narrow pieces →
        (signs? (p.toCanonical format).toList = some (pieces.flatMap Piece.signs) ↔
          ∀ run, .quoted run ∈ pieces → '%' ∉ run) := by
  have regular := regular_of_mem known
  refine ⟨exists_splits regular format.toList, ?_⟩
  intro pieces splits narrow
  rw [toCanonical_splits regular splits narrow]
  exact signs?_written_iff (splits.lettered regular)

theorem forall_front {holds : List Char → Prop} (checked : ∀ n ∈ List.range (cs.length + 1), holds (cs.take n)) :
    ∀ run, run <+: cs → holds run := by
  intro run inFront
  rw [List.prefix_iff_eq_take.mp inFront]
  exact checked _ (List.mem_range.mpr (Nat.lt_succ_of_le inFront.length_le))

/-- A year, a quoted letter and an hour. -/
theorem quoted_letter_kept : java ∈ [java, postgres, oracle, teradata] ∧
    Splits java "yyyy'T'HH".toList [.token "yyyy".toList 'Y', .quoted ['T'], .token "HH".toList 'H'] ∧
    Narrow [.token "yyyy".toList 'Y', .quoted ['T'], .token "HH".toList 'H'] ∧
    signs? (java.toCanonical "yyyy'T'HH").toList = some [.directive 'Y', .plain 'T', .directive 'H'] := by
  have hour : Splits java "HH".toList [.token "HH".toList 'H'] := by
    have longest : ∀ longer, longer <+: "HH".toList → 2 < longer.length → java.directive? longer = none :=
      forall_front (by decide +kernel)
    exact @Splits.token java 'H' 'H' ['H'] [] [] (by decide) (by decide +kernel) longest .nil
  have quoted : Splits java "'T'HH".toList [.quoted ['T'], .token "HH".toList 'H'] :=
    @Splits.closed java '\x27' ['T'] "HH".toList _ rfl (by decide) hour
  have splits : Splits java "yyyy'T'HH".toList [.token "yyyy".toList 'Y', .quoted ['T'], .token "HH".toList 'H'] := by
    have longest : ∀ longer, longer <+: "yyyy'T'HH".toList → 4 < longer.length → java.directive? longer = none :=
      forall_front (by decide +kernel)
    exact @Splits.token java 'y' 'Y' "yyy".toList "'T'HH".toList _ (by decide) (by decide +kernel) longest quoted
  have narrow : Narrow [.token "yyyy".toList 'Y', .quoted ['T'], .token "HH".toList 'H'] := by
    intro run letter member
    simp only [List.mem_cons, Piece.token.injEq, reduceCtorEq, List.not_mem_nil, or_false, false_or] at member
    obtain ⟨rfl, _⟩ | ⟨rfl, _⟩ := member <;> exact forall_of_all (by decide)
  have free : ∀ run, Piece.quoted run ∈ [.token "yyyy".toList 'Y', .quoted ['T'],
    .token "HH".toList 'H'] → '%' ∉ run := by
    simp
  exact ⟨by simp, splits, narrow, ((neutral_pattern_faithful_iff (by simp) "yyyy'T'HH").2 _ splits narrow).mpr free⟩

/-- A quoted percent sign becomes that of a directive, and a token with a wide letter leaves a part of that letter. -/
theorem patterns_misread :
    (Splits postgres "\x22%Y\x22 YYYY".toList [.quoted ['%', 'Y'], .single ' ', .token "YYYY".toList 'Y'] ∧
      signs? (postgres.toCanonical "\x22%Y\x22 YYYY").toList = some [.directive 'Y', .plain ' ', .directive 'Y']) ∧
    Splits oracle "mı".toList [.token "mı".toList 'i'] ∧
      signs? (oracle.toCanonical "mı").toList = some [.directive 'i', .plain '\ufffd'] := by
  have year : Splits postgres "YYYY".toList [.token "YYYY".toList 'Y'] := by
    have longest : ∀ longer, longer <+: "YYYY".toList → 4 < longer.length → postgres.directive? longer = none :=
      forall_front (by decide +kernel)
    exact @Splits.token postgres 'Y' 'Y' "YYY".toList [] [] (by decide) (by decide +kernel) longest .nil
  have spaced : Splits postgres " YYYY".toList [.single ' ', .token "YYYY".toList 'Y'] := by
    have unknown : ∀ run, run <+: " YYYY".toList → postgres.directive? run = none := forall_front (by decide +kernel)
    exact .single (by decide) unknown year
  have quoted : Splits postgres "\x22%Y\x22 YYYY".toList [.quoted ['%', 'Y'], .single ' ', .token "YYYY".toList 'Y'] :=
    @Splits.closed postgres '\x22' ['%', 'Y'] " YYYY".toList _ rfl (by decide) spaced
  have narrow : Narrow [.quoted ['%', 'Y'], .single ' ', .token "YYYY".toList 'Y'] := by
    intro run letter member
    simp only [List.mem_cons, Piece.token.injEq, reduceCtorEq, List.not_mem_nil, or_false, false_or] at member
    obtain ⟨rfl, _⟩ := member
    exact forall_of_all (by decide)
  have longest : ∀ longer, longer <+: "mı".toList → 2 < longer.length → oracle.directive? longer = none :=
    forall_front (by decide +kernel)
  have minutes : Splits oracle "mı".toList [.token "mı".toList 'i'] :=
    @Splits.token oracle 'm' 'i' ['ı'] [] [] (by decide) (by decide +kernel) longest .nil
  have taken := matchToken?_of_longest (List.prefix_refl "mı".toList)
    (show oracle.directive? "mı".toList = some "%i" by decide +kernel) longest
  have left : oracle.matchToken? oracle.tokens ['\ufffd'] = none := by
    refine Option.eq_none_iff_forall_ne_some.mpr fun ⟨token, directive⟩ found => ?_
    obtain ⟨run, rest, split, _, known, _⟩ := matchToken?_some found
    have unknown : ∀ run, run <+: ['\ufffd'] → oracle.directive? run = none := forall_front (by decide +kernel)
    rw [unknown run ⟨rest, split.symm⟩] at known
    cases known
  have cut : (oracle.toCanonical "mı").toList = ['%', 'i', '\ufffd'] := by
    -- The reader takes the two bytes of the token; the wide letter has one byte more than the token has for it.
    have bytes : (String.ofList ("mı".toList.map oracle.shown)).utf8ByteSize = 2 := by decide +kernel
    have rest : dropCut 2 ['m', 'ı'] = ['\ufffd'] := by decide
    rw [toCanonical, if_neg (by decide), String.toList_ofList]
    change oracle.readFrom oracle.tokens 4 ['m', 'ı'] = _
    change oracle.matchToken? oracle.tokens ['m', 'ı'] = _ at taken
    rw [readFrom, if_neg (by decide), taken]
    dsimp only
    rw [bytes, rest, readFrom, if_neg (by decide), left]
    rfl
  refine ⟨⟨quoted, ?_⟩, minutes, ?_⟩
  · rw [toCanonical_splits (regular_of_mem (by simp)) quoted narrow]
    decide
  · rw [cut]
    decide

end SqlDialects.DatePattern
