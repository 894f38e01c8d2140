import Mathlib.Logic.Relation
import SqlDialects.Proofs.Enclosed
import SqlDialects.Proofs.ValueTree

/-! What stands behind a clause of a query. Only few tokens do: the end, a comma, a closing parenthesis, a semicolon
and the words of other clauses. None of them goes on with a value or can name a table, so a clause is read up to the
one behind it. -/

namespace SqlDialects

open Token SqlDialects.Parser

/-- Words that are written into a query or behind the type of a column. -/
def queryWords : List String := [
  "SELECT", "DISTINCT", "FROM", "WHERE", "GROUP", "BY", "HAVING", "ORDER", "LIMIT", "OFFSET", "FETCH", "FIRST", "LAST",
  "ROWS", "ONLY", "NULLS", "DESC", "AS", "ON", "USING", "JOIN", "LEFT", "RIGHT", "FULL", "CROSS", "SEMI", "ANTI",
  "UNION", "INTERSECT", "EXCEPT", "ALL", "FINAL", "AUTO_INCREMENT", "DEFAULT", "PRIMARY", "KEY", "UNIQUE", "COMMENT"]

/-- What a dialect that reads queries back has beyond the operators: none of these words stands between operands, and no
table is named like the words that start a query. -/
structure Dialect.ReadsQueries (d : Dialect) : Prop where
  regular : d.Regular
  quotes : d.QuotesNames
  apart : ∀ w ∈ queryWords, d.infixOps.find? w = none
  starts : ∀ w ∈ ["SELECT", "WITH"], d.isReserved w = true

/-- A token that can stand behind a clause. -/
inductive Head
  | finish
  | mark (text : String)
  | word (text : String)
deriving DecidableEq

def Head.token (lexicon : Lexicon) : Head → Token
  | .finish => Token.finish
  | .mark text => punctuation text
  | .word text => Token.word lexicon text

/-- All of them. -/
def allHeads : List Head := .finish :: .mark "," :: .mark ")" :: .mark ";" :: queryWords.map Head.word

/-- The tokens begin with one of the heads. -/
def Follows (lexicon : Lexicon) (heads : List Head) (ts : List Token) : Prop :=
  ∃ head ∈ heads, head ∈ allHeads ∧ ∃ rest, ts = head.token lexicon :: rest

variable {d : Dialect} {lexicon : Lexicon} {heads more : List Head} {ts us : List Token} {c : Cursor}

theorem upper_queryWord : ∀ w ∈ queryWords, Text.upper w = w := by
  intro w member
  apply Text.upper_eq
  revert w
  decide

theorem spells_letters (regular : lexicon.Regular) {w : String}
    (shape : w.toList.head?.any isIdentStart ∧ w.toList.tail.all isIdentChar) :
    Spells lexicon w.toList [word lexicon w] := by
  obtain ⟨starts, all⟩ := shape
  cases letters : w.toList with
  | nil => simp [letters] at starts
  | cons c cs =>
    rw [← letters]
    exact spells_word regular letters (by simpa [letters] using starts) (by simpa [letters] using all)

theorem spells_queryWord (regular : lexicon.Regular) {w : String} (known : w ∈ queryWords) :
    Spells lexicon w.toList [word lexicon w] := by
  have shapes : ∀ w ∈ queryWords, w.toList.head?.any isIdentStart ∧ w.toList.tail.all isIdentChar := by decide
  exact spells_letters regular (shapes w known)

/-! ### Heads -/

theorem Head.cases_of_mem {head : Head} (known : head ∈ allHeads) :
    head = .finish ∨ (∃ mark ∈ [",", ")", ";"], head = .mark mark) ∨ ∃ w ∈ queryWords, head = .word w := by
  simp only [allHeads, List.mem_cons, List.mem_map] at known
  obtain rfl | rfl | rfl | rfl | ⟨w, member, rfl⟩ := known
  · exact .inl rfl
  · exact .inr (.inl ⟨",", by decide, rfl⟩)
  · exact .inr (.inl ⟨")", by decide, rfl⟩)
  · exact .inr (.inl ⟨";", by decide, rfl⟩)
  · exact .inr (.inr ⟨w, member, rfl⟩)

theorem Head.is_token {head : Head} (known : head ∈ allHeads) (w : String) :
    (head.token lexicon).is w = decide (head = .word w) := by
  obtain rfl | ⟨mark, _, rfl⟩ | ⟨own, member, rfl⟩ := Head.cases_of_mem known
  · simp [Head.token, Token.is, Token.finish, isWord]
  · simp [Head.token, Token.is, punctuation, isWord]
  · rw [Head.token, is_word, upper_queryWord own member, Bool.beq_eq_decide_eq]
    simp

theorem Head.isOp_token {head : Head} (known : head ∈ allHeads) (op : String) :
    (head.token lexicon).isOp op = decide (head = .mark op) := by
  obtain rfl | ⟨mark, _, rfl⟩ | ⟨own, _, rfl⟩ := Head.cases_of_mem known
  · simp [Head.token, isOp, Token.finish]
  · simp [Head.token, isOp, punctuation, Bool.beq_eq_decide_eq]
  · rw [Head.token, isOp_word]
    simp

theorem Head.kind_token (lexicon : Lexicon) {head : Head} (known : head ∈ allHeads) :
    (head.token lexicon).kind ∉ [TokenKind.number, .string, .operator, .quotedWord] := by
  obtain rfl | ⟨mark, _, rfl⟩ | ⟨own, _, rfl⟩ := Head.cases_of_mem known
  · simp [Head.token, Token.finish]
  · simp [Head.token, punctuation]
  · rw [Head.token, Token.word]
    dsimp only
    split <;> decide

theorem Follows.mono (follows : Follows lexicon heads ts) (within : ∀ head ∈ heads, head ∈ more) :
    Follows lexicon more ts := by
  obtain ⟨head, member, rest⟩ := follows
  exact ⟨head, within head member, rest⟩

theorem Follows.nonempty (follows : Follows lexicon heads ts) : ts ≠ [] := by
  obtain ⟨head, _, _, rest, rfl⟩ := follows
  exact List.cons_ne_nil _ rest

theorem Follows.append (follows : Follows lexicon heads ts) (us : List Token) : Follows lexicon heads (ts ++ us) := by
  obtain ⟨head, member, known, rest, rfl⟩ := follows
  exact ⟨head, member, known, rest ++ us, rfl⟩

theorem Follows.is (follows : Follows lexicon heads ts) (shown : c.Shows ts) {w : String} (absent : .word w ∉ heads) :
    c.current.is w = false := by
  obtain ⟨head, member, known, rest, rfl⟩ := follows
  rw [← is_bare, shown.current, Head.is_token known, decide_eq_false_iff_not]
  rintro rfl
  exact absent member

theorem Follows.any_is (follows : Follows lexicon heads ts) (shown : c.Shows ts) {words : List String}
    (absent : ∀ w ∈ words, .word w ∉ heads) : words.any c.current.is = false := by
  rw [List.any_eq_false]
  intro w member
  rw [follows.is shown (absent w member)]
  decide

theorem Follows.isOp (follows : Follows lexicon heads ts) (shown : c.Shows ts)
    {op : String} (absent : .mark op ∉ heads) :
    c.current.isOp op = false := by
  obtain ⟨head, member, known, rest, rfl⟩ := follows
  rw [← isOp_bare, shown.current, Head.isOp_token known, decide_eq_false_iff_not]
  rintro rfl
  exact absent member

theorem Follows.startsLabel (follows : Follows lexicon heads ts) (shown : c.Shows ts)
    (clauses : ∀ w ∈ queryWords, .word w ∈ heads → w ∈ clauseWords) : startsLabel lexicon c.current = false := by
  obtain ⟨head, member, known, rest, rfl⟩ := follows
  have current : c.current.bare = head.token lexicon := shown.current
  have quoted : c.current.isQuoted = false := by
    have kind := Head.kind_token lexicon known
    rw [← current, kind_bare] at kind
    simpa [isQuoted] using fun equal => kind (by simp [equal])
  obtain rfl | ⟨mark, _, rfl⟩ | ⟨w, listed, rfl⟩ := Head.cases_of_mem known
  · have noWord : c.current.isWord = false := by rw [← isWord_bare, current]; rfl
    simp [Parser.startsLabel, quoted, noWord]
  · have noWord : c.current.isWord = false := by rw [← isWord_bare, current]; rfl
    simp [Parser.startsLabel, quoted, noWord]
  · have upper : c.current.upper = w := by
      rw [← upper_bare, current, Head.token, upper_word, upper_queryWord w listed]
    simp [Parser.startsLabel, quoted, upper, clauses w listed member]

theorem Follows.continues (follows : Follows d.toLexicon heads ts) : Continues d ts := by
  obtain ⟨head, _, known, rest, rfl⟩ := follows
  have kind := Head.kind_token d.toLexicon known
  refine ⟨_, rest, rfl, fun number => kind (by simp [number]), fun string => kind (by simp [string]), ?_, ?_⟩
  · have absent : ∀ op ∈ [".", "(", "["], Head.mark op ∉ allHeads := by decide
    intro op member
    rw [Head.isOp_token known, decide_eq_false_iff_not]
    rintro rfl
    exact absent op member known
  · rw [Head.isOp_token known, decide_eq_false (by rintro rfl; exact absurd known (by decide)), Bool.and_false]

/-- Nothing behind a clause binds. -/
theorem Follows.tailPrec (ready : d.ReadsQueries) (follows : Follows d.toLexicon heads ts) :
    tailPrec d ts = Prec.lowest := by
  obtain ⟨head, _, known, rest, rfl⟩ := follows
  have noOp (op : String) (absent : .mark op ∉ allHeads) : (head.token d.toLexicon).isOp op = false := by
    rw [Head.isOp_token known, decide_eq_false_iff_not]
    rintro rfl
    exact absent known
  have no (w : String) (absent : .word w ∉ allHeads) : (head.token d.toLexicon).is w = false := by
    rw [Head.is_token known, decide_eq_false_iff_not]
    rintro rfl
    exact absent known
  have noInfix : infixOp? d (head.token d.toLexicon) = none := by
    have kind := Head.kind_token d.toLexicon known
    rw [infixOp?, if_neg fun operator => kind (by simp [operator])]
    obtain rfl | ⟨mark, _, rfl⟩ | ⟨w, listed, rfl⟩ := Head.cases_of_mem known
    · rfl
    · rfl
    · rw [Head.token, if_pos (isWord_word ..), upper_word, upper_queryWord w listed]
      exact ready.apart w listed
  simp [Parser.tailPrec, infixPrecedence, noOp "[" (by decide), noOp "::" (by decide), no "NOT" (by decide),
    no "IS" (by decide), no "IN" (by decide), no "BETWEEN" (by decide), no "GLOBAL" (by decide), noInfix]

/-! ### Texts of clauses -/

/-- Nothing, or a blank and a text that spells the tokens. -/
def SpellsTail (lexicon : Lexicon) (cs : List Char) (ts : List Token) : Prop :=
  cs = [] ∧ ts = [] ∨ ∃ rest, cs = ' ' :: rest ∧ Spells lexicon rest ts

theorem Token.Spells.clauses (regular : lexicon.Regular) {front back : List Char} (first : Spells lexicon front ts)
    (last : SpellsTail lexicon back us) : Spells lexicon (front ++ back) (ts ++ us) := by
  obtain ⟨rfl, rfl⟩ | ⟨rest, rfl, spelled⟩ := last
  · simpa using first
  · exact first.spaced regular spelled

theorem SpellsTail.append (regular : lexicon.Regular) {front back : List Char} (first : SpellsTail lexicon front ts)
    (last : SpellsTail lexicon back us) : SpellsTail lexicon (front ++ back) (ts ++ us) := by
  obtain ⟨rfl, rfl⟩ | ⟨rest, rfl, spelled⟩ := first
  · simpa using last
  · exact .inr ⟨rest ++ back, rfl, spelled.clauses regular last⟩

theorem spellsTail_nil : SpellsTail lexicon [] [] := .inl ⟨rfl, rfl⟩

/-- Words with a blank in front of each. -/
def wordsText : List String → List Char
  | [] => []
  | w :: ws => ' ' :: (w.toList ++ wordsText ws)

theorem spellsTail_words (regular : lexicon.Regular) {ws : List String} (known : ∀ w ∈ ws, w ∈ queryWords) :
    SpellsTail lexicon (wordsText ws) (ws.map (word lexicon)) := by
  induction ws with
  | nil => exact spellsTail_nil
  | cons w ws ih =>
    obtain ⟨own, others⟩ := List.forall_mem_cons.mp known
    exact .inr ⟨_, rfl, (spells_queryWord regular own).clauses regular (ih others)⟩

/-- A word and a text behind it. -/
theorem spellsTail_word (regular : lexicon.Regular) {w : String} (known : w ∈ queryWords) {cs : List Char}
    (spelled : Spells lexicon cs ts) : SpellsTail lexicon (' ' :: (w.toList ++ ' ' :: cs)) (word lexicon w :: ts) :=
  .inr ⟨_, rfl, (spells_queryWord regular known).spaced regular spelled⟩

/-! ### Reading in front of a head -/

namespace Parser

variable {α β : Type}

theorem bind_ok {p : Parser α} {f : α → Parser β} {m : Cursor} {a : α} {r : Except Error (β × Cursor)}
    (first : p c = .ok (a, m)) (second : f a m = r) : (p >>= f) c = r := by
  rw [bind_apply, first, ok_bind, second]

/-- The two branches of a clause go on in the same way. -/
theorem branch_ok {p q : Parser α} {f : α → Parser β} {m : Cursor} {a : α} {found : Bool}
    {r : Except Error (β × Cursor)}
    (first : (if found = true then p else q) c = .ok (a, m)) (second : f a m = r) :
    (if found = true then p >>= f else q >>= f) c = r := by
  cases found <;> exact bind_ok first second

/-- A round of a loop that goes on. -/
def NextRound (step : α → Parser (Option α)) (x y : α × Cursor) : Prop :=
  step x.1 x.2 = .ok (some y.1, y.2) ∧ y.2.rest.length < x.2.rest.length

/-- The rounds of a loop lead from one state to the other. -/
def Repeats (step : α → Parser (Option α)) (a : α) (c : Cursor) (b : α) (m : Cursor) : Prop :=
  Relation.ReflTransGen (NextRound step) (a, c) (b, m)

theorem Repeats.refl (step : α → Parser (Option α)) (a : α) (c : Cursor) :
    Repeats step a c a c := Relation.ReflTransGen.refl

theorem Repeats.snoc {step : α → Parser (Option α)} {a b e : α} {m last : Cursor} (repeats : Repeats step a c b m)
    (stepped : step b m = .ok (some e, last)) (shorter : last.rest.length < m.rest.length) : Repeats step a c e last :=
  Relation.ReflTransGen.tail repeats ⟨stepped, shorter⟩

theorem Repeats.trans {step : α → Parser (Option α)} {a b e : α} {m last : Cursor} (first : Repeats step a c b m)
    (second : Repeats step b m e last) : Repeats step a c e last := Relation.ReflTransGen.trans first second

/-- Every round takes a token, so the rounds are fewer than the tokens. -/
private theorem iterate_rounds {step : α → Parser (Option α)} {x y : α × Cursor}
    (rounds : Relation.ReflTransGen (NextRound step) x y) :
    ∃ n, n + y.2.bound ≤ x.2.bound ∧ ∀ fuel, iterate (fuel + n) step x.1 x.2 = iterate fuel step y.1 y.2 := by
  induction rounds with
  | refl => exact ⟨0, by omega, fun fuel => rfl⟩
  | @tail y z _ round ih =>
    obtain ⟨stepped, shorter⟩ := round
    obtain ⟨n, bounded, same⟩ := ih
    refine ⟨n + 1, ?_, fun fuel => ?_⟩
    · simp only [Cursor.bound] at bounded ⊢
      omega
    · rw [show fuel + (n + 1) = (fuel + 1) + n by omega, same, iterate_some stepped shorter]

/-- A loop runs to the state at which it ends. -/
theorem Repeats.loop {step : α → Parser (Option α)} {a b : α} {m last : Cursor} (repeats : Repeats step a c b m)
    (stops : step b m = .ok (none, last)) : loop step a c = .ok (b, last) := by
  obtain ⟨n, bounded, same⟩ := iterate_rounds repeats
  dsimp only at bounded same
  have enough : c.bound + 1 = (c.bound - n) + 1 + n := by omega
  rw [loop_apply, enough, same, iterate_none stops]

/-- The parser takes the tokens in front of any of the heads, and what it makes of them is as wanted. Its grammar is
deeper than there are tokens. -/
def Parses (d : Dialect) (p : Grammar → Parser α) (heads : List Head) (wanted : α → Prop) (ts : List Token) : Prop :=
  ∀ (depth : Nat) (c : Cursor) (tail : List Token), ts.length < depth → Follows d.toLexicon heads tail →
    c.Shows (ts ++ tail) → ∃ a next, p (grammar d depth) c = .ok (a, next) ∧ next.Shows tail ∧ wanted a

theorem Parses.mono {p : Grammar → Parser α} {wanted : α → Prop} (parses : Parses d p more wanted ts)
    (within : ∀ head ∈ heads, head ∈ more) : Parses d p heads wanted ts :=
  fun depth c tail enough follows shown => parses depth c tail enough (follows.mono within) shown

theorem accept_word {w : String} (known : w ∈ queryWords) (words : List String) (listed : w ∈ words)
    (shown : c.Shows (word d.toLexicon w :: ts)) : acceptAny words c = .ok (true, c.advance) := by
  have taken : words.any c.current.is = true := by
    rw [List.any_eq_true]
    refine ⟨w, listed, ?_⟩
    rw [← is_bare, shown.current, is_word, upper_queryWord w known, beq_self_eq_true]
  rw [acceptAny_apply, taken, if_pos rfl]

theorem accept_none {words : List String} (absent : words.any c.current.is = false) :
    acceptAny words c = .ok (false, c) := by
  rw [acceptAny_apply, absent]
  rfl

theorem expect_word {w : String} (known : w ∈ queryWords) (shown : c.Shows (word d.toLexicon w :: ts)) :
    expect w c = .ok ((), c.advance) := by
  have taken : c.current.is w = true := by
    rw [← is_bare, shown.current, is_word, upper_queryWord w known, beq_self_eq_true]
  rw [expect_apply, taken, if_pos rfl]

theorem expectOp_mark {mark : String} (shown : c.Shows (punctuation mark :: ts)) :
    expectOp mark c = .ok ((), c.advance) := by
  have taken : c.current.isOp mark = true := by
    rw [← isOp_bare, shown.current]
    simp [Token.isOp, punctuation]
  rw [expectOp_apply, taken, if_pos rfl]

end Parser

/-! A sequence of words is taken as a whole. -/

theorem acceptSeq_none {w : String} {words : List String} (absent : c.current.is w = false) :
    acceptSeq (w :: words) c = .ok (false, c) := by
  have other : startsWith c (w :: words) = false := by simp [startsWith, Cursor.ahead, absent]
  rw [acceptSeq, bind_apply, get_apply, ok_bind, other]
  rfl

theorem acceptSeq_pair (first second : String) : acceptSeq [first, second] c =
    .ok (if c.current.is first && c.peek.is second then (true, c.advance.advance) else (false, c)) := by
  have both : startsWith c [first, second] = (c.current.is first && c.peek.is second) := by
    simp [startsWith, Cursor.ahead, Cursor.peek]
  rw [acceptSeq, bind_apply, get_apply, ok_bind, both]
  split <;> rfl

theorem acceptSeq_triple (first second third : String) : acceptSeq [first, second, third] c =
    .ok (if c.current.is first && (c.peek.is second && (c.ahead 2).is third) then (true, c.advance.advance.advance)
      else (false, c)) := by
  have all : startsWith c [first, second, third] = (c.current.is first &&
    (c.peek.is second && (c.ahead 2).is third)) := by
    simp [startsWith, Cursor.ahead, Cursor.peek]
  rw [acceptSeq, bind_apply, get_apply, ok_bind, all]
  split <;> rfl

theorem Written.parses (ready : d.ReadsQueries) {shown read : Expr} {text : String}
    (written : Written d shown read text ts) :
    Parses d Grammar.value allHeads (fun e => e.bare = read.bare) ts := by
  intro depth c tail enough follows shown
  obtain ⟨depth, rfl⟩ := Nat.exists_eq_succ_of_ne_zero (show depth ≠ 0 by omega)
  have ends := Nat.le_of_eq (follows.tailPrec ready)
  exact written.whole.ends depth (by omega) (by decide) follows.continues ends ends shown

/-! ### Lists -/

/-- Members with their texts, and their tokens with commas between them. -/
inductive Series {α : Type} (W : α → String → List Token → Prop) : List α → List String → List Token → Prop
  | single {a : α} {text : String} {ts : List Token} (own : W a text ts) : Series W [a] [text] ts
  | cons {a : α} {as : List α} {text : String} {texts : List String} {ts us : List Token} (own : W a text ts)
    (rest : Series W as texts us) : Series W (a :: as) (text :: texts) (ts ++ punctuation "," :: us)

section Series

variable {α : Type} {W : α → String → List Token → Prop} {as : List α} {texts : List String}

theorem exists_series (nonempty : as ≠ []) (each : ∀ a ∈ as, ∃ text ts, W a text ts) :
    ∃ texts ts, Series W as texts ts := by
  induction as with
  | nil => exact absurd rfl nonempty
  | cons a as ih =>
    obtain ⟨text, ts, own⟩ := each a List.mem_cons_self
    cases as with
    | nil => exact ⟨_, _, .single own⟩
    | cons b as =>
      obtain ⟨texts, us, rest⟩ := ih (List.cons_ne_nil b as) fun other member =>
        each other (List.mem_cons_of_mem a member)
      exact ⟨_, _, .cons own rest⟩

theorem Series.texts_ne_nil (series : Series W as texts ts) : texts ≠ [] := by
  cases series <;> simp

theorem Series.length_le (series : Series W as texts ts) : as.length ≤ ts.length + 1 := by
  induction series with
  | single => simp
  | cons _ _ ih =>
    simp only [List.length_cons, List.length_append] at ih ⊢
    omega

theorem Series.spelled (regular : lexicon.Regular) (each : ∀ a text ts, W a text ts → Spells lexicon text.toList ts)
    (series : Series W as texts ts) : Spells lexicon (Printer.commas texts).toList ts := by
  induction series with
  | single own => simpa [Printer.commas] using each _ _ _ own
  | cons own rest ih =>
    obtain ⟨next, others, rfl⟩ := List.exists_cons_of_ne_nil rest.texts_ne_nil
    simpa [Printer.commas, String.intercalate_cons_cons] using (each _ _ _ own).comma regular ih

/-- A list is read up to a head that is no comma. The first member is read by itself, and every further one by a round
of the loop. -/
private theorem Series.run {item : Grammar → Parser α} {same : α → α → Prop}
    (each : ∀ a text ts, W a text ts → Parses d item (.mark "," :: heads) (same · a) ts) (noComma : .mark "," ∉ heads)
    (series : Series W as texts ts) {depth : Nat} {tail : List Token} (enough : ts.length < depth)
    (follows : Follows d.toLexicon heads tail) (shown : c.Shows (ts ++ tail)) :
    ∃ first middle, item (grammar d depth) c = .ok (first, middle) ∧ middle.bound ≤ c.bound ∧
    as.length ≤ middle.bound + 1 ∧
      ∀ fuel seen, as.length ≤ fuel → ∃ list next,
        iterate fuel (commaStep (item (grammar d depth))) (first :: seen) middle =
        .ok (list.reverse ++ first :: seen, next) ∧
          next.Shows tail ∧ List.Forall₂ same (first :: list) as := by
  induction series generalizing c with
  | single own =>
    obtain ⟨first, middle, done, left, equal⟩ :=
      each _ _ _ own depth c tail enough (follows.mono fun head => List.mem_cons_of_mem _) shown
    have fewer : middle.bound ≤ c.bound := by
      rw [left.bound_eq, shown.bound_eq, List.length_append]
      omega
    refine ⟨first, middle, done, fewer, by simp, fun fuel seen bounded => ⟨[], middle, ?_, left, .cons equal .nil⟩⟩
    obtain ⟨fuel, rfl⟩ := Nat.exists_eq_succ_of_ne_zero (Nat.ne_zero_of_lt bounded)
    refine iterate_none ?_
    rw [commaStep, bind_apply, acceptOp_apply, follows.isOp left noComma]
    rfl
  | @cons a as text texts ts us own rest ih =>
    simp only [List.length_append, List.length_cons] at enough
    rw [List.append_assoc, List.cons_append] at shown
    have atComma : Follows d.toLexicon (.mark "," :: heads) (punctuation "," :: (us ++ tail)) :=
      ⟨.mark ",", List.mem_cons_self, by decide, _, rfl⟩
    obtain ⟨first, middle, done, left, equal⟩ := each _ _ _ own depth c _ (by omega) atComma shown
    have nonempty : us ++ tail ≠ [] := List.append_ne_nil_of_right_ne_nil us follows.nonempty
    have start : middle.advance.Shows (us ++ tail) := left.advance' nonempty
    obtain ⟨second, after, read, fewer, bounded, loops⟩ := ih (by omega) start
    have few := rest.length_le
    have size : middle.bound = us.length + tail.length + 1 := by
      rw [left.bound_eq, List.length_cons, List.length_append]
    refine ⟨first, middle, done, ?_, ?_, fun fuel seen bounded => ?_⟩
    · rw [size, shown.bound_eq]
      simp only [List.length_append, List.length_cons]
      omega
    · rw [size, List.length_cons]
      omega
    · rw [List.length_cons] at bounded
      obtain ⟨fuel, rfl⟩ := Nat.exists_eq_succ_of_ne_zero (show fuel ≠ 0 by omega)
      obtain ⟨list, next, looped, ended, others⟩ := loops fuel (first :: seen) (by omega)
      refine ⟨second :: list, next, ?_, ended, .cons equal others⟩
      rw [List.reverse_cons, List.append_assoc, List.singleton_append, ← looped]
      have comma : middle.current.isOp "," = true := by
        rw [← isOp_bare, left.current]
        decide
      refine iterate_some ?_ (?_ : after.rest.length < middle.rest.length)
      · refine bind_ok (a := true) (m := middle.advance) ?_ (bind_ok read rfl)
        rw [acceptOp_apply, comma, if_pos rfl]
      · rw [start.bound_eq, List.length_append] at fewer
        simp only [Cursor.bound] at fewer size
        omega

theorem Series.parses {item : Grammar → Parser α} {same : α → α → Prop}
    (each : ∀ a text ts, W a text ts → Parses d item (.mark "," :: heads) (same · a) ts) (noComma : .mark "," ∉ heads)
    (series : Series W as texts ts) :
    Parses d (fun g => commaList (item g)) heads (fun list => List.Forall₂ same list as) ts := by
  intro depth c tail enough follows shown
  obtain ⟨first, middle, done, _, bounded, loops⟩ := series.run each noComma enough follows shown
  obtain ⟨list, next, looped, ended, equal⟩ := loops (middle.bound + 1) [] bounded
  refine ⟨first :: list, next, ?_, ended, equal⟩
  refine (commaList_apply _ c).trans ?_
  rw [done, ok_bind, looped]
  simp [ok_bind]

end Series

/-! ### Clauses that may be missing -/

/-- A clause behind a word, or none. -/
inductive Optional {α : Type} (lexicon : Lexicon) (w : String) (W : α → String → List Token → Prop) :
    Option α → Option String → List Token → Prop
  | missing : Optional lexicon w W none none []
  | present {a : α} {text : String} {ts : List Token} (own : W a text ts) :
    Optional lexicon w W (some a) (some text) (word lexicon w :: ts)

section Optional

variable {α : Type} {W : α → String → List Token → Prop} {value : Option α} {text : Option String} {w : String}

theorem exists_optional (lexicon : Lexicon) (w : String) (each : ∀ a ∈ value, ∃ text ts, W a text ts) :
    ∃ text ts, Optional lexicon w W value text ts := by
  cases value with
  | none => exact ⟨_, _, .missing⟩
  | some a =>
    obtain ⟨_, _, own⟩ := each a rfl
    exact ⟨_, _, .present own⟩

theorem Optional.spelled (regular : lexicon.Regular) (known : w ∈ queryWords) (keyword : String)
    (shape : keyword.toList = ' ' :: (w.toList ++ [' ']))
      (each : ∀ a text ts, W a text ts → Spells lexicon text.toList ts)
    (clause : Optional lexicon w W value text ts) : SpellsTail lexicon (Printer.clause keyword text).toList ts := by
  cases clause with
  | missing => exact spellsTail_nil
  | present own =>
    rw [Printer.clause, String.toList_append, shape]
    simpa using spellsTail_word regular known (each _ _ _ own)

/-- Behind a missing clause stands what stands behind the clause. -/
theorem Optional.follows (clause : Optional lexicon w W value text ts)
    (known : w ∈ queryWords) (listed : .word w ∈ heads)
    {tail : List Token} (follows : Follows lexicon heads tail) : Follows lexicon heads (ts ++ tail) := by
  cases clause with
  | missing => exact follows
  | present own => exact ⟨.word w, listed, by simp [allHeads, known], _, rfl⟩

theorem Optional.parses {body : Grammar → Parser α} {same : α → α → Prop} (words : List String) (known : w ∈ queryWords)
    (listed : w ∈ words) (absent : ∀ v ∈ words, .word v ∉ heads)
    (each : ∀ a text ts, W a text ts → Parses d body heads (same · a) ts)
    (clause : Optional d.toLexicon w W value text ts) (depth : Nat) {tail : List Token} (enough : ts.length < depth)
    (follows : Follows d.toLexicon heads tail) (shown : c.Shows (ts ++ tail)) :
    ∃ found start read next, acceptAny words c = .ok (found, start) ∧
      (if found = true then some <$> body (grammar d depth) else pure none) start = .ok (read, next) ∧ next.Shows tail ∧
      Option.Rel same read value := by
  cases clause with
  | missing => exact ⟨false, c, none, c, accept_none (follows.any_is shown absent), rfl, shown, .none⟩
  | @present a text ts own =>
    have start : c.advance.Shows (ts ++ tail) := shown.advance' (List.append_ne_nil_of_right_ne_nil ts follows.nonempty)
    obtain ⟨read, next, done, left, equal⟩ := each _ _ _ own depth c.advance tail
      (Nat.lt_of_succ_lt enough) follows start
    refine ⟨true, c.advance, some read, next, accept_word known words listed shown, ?_, left, .some equal⟩
    rw [if_pos rfl, map_apply, done, ok_bind]

end Optional

/-! ### Lists behind words -/

/-- A list behind words, or nothing for the empty list. -/
inductive ListClause {α : Type} (lexicon : Lexicon) (ws : List String) (W : α → String → List Token → Prop) :
    List α → List String → List Token → Prop
  | missing : ListClause lexicon ws W [] [] []
  | present {as : List α} {texts : List String} {ts : List Token} (series : Series W as texts ts) :
    ListClause lexicon ws W as texts (ws.map (word lexicon) ++ ts)

section ListClause

variable {α : Type} {W : α → String → List Token → Prop} {as : List α} {texts : List String}
    {w : String} {ws : List String}

theorem exists_listClause (lexicon : Lexicon) (ws : List String) (each : ∀ a ∈ as, ∃ text ts, W a text ts) :
    ∃ texts ts, ListClause lexicon ws W as texts ts := by
  cases as with
  | nil => exact ⟨_, _, .missing⟩
  | cons a as =>
    obtain ⟨texts, ts, series⟩ := exists_series (List.cons_ne_nil a as) each
    exact ⟨_, _, .present series⟩

theorem ListClause.spelled (regular : lexicon.Regular) (known : ∀ v ∈ w :: ws, v ∈ queryWords) (keyword : String)
    (shape : keyword.toList = wordsText (w :: ws) ++ [' '])
      (each : ∀ a text ts, W a text ts → Spells lexicon text.toList ts)
    (clause : ListClause lexicon (w :: ws) W as texts ts) :
    SpellsTail lexicon (Printer.listClause keyword texts).toList ts := by
  cases clause with
  | missing => exact spellsTail_nil
  | present series =>
    have words := spellsTail_words regular known
    have list := series.spelled regular each
    rw [Printer.listClause, if_neg (by simp [series.texts_ne_nil]), String.toList_append, shape, List.append_assoc]
    exact words.append regular (.inr ⟨_, rfl, list⟩)

theorem ListClause.follows (clause : ListClause lexicon (w :: ws) W as texts ts) (known : w ∈ queryWords)
    (listed : .word w ∈ heads) {tail : List Token} (follows : Follows lexicon heads tail) :
    Follows lexicon heads (ts ++ tail) := by
  cases clause with
  | missing => exact follows
  | present series => exact ⟨.word w, listed, by simp [allHeads, known], _, rfl⟩

end ListClause

end SqlDialects
