import SqlDialects.Proofs.Layout
import SqlDialects.Proofs.QueryTrees

/-! Scripts. Texts with a semicolon on a line of its own between them are read one by one: there are as many
statements as texts, and each is what its own text is read as, if each is read up to a semicolon as up to the end. -/

namespace SqlDialects

open Token SqlDialects.Parser

variable {d : Dialect} {lexicon : Lexicon} {c : Cursor}

/-! ### Texts -/

section Texts

variable {front back : List Char} {ts us : List Token}

theorem Token.readLexeme_semicolon (regular : lexicon.Regular) (pos : Position) (cs : List Char) :
    readLexeme lexicon pos ';' cs = .ok ⟨.punctuation, [';'], cs⟩ := by
  unfold readLexeme
  rw [if_neg (not_string regular (by decide)), if_neg (not_name regular (by decide)),
    if_neg (by simp), if_neg (by decide),
    if_neg (by simp), if_neg (by decide), if_pos (by decide)]

theorem Token.Spells.semicolon (regular : lexicon.Regular) (spelled : Spells lexicon back us) :
    Spells lexicon (';' :: back) (punctuation ";" :: us) := by
  refine Spells.cons regular ?_ (fun pos tail => readLexeme_semicolon regular pos _) (.inr rfl) spelled
  intro pos tail
  exact skipGap_still (by decide) (fun equal => absurd equal (by decide)) (fun equal => absurd equal (by decide))

/-- Two texts with a semicolon between them. -/
theorem Token.Spells.nextStatement (regular : lexicon.Regular) (first : Spells lexicon front ts)
    (last : Spells lexicon back us) :
    Spells lexicon (front ++ ("\n;\n".toList ++ back)) (ts ++ punctuation ";" :: us) := by
  have line : Text.IsLayout "\n" := by decide
  have rest := (last.layout regular line).semicolon regular
  exact first.append (breaks_layout line (by decide) _) (by simp) (rest.layout regular line)

/-- The tokens of statements with semicolons between them. -/
def scriptTokens : List (List Token) → List Token := List.intercalate [punctuation ";"]

theorem spells_script (regular : lexicon.Regular) {texts : List String} {tss : List (List Token)}
    (each : List.Forall₂ (fun text ts => Spells lexicon text.toList ts) texts tss) :
    Spells lexicon ("\n;\n".intercalate texts).toList (scriptTokens tss) := by
  induction each with
  | nil => exact spells_nil
  | @cons text ts texts tss own rest ih =>
    cases rest with
    | nil => simpa [scriptTokens, List.intercalate] using own
    | @cons next us texts tss _ _ =>
      have whole := own.nextStatement regular ih
      simpa [scriptTokens, List.intercalate, String.intercalate_cons_cons] using whole

end Texts

/-! ### One round -/

/-- What stands behind a statement of a script: a semicolon and the next one, up to the end. -/
def behind : List (List Token) → List Token
  | [] => [finish]
  | ts :: tss => punctuation ";" :: (ts ++ behind tss)

theorem follows_behind (lexicon : Lexicon) (tss : List (List Token)) : Follows lexicon statementEnds (behind tss) := by
  cases tss with
  | nil => exact ⟨.finish, by decide, by decide, [], rfl⟩
  | cons ts tss => exact ⟨.mark ";", by decide, by decide, _, rfl⟩

theorem scriptTokens_finish (ts : List Token) (tss : List (List Token)) :
    scriptTokens (ts :: tss) ++ [finish] = ts ++ behind tss := by
  induction tss generalizing ts with
  | nil => simp [scriptTokens, List.intercalate, behind]
  | cons us tss ih =>
    have split : scriptTokens (ts :: us :: tss) = ts ++ punctuation ";" :: scriptTokens (us :: tss) := by
      simp [scriptTokens, List.intercalate]
    rw [split, List.append_assoc, List.cons_append, ih, behind]

/-- The tokens are read as a statement, and start with no semicolon. -/
structure Standalone (d : Dialect) (wanted : Statement → Prop) (ts : List Token) : Prop where
  reads : ReadsStatement d wanted ts
  starts : ∃ first rest, ts = first :: rest ∧ first.isOp ";" = false ∧ first.isFinish = false

theorem Standalone.mono {wanted weaker : Statement → Prop} {ts : List Token} (alone : Standalone d wanted ts)
    (implied : ∀ s, wanted s → weaker s) : Standalone d weaker ts := by
  refine ⟨?_, alone.starts⟩
  intro depth c tail enough follows shown
  obtain ⟨s, next, done, left, held⟩ := alone.reads depth c tail enough follows shown
  exact ⟨s, next, done, left, implied s held⟩

/-- Skips the semicolons in front of a statement. -/
def skipSemicolons : Parser Unit := loop (fun () => do if ← acceptOp ";" then return some () else return none) ()

/-- A round of the loop over the statements. -/
def scriptStep (d : Dialect) (g : Grammar) (statements : List Statement) : Parser (Option (List Statement)) := do
  skipSemicolons
  if ← atEnd then return none
  let s ← statement d g
  if !(← curOp ";") && !(← atEnd) then expected "\";\""
  return some (s :: statements)

theorem script_apply (g : Grammar) : script d g c = (loop (scriptStep d g) [] c).bind fun r =>
    .ok (r.1.reverse, r.2) := rfl

theorem skipSemicolons_none (plain : c.current.isOp ";" = false) : skipSemicolons c = .ok ((), c) := by
  rw [skipSemicolons, loop_apply]
  refine iterate_none ?_
  rw [bind_apply, acceptOp_apply, plain]
  rfl

theorem skipSemicolons_one {ts : List Token} (shown : c.Shows (punctuation ";" :: ts)) (more : ts ≠ [])
    (plain : c.advance.current.isOp ";" = false) : skipSemicolons c = .ok ((), c.advance) := by
  have mark : c.current.isOp ";" = true := by
    rw [← isOp_bare, shown.current]
    decide
  have size := shown.bound_eq
  have left := shown.advance' more
  have stepped : acceptOp ";" c = .ok (true, c.advance) := by rw [acceptOp_apply, mark, if_pos rfl]
  rw [skipSemicolons, loop_apply]
  refine (iterate_some (bind_ok stepped rfl) (shown.shorter left (by simp))).trans ?_
  obtain ⟨fuel, equal⟩ : ∃ fuel, c.bound = fuel + 1 := ⟨c.rest.length, rfl⟩
  rw [equal]
  refine iterate_none ?_
  rw [bind_apply, acceptOp_apply, plain]
  rfl

section Rounds

variable {wanted : Statement → Prop} {ts : List Token} {tss : List (List Token)} {start : Cursor}

theorem Standalone.goes_on (alone : Standalone d wanted ts) (shown : start.Shows (ts ++ behind tss)) :
    start.current.isOp ";" = false ∧ start.current.isFinish = false := by
  obtain ⟨first, rest, rfl, plain, goes⟩ := alone.starts
  rw [← isOp_bare, ← isFinish_bare, shown.current]
  exact ⟨plain, goes⟩

/-- A round takes one statement. -/
theorem Standalone.step (alone : Standalone d wanted ts) {depth : Nat} (enough : ts.length < depth)
    (skipped : skipSemicolons c = .ok ((), start))
      (shown : start.Shows (ts ++ behind tss)) (statements : List Statement) :
    ∃ s next, scriptStep d (grammar d (depth + 1)) statements c = .ok (some (s :: statements), next) ∧
      next.Shows (behind tss) ∧ wanted s := by
  obtain ⟨s, next, done, left, held⟩ := alone.reads depth start (behind tss) enough
    (follows_behind d.toLexicon tss) shown
  refine ⟨s, next, ?_, left, held⟩
  refine bind_ok skipped (bind_ok (atEnd_apply start) ?_)
  rw [(alone.goes_on shown).2, if_neg (by decide)]
  refine bind_ok done (bind_ok (curOp_apply ..) (bind_ok (atEnd_apply next) ?_))
  have ended : (!next.current.isOp ";" && !next.current.isFinish) = false := by
    cases tss with
    | nil =>
      rw [← isFinish_bare, left.current]
      simp [finish, isFinish]
    | cons =>
      rw [← isOp_bare, left.current]
      simp [punctuation, isOp]
  rw [ended, if_neg (by decide)]
  rfl

end Rounds

/-! ### Whole scripts -/

section Scripts

variable {α : Type} {wanted : α → Statement → Prop} {as : List α} {tss : List (List Token)}

/-- The induction is on the statements that are left: each takes one round, in which the loop has the tokens of the
others left for its bound. -/
theorem script_rounds (alone : List.Forall₂ (fun a ts => Standalone d (wanted a) ts) as tss) {depth fuel : Nat}
    (enough : (behind tss).length ≤ depth) (room : (behind tss).length ≤ fuel) (shown : c.Shows (behind tss))
    (statements : List Statement) :
    ∃ found next, iterate fuel (scriptStep d (grammar d (depth + 1))) statements c =
    .ok (found.reverse ++ statements, next) ∧
      List.Forall₂ wanted as found := by
  induction alone generalizing c fuel statements with
  | nil =>
    have current : c.current.bare = finish := shown.current
    have plain : c.current.isOp ";" = false := by
      rw [← isOp_bare, current]
      rfl
    have ended : c.current.isFinish = true := by
      rw [← isFinish_bare, current]
      rfl
    obtain ⟨fuel, rfl⟩ := Nat.exists_eq_succ_of_ne_zero (show fuel ≠ 0 by simp [behind] at room; omega)
    refine ⟨[], c, iterate_none ?_, .nil⟩
    refine bind_ok (skipSemicolons_none plain) (bind_ok (atEnd_apply c) ?_)
    rw [ended]
    rfl
  | @cons a ts as tss own rest ih =>
    simp only [behind, List.length_cons, List.length_append] at enough room
    have nonempty : ts ++ behind tss ≠ [] := List.append_ne_nil_of_right_ne_nil ts
      (follows_behind d.toLexicon tss).nonempty
    have start := shown.advance' nonempty
    have skipped := skipSemicolons_one shown nonempty (own.goes_on start).1
    have fits : ts.length < depth := by omega
    obtain ⟨s, next, stepped, left, held⟩ := own.step fits skipped start statements
    have shorter : next.rest.length < c.rest.length := by
      refine shown.shorter left ?_
      simp only [behind, List.length_cons, List.length_append]
      omega
    obtain ⟨fuel, rfl⟩ := Nat.exists_eq_succ_of_ne_zero (show fuel ≠ 0 by omega)
    have room : (behind tss).length ≤ fuel := by omega
    obtain ⟨found, last, done, others⟩ := ih (by omega) room left (s :: statements)
    refine ⟨s :: found, last, (iterate_some stepped shorter).trans ?_, .cons held others⟩
    rw [done, List.reverse_cons, List.append_assoc, List.singleton_append]

/-- Statements with semicolons between them are read one by one. -/
theorem parseAll_script (regular : d.toLexicon.Regular) {wanted : String → Statement → Prop} {texts : List String}
    (spelled : List.Forall₂ (fun text ts => Spells d.toLexicon text.toList ts) texts tss)
    (alone : List.Forall₂ (fun text ts => Standalone d (wanted text) ts) texts tss) :
    ∃ statements, Statement.parseAll d ("\n;\n".intercalate texts) = .ok statements ∧
    List.Forall₂ wanted texts statements := by
  obtain ⟨c, loaded, shown⟩ := (spells_script regular spelled).cursor
  have size := shown.bound_eq
  obtain ⟨found, next, done, each⟩ : ∃ found next, loop (scriptStep d (grammarFor d c)) [] c =
    .ok (found.reverse, next) ∧
      List.Forall₂ wanted texts found := by
    rw [loop_apply, grammarFor]
    cases alone with
    | nil =>
      have enough : (behind []).length ≤ c.bound := Nat.le_of_eq size.symm
      simpa using script_rounds (.nil : List.Forall₂ (fun text ts => Standalone d (wanted text) ts) [] []) enough
        (Nat.le_succ_of_le enough) shown []
    | @cons text ts texts tss own rest =>
      rw [scriptTokens_finish] at shown size
      rw [List.length_append] at size
      have ends := List.length_pos_of_ne_nil (follows_behind d.toLexicon tss).nonempty
      have skipped := skipSemicolons_none (own.goes_on shown).1
      have fits : ts.length < c.bound := by omega
      obtain ⟨s, next, stepped, left, held⟩ := own.step fits skipped shown []
      have shorter : next.rest.length < c.rest.length := by
        obtain ⟨first, more, rfl, _⟩ := own.starts
        refine shown.shorter left ?_
        simp only [List.length_append, List.length_cons]
        omega
      have room : (behind tss).length ≤ c.bound := by omega
      obtain ⟨found, last, done, others⟩ := script_rounds rest room room left [s]
      refine ⟨s :: found, last, (iterate_some stepped shorter).trans ?_, .cons held others⟩
      rw [done, List.reverse_cons]
  refine ⟨found, ?_, each⟩
  rw [Statement.parseAll, run_eq loaded, script_apply, done]
  simp [Except.map, ok_bind]

end Scripts

end SqlDialects
