import SqlDialects.Proofs.TypeTokens

/-! Token lists that no type and no list of elements begins with. A list of elements is refused from the first element
on that cannot be read or that has something else than a comma or the closing sign behind it, so that one misread name
refuses every type around it. -/

namespace SqlDialects.Parser

open Token

variable {d : Dialect} {c : Cursor} {t : TypeSpec} {n : NativeType} {e : Element} {ts us : List Token} {w : String}
  {depth fuel : Nat} {close : TypeClose} {type : Parser TypeSpec}

/-- No list of elements can be read from the tokens. -/
structure RefusesElements (d : Dialect) (close : TypeClose) (ts : List Token) : Prop where
  some : ts ≠ []
  refuses : ∀ ⦃depth fuel c⦄ (n : NativeType), ts.length ≤ depth → ts.length < fuel → c.Shows ts →
    ∃ e, elementsWithin (typeAt d depth) close fuel n c = .error e

/-- The tokens begin like a type with elements, and these cannot be read. -/
def RefusesType (d : Dialect) (ts : List Token) : Prop :=
  ∃ w us, ts = word d.toLexicon w :: operator "<" :: us ∧ Text.upper w ≠ "MAX" ∧ RefusesElements d .angle us

theorem elementsWithin_error {e : Error} (closes : closesType close c.current = false)
    (failed : typeElement type n c = .error e) : elementsWithin type close (fuel + 1) n c = .error e := by
  have round : elementRound type close (n, false) c = .error e := by
    rw [elementRound_apply closes, failed, error_bind]
  simp only [elementsWithin, bind_apply, iterate, get_apply, ok_bind, round, error_bind]

/-! ### The first element -/

theorem refusesElements_error {t : Token} (closes : closesType close t = false)
    (failed : ∀ ⦃depth c⦄ n, (t :: ts).length ≤ depth → c.Shows (t :: ts) →
      ∃ e, typeElement (typeAt d depth) n c = .error e) :
    RefusesElements d close (t :: ts) := by
  refine ⟨List.cons_ne_nil t ts, ?_⟩
  intro depth fuel c n enough rounds shown
  obtain ⟨fuel, rfl⟩ := Nat.exists_eq_succ_of_ne_zero (show fuel ≠ 0 by omega)
  have current : closesType close c.current = false := by
    rw [show closesType close c.current = closesType close c.current.bare from rfl, shown.current]
    exact closes
  obtain ⟨e, error⟩ := failed n enough shown
  exact ⟨e, elementsWithin_error current error⟩

theorem refusesElements_colon {t : Token} (closes : closesType close t = false)
    (alone : ∀ ⦃depth c⦄ n, c.Shows (t :: punctuation ":" :: ts) →
      ∃ m, typeElement (typeAt d depth) n c = .ok (m, c.advance)) :
    RefusesElements d close (t :: punctuation ":" :: ts) := by
  refine ⟨List.cons_ne_nil _ _, ?_⟩
  intro depth fuel c n enough rounds shown
  obtain ⟨fuel, rfl⟩ : ∃ k, fuel = k + 2 := ⟨fuel - 2, by simp only [List.length_cons] at rounds; omega⟩
  have current : closesType close c.current = false := by
    rw [show closesType close c.current = closesType close c.current.bare from rfl, shown.current]
    exact closes
  obtain ⟨m, read⟩ := @alone depth c n shown
  have colon : c.advance.current.bare = punctuation ":" := shown.advance.current
  have comma : c.advance.current.isOp "," = false := by rw [← isOp_bare, colon]; rfl
  have open' : closesType close c.advance.current = false := by
    rw [show closesType close c.advance.current = closesType close c.advance.current.bare from rfl, colon]
    cases close <;> rfl
  have shorter : c.advance.rest.length < c.rest.length := shown.shorter shown.advance (by simp)
  exact ⟨_, by rw [elementsWithin_last current read comma shorter, open', if_neg Bool.false_ne_true]; rfl⟩

theorem refusesElements_max (greatest : Text.upper w = "MAX") :
    RefusesElements d close (word d.toLexicon w :: punctuation ":" :: ts) := by
  have closes : closesType close (word d.toLexicon w) = false := by cases close <;> simp [closesType, isOp_word]
  refine refusesElements_colon closes fun depth c n shown => ⟨{ n with params := n.params ++ ["MAX"] }, ?_⟩
  have current : c.current.bare = word d.toLexicon w := shown.current
  have bareWord : c.current.isWord = true := by rw [← isWord_bare, current, isWord_word]
  have noNumber : c.current.kind ≠ .number := by intro kind; simp [isWord, kind] at bareWord
  have noString : c.current.kind ≠ .string := by intro kind; simp [isWord, kind] at bareWord
  have noMinus : c.current.isOp "-" = false := by rw [← isOp_bare, current, isOp_word]
  have isMax : c.current.is "MAX" = true := by rw [← is_bare, current, is_word, greatest, beq_self_eq_true]
  simp only [typeElement, bind_apply, current_apply, ok_bind, noNumber, noString, noMinus, isMax,
    if_false, if_true, peek_apply,
    Bool.false_and, Bool.false_eq_true, advance_apply]
  rfl

theorem refusesElements_number (text : String) : RefusesElements d close (number text :: punctuation ":" :: ts) := by
  have closes : closesType close (number text) = false := by cases close <;> rfl
  refine refusesElements_colon closes fun depth c n shown => ⟨{ n with params := n.params ++ [c.current.text] }, ?_⟩
  have isNumber : c.current.kind = .number := by rw [← kind_bare, shown.current]; rfl
  have noWord : c.advance.current.isWord = false := by rw [← isWord_bare, shown.advance.current]; rfl
  simp only [typeElement, bind_apply, current_apply, ok_bind, isNumber, if_true, advance_apply, skipWhile_stop noWord]
  rfl

theorem refusesElements_parameter {t : Token} (parameter : t.kind = .parameter) :
    RefusesElements d close (t :: ts) := by
  have noOp (mark : String) : t.isOp mark = false := by simp [isOp, parameter]
  refine refusesElements_error (by cases close <;> simp [closesType, noOp]) ?_
  intro depth c n _ shown
  have current : c.current.bare = t := shown.current
  have noName : c.current.isWord = false ∧ c.current.isQuoted = false := by
    rw [← isWord_bare, ← isQuoted_bare, current]
    simp [isWord, isQuoted, parameter]
  have kind : c.current.kind ≠ .number ∧ c.current.kind ≠ .string := by
    rw [← kind_bare, current, parameter]
    decide
  have noMinus : c.current.isOp "-" = false := by rw [← isOp_bare, current, noOp]
  have noMax : c.current.is "MAX" = false := by rw [is, noName.1, Bool.false_and]
  have failed : ∃ e, typeAt d depth c = .error e := by
    cases depth with
    | zero => exact ⟨c.halt, rfl⟩
    | succ depth =>
      have failed : ∃ e, typeWords c = .error e := by
        simp only [typeWords, bind_apply, current_apply, ok_bind, noName, Bool.not_false, Bool.and_self, if_true]
        exact ⟨_, rfl⟩
      obtain ⟨e, failed⟩ := failed
      exact ⟨e, by rw [typeAt, typeStep_apply, nativeType_eq, bind_apply, failed, error_bind, error_bind]⟩
  obtain ⟨e, failed⟩ := failed
  refine ⟨e, ?_⟩
  simp only [typeElement, bind_apply, current_apply, ok_bind, kind, noMinus, noMax, noName, if_false,
    peek_apply, Bool.false_and,
    Bool.or_self, Bool.false_eq_true, get_apply, failed, error_bind]

/-! ### Inner types -/

theorem RefusesType.read (refused : RefusesType d ts) (enough : ts.length ≤ depth) (shown : c.Shows ts) :
    ∃ e, typeAt d depth c = .error e := by
  obtain ⟨w, us, rfl, _, inside⟩ := refused
  simp only [List.length_cons] at enough
  obtain ⟨depth, rfl⟩ := Nat.exists_eq_succ_of_ne_zero (show depth ≠ 0 by omega)
  have noWord (c : Cursor) (shown : c.Shows (operator "<" :: us)) (w : String) (_ : w ∈ typeFollowers) :
      c.current.is w = false := by
    rw [← is_bare, shown.current]
    rfl
  have named := SpellsName.single (d := d) w
  have whole : c.Shows ([word d.toLexicon w] ++ operator "<" :: us) := shown
  obtain ⟨start, begun, atGroup⟩ := named.read whole (List.cons_ne_nil _ _) noWord
  have angle : start.current.isOp "<" = true := by rw [← isOp_bare, atGroup.current]; rfl
  have after : start.advance.Shows us := atGroup.advance' inside.some
  have rounds : us.length < start.advance.bound + 1 := by rw [after.bound_eq]; omega
  obtain ⟨e, failed⟩ :=
    inside.refuses { pos := c.current.pos, name := Text.upper w } (show us.length ≤ depth by omega) rounds after
  rw [← typeElements_apply] at failed
  refine ⟨e, ?_⟩
  rw [typeAt, typeStep_apply, nativeType_eq, bind_apply, begun, ok_bind, bind_apply]
  simp only [typeGroup, bind_apply, acceptOp_apply, ok_bind, angle, if_true, failed, error_bind]

theorem RefusesType.element (refused : RefusesType d ts) : RefusesElements d close ts := by
  have read {depth : Nat} {c : Cursor} (enough : ts.length ≤ depth) (shown : c.Shows ts) := refused.read enough shown
  obtain ⟨w, us, rfl, plain, _⟩ := refused
  have named : IsLabel d w (word d.toLexicon w) := .inr ⟨rfl, plain⟩
  refine refusesElements_error (by cases close <;> simp [closesType, isOp_word]) ?_
  intro depth c n enough shown
  obtain ⟨e, failed⟩ := read enough shown
  have second : c.peek.isWord = false ∧ c.peek.isOp ":" = false := by
    rw [← isWord_bare, ← isOp_bare, shown.peek]
    exact ⟨rfl, rfl⟩
  exact ⟨e, by rw [named.typeElement_inner shown.current second, failed, error_bind]⟩

theorem RefusesType.field (refused : RefusesType d us) {name : String} {label : Token} (named : IsLabel d name label) :
    RefusesElements d close (label :: punctuation ":" :: us) := by
  have closes : closesType close label = false := by cases close <;> simp [closesType, named.isOp]
  refine refusesElements_error closes ?_
  intro depth c n enough shown
  simp only [List.length_cons] at enough
  have colon : c.peek.isOp ":" = true := by rw [← isOp_bare, shown.peek]; rfl
  have atColon := shown.advance
  have isColon : c.advance.current.isOp ":" = true := by rw [← isOp_bare, atColon.current]; rfl
  have some : us ≠ [] := by
    obtain ⟨w, us, rfl, _⟩ := refused
    exact List.cons_ne_nil _ _
  obtain ⟨e, failed⟩ := refused.read (show us.length ≤ depth by omega) (atColon.advance' some)
  exact ⟨e, by rw [named.typeElement_field shown.current colon isColon, failed, error_bind]⟩

theorem RefusesElements.after (refused : RefusesElements d close us) (reads : ReadsElement d e ts) :
    RefusesElements d close (ts ++ punctuation "," :: us) := by
  refine ⟨by simp, ?_⟩
  intro depth fuel c n enough rounds shown
  simp only [List.length_append, List.length_cons] at enough rounds
  obtain ⟨fuel, rfl⟩ := Nat.exists_eq_succ_of_ne_zero (show fuel ≠ 0 by omega)
  obtain ⟨m, c', done, after, _⟩ :=
    reads.reads n (show ts.length ≤ depth by omega) (endsElement_cons us (by decide)) shown
  have isComma : c'.current.isOp "," = true := by rw [← isOp_bare, after.current]; rfl
  have atNext : c'.advance.Shows us := after.advance' refused.some
  obtain ⟨e, failed⟩ := refused.refuses m (show us.length ≤ depth by omega) (show us.length < fuel by omega) atNext
  have shorter : c'.advance.rest.length < c.rest.length := shown.shorter atNext (by grind)
  exact ⟨e, by rw [elementsWithin_comma (reads.closes shown close) done isComma shorter, failed]⟩

/-! ### Texts -/

theorem parseType_refused {text : String} (leads : Leads d.toLexicon (RefusesType d) text.toList) :
    ∃ e, parseType d text = .error e := by
  have scanned := leads [] Position.start
  rw [List.append_nil, ← tokenize_eq_scan] at scanned
  cases read : tokenize d.toLexicon text with
  | error e =>
    refine ⟨e, ?_⟩
    rw [parseType, Cursor.ofText, read]
    rfl
  | ok tokens =>
    have refused := scanned tokens read
    cases tokens with
    | nil =>
      obtain ⟨w, us, shape, _⟩ := refused
      cases shape
    | cons t rest =>
      let c : Cursor := { source := text, current := t, rest }
      have shown : c.Shows ((t :: rest).map bare) := rfl
      have enough : ((t :: rest).map bare).length ≤ c.bound + 1 := by
        rw [shown.bound_eq]
        omega
      obtain ⟨e, failed⟩ := refused.read enough shown
      have parsed : type d c = .error e := failed
      refine ⟨e, ?_⟩
      rw [parseType, Cursor.ofText, read]
      change (wholeType d c).map Prod.fst = _
      rw [wholeType, bind_apply, parsed]
      rfl

end SqlDialects.Parser
