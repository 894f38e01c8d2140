import Mathlib.Data.String.Basic
import SqlDialects.Dialect.Postgres
import SqlDialects.Proofs.IntervalNumbers

/-! Keys and paths. The parser makes a path of the key behind an arrow; on the way to Postgres the rules make a key of
a path of one step or one index. A step comes back as it was unless its key looks like a path or like an array of
steps. -/

namespace SqlDialects

/-! ### Splitting texts -/

private theorem splitOnAux_char (sep : Char) (before part rest : List Char) (parts : List String) :
    (String.ofList (before ++ part ++ rest)).splitOnAux (String.ofList [sep]) ⟨String.utf8Len before⟩
        ⟨String.utf8Len before + String.utf8Len part⟩ 0 parts =
      parts.reverse ++ (List.splitOnPPrepend (· == sep) rest part.reverse).map String.ofList := by
  induction rest generalizing before part parts with
  | nil =>
    have atEnd : String.Pos.Raw.atEnd (String.ofList (before ++ part ++ []))
        ⟨String.utf8Len before + String.utf8Len part⟩ = true := by
      rw [String.atEnd_iff, String.rawEndPos_ofList]
      simp [String.utf8Len_append]
    rw [String.splitOnAux.eq_1, if_pos atEnd, String.extract_of_valid]
    simp
  | cons c rest ih =>
    have inside : ¬String.Pos.Raw.atEnd (String.ofList (before ++ part ++ c :: rest))
        ⟨String.utf8Len before + String.utf8Len part⟩ = true := by
      have size := c.utf8Size_pos
      rw [String.atEnd_iff, String.rawEndPos_ofList]
      simp only [String.utf8Len_append, String.utf8Len_cons, String.Pos.Raw.mk_le_mk]
      omega
    have char := String.get_of_valid (before ++ part) (c :: rest)
    have next := String.next_of_valid (before ++ part) c rest
    have sepChar : String.Pos.Raw.get (String.ofList [sep]) 0 = sep := String.get_of_valid [] [sep]
    have sepNext : String.Pos.Raw.next (String.ofList [sep]) 0 = ⟨sep.utf8Size⟩ := by
      simpa using String.next_of_valid [] sep []
    have sepEnd : String.Pos.Raw.atEnd (String.ofList [sep]) ⟨sep.utf8Size⟩ = true := by
      rw [String.atEnd_iff, String.rawEndPos_ofList]
      simp
    simp only [String.utf8Len_append, List.headD_cons] at char next
    rw [String.splitOnAux.eq_1, if_neg inside, List.splitOnPPrepend_cons_eq_if, char, sepChar]
    simp only [next, sepNext, sepEnd, if_true]
    split
    · next same =>
      obtain rfl : c = sep := by simpa using same
      have cut : String.Pos.Raw.unoffsetBy ⟨String.utf8Len before + String.utf8Len part + c.utf8Size⟩ ⟨c.utf8Size⟩ =
          ⟨String.utf8Len before + String.utf8Len part⟩ := by
        simp [String.Pos.Raw.unoffsetBy]
      have later := ih (before ++ part ++ [c]) [] (String.ofList part :: parts)
      have shape : before ++ part ++ [c] ++ [] ++ rest = before ++ part ++ c :: rest := by simp
      have place : String.utf8Len (before ++ part ++ [c]) =
        String.utf8Len before + String.utf8Len part + c.utf8Size := by
        simp [String.utf8Len_append, Nat.add_assoc]
      rw [shape, place, String.utf8Len_nil, Nat.add_zero] at later
      rw [cut, String.extract_of_valid, later, List.splitOnP_eq_splitOnPPrepend, List.reverse_cons, List.reverse_nil,
        List.reverse_reverse, List.map_cons, List.append_assoc]
      rfl
    · have later := ih before (part ++ [c]) parts
      have shape : before ++ (part ++ [c]) ++ rest = before ++ part ++ c :: rest := by simp
      have place : String.utf8Len (part ++ [c]) = String.utf8Len part + c.utf8Size := by simp [String.utf8Len_append]
      have still (i : String.Pos.Raw) : i.unoffsetBy 0 = i := by simp [String.Pos.Raw.unoffsetBy]
      rw [shape, place, ← Nat.add_assoc, List.reverse_concat] at later
      rw [still, next, later]

theorem splitOn_char (sep : Char) (text : String) :
    text.splitOn (String.ofList [sep]) = (text.toList.splitOn sep).map String.ofList := by
  have notEmpty : (String.ofList [sep] == "") = false := by
    rw [beq_eq_false_iff_ne, ne_eq, ← String.toList_inj]
    simp
  have whole := splitOnAux_char sep [] [] text.toList []
  rw [String.splitOn, notEmpty, if_neg Bool.false_ne_true, List.splitOn, List.splitOnP_eq_splitOnPPrepend]
  simpa using whole

/-! ### Arrays of steps -/

namespace Postgres

open SqlDialects.Parser Token

private theorem pathSteps_parts (key : String) : ∃ texts, pathSteps key = String.join texts ∧
    List.Forall₂ (fun part text => text = "[" ++ Text.trim (String.ofList part) ++ "]" ∨
      text = "." ++ Text.trim (String.ofList part))
      ((Text.trimBoth (fun c => c == '\x7b' || c == '\x7d') key.toList).splitOn ',') texts := by
  refine ⟨_, rfl, ?_⟩
  have comma : "," = String.ofList [','] := by decide
  rw [comma, splitOn_char, String.toList_ofList, List.map_map, List.forall₂_map_right_iff]
  refine List.forall₂_same.mpr fun part _ => ?_
  simp only [Function.comp_apply]
  split
  · split
    · exact .inl rfl
    · exact .inr rfl
  · exact .inr rfl

private theorem trimBoth_length (p : Char → Bool) (cs : List Char) : (Text.trimBoth p cs).length ≤ cs.length := by
  have front := (List.dropWhile_sublist p (l := cs)).length_le
  have back := (List.dropWhile_sublist p (l := (cs.dropWhile p).reverse)).length_le
  rw [Text.trimBoth, List.length_reverse]
  rw [List.length_reverse] at back
  exact Nat.le_trans back front

/-- The steps of an array are not the array itself behind a point. -/
theorem pathSteps_ne {key : String} (braces : key.startsWith "\x7b" = true)
    (plain : ∀ c ∈ key.toList, c ≠ '.' ∧ c ≠ '[') :
    pathSteps key ≠ "." ++ key := by
  intro same
  obtain ⟨texts, joined, each⟩ := pathSteps_parts key
  have chars : texts.flatMap String.toList = '.' :: key.toList := by
    rw [← String.toList_join, ← joined, same]
    simp
  obtain ⟨cs, shape⟩ := String.startsWith_string_iff.mp braces
  have shape : key.toList = '\x7b' :: cs := shape.symm
  have whole : [','].intercalate (List.splitOn ',' (Text.trimBoth (fun c => c == '\x7b' || c == '\x7d') key.toList)) =
    _ :=
    List.intercalate_splitOn ','
  generalize (Text.trimBoth (fun c => c == '\x7b' || c == '\x7d') key.toList).splitOn ',' = parts at each whole
  have texts_marked {part text} (step : text = "[" ++ Text.trim (String.ofList part) ++ "]" ∨
      text = "." ++ Text.trim (String.ofList part)) : ∃ c rest, text.toList = c :: rest ∧ (c = '.' ∨ c = '[') := by
    obtain rfl | rfl := step
    · exact ⟨'[', (Text.trim (String.ofList part) ++ "]").toList, by simp, .inr rfl⟩
    · exact ⟨'.', (Text.trim (String.ofList part)).toList, by simp, .inl rfl⟩
  cases each with
  | nil => cases chars
  | @cons part text parts texts first others =>
    cases others with
    | nil =>
      -- a single step is shorter than the array
      have shorter : part.length ≤ cs.length := by
        rw [show part = _ by simpa using whole, shape, Text.trimBoth, List.dropWhile_cons_of_pos (by decide)]
        exact trimBoth_length _ cs
      obtain rfl | rfl := first
      · simp at chars
      · have step := trimBoth_length Text.isBlank part
        have lengths := congrArg List.length chars
        simp only [List.flatMap_cons, List.flatMap_nil, List.append_nil, shape, Text.trim, String.toList_append,
          String.toList_ofList, List.length_append, List.length_cons] at lengths
        simp at lengths
        omega
    | cons second more =>
      -- every further step has a point or a bracket in front
      obtain ⟨c, rest, front, _⟩ := texts_marked first
      obtain ⟨d, others, later, mark⟩ := texts_marked second
      rw [List.flatMap_cons, List.flatMap_cons, front, later, List.cons_append, List.cons.injEq] at chars
      have inside : d ∈ key.toList := by
        rw [← chars.2]
        simp
      obtain ⟨noPoint, noBracket⟩ := plain d inside
      exact mark.elim noPoint noBracket

/-! ### Keys -/

/-- What the key of an arrow stands for. -/
def keyPath (key : String) : String :=
  if key.startsWith "\x7b" && key.endsWith "\x7d" then "$" ++ pathSteps key
  else if key.startsWith "$" then key
  else "$." ++ key

/-- A key that is neither taken for a path nor for an array of steps. -/
def IsStep (key : String) : Prop :=
  key.startsWith "$" = false ∧ (key.startsWith "\x7b" && key.endsWith "\x7d") = false

instance (key : String) : Decidable (IsStep key) := inferInstanceAs (Decidable (_ ∧ _))

/-- The key that is written for the path stands for the path. -/
def KeepsPath (path : String) : Prop :=
  match path.toList with
  | '$' :: '.' :: key => IsStep (String.ofList key)
  | '$' :: '[' :: index => index.head?.any Char.isDigit
  | _ => False

instance (path : String) : Decidable (KeepsPath path) := by
  unfold KeepsPath
  split <;> infer_instance

theorem jsonPath_string (pos : Position) (key : String) :
    jsonPath (.literal pos .string key) = .literal pos .string (keyPath key) := by
  simp only [jsonPath, keyPath]
  split
  · rfl
  · split <;> rfl

theorem jsonPath_bare (e : Expr) : (jsonPath e).bare = jsonPath e.bare := by
  cases e with
  | literal pos kind value =>
    cases kind with
    | string => simp only [jsonPath_string, Expr.bare]
    | _ => rfl
  | _ => rfl

/-- A key without a dollar in front and without braces around it stands for one step. -/
theorem IsStep.keyPath_eq {key : String} (step : IsStep key) : keyPath key = "$." ++ key := by
  simp [keyPath, step.1, step.2]

/-- A key without points and brackets stands for a step of its name only if it is a step. -/
theorem keyPath_eq_iff {key : String} (plain : ∀ c ∈ key.toList, c ≠ '.' ∧ c ≠ '[') :
    keyPath key = "$." ++ key ↔ IsStep key := by
  refine ⟨fun same => ?_, IsStep.keyPath_eq⟩
  unfold keyPath at same
  split at same
  · next array =>
    have steps : pathSteps key = "." ++ key := by
      rwa [show "$." = "$" ++ "." from rfl, String.append_assoc, String.append_right_inj] at same
    exact absurd steps (pathSteps_ne (Bool.and_eq_true_iff.mp array).1 plain)
  · next noArray =>
    split at same
    · have lengths := congrArg String.length same
      rw [String.length_append, show "$.".length = 2 from rfl] at lengths
      omega
    · next noPath => exact ⟨Bool.eq_false_iff.mpr noPath, Bool.eq_false_iff.mpr noArray⟩

theorem isIndex_cases {cs : List Char} (index : isIndex cs) :
    cs.head?.any Char.isDigit ∧ IsNumber (String.ofList cs) ∨
      ∃ mark ds, cs = mark :: ds ∧ mark ∈ ['-', '+'] ∧ IsNumber (String.ofList ds) := by
  have number {ds : List Char} {n : Int} (read : (if !ds.isEmpty && ds.all Char.isDigit then
      some ((ds.foldl (fun n d => 10 * n + (d.toNat - '0'.toNat)) 0 : Nat) : Int) else none) = some n) :
      ds.head?.any Char.isDigit ∧ IsNumber (String.ofList ds) := by
    split at read
    · next digits =>
      simp only [Bool.and_eq_true, Bool.not_eq_true', List.isEmpty_eq_false_iff, List.all_eq_true] at digits
      obtain ⟨c, cs, rfl⟩ := List.exists_cons_of_ne_nil digits.1
      refine ⟨by simpa using digits.2 c List.mem_cons_self, isNumber_of_isDecimal ?_⟩
      rw [String.toList_ofList]
      exact .whole digits.1 digits.2
    · cases read
  unfold isIndex at index
  cases read : Decimal.readInt? cs with
  | none => simp [read] at index
  | some n =>
    unfold Decimal.readInt? at read
    split at read
    · next ds =>
      obtain ⟨m, read, _⟩ := Option.map_eq_some_iff.mp read
      exact .inr ⟨'-', ds, rfl, by decide, (number read).2⟩
    · next ds => exact .inr ⟨'+', ds, rfl, by decide, (number read).2⟩
    · exact .inl (number read)

theorem jsonKey_cases {place : Position} {path : String} {key : Expr}
    (found : jsonKey? (.literal place .string path) = some key) :
    (∃ step, path.toList = '$' :: '.' :: step ∧ (∀ c ∈ step, c ≠ '.' ∧ c ≠ '[') ∧
      key = .literal place .string (String.ofList step)) ∨
      ∃ index, path.toList = '$' :: '[' :: (index ++ [']']) ∧ isIndex index ∧
        key = .literal place .number (String.ofList index) := by
  simp only [jsonKey?] at found
  split at found
  · next step shape =>
    obtain ⟨plain, ⟨⟩⟩ := Option.ite_none_left_eq_some.mp found
    refine .inl ⟨step, shape, fun c member => ?_, rfl⟩
    rw [Bool.not_eq_true, Bool.or_eq_false_iff, List.any_eq_false] at plain
    have apart := plain.2 c member
    constructor <;> rintro rfl <;> exact absurd (by decide) apart
  · next rest shape =>
    obtain ⟨index, ⟨⟩⟩ := Option.ite_none_right_eq_some.mp found
    simp only [Bool.and_eq_true, decide_eq_true_eq] at index
    obtain ⟨front, rfl⟩ := List.getLast?_eq_some_iff.mp index.1
    rw [List.dropLast_concat] at index ⊢
    exact .inr ⟨front, shape, index.2, rfl⟩
  · cases found

end Postgres

end SqlDialects
