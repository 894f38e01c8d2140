import Mathlib.Data.List.Forall2
import SqlDialects.Proofs.NativeTypes
import SqlDialects.Proofs.TypeRefusals

/-! Types of Doris in its own spelling. What is printed of such a type is read back as the same type at any depth,
unless a struct inside it has a member whose name is written without quotes and read as something else: the word for
the greatest length, a number or a template. Then it is not read at all. -/

namespace SqlDialects

open Token SqlDialects.Parser

namespace Doris

/-- The dialect. -/
abbrev dialect : Dialect := profile.dialect

/-- Doris prints for itself. -/
abbrev printer : Printer := dialect.printerFrom dialect

/-- Types without inner types, with how many numbers they have. -/
def leaves : List (String × Nat) :=
  ["BOOLEAN", "TINYINT", "SMALLINT", "INT", "BIGINT", "LARGEINT", "FLOAT", "DOUBLE", "STRING", "DATE",
    "JSON", "BITMAP", "HLL",
    "IPV4", "IPV6"].map (·, 0) ++ [("DECIMAL", 2), ("VARCHAR", 1), ("CHAR", 1), ("DATETIME", 1)]

/-- Types out of leaves with machine numbers, arrays, maps, and structs with named members. -/
inductive TypeTree : TypeSpec → Prop
  | leaf {pos : Position} {name : String} {params : List Int} (known : (name, params.length) ∈ leaves)
    (sized : ∀ n ∈ params, Decimal.fits 64 n) : TypeTree { pos, name, params }
  | array {pos : Position} {t : TypeSpec} (inner : TypeTree t) : TypeTree { pos, name := "ARRAY", elems := [t] }
  | map {pos : Position} {key value : TypeSpec} (keys : TypeTree key) (values : TypeTree value) :
    TypeTree { pos, name := "MAP", elems := [key, value] }
  | struct {pos : Position} {fields : List TypeField} (some : fields ≠ []) (named : ∀ f ∈ fields, f.name ≠ "")
    (inner : ∀ f ∈ fields, TypeTree f.type) : TypeTree { pos, name := "STRUCT", fields }

/-- The name of a member that is read as a name. -/
structure Legible (name : String) : Prop where
  noMax : Text.upper name ≠ "MAX"
  noNumber : name.toList.all Char.isDigit = false
  noTemplate : name.startsWith "$\x7b" = false

instance (name : String) : Decidable (Legible name) :=
  decidable_of_iff (Text.upper name ≠ "MAX" ∧ name.toList.all Char.isDigit = false ∧ name.startsWith "$\x7b" = false)
    ⟨fun ⟨noMax, noNumber, noTemplate⟩ => ⟨noMax, noNumber, noTemplate⟩,
      fun ⟨noMax, noNumber, noTemplate⟩ => ⟨noMax, noNumber, noTemplate⟩⟩

/-- All members inside the type have such names. -/
def AllLegible (t : TypeSpec) : Prop := ∀ u ∈ t.held, ∀ f ∈ u.fields, Legible f.name

instance (t : TypeSpec) : Decidable (AllLegible t) :=
    inferInstanceAs (Decidable (∀ u ∈ t.held, ∀ f ∈ u.fields, Legible f.name))

private theorem registered : Entry.ofProfile profile ∈ Registry.standard.entries := by simp [Registry.standard]

private theorem regular : dialect.toLexicon.Regular := (registered_regular registered).lexicon

private theorem quotesNames : dialect.toLexicon.QuotesNames := registered_quotesNames registered

private theorem splitsAngles : dialect.toLexicon.SplitsAngles := by
  intro op member
  rw [Lexicon.longOperators, List.mem_mergeSort] at member
  exact (show ∀ op ∈ Lexicon.baseOperators ++ ["->", "<=>", "&&"], ¬['>', '>'] <+: op.toList by decide) op member

/-! ### Texts that begin with no operator -/

/-- The text begins with a character that is no operator. -/
def Opens (text : String) : Prop := ∃ c cs, text.toList = c :: cs ∧ singleOperators.contains c = false

theorem Opens.stops {text : String} (opens : Opens text) (tail : List Char) :
    StopsAt singleOperators.contains (text.toList ++ tail) := by
  obtain ⟨c, cs, shape, noOperator⟩ := opens
  rintro d held
  rw [shape] at held
  cases held
  exact noOperator

theorem Opens.append {text : String} (opens : Opens text) (more : String) : Opens (text ++ more) := by
  obtain ⟨c, cs, shape, noOperator⟩ := opens
  exact ⟨c, cs ++ more.toList, by rw [String.toList_append, shape, List.cons_append], noOperator⟩

theorem opens_of {kind : Char → Bool} (apart : ∀ c ∈ singleOperators, kind c = false) {text : String}
    {c : Char} {cs : List Char}
    (shape : text.toList = c :: cs) (held : kind c = true) : Opens text := by
  refine ⟨c, cs, shape, ?_⟩
  rw [Bool.eq_false_iff]
  intro single
  rw [apart c (by simpa using single)] at held
  cases held

theorem opens_word {text : String} (shape : IsWord text) : Opens text := by
  obtain ⟨c, cs, shape, starts, _⟩ := shape
  exact opens_of (forall_of_all (by decide)) shape starts

theorem commas_cons (first second : String) (others : List String) :
    Printer.commas (first :: second :: others) = first ++ (", " ++ Printer.commas (second :: others)) := by
  simp [Printer.commas, String.intercalate_cons_cons, String.append_assoc]

theorem opens_commas {first : String} (opens : Opens first) (others : List String) :
    Opens (Printer.commas (first :: others)) := by
  cases others with
  | nil => simpa [Printer.commas] using opens
  | cons second others =>
    rw [commas_cons]
    exact opens.append _

/-! ### Names of members -/

/-- What follows the name of a member. -/
def Colon (tail : List Char) : Prop := tail.head? = some ':'

theorem Colon.stops {kind : Char → Bool} (other : kind ':' = false) {tail : List Char} (colon : Colon tail) :
    StopsAt kind tail := by
  intro c held
  rw [colon] at held
  cases held
  exact other

private theorem upperChar_digit {c : Char} (digit : c.isDigit = true) : Text.upperChar c = c := by
  have checked : ∀ n < 0x80, (Char.ofNat n).isDigit = true →
    Text.upperChar (Char.ofNat n) = Char.ofNat n := by decide +kernel
  have small : c.toNat < 0x80 := by
    simp only [Char.isDigit, Bool.and_eq_true, decide_eq_true_eq] at digit
    have below : c.toNat ≤ '9'.toNat := digit.2
    exact Nat.lt_of_le_of_lt below (by decide)
  have fixed := checked c.toNat small
  rw [Char.ofNat_toNat] at fixed
  exact fixed digit

private theorem start_of_upper {c : Char} (starts : isIdentStart (Text.upperChar c) = true) :
    isIdentStart c = true := by
  by_cases small : c.toNat < 0x80
  · have checked : ∀ n < 0x80, isIdentStart (Text.upperChar (Char.ofNat n)) = true →
      isIdentStart (Char.ofNat n) = true := by
      decide +kernel
    have found := checked c.toNat small
    rw [Char.ofNat_toNat] at found
    exact found starts
  · simp [isIdentStart, Nat.le_of_not_lt small]

theorem number_bare {name : String} (some : name ≠ "") (digits : name.toList.all Char.isDigit = true) :
    Printer.needsQuotes dialect.toLexicon name = false := by
  have free : ∀ word ∈ dialect.reserved, word.toList.head?.any Char.isDigit = false := by decide
  have same : Text.upper name = name := by
    rw [← String.toList_inj, Text.toList_upper]
    have fixed : ∀ c ∈ name.toList, Text.upperChar c = c :=
      fun c member => upperChar_digit (List.all_eq_true.mp digits c member)
    rw [List.map_congr_left fixed, List.map_id']
  cases shape : name.toList with
  | nil => exact absurd (String.toList_eq_nil_iff.mp shape) some
  | cons c cs =>
    rw [shape, List.all_cons, Bool.and_eq_true] at digits
    have unreserved : dialect.isReserved (Text.upper name) = false := by
      rw [same, Lexicon.isReserved, Bool.eq_false_iff]
      intro reserved
      have head := free name (by simpa using reserved)
      simp [shape, digits] at head
    simp [Printer.needsQuotes, unreserved, shape, digits]

theorem max_bare {name : String} (greatest : Text.upper name = "MAX") :
    Printer.needsQuotes dialect.toLexicon name = false := by
  have unreserved : dialect.isReserved "MAX" = false := by decide
  have letters : name.toList.map Text.upperChar = ['M', 'A', 'X'] := by rw [← Text.toList_upper, greatest]; rfl
  have starts : ∀ c ∈ name.toList, isIdentStart c = true := by
    intro c member
    have upper := List.mem_map_of_mem (f := Text.upperChar) member
    rw [letters] at upper
    have facts : ∀ c ∈ ['M', 'A', 'X'], isIdentStart c = true := forall_of_all (by decide)
    exact start_of_upper (facts _ upper)
  have noDigit : ∀ c ∈ name.toList, c.isDigit = false := by
    intro c member
    rw [Bool.eq_false_iff]
    intro digit
    have upper := List.mem_map_of_mem (f := Text.upperChar) member
    rw [letters, upperChar_digit digit] at upper
    have facts : ∀ c ∈ ['M', 'A', 'X'], c.isDigit = false := forall_of_all (by decide)
    rw [facts c upper] at digit
    cases digit
  cases shape : name.toList with
  | nil => simp [shape] at letters
  | cons c cs =>
    rw [shape] at starts noDigit
    have all : cs.all isIdentChar = true :=
      List.all_eq_true.mpr fun c member => by simp [isIdentChar, starts c (List.mem_cons_of_mem _ member)]
    simp [Printer.needsQuotes, greatest, unreserved, shape, starts c List.mem_cons_self,
      noDigit c List.mem_cons_self, all]

/-- The name of a member is read as a name if it is legible, and as a length or a number otherwise. -/
theorem ident_spells {name : String} (some : name ≠ "") (noTemplate : name.startsWith "$\x7b" = false) :
    Opens (printer.ident ⟨name, false⟩) ∧ ∃ label, SpellsBefore dialect.toLexicon Colon
    (printer.ident ⟨name, false⟩).toList [label] ∧
      (Legible name → IsLabel dialect name label) ∧
      (¬Legible name → (∃ w, label = word dialect.toLexicon w ∧ Text.upper w = "MAX") ∨ label = number name) := by
  have ident : printer.ident ⟨name, false⟩ =
      if Printer.needsQuotes dialect.toLexicon name then Printer.quoteIdent dialect.toLexicon name else name := by
    have plain : (!false && name.startsWith "$\x7b") = false := by rw [noTemplate, Bool.and_false]
    rw [Printer.ident, if_neg (by rw [plain]; exact Bool.false_ne_true)]
    rfl
  rw [ident]
  by_cases needs : Printer.needsQuotes dialect.toLexicon name = true
  · have legible : Legible name := by
      refine ⟨fun greatest => ?_, ?_, noTemplate⟩
      · rw [max_bare greatest] at needs
        cases needs
      · rw [Bool.eq_false_iff]
        intro digits
        rw [number_bare some digits] at needs
        cases needs
    rw [if_pos needs]
    refine ⟨?_, _, (spellsBefore_quotedName regular quotesNames name).weaken fun tail colon => colon.stops (by decide),
      fun _ => .inl rfl, fun illegible => absurd legible illegible⟩
    exact ⟨'\x60', Printer.doubled '\x60' name.toList ++ ['\x60'], String.toList_ofList, by decide⟩
  rw [if_neg needs]
  have unneeded := needs
  simp only [Printer.needsQuotes, Bool.or_eq_true, not_or, Bool.not_eq_true] at unneeded
  obtain ⟨free, shaped⟩ := unneeded
  cases shape : name.toList with
  | nil => exact absurd (String.toList_eq_nil_iff.mp shape) some
  | cons c cs =>
    simp only [shape] at shaped
    by_cases digit : c.isDigit = true
    · rw [if_pos digit, Bool.not_eq_false'] at shaped
      have digits : name.toList.all Char.isDigit = true := by rw [shape, List.all_cons, digit, shaped]; rfl
      refine ⟨opens_of (forall_of_all (by decide)) shape digit, number name, ?_, fun legible => ?_, fun _ => .inr rfl⟩
      · rw [← shape]
        exact (spellsBefore_digits regular (by simp [shape]) (List.all_eq_true.mp digits)).weaken fun tail colon =>
          colon.stops (by decide)
      · rw [legible.noNumber] at digits
        cases digits
    · rw [if_neg digit, Bool.or_eq_false_iff, Bool.not_eq_false', Bool.not_eq_false'] at shaped
      have isWord : IsWord name := ⟨c, cs, shape, shaped⟩
      have noNumber : name.toList.all Char.isDigit = false := by
        rw [shape, List.all_cons, Bool.not_eq_true _ |>.mp digit, Bool.false_and]
      refine ⟨opens_word isWord, word dialect.toLexicon name, ?_,
        fun legible => .inr ⟨rfl, legible.noMax⟩, fun illegible => ?_⟩
      · rw [← shape]
        exact (spellsBefore_isWord regular isWord).weaken fun tail colon => colon.stops (by decide)
      · refine .inl ⟨name, rfl, ?_⟩
        exact Decidable.byContradiction fun noMax => illegible ⟨noMax, noNumber, noTemplate⟩

/-! ### Elements and types with their texts -/

/-- All members inside the element have legible names. -/
def LegibleElement : Element → Prop
  | .number _ => True
  | .inner t => AllLegible t
  | .field name t => Legible name ∧ AllLegible t

/-- The text is read as the element if that is legible; if not, the list that it stands in is refused. -/
structure Faithful (text : String) (e : Element) : Prop where
  opens : Opens text
  written : LegibleElement e → ∃ ts, SpellsBefore dialect.toLexicon Closes text.toList ts ∧ ReadsElement dialect e ts
  misread : ¬LegibleElement e → Leads dialect.toLexicon (RefusesElements dialect .angle) text.toList

/-- The text begins with a word and is read as the type if that is legible; if not, the type is refused. -/
structure FaithfulType (text : String) (t : TypeSpec) : Prop where
  opens : Opens text
  written : AllLegible t → ∃ w us, SpellsBefore dialect.toLexicon Closes text.toList (word dialect.toLexicon w :: us) ∧
    ReadsType dialect t (word dialect.toLexicon w :: us) ∧ Text.upper w ≠ "MAX" ∧
    ∀ u ∈ us.head?, u.isWord = false ∧ u.isOp ":" = false
  misread : ¬AllLegible t → Leads dialect.toLexicon (RefusesType dialect) text.toList

theorem FaithfulType.inner {text : String} {t : TypeSpec} (faithful : FaithfulType text t) :
    Faithful text (.inner t) := by
  refine ⟨faithful.opens, fun legible => ?_, fun illegible =>
    (faithful.misread illegible).weaken fun _ refused => refused.element⟩
  obtain ⟨w, us, spells, reads, noMax, next⟩ := faithful.written legible
  exact ⟨_, spells, reads.element noMax next⟩

/-- A colon behind what comes in front of one. -/
theorem spellsBefore_colon {text : String} {label : Token}
    (spells : SpellsBefore dialect.toLexicon Colon text.toList [label]) :
    SpellsBefore dialect.toLexicon (StopsAt singleOperators.contains) (text ++ ":").toList
    [label, punctuation ":"] := by
  rw [String.toList_append]
  exact spells.append (spellsBefore_mark regular (c := ':') (by decide) (by decide)) fun tail _ => rfl

theorem leads_template {name : String} (template : name.startsWith "$\x7b" = true) :
    Opens name ∧ Leads dialect.toLexicon (RefusesElements dialect .angle) name.toList := by
  obtain ⟨cs, shape⟩ : ∃ cs, name.toList = '$' :: '\x7b' :: cs := by
    obtain ⟨cs, shape⟩ := String.startsWith_string_iff.mp template
    exact ⟨cs, shape.symm⟩
  refine ⟨⟨'$', _, shape, by decide⟩, ?_⟩
  intro tail pos tokens scanned
  rw [shape, List.cons_append, List.cons_append] at scanned
  have still : skipGap dialect.toLexicon .code pos ('$' :: '\x7b' :: (cs ++ tail)) =
    .ok (pos, '$' :: '\x7b' :: (cs ++ tail)) :=
    skipGap_still (by decide) (fun equal => absurd equal (by decide)) fun equal => absurd equal (by decide)
  have plain : '$' ∉ ['\x27', '\x22', '\x60'] := by decide
  have braced : ('$' = '$' && ('\x7b' :: (cs ++ tail)).head? = some '\x7b') = true := by simp
  cases found : readTemplate ('$' :: '\x7b' :: (cs ++ tail)) with
  | none =>
    have read : readLexeme dialect.toLexicon pos '$' ('\x7b' :: (cs ++ tail)) = .error (.lex pos .openParameter) := by
      unfold readLexeme
      rw [if_neg (not_string regular plain), if_neg (not_name regular plain), if_pos braced, found]
    simp only [scan, tokensFrom, still, read] at scanned
    cases scanned
  | some template =>
    have read : readLexeme dialect.toLexicon pos '$' ('\x7b' :: (cs ++ tail)) =
      .ok ⟨.parameter, template.1, template.2⟩ := by
      unfold readLexeme
      rw [if_neg (not_string regular plain), if_neg (not_name regular plain), if_pos braced, found]
    rw [scan_lexeme regular still read] at scanned
    cases later : scan dialect.toLexicon (after pos ('$' :: '\x7b' :: (cs ++ tail)) template.2) template.2 with
    | error e => rw [later] at scanned; cases scanned
    | ok rest =>
      rw [later] at scanned
      cases scanned
      exact refusesElements_parameter rfl

/-- A member of a struct. -/
theorem FaithfulType.field {text : String} {t : TypeSpec} (faithful : FaithfulType text t)
    {name : String} (some : name ≠ "") :
    Faithful (printer.ident ⟨name, false⟩ ++ ":" ++ text) (.field name t) := by
  by_cases template : name.startsWith "$\x7b" = true
  · obtain ⟨opens, leads⟩ := leads_template template
    have bare : printer.ident ⟨name, false⟩ = name := by
      rw [Printer.ident, if_pos (by rw [template]; rfl)]
    rw [bare, String.append_assoc]
    refine ⟨opens.append _, fun legible => ?_, fun _ => ?_⟩
    · rw [legible.1.noTemplate] at template
      cases template
    · rw [String.toList_append]
      exact leads.append _
  · obtain ⟨opens, label, spells, isName, noName⟩ := ident_spells some (Bool.not_eq_true _ |>.mp template)
    have front := spellsBefore_colon spells
    have meets : ∀ tail, StopsAt singleOperators.contains (text.toList ++ tail) := faithful.opens.stops
    refine ⟨(opens.append _).append _, fun legible => ?_, fun illegible => ?_⟩
    · obtain ⟨w, us, rest, reads, _⟩ := faithful.written legible.2
      refine ⟨_, ?_, reads.field (isName legible.1)⟩
      rw [String.toList_append]
      exact front.append rest fun tail _ => meets tail
    · rw [String.toList_append]
      by_cases named : Legible name
      · refine (front.leads (faithful.misread fun inner => illegible ⟨named, inner⟩) meets).weaken ?_
        rintro _ ⟨rest, rfl, refused⟩
        exact refused.field (isName named)
      · refine (front.leads (leads_any fun _ => trivial) meets).weaken ?_
        rintro _ ⟨rest, rfl, _⟩
        obtain ⟨w, rfl, greatest⟩ | rfl := noName named
        · exact refusesElements_max greatest
        · exact refusesElements_number name

/-! ### Lists of elements -/

theorem toList_commas (first second : String) (others : List String) :
    (Printer.commas (first :: second :: others)).toList =
    first.toList ++ ',' :: ' ' :: (Printer.commas (second :: others)).toList := by
  rw [commas_cons, String.toList_append, String.toList_append]
  rfl

private theorem closes_comma (tail : List Char) : Closes (',' :: tail) := by
  rintro c ⟨⟩
  exact .inl (by decide)

theorem elements_written {parts : List String} {es : List Element} (faithful : List.Forall₂ Faithful parts es)
    (some : parts ≠ []) (legible : ∀ e ∈ es, LegibleElement e) :
    ∃ us, SpellsBefore dialect.toLexicon Closes (Printer.commas parts).toList us ∧ ReadsElements dialect es us := by
  induction faithful with
  | nil => exact absurd rfl some
  | @cons part e parts es first later ih =>
    obtain ⟨ts, spells, reads⟩ := first.written (legible e List.mem_cons_self)
    cases later with
    | nil =>
      refine ⟨ts, ?_, .single reads⟩
      simpa [Printer.commas] using spells
    | cons second others =>
      obtain ⟨us, rest, all⟩ := ih (List.cons_ne_nil _ _) fun e member => legible e (List.mem_cons_of_mem _ member)
      refine ⟨_, ?_, .cons reads all⟩
      rw [toList_commas]
      exact spells.comma regular closes_comma rest

theorem elements_misread {parts : List String} {es : List Element} (faithful : List.Forall₂ Faithful parts es)
    (illegible : ∃ e ∈ es, ¬LegibleElement e) :
    Leads dialect.toLexicon (RefusesElements dialect .angle) (Printer.commas parts).toList := by
  induction faithful with
  | nil =>
    obtain ⟨_, member, _⟩ := illegible
    cases member
  | @cons part e parts es first later ih =>
    by_cases legible : LegibleElement e
    · obtain ⟨ts, spells, reads⟩ := first.written legible
      have behind : ∃ e ∈ es, ¬LegibleElement e := by
        obtain ⟨other, member, bad⟩ := illegible
        obtain rfl | member := List.mem_cons.mp member
        · exact absurd legible bad
        · exact ⟨other, member, bad⟩
      cases later with
      | nil =>
        obtain ⟨_, member, _⟩ := behind
        cases member
      | cons second others =>
        rw [toList_commas]
        refine (spells.leads_comma regular closes_comma (ih behind)).weaken ?_
        rintro _ ⟨rest, rfl, refused⟩
        exact refused.after reads
    · have leads := first.misread legible
      cases later with
      | nil => simpa [Printer.commas] using leads
      | cons second others =>
        rw [toList_commas]
        exact leads.append _

/-! ### Types -/

theorem faithful_group {name : String} {parts : List String} {es : List Element} {t : TypeSpec} (shape : IsWord name)
    (upper : Text.upper name = name) (noMax : name ≠ "MAX")
      (faithful : List.Forall₂ Faithful parts es) (some : parts ≠ [])
    (legible : AllLegible t ↔ ∀ e ∈ es, LegibleElement e)
    (means : ∀ n : NativeType, n.bare = (es.foldl NativeType.add { pos := {}, name }).bare →
      ∃ read, spelled dialect n = .ok read ∧ read.bare = t.bare) :
    FaithfulType (name ++ ("<" ++ Printer.commas parts ++ ">")) t := by
  have opens : Opens (Printer.commas parts) := by
    cases faithful with
    | nil => exact absurd rfl some
    | cons first _ => exact opens_commas first.opens _
  have text : (name ++ ("<" ++ Printer.commas parts ++ ">")).toList =
      name.toList ++ ['<'] ++ (Printer.commas parts).toList ++ ['>'] := by
    simp [String.toList_append]
  have front : SpellsBefore dialect.toLexicon (StopsAt singleOperators.contains) (name.toList ++ ['<'])
      [word dialect.toLexicon name, operator "<"] := by
    refine (spellsBefore_isWord regular shape).append
      (spellsBefore_mark regular (c := '<') (by decide) (by decide)) fun tail _ => ?_
    rintro c ⟨⟩
    decide
  refine ⟨(opens_word shape).append _, fun good => ?_, fun bad => ?_⟩
  · obtain ⟨inside, spells, reads⟩ := elements_written faithful some (legible.mp good)
    have named := SpellsName.single (d := dialect) name
    rw [upper] at named
    have group : ReadsGroup dialect es (opening .angle :: (inside ++ [closing .angle])) := .some .angle reads
    refine ⟨name, _, ?_, named.reads group means, by rwa [upper], ?_⟩
    · have body := spells.append (spellsBefore_angle regular splitsAngles) fun tail _ c held => by
        cases held
        exact .inr rfl
      rw [text, List.append_assoc]
      refine front.append body fun tail _ => ?_
      rw [List.append_assoc]
      exact opens.stops _
    · rintro u ⟨⟩
      decide
  · have illegible : ∃ e ∈ es, ¬LegibleElement e := by
      by_contra none
      exact bad (legible.mpr fun e member => by_contra fun bad => none ⟨e, member, bad⟩)
    rw [text]
    refine ((front.leads (elements_misread faithful illegible) opens.stops).append _).weaken ?_
    rintro _ ⟨rest, rfl, refused⟩
    exact ⟨name, rest, rfl, by rwa [upper], refused⟩

/-- The rule for a leaf. -/
def leafRule (leaf : String × Nat) : TypeRule :=
  if leaf.1 = "VARCHAR" then .varchar
  else if leaf.1 ∈ ["TINYINT", "SMALLINT", "INT", "BIGINT", "DECIMAL", "CHAR", "DATETIME"] then .keep leaf.1
  else .plain leaf.1

private theorem leaf_rules : ∀ leaf ∈ leaves, dialect.types.find? leaf.1 = some (leafRule leaf) := by
  have table : leaves.map (fun leaf => dialect.types.find? leaf.1) = leaves.map (fun leaf => some (leafRule leaf)) := by
    with_unfolding_all rfl
  exact List.map_inj_left.mp table

private theorem leaf_names : ∀ leaf ∈ leaves, IsWord leaf.1 ∧ Text.upper leaf.1 = leaf.1 ∧
    leaf.1 ∉ ["ARRAY", "MAP", "STRUCT", "MAX"] ∧
    dialect.typeNames.find? leaf.1 = some leaf.1 ∧ dialect.unsupportedTypes.contains leaf.1 = false := by
  decide +kernel

/-- A leaf keeps all numbers that it has. -/
theorem leafRule_reads {name : String} {params : List Int} (known : (name, params.length) ∈ leaves)
    (sized : ∀ n ∈ params, Decimal.fits 64 n) {n : NativeType}
    (same : n.bare = ({ pos := {}, name, params := params.map Int.repr } : NativeType).bare) :
    ∃ read, leafRule (name, params.length) n = .ok read ∧ read.bare = ({ name, params } : TypeSpec).bare := by
  simp only [NativeType.bare, NativeType.mk.injEq, bareElems_eq, bareFields_eq, List.map_nil,
    List.map_eq_nil_iff] at same
  obtain ⟨_, rfl, written, args, fields, _⟩ := same
  have numbers : n.intParams = params := by rw [NativeType.intParams, written, intParams_repr sized]
  have counts : ∀ leaf ∈ leaves, (leaf.1 = "VARCHAR" → leaf.2 = 1) ∧ (leaf.1 ≠ "VARCHAR" →
      leaf.1 ∉ ["TINYINT", "SMALLINT", "INT", "BIGINT", "DECIMAL", "CHAR", "DATETIME"] → leaf.2 = 0) := by
    decide
  obtain ⟨one, none⟩ := counts _ known
  unfold leafRule
  split
  · next varchar =>
    have whole : n.intParams.take 1 = params := by rw [numbers, List.take_of_length_le (Nat.le_of_eq (one varchar))]
    exact ⟨_, rfl, by rw [whole, ← varchar]; rfl⟩
  split
  · exact ⟨_, rfl, by rw [TypeSpec.bare, numbers, args, fields]; rfl⟩
  · next varchar kept =>
    have empty : params = [] := List.length_eq_zero_iff.mp (none varchar kept)
    exact ⟨_, rfl, by rw [empty]; rfl⟩

/-! ### Printing -/

private theorem group_names : ∀ name ∈ ["ARRAY", "MAP", "STRUCT"], IsWord name ∧ Text.upper name = name ∧ name ≠ "MAX" ∧
    dialect.typeNames.find? name = some name ∧ dialect.unsupportedTypes.contains name = false := by
  decide +kernel

theorem typeSpec_eq {t : TypeSpec} (canonical : t.native = false)
    (spelled : dialect.typeNames.find? t.name = some t.name)
    (supported : dialect.unsupportedTypes.contains t.name = false) : printer.typeSpec t =
      if t.name = "ARRAY" || t.name = "MAP" then
        (fun parts => t.name ++ ("<" ++ Printer.commas parts ++ ">")) <$> printer.typeElems t.elems
      else if t.name = "STRUCT" then
        (fun parts => t.name ++ ("<" ++ Printer.commas parts ++ ">")) <$> printer.typeFields t.fields
      else .ok (t.name ++ Printer.typeParams t.params) := by
  have accepted : printer.refuses t = false := by
    rw [Printer.refuses, canonical, if_neg Bool.false_ne_true]
    exact supported
  have angles (parts : List String) : printer.typeArgs parts = "<" ++ Printer.commas parts ++ ">" := rfl
  have suffix : printer.dialect.hints.arraySuffix = false := rfl
  have same : Text.equalFold t.name t.name = true := beq_self_eq_true _
  have found : printer.dialect.typeNames.find? t.name = some t.name := spelled
  simp only [Printer.typeSpec_canonical canonical accepted, suffix, Bool.and_false, Bool.false_eq_true, if_false, found,
    Option.getD_some, angles, Printer.plainType, same, Bool.true_or, if_true]

/-- The members of a struct, with their texts. -/
theorem faithful_fields {fields : List TypeField} (named : ∀ f ∈ fields, f.name ≠ "")
    (each : ∀ f ∈ fields, ∃ text, printer.typeSpec f.type = .ok text ∧ FaithfulType text f.type) :
    ∃ parts, printer.typeFields fields = .ok parts ∧
    List.Forall₂ Faithful parts (fields.map fun f => .field f.name f.type) := by
  induction fields with
  | nil => exact ⟨[], rfl, .nil⟩
  | cons f fields ih =>
    obtain ⟨text, printed, faithful⟩ := each f List.mem_cons_self
    obtain ⟨parts, rest, all⟩ := ih (fun f member => named f (List.mem_cons_of_mem _ member)) fun f member =>
      each f (List.mem_cons_of_mem _ member)
    obtain ⟨name, t⟩ := f
    refine ⟨(printer.ident ⟨name, false⟩ ++ ":" ++ text) :: parts, ?_,
      .cons (faithful.field (named _ List.mem_cons_self)) all⟩
    rw [Printer.typeFields, printed, rest]
    rfl

theorem foldl_fields (n : NativeType) (fields : List TypeField) :
    (fields.map fun f => Element.field f.name f.type).foldl NativeType.add n =
    { n with fields := n.fields ++ fields } := by
  induction fields generalizing n with
  | nil => simp
  | cons f fields ih =>
    obtain ⟨name, t⟩ := f
    simp [ih, NativeType.add]

/-! ### Trees -/

theorem faithful_leaf {pos : Position} {name : String} {params : List Int} (known : (name, params.length) ∈ leaves)
    (sized : ∀ n ∈ params, Decimal.fits 64 n) : FaithfulType (name ++ Printer.typeParams params)
    { pos, name, params } := by
  obtain ⟨shape, upper, apart, _⟩ : IsWord name ∧ Text.upper name = name ∧
    name ∉ ["ARRAY", "MAP", "STRUCT", "MAX"] ∧ _ :=
    leaf_names _ known
  simp only [List.mem_cons, List.not_mem_nil, or_false, not_or] at apart
  have legible : AllLegible { pos, name, params } := by
    intro u member f inside
    rw [TypeSpec.held_eq] at member
    obtain rfl : u = { pos, name, params } := by simpa [apart] using member
    cases inside
  refine ⟨(opens_word shape).append _, fun _ => ?_, fun illegible => absurd legible illegible⟩
  obtain ⟨us, group, spells⟩ := spellsBefore_params regular (spellsBefore_isWord regular shape) params
  have named := SpellsName.single (d := dialect) name
  rw [upper] at named
  refine ⟨name, us, spells, named.reads group fun n same => ?_, by rw [upper]; exact apart.2.2.2, group.head⟩
  rw [foldl_numbers, List.nil_append] at same
  have found : n.name = name := congrArg NativeType.name same
  rw [spelled, found, leaf_rules _ known]
  exact leafRule_reads known sized same

/-- The rules for arrays and maps keep the inner types. -/
theorem reads_elems {name : String} {rule : TypeRule} {elems : List TypeSpec}
    (found : dialect.types.find? name = some rule)
    (rules : ∀ n : NativeType, n.args.length = elems.length → rule n = .ok { pos := n.pos, name, elems := n.args })
    {n : NativeType} (same : n.bare = ({ pos := {}, name, args := elems } : NativeType).bare) :
    ∃ read, spelled dialect n = .ok read ∧ read.bare = ({ name, elems } : TypeSpec).bare := by
  simp only [NativeType.bare, NativeType.mk.injEq, bareElems_eq] at same
  obtain ⟨_, named, _, args, _⟩ := same
  have sizes : n.args.length = elems.length := by simpa using congrArg List.length args
  refine ⟨_, by rw [spelled, named, found]; exact rules n sizes, ?_⟩
  rw [TypeSpec.bare, TypeSpec.bare, bareElems_eq, bareElems_eq, args]

/-- The rule for structs keeps the members. -/
theorem reads_fields {fields : List TypeField} (inhabited : fields ≠ []) {n : NativeType}
    (same : n.bare = ({ pos := {}, name := "STRUCT", fields } : NativeType).bare) :
    ∃ read, spelled dialect n = .ok read ∧ read.bare = ({ name := "STRUCT", fields } : TypeSpec).bare := by
  have found : dialect.types.find? "STRUCT" = some .struct := by with_unfolding_all rfl
  simp only [NativeType.bare, NativeType.mk.injEq, bareElems_eq, bareFields_eq, List.map_nil,
    List.map_eq_nil_iff] at same
  obtain ⟨_, named, _, args, members, _⟩ := same
  have nonempty : n.fields ≠ [] := by
    intro empty
    rw [empty, List.map_nil, eq_comm, List.map_eq_nil_iff] at members
    exact inhabited members
  refine ⟨{ pos := n.pos, name := "STRUCT", fields := n.fields }, ?_, ?_⟩
  · rw [spelled, named, found]
    simp [TypeRule.struct, args, nonempty]
  · rw [TypeSpec.bare, TypeSpec.bare, bareFields_eq, bareFields_eq, members]

theorem allLegible_struct {pos : Position} {fields : List TypeField} :
    AllLegible { pos, name := "STRUCT", fields } ↔ ∀ f ∈ fields, Legible f.name ∧ AllLegible f.type := by
  have held (u : TypeSpec) : u ∈ (⟨pos, "STRUCT", [], [], fields, false⟩ : TypeSpec).held ↔
      u = ⟨pos, "STRUCT", [], [], fields, false⟩ ∨ ∃ f ∈ fields, u ∈ f.type.held := by
    rw [TypeSpec.held_eq]
    simp [mem_heldFields]
  constructor
  · intro all f member
    exact ⟨all _ ((held _).mpr (.inl rfl)) f member, fun u inside => all u ((held u).mpr (.inr ⟨f, member, inside⟩))⟩
  · intro each u member f inside
    obtain rfl | ⟨outer, listed, deeper⟩ := (held u).mp member
    · exact (each f inside).1
    · exact (each outer listed).2 u deeper f inside

theorem TypeTree.faithful {t : TypeSpec} (tree : TypeTree t) :
    ∃ text, printer.typeSpec t = .ok text ∧ FaithfulType text t := by
  induction tree with
  | @leaf pos name params known sized =>
    obtain ⟨_, _, apart, spelled, supported⟩ := leaf_names _ known
    simp only [List.mem_cons, List.not_mem_nil, or_false, not_or] at apart
    refine ⟨_, ?_, faithful_leaf known sized⟩
    rw [typeSpec_eq rfl spelled supported]
    simp [apart]
  | @array pos t inner ih =>
    obtain ⟨text, printed, faithful⟩ := ih
    obtain ⟨shape, upper, noMax, spelled, supported⟩ := group_names "ARRAY" (by simp)
    have rule : dialect.types.find? "ARRAY" = some .array := by with_unfolding_all rfl
    refine ⟨_, ?_, faithful_group shape upper noMax (.cons faithful.inner .nil)
      (List.cons_ne_nil text []) ?_ fun n same =>
      @reads_elems "ARRAY" .array [t] rule (fun n one => if_pos one) n same⟩
    · rw [typeSpec_eq rfl spelled supported]
      simp [Printer.typeElems, printed]
      rfl
    · simp [AllLegible, LegibleElement, TypeSpec.held_eq ⟨pos, "ARRAY", [], [t], [], false⟩, mem_heldElems]
  | @map pos key value keys values ihKey ihValue =>
    obtain ⟨first, printedFirst, faithfulFirst⟩ := ihKey
    obtain ⟨second, printedSecond, faithfulSecond⟩ := ihValue
    obtain ⟨shape, upper, noMax, spelled, supported⟩ := group_names "MAP" (by simp)
    have rule : dialect.types.find? "MAP" = some .map := by with_unfolding_all rfl
    refine ⟨_, ?_, faithful_group shape upper noMax (.cons faithfulFirst.inner (.cons faithfulSecond.inner .nil))
      (List.cons_ne_nil first [second]) ?_ fun n same =>
      @reads_elems "MAP" .map [key, value] rule (fun n two => if_pos two) n same⟩
    · rw [typeSpec_eq rfl spelled supported]
      simp [Printer.typeElems, printedFirst, printedSecond]
      rfl
    · simp [AllLegible, LegibleElement, TypeSpec.held_eq ⟨pos, "MAP", [], [key, value], [], false⟩,
        mem_heldElems, or_imp,
        forall_and]
  | @struct pos fields some named inner ih =>
    obtain ⟨parts, printed, faithful⟩ := faithful_fields named ih
    obtain ⟨shape, upper, noMax, spelled, supported⟩ := group_names "STRUCT" (by simp)
    have nonempty : parts ≠ [] := by
      rintro rfl
      cases fields with
      | nil => exact some rfl
      | cons f fields => cases faithful
    refine ⟨_, ?_, faithful_group shape upper noMax faithful nonempty ?_ fun n same => reads_fields some ?_⟩
    · rw [typeSpec_eq rfl spelled supported]
      simp [printed]
    · simpa [LegibleElement] using allLegible_struct
    · rwa [foldl_fields, List.nil_append] at same

/-- What is printed of a type is read back as the same type if the members of all structs in it have legible names; if
one has not, nothing is read. -/
theorem doris_type_reread {t : TypeSpec} (tree : TypeTree t) : ∃ text, printer.typeSpec t = .ok text ∧
    (AllLegible t → ∃ u, parseType dialect text = .ok u ∧ u.equal t = true) ∧
    (¬AllLegible t → ∃ e, parseType dialect text = .error e) := by
  obtain ⟨text, printed, faithful⟩ := tree.faithful
  refine ⟨text, printed, fun legible => ?_, fun illegible => parseType_refused (faithful.misread illegible)⟩
  obtain ⟨w, us, spells, reads, _⟩ := faithful.written legible
  obtain ⟨u, read, same⟩ := reads.parse (spells.weaken fun tail breaks c held => .inl (breaks c held))
  exact ⟨u, read, (u.equal_iff t).mpr same⟩

/-- Names that have to be quoted, in a struct in an array in a map. -/
theorem nested_struct_reread : ∃ t text u, TypeTree t ∧ AllLegible t ∧ printer.typeSpec t = .ok text ∧
    text = "MAP<STRING, ARRAY<STRUCT<\x60select\x60:DECIMAL(10, 2), \x60a b\x60:VARCHAR(5)>>>" ∧
    parseType dialect text = .ok u ∧ u.equal t = true := by
  let members : TypeSpec := { name := "STRUCT", fields :=
    [⟨"select", { name := "DECIMAL", params := [10, 2] }⟩, ⟨"a b", { name := "VARCHAR", params := [5] }⟩] }
  let t : TypeSpec := { name := "MAP", elems := [{ name := "STRING" }, { name := "ARRAY", elems := [members] }] }
  have struct : TypeTree members := by
    refine .struct (List.cons_ne_nil _ _) (by decide) ?_
    rw [List.forall_mem_cons, List.forall_mem_singleton]
    exact ⟨.leaf (by decide) (by decide), .leaf (by decide) (by decide)⟩
  have tree : TypeTree t := .map (.leaf (by decide) (by decide)) (.array struct)
  have legible : AllLegible t := by decide +kernel
  have shown : (printer.typeSpec t).toOption =
      some "MAP<STRING, ARRAY<STRUCT<\x60select\x60:DECIMAL(10, 2), \x60a b\x60:VARCHAR(5)>>>" := by decide +kernel
  obtain ⟨text, printed, reread, _⟩ := doris_type_reread tree
  obtain ⟨u, read, same⟩ := reread legible
  rw [printed] at shown
  exact ⟨t, text, u, tree, legible, printed, Option.some.inj shown, read, same⟩

/-- A member named like the word for the greatest length is printed without quotes, and the text is refused. -/
theorem max_member_unread : ∃ t text e, TypeTree t ∧ printer.typeSpec t = .ok text ∧ text = "STRUCT<max:INT>" ∧
    parseType dialect text = .error e := by
  let t : TypeSpec := { name := "STRUCT", fields := [⟨"max", { name := "INT" }⟩] }
  have tree : TypeTree t := by
    refine .struct (List.cons_ne_nil _ _) (by decide) ?_
    rw [List.forall_mem_singleton]
    exact .leaf (by decide) (by decide)
  have illegible : ¬AllLegible t := by decide +kernel
  have shown : (printer.typeSpec t).toOption = some "STRUCT<max:INT>" := by decide +kernel
  obtain ⟨text, printed, faithful⟩ := tree.faithful
  obtain ⟨e, refused⟩ := parseType_refused (faithful.misread illegible)
  rw [printed] at shown
  exact ⟨t, text, e, tree, printed, Option.some.inj shown, refused⟩

end Doris

end SqlDialects
