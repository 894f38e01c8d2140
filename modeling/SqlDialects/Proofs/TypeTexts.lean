import SqlDialects.Printer.Basic
import SqlDialects.Proofs.TypeReader

/-! The texts of types. A type is refused exactly if the target cannot hold it or one inside it, and the first such type
is the one that the error names; a type that is not refused is printed with the name of every type inside. A native type
is printed under the name that it was read with, and a name in quotes may be empty. -/

namespace SqlDialects

mutual

/-- A type and those inside it, each in front of its own: the elements of arrays and maps and the members of structs. -/
def TypeSpec.held : TypeSpec → List TypeSpec
  | ⟨pos, name, params, elems, fields, native⟩ =>
    ⟨pos, name, params, elems, fields, native⟩ ::
      if native then []
      else if name = "ARRAY" || name = "MAP" then heldElems elems
      else if name = "STRUCT" then heldFields fields
      else []

def heldElems : List TypeSpec → List TypeSpec
  | [] => []
  | t :: ts => t.held ++ heldElems ts

def heldFields : List TypeField → List TypeSpec
  | [] => []
  | ⟨_, t⟩ :: ts => t.held ++ heldFields ts

end

theorem mem_heldElems {ts : List TypeSpec} {u : TypeSpec} : u ∈ heldElems ts ↔ ∃ t ∈ ts, u ∈ t.held := by
  induction ts with
  | nil => simp [heldElems]
  | cons t ts ih => simp [heldElems, ih]

theorem mem_heldFields {fields : List TypeField} {u : TypeSpec} :
    u ∈ heldFields fields ↔ ∃ f ∈ fields, u ∈ f.type.held := by
  induction fields with
  | nil => simp [heldFields]
  | cons f fields ih =>
    obtain ⟨name, t⟩ := f
    simp [heldFields, ih]

variable {own : String → Prop} {t : TypeSpec}

/-- The four kinds of types by what they hold: native ones and leaves nothing, arrays and maps their elements, structs
their members. -/
theorem TypeSpec.held_eq (t : TypeSpec) : t.held = t ::
    (if t.native then [] else if t.name = "ARRAY" || t.name = "MAP" then
    heldElems t.elems else if t.name = "STRUCT" then heldFields t.fields else []) := by
  cases t
  rw [held]

theorem TypeSpec.Formed.held (formed : t.Formed own) : ∀ u ∈ t.held, u.Formed own := by
  induction formed with
  | @native t native named sized elems fields _ _ =>
    intro u member
    rw [t.held_eq, if_pos native, List.mem_singleton] at member
    exact member ▸ .native native named sized elems fields
  | @canonical t canonical known shaped elems fields inner members =>
    intro u member
    rw [t.held_eq, canonical, List.mem_cons] at member
    obtain rfl | inside := member
    · exact .canonical canonical known shaped elems fields
    simp only [Bool.false_eq_true, if_false] at inside
    split at inside
    · obtain ⟨e, listed, deeper⟩ := mem_heldElems.mp inside
      exact inner e listed u deeper
    split at inside
    · obtain ⟨f, listed, deeper⟩ := mem_heldFields.mp inside
      exact members f listed u deeper
    · cases inside

namespace Printer

variable {α β : Type} {p : Printer} {us vs : List TypeSpec} {outcome : Except Error α}

/-- The dialect cannot hold the type itself: it is another dialect's own or one that the dialect does without. -/
def refuses (p : Printer) (t : TypeSpec) : Bool :=
  if t.native then !p.printsNative else p.dialect.unsupportedTypes.contains t.name

/-- The error that names a type. -/
def refusal (p : Printer) (t : TypeSpec) : Error :=
  .unsupported (typeKind t.name) (p.source.getD "") p.dialect.name t.pos

/-! ### Refusals -/

/-- The outcome tells of the first of some types that is refused: a success says that there is none. -/
def Tells (p : Printer) (us : List TypeSpec) : Except Error α → Prop
  | .ok _ => us.find? p.refuses = none
  | .error e => ∃ u, us.find? p.refuses = some u ∧ e = p.refusal u

theorem Tells.ok_nil {a : α} : p.Tells [] (.ok a) := rfl

theorem Tells.bind {next : α → Except Error β} (first : p.Tells us outcome) (rest : ∀ a, p.Tells vs (next a)) :
    p.Tells (us ++ vs) (outcome >>= next) := by
  cases outcome with
  | error e =>
    obtain ⟨u, found, rfl⟩ := first
    exact ⟨u, by rw [List.find?_append, found, Option.some_or], rfl⟩
  | ok a =>
    have later := rest a
    change p.Tells (us ++ vs) (next a)
    have same : (us ++ vs).find? p.refuses = vs.find? p.refuses := by
      rw [List.find?_append, show us.find? p.refuses = none from first, Option.none_or]
    cases shape : next a <;> rw [shape] at later <;> rw [Tells, same] <;> exact later

theorem Tells.map {f : α → β} (first : p.Tells us outcome) : p.Tells us (f <$> outcome) := by
  cases outcome <;> exact first

theorem typeSpec_refused (refused : p.refuses t = true) : p.typeSpec t = .error (p.refusal t) := by
  obtain ⟨pos, name, params, elems, fields, native⟩ := t
  rw [typeSpec]
  unfold refuses at refused
  split at refused
  · next own =>
    rw [if_pos own, if_neg (by simpa using refused)]
    rfl
  · next canonical =>
    rw [if_neg canonical, if_pos refused]
    rfl

theorem typeSpec_native (native : t.native = true) (accepted : p.refuses t = false) :
    p.typeSpec t = .ok (t.name ++ typeParams t.params) := by
  obtain ⟨pos, name, params, elems, fields, native'⟩ := t
  rw [refuses, if_pos native, Bool.not_eq_false'] at accepted
  rw [typeSpec, if_pos native, if_pos accepted]

theorem typeSpec_canonical (canonical : t.native = false) (accepted : p.refuses t = false) :
    p.typeSpec t =
      if t.name = "ARRAY" && p.dialect.hints.arraySuffix then (· ++ "[]") <$> p.typeHead t.elems
      else if t.name = "ARRAY" || t.name = "MAP" then
        (fun parts => (p.dialect.typeNames.find? t.name).getD "" ++ p.typeArgs parts) <$> p.typeElems t.elems
      else if t.name = "STRUCT" then
        (fun parts => (p.dialect.typeNames.find? t.name).getD "" ++ p.typeArgs parts) <$> p.typeFields t.fields
      else .ok (p.plainType t.name t.params) := by
  obtain ⟨pos, name, params, elems, fields, native⟩ := t
  dsimp only at canonical
  subst canonical
  rw [refuses, if_neg Bool.false_ne_true] at accepted
  rw [typeSpec, if_neg Bool.false_ne_true, if_neg (by simpa using accepted)]
  rfl

theorem typeElems_tells {ts : List TypeSpec} (each : ∀ t ∈ ts, p.Tells t.held (p.typeSpec t)) :
    p.Tells (heldElems ts) (p.typeElems ts) := by
  induction ts with
  | nil => exact .ok_nil
  | cons t ts ih =>
    rw [heldElems, typeElems]
    exact (each t List.mem_cons_self).bind fun first =>
      (ih fun t later => each t (List.mem_cons_of_mem _ later)).map

theorem typeFields_tells {fields : List TypeField} (each : ∀ f ∈ fields, p.Tells f.type.held (p.typeSpec f.type)) :
    p.Tells (heldFields fields) (p.typeFields fields) := by
  induction fields with
  | nil => exact .ok_nil
  | cons f fields ih =>
    obtain ⟨name, t⟩ := f
    rw [heldFields, typeFields]
    exact (each ⟨name, t⟩ List.mem_cons_self).bind fun first =>
      (ih fun f later => each f (List.mem_cons_of_mem _ later)).map

theorem Tells.cons {us : List TypeSpec} (accepted : p.refuses t = false) (tells : p.Tells us outcome) :
    p.Tells (t :: us) outcome := by
  have skip : (t :: us).find? p.refuses = us.find? p.refuses := by rw [List.find?_cons, accepted]
  cases outcome <;> rw [Tells, skip] <;> exact tells

/-- The first refused type inside a type is the one that the error names. -/
theorem typeSpec_tells (formed : t.Formed own) : p.Tells t.held (p.typeSpec t) := by
  induction formed with
  | @native t native named sized elems fields _ _ =>
    rw [t.held_eq, if_pos native]
    cases refused : p.refuses t with
    | true =>
      rw [typeSpec_refused refused]
      exact ⟨t, by rw [List.find?_cons, refused], rfl⟩
    | false =>
      rw [typeSpec_native native refused]
      exact .cons refused .ok_nil
  | @canonical t canonical known shaped elems fields inner members =>
    rw [t.held_eq, canonical, if_neg Bool.false_ne_true]
    cases refused : p.refuses t with
    | true =>
      rw [typeSpec_refused refused]
      exact ⟨t, by rw [List.find?_cons, refused], rfl⟩
    | false =>
      rw [typeSpec_canonical canonical refused]
      refine .cons refused ?_
      -- Brackets stand behind the first element alone, and a formed array has no other.
      by_cases suffixed : (t.name = "ARRAY" && p.dialect.hints.arraySuffix) = true
      · have array : t.name = "ARRAY" := by simpa using (Bool.and_eq_true_iff.mp suffixed).1
        obtain ⟨e, shape⟩ := shaped.array array
        have told : p.Tells (heldElems [e]) (p.typeHead [e]) := by
          rw [heldElems, heldElems, List.append_nil, typeHead]
          exact inner e (shape ▸ List.mem_singleton_self e)
        rw [if_pos suffixed, if_pos (by simp [array]), shape]
        exact told.map
      rw [if_neg suffixed]
      split
      · exact (typeElems_tells inner).map
      split
      · exact (typeFields_tells members).map
      · exact .ok_nil

/-! ### Names -/

/-- The name under which a type is printed; brackets after the type of its elements are one for an array. -/
def typeName (p : Printer) (t : TypeSpec) : String :=
  if t.native then t.name
  else if t.name = "ARRAY" && p.dialect.hints.arraySuffix then "[]"
  else (p.dialect.typeNames.find? t.name).getD ""

theorem ok_of_map {f : α → β} {b : β} (done : f <$> outcome = .ok b) : ∃ a, outcome = .ok a ∧ f a = b := by
  cases outcome with
  | error e => cases done
  | ok a => exact ⟨a, rfl, Except.ok.inj done⟩

theorem typeSpec_named {text : String} (printed : p.typeSpec t = .ok text) :
    (p.typeName t).toList <+: text.toList ∨ (p.typeName t).toList <:+ text.toList := by
  have starts (name rest : String) : name.toList <+: (name ++ rest).toList ∨ name.toList <:+ (name ++ rest).toList := by
    simp [String.toList_append]
  cases refused : p.refuses t with
  | true =>
    rw [typeSpec_refused refused] at printed
    cases printed
  | false =>
    unfold typeName
    split
    · next native =>
      rw [typeSpec_native native refused] at printed
      cases printed
      exact starts _ _
    next canonical =>
    rw [typeSpec_canonical (by simpa using canonical) refused] at printed
    split at printed
    · next suffixed =>
      obtain ⟨inner, _, rfl⟩ := ok_of_map printed
      rw [if_pos suffixed, String.toList_append]
      exact .inr (List.suffix_append _ _)
    next plain =>
    rw [if_neg plain]
    split at printed
    · obtain ⟨parts, _, rfl⟩ := ok_of_map printed
      exact starts _ _
    split at printed
    · obtain ⟨parts, _, rfl⟩ := ok_of_map printed
      exact starts _ _
    · cases printed
      unfold plainType
      dsimp only
      split
      · exact starts _ _
      · exact .inl (List.prefix_refl _)

/-! ### Inner types -/

theorem infix_commas {part : String} {parts : List String} (member : part ∈ parts) :
    part.toList <:+: (commas parts).toList := by
  induction parts with
  | nil => cases member
  | cons first rest ih =>
    cases rest with
    | nil =>
      have whole : commas [first] = first := by rw [commas, String.intercalate_singleton]
      exact ⟨[], [], by rw [List.mem_singleton.mp member, whole, List.nil_append, List.append_nil]⟩
    | cons second rest =>
      have shape : (commas (first :: second :: rest)).toList =
          first.toList ++ ", ".toList ++ (commas (second :: rest)).toList := by
        rw [commas, String.intercalate_cons_cons, String.toList_append, String.toList_append, commas]
      rw [shape]
      obtain rfl | later := List.mem_cons.mp member
      · exact ⟨[], _, by rw [List.nil_append, List.append_assoc]⟩
      · exact (ih later).trans (List.suffix_append _ _).isInfix

theorem infix_typeArgs {part : String} {parts : List String} (name : String) (member : part ∈ parts) :
    part.toList <:+: (name ++ p.typeArgs parts).toList := by
  have inside : (commas parts).toList <:+: (name ++ p.typeArgs parts).toList := by
    unfold typeArgs
    split
    · exact ⟨name.toList ++ "(".toList, ")".toList, by simp [String.toList_append]⟩
    · exact ⟨name.toList ++ "<".toList, ">".toList, by simp [String.toList_append]⟩
  exact (infix_commas member).trans inside

theorem typeElems_parts {ts : List TypeSpec} {parts : List String} (printed : p.typeElems ts = .ok parts) :
    ∀ t ∈ ts, ∃ part ∈ parts, p.typeSpec t = .ok part := by
  induction ts generalizing parts with
  | nil => exact fun _ member => nomatch member
  | cons t ts ih =>
    obtain ⟨first, head, later⟩ := Parser.ok_of_bind printed
    obtain ⟨rest, tail, done⟩ := Parser.ok_of_bind later
    cases done
    intro u member
    obtain rfl | inside := List.mem_cons.mp member
    · exact ⟨first, List.mem_cons_self, head⟩
    · exact (ih tail u inside).imp fun part both => both.imp_left (List.mem_cons_of_mem first)

theorem typeFields_parts {fields : List TypeField} {parts : List String} (printed : p.typeFields fields = .ok parts) :
    ∀ f ∈ fields, ∃ label part, label ++ part ∈ parts ∧ p.typeSpec f.type = .ok part := by
  induction fields generalizing parts with
  | nil => exact fun _ member => nomatch member
  | cons f fields ih =>
    obtain ⟨name, t⟩ := f
    obtain ⟨first, head, later⟩ := Parser.ok_of_bind printed
    obtain ⟨rest, tail, done⟩ := Parser.ok_of_bind later
    cases done
    intro g member
    obtain rfl | inside := List.mem_cons.mp member
    · exact ⟨_, first, List.mem_cons_self, head⟩
    · obtain ⟨label, part, listed, text⟩ := ih tail g inside
      exact ⟨label, part, List.mem_cons_of_mem _ listed, text⟩

theorem typeSpec_inside (formed : t.Formed own) {text : String} (printed : p.typeSpec t = .ok text) :
    ∀ u ∈ t.held, ∃ part, p.typeSpec u = .ok part ∧ part.toList <:+: text.toList := by
  induction formed generalizing text with
  | @native t native named sized elems fields _ _ =>
    intro u member
    rw [t.held_eq, if_pos native, List.mem_singleton] at member
    exact member ▸ ⟨text, printed, List.infix_rfl⟩
  | @canonical t canonical known shaped elems fields inner members =>
    intro u member
    rw [t.held_eq, canonical, if_neg Bool.false_ne_true, List.mem_cons] at member
    obtain rfl | inside := member
    · exact ⟨text, printed, List.infix_rfl⟩
    cases refused : p.refuses t with
    | true =>
      rw [typeSpec_refused refused] at printed
      cases printed
    | false =>
      rw [typeSpec_canonical canonical refused] at printed
      -- A text inside that of an element, of one of the arguments or of a member stands in the whole.
      split at printed
      · next suffixed =>
        have array : t.name = "ARRAY" := by simpa using (Bool.and_eq_true_iff.mp suffixed).1
        obtain ⟨e, shape⟩ := shaped.array array
        rw [if_pos (by simp [array])] at inside
        obtain ⟨_, listed, deeper⟩ := mem_heldElems.mp inside
        rw [shape] at printed
        obtain ⟨first, head, rfl⟩ := ok_of_map printed
        obtain rfl := List.mem_singleton.mp (shape ▸ listed)
        obtain ⟨part, text, here⟩ := inner _ listed head u deeper
        exact ⟨part, text, by rw [String.toList_append]; exact here.trans (List.prefix_append _ _).isInfix⟩
      split at printed
      · next outer =>
        rw [if_pos outer] at inside
        obtain ⟨e, listed, deeper⟩ := mem_heldElems.mp inside
        obtain ⟨parts, all, rfl⟩ := ok_of_map printed
        obtain ⟨whole, written, head⟩ := typeElems_parts all e listed
        obtain ⟨part, text, here⟩ := inner e listed head u deeper
        exact ⟨part, text, here.trans (infix_typeArgs _ written)⟩
      next outer =>
      rw [if_neg outer] at inside
      split at printed
      · next struct =>
        rw [if_pos struct] at inside
        obtain ⟨f, listed, deeper⟩ := mem_heldFields.mp inside
        obtain ⟨parts, all, rfl⟩ := ok_of_map printed
        obtain ⟨label, whole, written, head⟩ := typeFields_parts all f listed
        obtain ⟨part, text, here⟩ := members f listed head u deeper
        have labelled : whole.toList <:+: (label ++ whole).toList := by
          rw [String.toList_append]
          exact (List.suffix_append _ _).isInfix
        exact ⟨part, text, (here.trans labelled).trans (infix_typeArgs _ written)⟩
      · next leaf =>
        rw [if_neg leaf] at inside
        cases inside

end Printer

/-- The dialect refuses each type of the vocabulary or has a name for it. -/
def Dialect.SpellsTypes (d : Dialect) : Prop := ∀ name ∈ TypeSpec.vocabulary,
  d.unsupportedTypes.contains name = true ∨ (d.typeNames.find? name).getD "" ≠ ""

theorem registered_spells {entry : Entry} (member : entry ∈ Registry.standard.entries) : entry.dialect.SpellsTypes := by
  have all : ∀ entry ∈ Registry.standard.entries, ∀ name ∈ TypeSpec.vocabulary,
      entry.dialect.unsupportedTypes.contains name = true ∨ (entry.dialect.typeNames.find? name).getD "" ≠ "" := by
    decide +kernel
  exact all entry member

theorem Dialect.SpellsTypes.typeName_nonempty {p : Printer} {blank : Prop} (spells : p.dialect.SpellsTypes)
    (formed : t.Formed fun name => name = "" → blank) (accepted : p.refuses t = false)
      (unnamed : p.typeName t = "") : blank := by
  cases formed with
  | native native named =>
    rw [Printer.typeName, if_pos native] at unnamed
    exact named unnamed
  | canonical canonical known shaped elems fields =>
    rw [Printer.refuses, canonical, if_neg Bool.false_ne_true] at accepted
    rw [Printer.typeName, canonical, if_neg Bool.false_ne_true] at unnamed
    split at unnamed
    · exact absurd unnamed (by decide)
    · obtain refused | named := spells t.name known
      · rw [accepted] at refused
        cases refused
      · exact absurd unnamed named

/-- The printer for a dialect of what has been read in another one, or in the same. -/
def Dialect.printerFrom (target source : Dialect) : Printer := { dialect := target, source := some source.name }

/-- The dialect cannot hold the type itself, which has been read in another one: it is the other's own, or one that the
dialect does without. -/
def Dialect.refusesFrom (target source : Dialect) (t : TypeSpec) : Bool :=
  if t.native then source.name != target.name else target.unsupportedTypes.contains t.name

theorem Dialect.refusesFrom_eq (target source : Dialect) :
    target.refusesFrom source = (target.printerFrom source).refuses := by
  funext t
  simp [refusesFrom, Printer.refuses, Printer.printsNative, printerFrom, bne]

/-- To print a type for a dialect fails exactly if a type in it is another dialect's own or one that the dialect does
without, and the error names the first such type. Otherwise every type in it is printed with a name, unless the text
that it was read from has an empty name in quotes. -/
theorem types_refused_or_named {source target : Entry} (left : source ∈ Registry.standard.entries)
    (right : target ∈ Registry.standard.entries) {sql : String} {t : TypeSpec}
    (parsed : Parser.parseType source.dialect sql = .ok t) :
    let p := target.dialect.printerFrom source.dialect
    let refused := target.dialect.refusesFrom source.dialect
    (∀ u, t.held.find? refused = some u →
      p.typeSpec t = .error (.unsupported (Printer.typeKind u.name) source.name target.name u.pos)) ∧
    (t.held.find? refused = none → ∃ text, p.typeSpec t = .ok text ∧ ∀ u ∈ t.held, ∃ part, p.typeSpec u = .ok part ∧
      part.toList <:+: text.toList ∧
      ((p.typeName u).toList <+: part.toList ∨ (p.typeName u).toList <:+ part.toList) ∧
      (p.typeName u = "" → ∃ tokens, Token.tokenize source.dialect.toLexicon sql = .ok tokens ∧
        ∃ token ∈ tokens, token.isQuoted = true ∧ token.text = "")) := by
  intro p refused
  have formed := Parser.parseType_formed (registered_reads left) parsed
  have tells : p.Tells t.held (p.typeSpec t) := Printer.typeSpec_tells formed
  have same : refused = p.refuses := target.dialect.refusesFrom_eq source.dialect
  have spells : p.dialect.SpellsTypes := registered_spells right
  rw [same]
  cases printed : p.typeSpec t with
  | error e =>
    rw [printed] at tells
    obtain ⟨first, found, rfl⟩ := tells
    refine ⟨fun u here => ?_, fun none => ?_⟩
    · rw [← Option.some.inj (found.symm.trans here)]
      rfl
    · cases found.symm.trans none
  | ok text =>
    rw [printed] at tells
    refine ⟨fun u here => ?_, fun none => ⟨text, rfl, fun u member => ?_⟩⟩
    · cases here.symm.trans (show t.held.find? p.refuses = none from tells)
    · obtain ⟨part, own, inside⟩ := Printer.typeSpec_inside formed printed u member
      have accepted : p.refuses u = false := by simpa using List.find?_eq_none.mp none u member
      exact ⟨part, own, inside, Printer.typeSpec_named own, spells.typeName_nonempty (formed.held u member) accepted⟩

/-- A native type in a map in an array is refused by another dialect. -/
theorem nested_native_refused : ∃ t u,
    Parser.parseType ClickHouse.profile.dialect "Array(Map(String, AggregateFunction(sum, Int32)))" = .ok t ∧
    t.held.map (·.name) = ["ARRAY", "MAP", "STRING", "AGGREGATEFUNCTION"] ∧ u ∈ t.held ∧ u.name = "AGGREGATEFUNCTION" ∧
    (Doris.profile.dialect.printerFrom ClickHouse.profile.dialect).typeSpec t =
      .error (.unsupported "TypeSpec AGGREGATEFUNCTION" "clickhouse" "doris" u.pos) := by
  have left : Entry.ofProfile ClickHouse.profile ∈ Registry.standard.entries := by simp [Registry.standard]
  have right : Entry.ofProfile Doris.profile ∈ Registry.standard.entries := by simp [Registry.standard]
  obtain ⟨t, parsed, checked⟩ := Parser.ok_of_any
    (x := Parser.parseType ClickHouse.profile.dialect "Array(Map(String, AggregateFunction(sum, Int32)))")
    (p := fun t => t.held.map (·.name) == ["ARRAY", "MAP", "STRING", "AGGREGATEFUNCTION"] &&
      (t.held.find? (Doris.profile.dialect.refusesFrom ClickHouse.profile.dialect)).any (·.name == "AGGREGATEFUNCTION"))
    (by decide +kernel)
  obtain ⟨preorder, refused⟩ := Bool.and_eq_true_iff.mp checked
  obtain ⟨u, found, named⟩ := (Option.any_eq_true _ _).mp refused
  have name : u.name = "AGGREGATEFUNCTION" := by simpa using named
  have kind : Printer.typeKind "AGGREGATEFUNCTION" = "TypeSpec AGGREGATEFUNCTION" := by decide +kernel
  have names : (Entry.ofProfile ClickHouse.profile).name = "clickhouse" ∧
    (Entry.ofProfile Doris.profile).name = "doris" := by
    decide +kernel
  have fails := (types_refused_or_named left right parsed).1 u found
  rw [name, kind, names.1, names.2] at fails
  exact ⟨t, u, parsed, by simpa using preorder, List.mem_of_find?_eq_some found, name, fails⟩

/-- A type with an empty name is printed as nothing. -/
theorem empty_name_printed : ∃ t, Parser.parseType Postgres.profile.dialect "\x22\x22" = .ok t ∧ t ∈ t.held ∧
    t.held.find? (Postgres.profile.dialect.refusesFrom Postgres.profile.dialect) = none ∧
    (Postgres.profile.dialect.printerFrom Postgres.profile.dialect).typeName t = "" ∧
    (Postgres.profile.dialect.printerFrom Postgres.profile.dialect).typeSpec t = .ok "" := by
  obtain ⟨t, parsed, checked⟩ := Parser.ok_of_any (x := Parser.parseType Postgres.profile.dialect "\x22\x22")
    (p := fun t => t.native && t.name == "" && t.params.isEmpty) (by decide +kernel)
  simp only [Bool.and_eq_true, beq_iff_eq, List.isEmpty_iff] at checked
  obtain ⟨⟨native, unnamed⟩, bare⟩ := checked
  have accepted : Postgres.profile.dialect.refusesFrom Postgres.profile.dialect t = false := by
    rw [Dialect.refusesFrom, if_pos native, bne_self_eq_false]
  have held : t.held = [t] := by rw [t.held_eq, if_pos native]
  refine ⟨t, parsed, by simp [held], by simp [held, accepted], by rw [Printer.typeName, if_pos native, unnamed], ?_⟩
  rw [Dialect.refusesFrom_eq] at accepted
  rw [Printer.typeSpec_native native accepted, unnamed, bare]
  rfl

end SqlDialects
