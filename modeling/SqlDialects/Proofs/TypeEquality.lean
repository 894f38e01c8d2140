import SqlDialects.Printer.Basic
import SqlDialects.Proofs.TypeTokens

/-! Equality of types is a congruence. Equal types are those that are the same without their places, and
everything that is made of a type, its notation and its spelling in any dialect, can be read off the type
without places: a place shows in nothing but the report of a construct that the dialect does not have. -/

namespace SqlDialects

/-! ### Outcomes that differ in a place alone -/

/-- The same result, or the refusal of the same construct, wherever it stands. -/
inductive SameOutcome {α : Type} : Except Error α → Except Error α → Prop
  | done (a : α) : SameOutcome (.ok a) (.ok a)
  | refused (construct source target : String) (pos other : Position) :
      SameOutcome (.error (.unsupported construct source target pos))
        (.error (.unsupported construct source target other))

namespace SameOutcome

variable {α β : Type} {x y z : Except Error α}

theorem symm (same : SameOutcome x y) : SameOutcome y x := by
  cases same with
  | done a => exact .done a
  | refused construct source target pos other => exact .refused construct source target other pos

theorem trans (first : SameOutcome x y) (second : SameOutcome y z) : SameOutcome x z := by
  cases first with
  | done a => exact second
  | refused construct source target pos middle =>
    cases second with
    | refused _ _ _ _ other => exact .refused construct source target pos other

theorem bind {f g : α → Except Error β} (same : SameOutcome x y) (next : ∀ a, SameOutcome (f a) (g a)) :
    SameOutcome (x >>= f) (y >>= g) := by
  cases same with
  | done a => exact next a
  | refused construct source target pos other => exact .refused construct source target pos other

/-- A step on the result that does not look at places. -/
theorem map {f : α → β} (same : SameOutcome x y) : SameOutcome (x >>= fun a => pure (f a))
    (y >>= fun a => pure (f a)) :=
  same.bind fun a => .done (f a)

end SameOutcome

/-! ### Notation and spelling without places -/

theorem isEmpty_bareElems (ts : List TypeSpec) : (bareElems ts).isEmpty = ts.isEmpty := by
  rw [bareElems_eq, List.isEmpty_map]

theorem isEmpty_bareFields (fields : List TypeField) : (bareFields fields).isEmpty = fields.isEmpty := by
  rw [bareFields_eq, List.isEmpty_map]

mutual

theorem TypeSpec.toText_bare : ∀ t : TypeSpec, t.bare.toText = t.toText
  | ⟨_, name, params, elems, fields, _⟩ => by
    rw [TypeSpec.bare, TypeSpec.toText, TypeSpec.toText, isEmpty_bareElems, isEmpty_bareFields, elemTexts_bare elems,
      fieldTexts_bare fields]

theorem elemTexts_bare : ∀ ts : List TypeSpec, elemTexts (bareElems ts) = elemTexts ts
  | [] => rfl
  | t :: ts => by rw [bareElems, elemTexts, elemTexts, t.toText_bare, elemTexts_bare ts]

theorem fieldTexts_bare : ∀ fields : List TypeField, fieldTexts (bareFields fields) = fieldTexts fields
  | [] => rfl
  | ⟨name, t⟩ :: fields => by rw [bareFields, fieldTexts, fieldTexts, t.toText_bare, fieldTexts_bare fields]

end

mutual

/-- A copy keeps the places as well. -/
theorem TypeSpec.clone_eq : ∀ t : TypeSpec, t.clone = t
  | ⟨_, _, _, elems, fields, _⟩ => by rw [TypeSpec.clone, cloneElems_eq elems, cloneFields_eq fields]

theorem cloneElems_eq : ∀ ts : List TypeSpec, cloneElems ts = ts
  | [] => rfl
  | t :: ts => by rw [cloneElems, t.clone_eq, cloneElems_eq ts]

theorem cloneFields_eq : ∀ fields : List TypeField, cloneFields fields = fields
  | [] => rfl
  | ⟨_, t⟩ :: fields => by rw [cloneFields, t.clone_eq, cloneFields_eq fields]

end

namespace Printer

variable (p : Printer)

private theorem unsupported_elsewhere {α : Type} (kind : String) (pos other : Position) :
    SameOutcome (α := α) (p.unsupported kind pos) (p.unsupported kind other) :=
  .refused kind (p.source.getD "") p.dialect.name pos other

mutual

/-- One case for each way in which the printer spells a type: as a native type, not at all, with a suffix,
around its inner types or its members, or by its name alone. -/
theorem typeSpec_bare : ∀ t : TypeSpec, SameOutcome (p.typeSpec t) (p.typeSpec t.bare)
  | ⟨pos, name, params, elems, fields, native⟩ => by
    have head := typeHead_bare elems
    have inner := typeElems_bare elems
    have members := typeFields_bare fields
    rw [TypeSpec.bare, typeSpec, typeSpec]
    by_cases isNative : native = true
    · rw [if_pos isNative, if_pos isNative]
      by_cases printed : p.printsNative = true
      · rw [if_pos printed, if_pos printed]
        exact .done _
      · rw [if_neg printed, if_neg printed]
        exact p.unsupported_elsewhere _ pos {}
    · rw [if_neg isNative, if_neg isNative]
      split
      case isTrue lacks => exact p.unsupported_elsewhere _ pos {}
      split
      case isTrue suffixed => exact head.map
      split
      case isTrue nested => exact inner.map
      split
      case isTrue named => exact members.map
      case isFalse plain => exact .done _

theorem typeHead_bare : ∀ ts : List TypeSpec, SameOutcome (p.typeHead ts) (p.typeHead (bareElems ts))
  | [] => .done ""
  | t :: _ => by
    rw [bareElems, typeHead, typeHead]
    exact typeSpec_bare t

theorem typeElems_bare : ∀ ts : List TypeSpec, SameOutcome (p.typeElems ts) (p.typeElems (bareElems ts))
  | [] => .done []
  | t :: ts => by
    rw [bareElems, typeElems, typeElems]
    apply (typeSpec_bare t).bind
    intro first
    exact (typeElems_bare ts).map

theorem typeFields_bare : ∀ fields : List TypeField,
    SameOutcome (p.typeFields fields) (p.typeFields (bareFields fields))
  | [] => .done []
  | ⟨name, t⟩ :: fields => by
    rw [bareFields, typeFields, typeFields]
    apply (typeSpec_bare t).bind
    intro first
    exact (typeFields_bare fields).map

end

end Printer

/-! ### The congruence -/

/-- Types up to equality, their copies, and what is made of equal ones: one notation, and for every dialect to
print for, whatever dialect they were read in, one spelling or the refusal of one construct. -/
theorem type_equality_congruent :
    (∀ t : TypeSpec, t.equal t = true) ∧
      (∀ t u : TypeSpec, t.equal u = true → u.equal t = true) ∧
      (∀ t u v : TypeSpec, t.equal u = true → u.equal v = true → t.equal v = true) ∧
      (∀ t : TypeSpec, t.clone.equal t = true) ∧
      (∀ t u : TypeSpec, t.equal u = true →
        t.toText = u.toText ∧ ∀ p : Printer, SameOutcome (p.typeSpec t) (p.typeSpec u)) := by
  refine ⟨?refl, ?symm, ?trans, ?copy, ?made⟩
  case refl =>
    intro t
    rw [TypeSpec.equal_iff]
  case symm =>
    intro t u
    rw [TypeSpec.equal_iff, TypeSpec.equal_iff]
    exact Eq.symm
  case trans =>
    intro t u v
    rw [TypeSpec.equal_iff, TypeSpec.equal_iff, TypeSpec.equal_iff]
    exact Eq.trans
  case copy =>
    intro t
    rw [TypeSpec.equal_iff, t.clone_eq]
  case made =>
    intro t u equal
    have same : t.bare = u.bare := (TypeSpec.equal_iff t u).mp equal
    constructor
    · rw [← t.toText_bare, same, u.toText_bare]
    · intro p
      apply (p.typeSpec_bare t).trans
      rw [same]
      exact (p.typeSpec_bare u).symm

/-- A map of arrays that was read in two places. -/
theorem type_equality_congruent_places :
    let t : TypeSpec := .mapOf (.named "STRING") (.arrayOf { TypeSpec.named "INT" with pos :=
      { line := 1, column := 5 } })
    let u : TypeSpec := .mapOf (.named "STRING") (.arrayOf { TypeSpec.named "INT" with pos :=
      { line := 3, column := 2 } })
    t.equal u = true ∧ t.toText = u.toText ∧ ∀ p : Printer, SameOutcome (p.typeSpec t) (p.typeSpec u) :=
  have equal := by decide
  ⟨equal, type_equality_congruent.2.2.2.2 _ _ equal⟩

end SqlDialects
