import Mathlib.Algebra.Group.Int.Defs
import SqlDialects.Proofs.TableColumns

/-! The widths of character columns of a Doris table, which are in bytes. A width is exact until it leaves 64 bits;
after that it comes round to a smaller number, which may look like one that fits. A wide `VARCHAR` becomes `STRING`,
but the limit is not looked at for a `CHAR` that becomes a `VARCHAR`. -/

namespace SqlDialects.Doris

/-- The types that hold texts of `n` characters: a `CHAR` or `VARCHAR` of the right number of bytes within its limit, or
`STRING` for what is wider than any `VARCHAR`. -/
def Holds (n : Int) (t : TypeSpec) : Prop :=
  t.native = false ∧
    (t.name = "CHAR" ∧ t.params = [n * 3] ∧ n * 3 ≤ maxChar ∨
      t.name = "VARCHAR" ∧ t.params = [n * 3] ∧ n * 3 ≤ maxVarchar ∨
      t.name = "STRING" ∧ t.params = [] ∧ maxVarchar < n * 3)

/-- The types that hold such texts in keys and partitions too, where a `VARCHAR` without a bound is in place of
`STRING`. -/
def Fits (n : Int) (t : TypeSpec) : Prop :=
  Holds n t ∨ maxVarchar < n * 3 ∧ t.native = false ∧ t.name = "VARCHAR" ∧ t.params = []

variable {n width : Int} {pos : Position} {t : TypeSpec}

private theorem fits_char : Fits n { pos, name := "CHAR", params := [width] } ↔ width = n * 3 ∧ n * 3 ≤ maxChar := by
  simp [Fits, Holds]

private theorem fits_varchar :
    Fits n { pos, name := "VARCHAR", params := [width] } ↔ width = n * 3 ∧ n * 3 ≤ maxVarchar := by
  simp [Fits, Holds]

private theorem fits_string : Fits n { pos, name := "STRING" } ↔ maxVarchar < n * 3 := by
  simp [Fits, Holds]

private theorem fits_unbounded : Fits n { pos, name := "VARCHAR" } ↔ maxVarchar < n * 3 := by
  simp [Fits, Holds]

/-- A number of bytes that 64 bits have no room for has come round once. -/
theorem byteWidth_cases (positive : 0 < n) (word : n < 2 ^ 63) :
    n * 3 < 2 ^ 63 ∧ byteWidth n = n * 3 ∨ 2 ^ 63 ≤ n * 3 ∧ byteWidth n = n * 3 - 2 ^ 64 := by
  have modulus : ((Nat.pow 2 64 : Nat) : Int) = 2 ^ 64 := by decide
  rw [byteWidth, wrap64, Int.bmod_def, modulus]
  split <;> omega

theorem columnType_varchar (canonical : t.native = false) (name : t.name = "VARCHAR") (params : t.params = [n]) :
    columnType t = if byteWidth n > maxVarchar then { pos := t.pos, name := "STRING" }
      else { pos := t.pos, name := "VARCHAR", params := [byteWidth n] } := by
  simp only [columnType, canonical, params, name, if_true]

theorem columnType_char (canonical : t.native = false) (name : t.name = "CHAR") (params : t.params = [n]) :
    columnType t =
      { pos := t.pos, name := if byteWidth n > maxChar then "VARCHAR" else "CHAR", params := [byteWidth n] } := by
  simp [columnType, canonical, params, name]

/-- A `VARCHAR` is right as long as its width is exact, and again once what it has come round to is too wide. -/
theorem fits_of_varchar (canonical : t.native = false) (name : t.name = "VARCHAR") (params : t.params = [n])
    (positive : 0 < n) (word : n < 2 ^ 63) :
    Fits n (columnType t) ↔ n * 3 < 2 ^ 63 ∨ 2 ^ 64 + maxVarchar < n * 3 := by
  have limit : maxVarchar = 65533 := rfl
  have widths := byteWidth_cases positive word
  rw [columnType_varchar canonical name params]
  split
  · rw [fits_string]
    omega
  · rw [fits_varchar]
    omega

theorem fits_of_char (canonical : t.native = false) (name : t.name = "CHAR") (params : t.params = [n])
    (positive : 0 < n) (word : n < 2 ^ 63) : Fits n (columnType t) ↔ n * 3 ≤ maxVarchar := by
  have limits : maxVarchar = 65533 ∧ maxChar = 255 := ⟨rfl, rfl⟩
  have widths := byteWidth_cases positive word
  rw [columnType_char canonical name params]
  split
  · rw [fits_varchar]
    omega
  · rw [fits_char]
    omega

/-- How the type of a Doris column `d` comes from that of a column `c` of the source, and when it is right. -/
structure Sized (c d : ColumnDef) : Prop where
  name : d.name = c.name
  type : d.type = columnType c.type ∨
    (columnType c.type).is "STRING" = true ∧ d.type = { pos := c.type.pos, name := "VARCHAR" }
  varchar : ∀ n, 0 < n → n < 2 ^ 63 → c.type.native = false → c.type.name = "VARCHAR" → c.type.params = [n] →
    (Fits n d.type ↔ n * 3 < 2 ^ 63 ∨ 2 ^ 64 + maxVarchar < n * 3)
  char : ∀ n, 0 < n → n < 2 ^ 63 → c.type.native = false → c.type.name = "CHAR" → c.type.params = [n] →
    (Fits n d.type ↔ n * 3 ≤ maxVarchar)

theorem columnType_pos (t : TypeSpec) : (columnType t).pos = t.pos := by
  unfold columnType
  split
  · dsimp only
    split
    · split <;> rfl
    · split <;> rfl
  · rfl

theorem narrow_sized {b : ColumnDef} {t : TypeSpec} (same : b.type = columnType t) : (narrow b).type = columnType t ∨
    (columnType t).is "STRING" = true ∧ (narrow b).type = { pos := t.pos, name := "VARCHAR" } := by
  rw [← columnType_pos t, ← same]
  unfold narrow
  split
  · next text => exact .inr ⟨text, rfl⟩
  · exact .inl rfl

theorem Converts.sized {c d : ColumnDef} (converts : Converts c d) : Sized c d := by
  have type : d.type = columnType c.type ∨
      (columnType c.type).is "STRING" = true ∧ d.type = { pos := c.type.pos, name := "VARCHAR" } := by
    obtain rfl | rfl | rfl := converts
    · exact .inl rfl
    · exact narrow_sized rfl
    · exact narrow_sized rfl
  have name : d.name = c.name := by
    obtain rfl | rfl | rfl := converts
    · rfl
    · exact narrow_name _
    · exact asPartition_name _
  refine ⟨name, type, ?_, ?_⟩
  · intro n positive word canonical name params
    rw [← fits_of_varchar canonical name params positive word]
    obtain same | ⟨text, narrowed⟩ := type
    · rw [same]
    rw [narrowed]
    rw [columnType_varchar canonical name params] at text ⊢
    split at text
    · rw [fits_unbounded, if_pos ‹_›, fits_string]
    · simp [TypeSpec.is] at text
  · intro n positive word canonical name params
    rw [← fits_of_char canonical name params positive word]
    obtain same | ⟨text, _⟩ := type
    · rw [same]
    -- A `CHAR` does not become `STRING`.
    rw [columnType_char canonical name params] at text
    split at text <;> simp [TypeSpec.is] at text

/-- Every column of a foreign table is in the Doris table with a type that holds its texts, unless a `CHAR` becomes
wider than a `VARCHAR` can be or a width comes round to one that seems to fit. -/
theorem characters_fit (ctx : Context) (t : CreateTable) (foreign : ctx.isCross = true)
    (target : ctx.target.name = "doris") (own : t.like = []) (nonempty : t.columns ≠ []) :
    ∃ out added converted,
      createTable.fire? ctx (.statement (.createTable t)) = .ok (some (.statement (.createTable out))) ∧
      out.columns.Perm (added ++ converted) ∧ (∀ c ∈ added, c.type = .named "BIGINT") ∧
      List.Forall₂ Sized (declaredColumns t) converted := by
  obtain ⟨first, others, listed⟩ := List.exists_cons_of_ne_nil nonempty
  obtain ⟨_, added, converted, _, _, stands, converts, perm, _⟩ :=
    ofTable_columns t ctx.source.leadingKeyHash ctx.target.hints.defaultProperties listed
  refine ⟨_, added, converted, createTable_fires foreign target own, perm, ?_, converts.imp fun _ _ => Converts.sized⟩
  intro c member
  obtain ⟨_, rfl⟩ | ⟨_, rfl⟩ := stands
  · rw [List.mem_singleton.mp member]
    rfl
  · cases member

/-- A table with texts of several widths. -/
def textTable : CreateTable where
  name := [⟨"texts", false⟩]
  columns := [
    { name := ⟨"title", false⟩, type := .named "VARCHAR" [21844] },
    { name := ⟨"body", false⟩, type := .named "VARCHAR" [21845] },
    { name := ⟨"code", false⟩, type := .named "CHAR" [86] }]

theorem textTable_fits : ∃ out title body code,
    createTable.fire? ⟨{ name := "mysql" }, { name := "doris" }, .ok⟩ (.statement (.createTable textTable)) =
      .ok (some (.statement (.createTable out))) ∧
    out.columns.Perm [title, body, code] ∧ title.name = ⟨"title", false⟩ ∧ Fits 21844 title.type ∧
    body.name = ⟨"body", false⟩ ∧ Fits 21845 body.type ∧ code.name = ⟨"code", false⟩ ∧ Fits 86 code.type := by
  obtain ⟨out, added, _, fired, perm, _, sized⟩ :=
    characters_fit ⟨{ name := "mysql" }, { name := "doris" }, .ok⟩ textTable rfl rfl rfl (by simp [textTable])
  obtain _ | ⟨title, _ | ⟨body, _ | ⟨code, _ | _⟩⟩⟩ := sized
  have three : out.columns.length = 3 := by
    rw [eq_ofTable_of_fires rfl rfl rfl fired]
    rfl
  have none : added = [] := by simpa [three] using perm.length_eq
  rw [none, List.nil_append] at perm
  refine ⟨out, _, _, _, fired, perm, title.name, ?_, body.name, ?_, code.name, ?_⟩
  · exact (title.varchar 21844 (by omega) (by omega) rfl rfl rfl).mpr (by omega)
  · exact (body.varchar 21845 (by omega) (by omega) rfl rfl rfl).mpr (by omega)
  · exact (code.char 86 (by omega) (by omega) rfl rfl rfl).mpr (by decide)

/-- Texts that the types of their Doris columns do not hold: a `CHAR` beyond the limit of a `VARCHAR`, a width that
comes round below zero and one that comes round to two bytes. -/
def wideTable : CreateTable where
  name := [⟨"texts", false⟩]
  columns := [
    { name := ⟨"id", false⟩, type := .named "INT" },
    { name := ⟨"code", false⟩, type := .named "CHAR" [30000] },
    { name := ⟨"title", false⟩, type := .named "VARCHAR" [3074457345618258603] },
    { name := ⟨"body", false⟩, type := .named "VARCHAR" [6148914691236517206] }]

theorem wideTable_overflows : ∃ out id code title body,
    createTable.fire? ⟨{ name := "mysql" }, { name := "doris" }, .ok⟩ (.statement (.createTable wideTable)) =
      .ok (some (.statement (.createTable out))) ∧
    out.columns = [id, code, title, body] ∧
    code.type = .named "VARCHAR" [90000] ∧ ¬Fits 30000 code.type ∧
    title.type = .named "VARCHAR" [-9223372036854775807] ∧ ¬Fits 3074457345618258603 title.type ∧
    body.type = .named "VARCHAR" [2] ∧ ¬Fits 6148914691236517206 body.type := by
  refine ⟨_, _, _, _, _, createTable_fires rfl rfl rfl, rfl, rfl, ?_, rfl, ?_, rfl, ?_⟩
  · exact fun fits => absurd (fits_varchar.mp fits).2 (by decide)
  · exact fun fits => absurd (fits_varchar.mp fits).1 (by decide)
  · exact fun fits => absurd (fits_varchar.mp fits).1 (by decide)

end SqlDialects.Doris
