import Codename.Mapping.Basic
import Codename.Proofs.KeyedList

/-!
# The names of a mapping

All names of a mapping are identifiers, and the indexes by which they are looked up agree with the
entries of the document.

## Main definitions

* `Mapping.columnEntries` — the columns of all tables, with their code names.
* `Mapping.entries` — all tables and columns with their code names.
* `Mapping.codeTables`, `Mapping.codeColumns` — the code names.
* `Mapping.CodesApart` — no code name is a plain name.
* `Mapping.CodesUnique` — no code name stands for two plain names.

## Main statements

* `Mapping.mem_columnEntries` — the column entries are what looking up finds.
* `Mapping.isIdentifier_of_codeColumn?` — the names met in looking up are identifiers.
-/

namespace Codename

theorem filter_sublist_filter {α : Type} {p q : α → Bool} {l : List α}
    (h : ∀ a ∈ l, p a = true → q a = true) : (l.filter p).Sublist (l.filter q) := by
  have hfilter : l.filter p = (l.filter q).filter p := by
    rw [List.filter_filter]
    refine List.filter_congr fun a ha => ?_
    by_cases hp : p a = true
    · rw [hp, h a ha hp]
      rfl
    · simp [hp]
  rw [hfilter]
  exact List.filter_sublist

namespace Mapping

variable {mapping : Mapping} {table codeTable column code : String}

/-- The columns of all tables, with their code names. -/
def columnEntries (mapping : Mapping) : List (String × String) :=
  mapping.columns.values.flatMap KeyedList.entries

/-- All tables and columns, with their code names. -/
def entries (mapping : Mapping) : List (String × String) :=
  mapping.tables.entries ++ mapping.columnEntries

/-- The code names of the tables. -/
def codeTables (mapping : Mapping) : List String :=
  mapping.tables.values

/-- The code names of the columns of all tables. -/
def codeColumns (mapping : Mapping) : List String :=
  mapping.columnEntries.map Prod.snd

/-- No code name is the plain name of a table or column. -/
def CodesApart (mapping : Mapping) : Prop :=
  ∀ entry ∈ mapping.entries, ∀ other ∈ mapping.entries, entry.2 ≠ other.1

/-- No code name stands for two plain names, be they tables or columns and of whatever table. -/
def CodesUnique (mapping : Mapping) : Prop :=
  ∀ entry ∈ mapping.entries, ∀ other ∈ mapping.entries, entry.2 = other.2 → entry.1 = other.1

instance : Decidable mapping.CodesApart :=
  inferInstanceAs (Decidable (∀ entry ∈ mapping.entries, ∀ other ∈ mapping.entries,
    entry.2 ≠ other.1))

instance : Decidable mapping.CodesUnique :=
  inferInstanceAs (Decidable (∀ entry ∈ mapping.entries, ∀ other ∈ mapping.entries,
    entry.2 = other.2 → entry.1 = other.1))

/-! ### Entries -/

theorem mem_columnEntries :
    (column, code) ∈ mapping.columnEntries ↔
      ∃ codeTable, mapping.codeColumn? codeTable column = some code := by
  simp only [columnEntries, List.mem_flatMap, KeyedList.mem_values, codeColumn?,
    Option.bind_eq_some_iff, ← KeyedList.get?_eq_some_iff]
  constructor
  · rintro ⟨columns, ⟨codeTable, htable⟩, hcolumn⟩
    exact ⟨codeTable, columns, htable, hcolumn⟩
  · rintro ⟨codeTable, columns, htable, hcolumn⟩
    exact ⟨columns, ⟨codeTable, htable⟩, hcolumn⟩

theorem mem_columnNames :
    column ∈ mapping.columnNames ↔ ∃ code, (column, code) ∈ mapping.columnEntries := by
  simp only [columnNames, listedColumns, columnEntries, List.mem_eraseDups, List.mem_flatMap,
    KeyedList.keys, List.mem_map]
  constructor
  · rintro ⟨columns, hcolumns, ⟨_, code⟩, hentry, rfl⟩
    exact ⟨code, columns, hcolumns, hentry⟩
  · rintro ⟨code, columns, hcolumns, hentry⟩
    exact ⟨columns, hcolumns, (column, code), hentry, rfl⟩

theorem mem_codeColumns :
    code ∈ mapping.codeColumns ↔ ∃ column, (column, code) ∈ mapping.columnEntries := by
  simp [codeColumns]

theorem nodup_columnNames (mapping : Mapping) : mapping.columnNames.Nodup :=
  nodup_eraseDups _

theorem mem_columnNames_of_codeColumn? (h : mapping.codeColumn? codeTable column = some code) :
    column ∈ mapping.columnNames :=
  mem_columnNames.2 ⟨code, mem_columnEntries.2 ⟨codeTable, h⟩⟩

theorem mem_codeColumns_of_codeColumn? (h : mapping.codeColumn? codeTable column = some code) :
    code ∈ mapping.codeColumns :=
  mem_codeColumns.2 ⟨column, mem_columnEntries.2 ⟨codeTable, h⟩⟩

theorem mem_entries_of_codeColumn? (h : mapping.codeColumn? codeTable column = some code) :
    (column, code) ∈ mapping.entries :=
  List.mem_append_right _ (mem_columnEntries.2 ⟨codeTable, h⟩)

/-! ### Code names apart from plain names -/

namespace CodesApart

variable {entry : String × String}

theorem not_mem_keys (h : mapping.CodesApart) (hentry : entry ∈ mapping.entries) :
    entry.2 ∉ mapping.tables.keys := by
  intro hmem
  obtain ⟨other, hother, hsame⟩ := List.mem_map.1 hmem
  exact h entry hentry other (List.mem_append_left _ hother) hsame.symm

theorem not_mem_columnNames (h : mapping.CodesApart) (hentry : entry ∈ mapping.entries) :
    entry.2 ∉ mapping.columnNames := by
  intro hmem
  obtain ⟨code, hother⟩ := mem_columnNames.1 hmem
  exact h entry hentry _ (List.mem_append_right _ hother) rfl

theorem ne_of_codeColumn? (h : mapping.CodesApart) {other : String}
    (hcode : mapping.codeColumn? codeTable column = some code)
    (hother : other ∈ mapping.columnNames) : code ≠ other := by
  rintro rfl
  exact h.not_mem_columnNames (mem_entries_of_codeColumn? hcode) hother

theorem codeTables (h : mapping.CodesApart) :
    ∀ code ∈ mapping.codeTables, code ∉ mapping.tables.keys := by
  intro code hcode
  obtain ⟨entry, hentry, rfl⟩ := List.mem_map.1 hcode
  exact h.not_mem_keys (List.mem_append_left _ hentry)

theorem codeColumns (h : mapping.CodesApart) :
    ∀ code ∈ mapping.codeColumns, code ∉ mapping.columnNames := by
  intro code hcode
  obtain ⟨column, hentry⟩ := mem_codeColumns.1 hcode
  exact h.not_mem_columnNames (List.mem_append_right _ hentry)

end CodesApart

/-! ### Identifiers -/

theorem isIdentifier_of_mem_tables (h : (table, codeTable) ∈ mapping.tables.entries) :
    isIdentifier table = true ∧ isIdentifier codeTable = true := by
  have huse : ∀ use ∈ Document.tableUses (table, codeTable), use.isValid = true := by
    intro use huse
    apply mapping.valid
    exact List.mem_append_left _ (List.mem_flatMap.2 ⟨_, h, huse⟩)
  exact ⟨huse ⟨.table, table⟩ (by simp [Document.tableUses]),
    huse ⟨.codeTable, codeTable⟩ (by simp [Document.tableUses])⟩

theorem isIdentifier_of_mem_keys (h : table ∈ mapping.tables.keys) :
    isIdentifier table = true := by
  obtain ⟨entry, hentry, rfl⟩ := List.mem_map.1 h
  exact (isIdentifier_of_mem_tables hentry).1

/-- The names met in looking up the code name of a column are identifiers. -/
theorem isIdentifier_of_codeColumn? (h : mapping.codeColumn? codeTable column = some code) :
    isIdentifier codeTable = true ∧ isIdentifier column = true ∧ isIdentifier code = true := by
  obtain ⟨columns, htable, hcolumn⟩ := Option.bind_eq_some_iff.1 h
  rw [KeyedList.get?_eq_some_iff] at htable hcolumn
  have huse : ∀ use ∈ Document.columnMapUses (codeTable, columns), use.isValid = true := by
    intro use huse
    apply mapping.valid
    exact List.mem_append_right _ (List.mem_flatMap.2 ⟨_, htable, huse⟩)
  have hcolumnUse : ∀ use ∈ Document.columnUses (column, code), use.isValid = true :=
    fun use hmem => huse use (List.mem_cons_of_mem _ (List.mem_flatMap.2 ⟨_, hcolumn, hmem⟩))
  exact ⟨huse ⟨.codeTable, codeTable⟩ List.mem_cons_self,
    hcolumnUse ⟨.column, column⟩ (by simp [Document.columnUses]),
    hcolumnUse ⟨.codeColumn, code⟩ (by simp [Document.columnUses])⟩

theorem isIdentifier_of_mem_columnEntries {entry : String × String}
    (h : entry ∈ mapping.columnEntries) :
    isIdentifier entry.1 = true ∧ isIdentifier entry.2 = true := by
  obtain ⟨codeTable, hcode⟩ := mem_columnEntries.1 h
  exact (isIdentifier_of_codeColumn? hcode).2

theorem isIdentifier_of_mem_columnNames (h : column ∈ mapping.columnNames) :
    isIdentifier column = true := by
  obtain ⟨code, hentry⟩ := mem_columnNames.1 h
  exact (isIdentifier_of_mem_columnEntries hentry).1

theorem isIdentifier_of_mem_entries {entry : String × String} (h : entry ∈ mapping.entries) :
    isIdentifier entry.1 = true ∧ isIdentifier entry.2 = true := by
  rcases List.mem_append.1 h with htable | hcolumn
  · exact isIdentifier_of_mem_tables htable
  · exact isIdentifier_of_mem_columnEntries hcolumn

/-! ### A mapping to look at -/

/-- Two tables that have a column in common. -/
def shopDocument : Document where
  tables := .ofList [("customer", "T1"), ("orders", "T2")]
  columns := .ofList
    [("T1", .ofList [("id", "C1"), ("name", "C2")]),
      ("T2", .ofList [("id", "D1"), ("total", "D2")])]

/-- The document of two tables as a mapping. -/
def shop : Mapping where
  document := shopDocument
  valid := by decide +kernel

end Mapping

end Codename
