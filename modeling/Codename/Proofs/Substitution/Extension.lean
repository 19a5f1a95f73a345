import Codename.Proofs.Substitution.Steps

/-!
# Tables that a query does not mention

A mapping can be given one more table. The new table may have columns that other tables have as
well, and columns that are words of a query. Yet if the query mentions the table neither by its
plain name nor by its code name, then no replacement comes from it: no alias stands for it, it never
counts among the tables that can be meant, and of its columns those that are new have no code name
that anything asks for. So the query is encrypted as before.

## Main definitions

* `Mapping.Document.addTable` — a document with one more table.
* `Mapping.AddsTable` — a mapping has one table more than another.

## Main statements

* `Mapping.AddsTable.referencedOwners_eq` — the tables that can be meant stay.
* `Mapping.AddsTable.flatMap_columnReplacements` — the replacements stay.
* `Mapping.AddsTable.encrypt_eq`, `Mapping.encrypt_addTable` — and so does the encrypted query.
-/

namespace Codename.Mapping

open Codename.Text

/-- A document with one more table, given with its code name and the code names of its columns.
Names that are new go to the end. -/
def Document.addTable (document : Document) (table codeTable : String)
    (columns : KeyedList String) : Document where
  tables := document.tables.insert table codeTable
  columns := document.columns.insert codeTable columns

/-- The mapping `extended` has all that `mapping` has, and behind it one more table. Neither the
name nor the code name of the new table is in use. -/
structure AddsTable (mapping extended : Mapping) (table codeTable : String)
    (columns : KeyedList String) : Prop where
  document : extended.document = mapping.document.addTable table codeTable columns
  table : table ∉ mapping.tables.keys
  columns : codeTable ∉ mapping.columns.keys
  codeTable : codeTable ∉ mapping.codeTables

variable {mapping extended : Mapping} {text table codeTable source column : String}
  {columns : KeyedList String} {aliases : Alias.Table}

theorem columnReplacements_of_not_mem (source : String) (aliases : Alias.Table)
    (h : column ∉ mapping.columnNames) : mapping.columnReplacements source aliases column = [] := by
  rw [List.eq_nil_iff_forall_not_mem]
  intro replacement hmem
  have hsingle : replacement ∈ [column].flatMap (mapping.columnReplacements source aliases) := by
    simpa using hmem
  have hreplaces := replaces_of_mem hsingle
  obtain ⟨codeTable, hcode⟩ := hreplaces.exists_codeColumn?
  obtain rfl : replacement.column = column := List.mem_singleton.1 hreplaces.mem
  exact h (mem_columnNames_of_codeColumn? hcode)

namespace AddsTable

/-! ### Names -/

theorem tables_eq (h : mapping.AddsTable extended table codeTable columns) :
    extended.tables = mapping.tables.insert table codeTable :=
  congrArg Document.tables h.document

theorem columns_eq (h : mapping.AddsTable extended table codeTable columns) :
    extended.columns = mapping.columns.insert codeTable columns :=
  congrArg Document.columns h.document

theorem entries_tables (h : mapping.AddsTable extended table codeTable columns) :
    extended.tables.entries = mapping.tables.entries ++ [(table, codeTable)] := by
  rw [h.tables_eq, KeyedList.entries_insert_of_not_mem codeTable h.table]

theorem codeColumn?_of_ne (h : mapping.AddsTable extended table codeTable columns)
    {other : String} (hne : other ≠ codeTable) (column : String) :
    extended.codeColumn? other column = mapping.codeColumn? other column := by
  rw [codeColumn?, codeColumn?, h.columns_eq, KeyedList.get?_insert, if_neg hne.symm]

/-- The columns that are new come last. -/
theorem columnNames_eq (h : mapping.AddsTable extended table codeTable columns) :
    ∃ added, extended.columnNames = mapping.columnNames ++ added ∧
      ∀ column ∈ added, column ∉ mapping.columnNames := by
  have hlisted : extended.listedColumns = mapping.listedColumns ++ columns.keys := by
    rw [listedColumns, KeyedList.values, h.columns_eq,
      KeyedList.entries_insert_of_not_mem columns h.columns]
    simp [listedColumns, KeyedList.values]
  refine ⟨_, by rw [columnNames, hlisted, List.eraseDups_append]; rfl, ?_⟩
  intro column hcolumn
  rw [List.mem_eraseDups, List.removeAll, List.mem_filter] at hcolumn
  rw [columnNames, List.mem_eraseDups]
  simpa using hcolumn.2

/-! ### Replacements -/

theorem ne_of_mem_tables (h : mapping.AddsTable extended table codeTable columns)
    {entry : String × String} (hentry : entry ∈ mapping.tables.entries) :
    entry.2 ≠ codeTable := by
  rintro rfl
  exact h.codeTable (List.mem_map.2 ⟨entry, hentry, rfl⟩)

/-- The new table is not among those that can be meant. -/
theorem referencedOwners_eq (h : mapping.AddsTable extended table codeTable columns)
    (htable : hasWord source table = false) (hcode : hasWord source codeTable = false)
    (column : String) :
    extended.referencedOwners source column = mapping.referencedOwners source column := by
  have hold : ∀ entry ∈ mapping.tables.entries,
      extended.hasColumn column entry = mapping.hasColumn column entry := by
    intro entry hentry
    rw [hasColumn, hasColumn, h.codeColumn?_of_ne (h.ne_of_mem_tables hentry)]
  rw [referencedOwners, referencedOwners, owningEntries, owningEntries, h.entries_tables,
    List.filter_append, List.filter_append, List.filter_congr hold]
  have hnew : ((List.filter (extended.hasColumn column) [(table, codeTable)]).filter
      fun entry => hasWord source entry.1 || hasWord source entry.2) = [] := by
    rw [List.filter_eq_nil_iff]
    intro entry hentry
    obtain rfl : entry = (table, codeTable) := List.mem_singleton.1 (List.mem_filter.1 hentry).1
    simp [htable, hcode]
  rw [hnew, List.append_nil]

theorem soleCodeColumn?_eq (h : mapping.AddsTable extended table codeTable columns)
    (htable : hasWord source table = false) (hcode : hasWord source codeTable = false)
    (column : String) :
    extended.soleCodeColumn? source column = mapping.soleCodeColumn? source column := by
  apply Option.ext
  intro code
  rw [soleCodeColumn?_eq_some_iff, soleCodeColumn?_eq_some_iff,
    h.referencedOwners_eq htable hcode column]
  refine exists_congr fun entry => and_congr_right fun hsole => ?_
  have howner : entry ∈ mapping.referencedOwners source column := by
    rw [hsole]
    exact List.mem_singleton_self entry
  have hentry : entry ∈ mapping.tables.entries :=
    (List.mem_filter.1 (List.mem_filter.1 howner).1).1
  rw [h.codeColumn?_of_ne (h.ne_of_mem_tables hentry)]

theorem columnReplacements_eq (h : mapping.AddsTable extended table codeTable columns)
    (htable : hasWord source table = false) (hcode : hasWord source codeTable = false)
    (haliases : ∀ name ∈ aliases.entries, name.2 ≠ codeTable) (column : String) :
    extended.columnReplacements source aliases column =
      mapping.columnReplacements source aliases column := by
  have hqualified : extended.qualifiedReplacements column aliases.entries =
      mapping.qualifiedReplacements column aliases.entries := by
    refine List.filterMap_congr fun name hname => ?_
    rw [h.codeColumn?_of_ne (haliases name hname)]
  rw [columnReplacements, columnReplacements, hqualified, h.soleCodeColumn?_eq htable hcode]

/-- The new table adds no replacement. -/
theorem flatMap_columnReplacements (h : mapping.AddsTable extended table codeTable columns)
    (htable : hasWord source table = false) (hcode : hasWord source codeTable = false)
    (haliases : ∀ name ∈ aliases.entries, name.2 ≠ codeTable) :
    extended.columnNames.flatMap (extended.columnReplacements source aliases) =
      mapping.columnNames.flatMap (mapping.columnReplacements source aliases) := by
  obtain ⟨added, hnames, hadded⟩ := h.columnNames_eq
  have hsame := funext (h.columnReplacements_eq htable hcode haliases)
  have hnil : added.flatMap (mapping.columnReplacements source aliases) = [] := by
    rw [List.flatMap_eq_nil_iff]
    intro column hcolumn
    exact columnReplacements_of_not_mem source aliases (hadded column hcolumn)
  rw [hnames, hsame, List.flatMap_append, hnil, List.append_nil]

theorem substituteTables_eq (h : mapping.AddsTable extended table codeTable columns)
    (hidentifier : isIdentifier table = true)
    (htable : hasWord (mapping.substituteTables text) table = false) :
    extended.substituteTables text = mapping.substituteTables text := by
  rw [substituteTables, h.entries_tables, List.foldl_append, List.foldl_cons, List.foldl_nil]
  apply Reference.substitute_of_not_occurs
  rw [Reference.occurs_word hidentifier]
  exact htable

/-- A query that mentions the new table neither before nor after its tables are substituted is
encrypted as before. -/
theorem encrypt_eq (h : mapping.AddsTable extended table codeTable columns)
    (hidentifier : isIdentifier table = true) (hidentifier' : isIdentifier codeTable = true)
    (habsent : ∀ name ∈ [table, codeTable],
      hasWord text name = false ∧ hasWord (mapping.substituteTables text) name = false) :
    extended.encrypt text = mapping.encrypt text := by
  obtain ⟨htableText, htableTables⟩ := habsent table (by simp)
  obtain ⟨hcodeText, hcodeTables⟩ := habsent codeTable (by simp)
  -- an alias stands for a word of the query, so never for the new table
  have haliases : ∀ name ∈ (mapping.queryAliases text).entries, name.2 ≠ codeTable := by
    rintro ⟨key, name⟩ hentry rfl
    rw [Alias.Table.hasWord_of_mem_entries hentry hidentifier'] at hcodeTables
    cases hcodeTables
  rw [encrypt, encrypt, h.substituteTables_eq hidentifier htableTables, substituteColumns,
    substituteColumns, foldl_substituteColumn_eq, foldl_substituteColumn_eq,
    h.flatMap_columnReplacements htableText hcodeText haliases]

end AddsTable

/-- A document with one more table is accepted if the new names are identifiers. -/
theorem exists_ofDocument_addTable (mapping : Mapping) (table codeTable : String)
    (columns : KeyedList String)
    (hvalid : ∀ use ∈ Document.tableUses (table, codeTable) ++
      Document.columnMapUses (codeTable, columns), use.isValid = true)
    (htable : table ∉ mapping.tables.keys) (hcolumns : codeTable ∉ mapping.columns.keys)
    (hcodeTable : codeTable ∉ mapping.codeTables) :
    ∃ extended, ofDocument (mapping.document.addTable table codeTable columns) = .ok extended ∧
      mapping.AddsTable extended table codeTable columns := by
  have hall : ∀ use ∈ (mapping.document.addTable table codeTable columns).nameUses,
      use.isValid = true := by
    intro use huse
    have htables := KeyedList.entries_insert_of_not_mem codeTable htable
    have hmaps := KeyedList.entries_insert_of_not_mem columns hcolumns
    change use ∈ (mapping.tables.insert table codeTable).entries.flatMap Document.tableUses ++
      (mapping.columns.insert codeTable columns).entries.flatMap Document.columnMapUses at huse
    rw [htables, hmaps, List.flatMap_append, List.flatMap_append] at huse
    simp only [List.mem_append, List.flatMap_cons, List.flatMap_nil, List.append_nil] at huse
    rcases huse with (hold | hnew) | hold | hnew
    · exact mapping.valid use (List.mem_append_left _ hold)
    · exact hvalid use (List.mem_append_left _ hnew)
    · exact mapping.valid use (List.mem_append_right _ hold)
    · exact hvalid use (List.mem_append_right _ hnew)
  exact ⟨⟨_, hall⟩, ofDocument_eq_ok_iff.2 ⟨rfl, hall⟩, rfl, htable, hcolumns, hcodeTable⟩

/-- A new table that is a word neither of the query nor of the query with its tables substituted,
and whose code name is none either, does not change what the query is encrypted to, whatever its
columns are. -/
theorem encrypt_addTable (mapping : Mapping) (text table codeTable : String)
    (columns : KeyedList String)
    (hvalid : ∀ use ∈ Document.tableUses (table, codeTable) ++
      Document.columnMapUses (codeTable, columns), use.isValid = true)
    (htable : table ∉ mapping.tables.keys) (hcolumns : codeTable ∉ mapping.columns.keys)
    (hcodeTable : codeTable ∉ mapping.codeTables)
    (habsent : ∀ name ∈ [table, codeTable],
      hasWord text name = false ∧ hasWord (mapping.substituteTables text) name = false) :
    ∃ extended, ofDocument (mapping.document.addTable table codeTable columns) = .ok extended ∧
      extended.encrypt text = mapping.encrypt text := by
  obtain ⟨extended, hok, hadds⟩ :=
    mapping.exists_ofDocument_addTable table codeTable columns hvalid htable hcolumns hcodeTable
  have hidentifier : isIdentifier table = true :=
    hvalid ⟨.table, table⟩ (by simp [Document.tableUses])
  have hidentifier' : isIdentifier codeTable = true :=
    hvalid ⟨.codeTable, codeTable⟩ (by simp [Document.tableUses])
  exact ⟨extended, hok, hadds.encrypt_eq hidentifier hidentifier' habsent⟩

/-- The new table has both a column of `customer` and a column of its own that is a word of the
query. -/
theorem encrypt_addTable_shop :
    (∀ use ∈ Document.tableUses ("returns", "T3") ++
        Document.columnMapUses ("T3", .ofList [("name", "E1"), ("reason", "E2")]),
      use.isValid = true) ∧
      "returns" ∉ shop.tables.keys ∧ "T3" ∉ shop.columns.keys ∧ "T3" ∉ shop.codeTables ∧
      (∀ name ∈ ["returns", "T3"],
        hasWord "SELECT name, c.id, reason FROM customer c" name = false ∧
          hasWord (shop.substituteTables "SELECT name, c.id, reason FROM customer c") name =
            false) ∧
      shop.encrypt "SELECT name, c.id, reason FROM customer c" =
        "SELECT C2, c.C1, reason FROM T1 c" ∧
      ∃ extended, ofDocument (shop.document.addTable "returns" "T3"
          (.ofList [("name", "E1"), ("reason", "E2")])) = .ok extended ∧
        extended.encrypt "SELECT name, c.id, reason FROM customer c" =
          shop.encrypt "SELECT name, c.id, reason FROM customer c" := by
  have hvalid : ∀ use ∈ Document.tableUses ("returns", "T3") ++
      Document.columnMapUses ("T3", .ofList [("name", "E1"), ("reason", "E2")]),
      use.isValid = true := by decide +kernel
  have htable : "returns" ∉ shop.tables.keys := by decide +kernel
  have hcolumns : "T3" ∉ shop.columns.keys := by decide +kernel
  have hcodeTable : "T3" ∉ shop.codeTables := by decide +kernel
  have habsent : ∀ name ∈ ["returns", "T3"],
      hasWord "SELECT name, c.id, reason FROM customer c" name = false ∧
        hasWord (shop.substituteTables "SELECT name, c.id, reason FROM customer c") name =
          false := by decide +kernel
  exact ⟨hvalid, htable, hcolumns, hcodeTable, habsent, by decide +kernel,
    encrypt_addTable shop _ _ _ _ hvalid htable hcolumns hcodeTable habsent⟩

end Codename.Mapping
