import Codename.Proofs.KeyedList
import Codename.Proofs.Text.Segment
import Codename.Substitution.Basic

/-!
# What is looked up in a mapping

The indexes of a mapping are filled by loops over its tables and its columns. Whatever the order of
the document, columns that several tables have, code names that several tables have, and columns
that are listed under no table, they hold what the document says.

## Main definitions

* `IsPlain` — the names that a document may use, by their characters.
* `Document.IsAccepted` — a document with such names only.
* `Document.Refuses` — the first name that is none.

## Main statements

* `tableWords?_eq_some_iff`, `columnWord?_eq_some_iff`, `owners_eq` — the three indexes.
* `soleCodeColumn?_eq_lookUp` — the table of a column, by what is looked up in them.
* `ofDocument_exact` — which documents are accepted, and what is looked up in them then.
-/

namespace Codename.Mapping

open Codename.Text (Reference)

/-- A name of ASCII letters, digits and underscores, at least one of them. -/
def IsPlain (name : String) : Prop :=
  name ≠ "" ∧ ∀ c ∈ name.toList,
    ('a' ≤ c ∧ c ≤ 'z') ∨ ('A' ≤ c ∧ c ≤ 'Z') ∨ ('0' ≤ c ∧ c ≤ '9') ∨ c = '_'

/-- All names of the document are plain. -/
structure Document.IsAccepted (document : Document) : Prop where
  tables : ∀ entry ∈ document.tables.entries, IsPlain entry.1 ∧ IsPlain entry.2
  columns : ∀ entry ∈ document.columns.entries,
    IsPlain entry.1 ∧ ∀ column ∈ entry.2.entries, IsPlain column.1 ∧ IsPlain column.2

/-- The name is the first of the document that is not plain: each table before its code name and
the tables before the columns, of which the code name of the table comes first, and then each column
before its code name. -/
def Document.Refuses (document : Document) (use : NameUse) : Prop :=
  ∃ earlier later, document.nameUses = earlier ++ use :: later ∧
    (∀ other ∈ earlier, IsPlain other.name) ∧ ¬IsPlain use.name

variable {mapping : Mapping} {document : Document} {table column : String}

/-! ### Plain names -/

theorem isWordChar_iff {c : Char} :
    Text.isWordChar c = true ↔
      ('a' ≤ c ∧ c ≤ 'z') ∨ ('A' ≤ c ∧ c ≤ 'Z') ∨ ('0' ≤ c ∧ c ≤ '9') ∨ c = '_' := by
  unfold Text.isWordChar Char.isAlphanum Char.isAlpha Char.isUpper Char.isLower Char.isDigit
  simp only [Bool.or_eq_true, Bool.and_eq_true, decide_eq_true_eq, beq_iff_eq, Char.le_def]
  constructor
  · rintro (((h | h) | h) | h)
    · exact .inr (.inl h)
    · exact .inl h
    · exact .inr (.inr (.inl h))
    · exact .inr (.inr (.inr h))
  · rintro (h | h | h | h)
    · exact .inl (.inl (.inr h))
    · exact .inl (.inl (.inl h))
    · exact .inl (.inr h)
    · exact .inr h

theorem isValid_iff {use : NameUse} : use.isValid = true ↔ IsPlain use.name := by
  rw [NameUse.isValid, Text.isIdentifier_iff, IsPlain, ne_eq, String.toList_eq_nil_iff]
  simp only [isWordChar_iff]

theorem forall_isValid_iff :
    (∀ use ∈ document.nameUses, use.isValid = true) ↔ document.IsAccepted := by
  simp only [isValid_iff, Document.nameUses, List.forall_mem_append, List.forall_mem_flatMap,
    Document.tableUses, Document.columnMapUses, Document.columnUses, List.forall_mem_cons,
    List.not_mem_nil, false_imp_iff, implies_true, and_true]
  exact ⟨fun h => ⟨h.1, h.2⟩, fun h => ⟨h.tables, h.columns⟩⟩

/-! ### The words -/

/-- A table is mentioned by its plain name and by its code name. -/
theorem tableWords?_eq_some_iff {words : TableWords} :
    mapping.tableWords? table = some words ↔
      (table, words.code) ∈ mapping.tables.entries ∧ words.plain = table := by
  have hlist : mapping.index.tableWords =
      .ofList (mapping.tables.entries.map fun entry => (entry.1, ⟨entry.1, entry.2⟩)) := by
    rw [index_eq, KeyedList.ofList, List.foldl_map]
    rfl
  have hkeys : ((mapping.tables.entries.map fun entry =>
      (entry.1, (⟨entry.1, entry.2⟩ : TableWords))).map Prod.fst).Nodup := by
    rw [List.map_map]
    exact mapping.tables.nodup_keys
  rw [tableWords?, KeyedList.get?_eq_some_iff, hlist, KeyedList.entries_ofList_of_nodup hkeys,
    List.mem_map]
  constructor
  · rintro ⟨⟨_, code⟩, hentry, ⟨⟩⟩
    exact ⟨hentry, rfl⟩
  · rintro ⟨hentry, rfl⟩
    exact ⟨_, hentry, rfl⟩

/-- Adding words of columns one after another, be they new or known. -/
theorem get?_foldl_addWord {words : KeyedList String} {known : String → Prop}
    (h : ∀ column word, words.get? column = some word ↔ word = column ∧ known column)
    (columns : List String) (column word : String) :
    (columns.foldl Index.addWord words).get? column = some word ↔
      word = column ∧ (known column ∨ column ∈ columns) := by
  induction columns generalizing words known with
  | nil => simpa using h column word
  | cons first columns ih =>
    have hfirst : ∀ column word, (Index.addWord words first).get? column = some word ↔
        word = column ∧ (known column ∨ column = first) := by
      intro column word
      rw [Index.addWord]
      split
      · next hknown =>
        -- the word of a known column is its name already
        have hmem : first ∈ words.keys := by simpa [KeyedList.contains] using hknown
        obtain ⟨found, hfound⟩ :=
          Option.ne_none_iff_exists'.1 (mt KeyedList.get?_eq_none_iff.1 (not_not_intro hmem))
        have hfirst := ((h first found).1 hfound).2
        rw [h]
        constructor
        · rintro ⟨hword, hcolumn⟩
          exact ⟨hword, .inl hcolumn⟩
        · rintro ⟨hword, hcolumn | rfl⟩
          · exact ⟨hword, hcolumn⟩
          · exact ⟨hword, hfirst⟩
      · rw [KeyedList.get?_insert]
        split
        · next heq => simp [heq, eq_comm]
        · next hne => simp [h, Ne.symm hne]
    rw [List.foldl_cons, ih hfirst, List.mem_cons, or_assoc]

/-- A column is mentioned by its name. -/
theorem columnWord?_eq_some_iff {word : String} :
    mapping.columnWord? column = some word ↔
      word = column ∧ ∃ entry ∈ mapping.columns.entries, column ∈ entry.2.keys := by
  have hwords : mapping.index.columnWords =
      (mapping.columns.entries.flatMap fun entry => entry.2.keys).foldl Index.addWord ∅ := by
    rw [index_eq, List.foldl_flatMap]
    simp only [KeyedList.keys, List.foldl_map]
    rfl
  have hempty : ∀ column word, (∅ : KeyedList String).get? column = some word ↔
      word = column ∧ False := by simp
  rw [columnWord?, hwords, get?_foldl_addWord hempty, false_or, List.mem_flatMap]

/-! ### The owners -/

theorem getD_get?_addOwner (owners : KeyedList (List String)) (other : String) :
    ((Index.addOwner table owners column).get? other).getD [] =
      (owners.get? other).getD [] ++ if column = other then [table] else [] := by
  rw [Index.addOwner, KeyedList.get?_insert]
  split
  · next heq => rw [heq, Option.getD_some]
  · rw [List.append_nil]

theorem getD_get?_foldl_addOwner (owners : KeyedList (List String)) {columns : List String}
    (h : columns.Nodup) (other : String) :
    ((columns.foldl (Index.addOwner table) owners).get? other).getD [] =
      (owners.get? other).getD [] ++ if other ∈ columns then [table] else [] := by
  induction columns generalizing owners with
  | nil => simp
  | cons column columns ih =>
    rw [List.nodup_cons] at h
    rw [List.foldl_cons, ih _ h.2, getD_get?_addOwner, List.append_assoc]
    congr 1
    by_cases heq : column = other
    · subst heq
      simp [h.1]
    · simp [heq, Ne.symm heq]

theorem hasColumn_iff {entry : String × String} :
    mapping.hasColumn column entry = true ↔
      ∃ owned, (entry.2, owned) ∈ mapping.columns.entries ∧ column ∈ owned.keys := by
  simp only [hasColumn, codeColumn?, Option.isSome_bind, Option.any_eq_true,
    ← KeyedList.get?_eq_some_iff, KeyedList.isSome_get?_iff]

theorem getD_get?_addOwners (owners : KeyedList (List String)) (entry : String × String) :
    ((Index.addOwners mapping.columns owners entry).get? column).getD [] =
      (owners.get? column).getD [] ++
        if mapping.hasColumn column entry = true then [entry.1] else [] := by
  rw [Index.addOwners, hasColumn, codeColumn?]
  cases mapping.columns.get? entry.2 with
  | none => simp
  | some owned =>
    simp only [Option.bind_some, KeyedList.isSome_get?_iff]
    exact getD_get?_foldl_addOwner owners owned.nodup_keys column

/-- The owners of a column are the tables under whose code name the column is listed. -/
theorem owners_eq (mapping : Mapping) (column : String) :
    mapping.owners column = (mapping.owningEntries column).map Prod.fst := by
  have hfold : ∀ (entries : List (String × String)) (owners : KeyedList (List String)),
      ((entries.foldl (Index.addOwners mapping.columns) owners).get? column).getD [] =
        (owners.get? column).getD [] ++
          (entries.filter (mapping.hasColumn column)).map Prod.fst := by
    intro entries
    induction entries with
    | nil => simp
    | cons entry entries ih =>
      intro owners
      rw [List.foldl_cons, ih, getD_get?_addOwners, List.append_assoc, List.filter_cons]
      split <;> rfl
  rw [owners, index_eq]
  exact hfold mapping.tables.entries ∅

theorem mem_owners :
    table ∈ mapping.owners column ↔
      ∃ code owned, (table, code) ∈ mapping.tables.entries ∧
        (code, owned) ∈ mapping.columns.entries ∧ column ∈ owned.keys := by
  simp only [owners_eq, owningEntries, List.mem_map, List.mem_filter, hasColumn_iff]
  constructor
  · rintro ⟨⟨_, code⟩, ⟨hentry, owned, howned, hcolumn⟩, rfl⟩
    exact ⟨code, owned, hentry, howned, hcolumn⟩
  · rintro ⟨code, owned, hentry, howned, hcolumn⟩
    exact ⟨(table, code), ⟨hentry, owned, howned, hcolumn⟩, rfl⟩

/-- The owners come in the order of the tables. -/
theorem sublist_owners (mapping : Mapping) (column : String) :
    (mapping.owners column).Sublist mapping.tables.keys := by
  rw [owners_eq]
  exact List.filter_sublist.map Prod.fst

/-! ### Names that are looked up -/

/-- No column is passed over for want of a word. -/
theorem filterMap_columnWord? (mapping : Mapping) :
    mapping.columnNames.filterMap mapping.columnWord? = mapping.columnNames := by
  have hword : ∀ column ∈ mapping.columnNames, mapping.columnWord? column = some column := by
    intro column hcolumn
    obtain ⟨owned, howned, hmem⟩ : ∃ owned ∈ mapping.columns.values, column ∈ owned.keys := by
      simpa [columnNames, listedColumns, List.mem_eraseDups] using hcolumn
    obtain ⟨entry, hentry, rfl⟩ := List.mem_map.1 howned
    exact columnWord?_eq_some_iff.2 ⟨rfl, entry, hentry, hmem⟩
  rw [List.filterMap_congr hword, List.filterMap_some]

/-- No table is passed over for want of its words. -/
theorem filterMap_tableWords? (mapping : Mapping) :
    mapping.tables.keys.filterMap mapping.tableWords? =
      mapping.tables.entries.map fun entry => ⟨entry.1, entry.2⟩ := by
  have hwords : ∀ entry ∈ mapping.tables.entries,
      (mapping.tableWords? ∘ Prod.fst) entry = some ⟨entry.1, entry.2⟩ :=
    fun entry hentry => tableWords?_eq_some_iff.2 ⟨hentry, rfl⟩
  rw [KeyedList.keys, List.filterMap_map, List.filterMap_congr hwords, List.filterMap_eq_map']

/-- The owners of a column of which the source has one of the words. -/
def mentionedOwners (mapping : Mapping) (source column : String) : List String :=
  (mapping.owners column).filter fun table =>
    (mapping.tableWords? table).any fun words =>
      Reference.word.occurs words.plain source || Reference.word.occurs words.code source

theorem mentionedOwners_eq (mapping : Mapping) (source column : String) :
    mapping.mentionedOwners source column =
      ((mapping.owningEntries column).filter (mentions source)).map Prod.fst := by
  rw [mentionedOwners, owners_eq, List.filter_map]
  congr 1
  refine List.filter_congr fun entry hentry => ?_
  have hwords : mapping.tableWords? entry.1 = some ⟨entry.1, entry.2⟩ :=
    tableWords?_eq_some_iff.2 ⟨(List.mem_filter.1 hentry).1, rfl⟩
  rw [Function.comp_apply, hwords]
  rfl

/-- The only table that can be meant is the one that is found by looking up owners and words. -/
theorem soleCodeColumn?_eq_lookUp (mapping : Mapping) (source column : String) :
    mapping.soleCodeColumn? source column =
      match mapping.mentionedOwners source column with
      | [table] => (mapping.codeTable? table).bind (mapping.codeColumn? · column)
      | _ => none := by
  rw [mentionedOwners_eq, soleCodeColumn?]
  cases hmentioned : (mapping.owningEntries column).filter (mentions source) with
  | nil => rfl
  | cons entry rest =>
    cases rest with
    | nil =>
      have hentry : entry ∈ mapping.owningEntries column :=
        (List.mem_filter.1 (hmentioned ▸ List.mem_singleton_self entry)).1
      have hcode : mapping.codeTable? entry.1 = some entry.2 :=
        KeyedList.get?_eq_some_iff.2 (List.mem_filter.1 hentry).1
      simp only [List.map_singleton, hcode, Option.bind_some]
    | cons other rest => rfl

/-! ### Accepted documents -/

theorem find?_nameUses_eq_some_iff {use : NameUse} :
    (document.nameUses.find? fun use => !use.isValid) = some use ↔ document.Refuses use := by
  rw [List.find?_eq_some_iff_append, Document.Refuses]
  simp only [Bool.not_eq_true', Bool.not_not, ← Bool.not_eq_true, isValid_iff]
  constructor
  · rintro ⟨hrefused, earlier, later, huses, hearlier⟩
    exact ⟨earlier, later, huses, hearlier, hrefused⟩
  · rintro ⟨earlier, later, huses, hearlier, hrefused⟩
    exact ⟨hrefused, earlier, later, huses, hearlier⟩

theorem ofDocument_eq_error_iff {use : NameUse} :
    ofDocument document = .error use ↔ document.Refuses use := by
  rw [← find?_nameUses_eq_some_iff, ofDocument]
  split
  · next found h => rw [h, Except.error.injEq, Option.some.injEq]
  · next h => simp [h]

theorem exists_ofDocument_iff :
    (∃ mapping, ofDocument document = .ok mapping) ↔ document.IsAccepted := by
  rw [← forall_isValid_iff]
  constructor
  · rintro ⟨mapping, h⟩
    exact (ofDocument_eq_ok_iff.1 h).2
  · intro hvalid
    exact ⟨⟨document, hvalid⟩, ofDocument_eq_ok_iff.2 ⟨rfl, hvalid⟩⟩

/-- Checking the names while the indexes are filled comes to the same. -/
theorem map_index_ofDocument (document : Document) :
    (ofDocument document).map index = Index.ofDocument document := by
  rw [Index.ofDocument_eq]
  cases hresult : ofDocument document with
  | error use =>
    have hfind := find?_nameUses_eq_some_iff.2 (ofDocument_eq_error_iff.1 hresult)
    rw [NameUse.checked, hfind]
    rfl
  | ok mapping =>
    obtain ⟨rfl, hvalid⟩ := ofDocument_eq_ok_iff.1 hresult
    rw [NameUse.checked_of_valid hvalid]
    exact congrArg Except.ok mapping.index_eq

/-- A document is accepted if all of its names are plain, and else the first one that is not is
named, with its role. An accepted document is kept as it is. Each table then has its two words and
each column its word, and nothing else has any. The owners of a column are the tables under whose
code name it is listed, in the order of the tables and each once. -/
theorem ofDocument_exact (document : Document) :
    ((∃ mapping, ofDocument document = .ok mapping) ↔ document.IsAccepted) ∧
      (∀ use, ofDocument document = .error use ↔ document.Refuses use) ∧
      (ofDocument document).map index = Index.ofDocument document ∧
      ∀ mapping, ofDocument document = .ok mapping →
        mapping.document = document ∧
        (∀ table words, mapping.tableWords? table = some words ↔
          (table, words.code) ∈ document.tables.entries ∧ words.plain = table) ∧
        (∀ column word, mapping.columnWord? column = some word ↔
          word = column ∧ ∃ entry ∈ document.columns.entries, column ∈ entry.2.keys) ∧
        ∀ column, (mapping.owners column).Nodup ∧
          (mapping.owners column).Sublist document.tables.keys ∧
          ∀ table, table ∈ mapping.owners column ↔
            ∃ code owned, (table, code) ∈ document.tables.entries ∧
              (code, owned) ∈ document.columns.entries ∧ column ∈ owned.keys := by
  refine ⟨exists_ofDocument_iff, fun use => ofDocument_eq_error_iff, map_index_ofDocument document,
    fun mapping h => ?_⟩
  obtain ⟨rfl, -⟩ := ofDocument_eq_ok_iff.1 h
  refine ⟨rfl, fun table words => tableWords?_eq_some_iff,
    fun column word => columnWord?_eq_some_iff, fun column => ?_⟩
  have hsublist := mapping.sublist_owners column
  exact ⟨mapping.tables.nodup_keys.sublist hsublist, hsublist, fun table => mem_owners⟩

/-- Two tables with one code name, and columns under a code name of no table. -/
def shared : Mapping where
  document :=
    { tables := .ofList [("customer", "T1"), ("orders", "T2"), ("client", "T1")]
      columns := .ofList
        [("T3", .ofList [("total", "E1"), ("id", "E2")]), ("T1", .ofList [("id", "C1")]),
          ("T2", .ofList [("id", "D1"), ("name", "D2")])] }
  valid := by decide +kernel

/-- Both tables own the columns of their code name, and the columns of no table have a word but no
owner. -/
theorem ofDocument_exact_shared :
    ofDocument shared.document = .ok shared ∧
      shared.owners "id" = ["customer", "orders", "client"] ∧
      shared.tableWords? "client" = some ⟨"client", "T1"⟩ ∧
      shared.columnWord? "total" = some "total" ∧ shared.owners "total" = [] := by
  have h : ofDocument shared.document = .ok shared := ofDocument_eq_ok_iff.2 ⟨rfl, shared.valid⟩
  obtain ⟨-, htables, hcolumns, howners⟩ := (ofDocument_exact shared.document).2.2.2 shared h
  have hclient : ("client", "T1") ∈ shared.document.tables.entries := by decide +kernel
  have htotal : ∃ entry ∈ shared.document.columns.entries, "total" ∈ entry.2.keys := by
    decide +kernel
  refine ⟨h, by decide +kernel, (htables _ _).2 ⟨hclient, rfl⟩, (hcolumns _ _).2 ⟨rfl, htotal⟩, ?_⟩
  -- nothing is listed for the column under the code name of a table
  have hnone : ∀ entry ∈ shared.document.tables.entries, ∀ other ∈ shared.document.columns.entries,
      other.1 = entry.2 → "total" ∉ other.2.keys := by decide +kernel
  refine List.eq_nil_iff_forall_not_mem.2 fun table hmem => ?_
  obtain ⟨code, owned, hentry, howned, hcolumn⟩ := ((howners "total").2.2 table).1 hmem
  exact hnone _ hentry _ howned rfl hcolumn

end Codename.Mapping
