import Codename.Proofs.Alias.Table
import Codename.Proofs.Text.References
import Codename.Substitution.Basic

/-!
# The decision for a column

What becomes of a column is decided by its qualifier, if the alias table has a table with the column
for it, and else by the tables that the source mentions. The decision looks at the text in front of
the column only as far as the qualifier, so that it stays the same while other columns are replaced,
as long as no qualifier is one of them.

## Main definitions

* `Mapping.referencedOwners` — the tables with a column that a source mentions.
* `Mapping.columnWord` — the decision for a word.
* `Mapping.ResolvesColumns` — the rules for this decision.
* `Mapping.KeysApart` — no name of an alias table is a column or the code name of one.

## Main statements

* `Mapping.soleCodeColumn?_eq_some_iff` — the code name of a column in the only table that has it.
* `Mapping.StableNames.qualifiedCode?_eq` — the decision by qualifier stays.
* `Mapping.StableNames.resolvesColumns` — the decision follows the rules.
* `Mapping.ResolvesColumns.unique` — and no other decision does.
-/

namespace Codename.Mapping

open Codename.Text
open Codename.Alias (withoutHash)

/-- The tables that have the column and of which the source has the plain name or the code name as
a word. -/
def referencedOwners (mapping : Mapping) (source column : String) : List (String × String) :=
  (mapping.owningEntries column).filter fun entry =>
    hasWord source entry.1 || hasWord source entry.2

/-- The code name of a column behind a qualifier that is one of the names bound in the list. -/
def qualifiedCode? (mapping : Mapping) (names : List (String × String)) (before : List Char)
    (column : String) : Option String :=
  names.findSome? fun name =>
    if (Reference.qualified name.1).admits before then mapping.codeColumn? name.2 column else none

/-- What becomes of a column: its code name in the table of its qualifier, else, unless it is a
parameter, its code name in the only table that can be meant, else what it was. -/
def columnCode (mapping : Mapping) (source : String) (names : List (String × String))
    (before : List Char) (column : String) : String :=
  (mapping.qualifiedCode? names before column).getD
    (if before.head? = some '@' then column
      else (mapping.soleCodeColumn? source column).getD column)

/-- What becomes of a word when the listed columns are replaced. -/
def wordAfter (mapping : Mapping) (source : String) (names : List (String × String))
    (columns : List String) (before : List Char) (word : String) : String :=
  if word ∈ columns then mapping.columnCode source names before word else word

/-- What becomes of a word with the reversed text `before` in front of it. -/
def columnWord (mapping : Mapping) (source : String) (aliases : Alias.Table) (before : List Char)
    (word : String) : String :=
  mapping.wordAfter source aliases.entries mapping.columnNames before word

/-- No name of the alias table, without the sign of a temporary table, is a column or the code name
of a column. -/
def KeysApart (mapping : Mapping) (aliases : Alias.Table) : Prop :=
  ∀ key ∈ aliases.keys,
    withoutHash key ∉ mapping.columnNames ∧ withoutHash key ∉ mapping.codeColumns

/-- Replacing columns leaves words alone or turns columns into code names of columns. -/
abbrev ColumnsRecoded (mapping : Mapping) : String → String → Prop :=
  Recoded mapping.columnNames mapping.codeColumns

/-- The names in the list that stand for a table with columns are identifiers, and neither columns
nor code names of columns. -/
def StableNames (mapping : Mapping) (names : List (String × String)) : Prop :=
  ∀ name ∈ names, ∀ column code, mapping.codeColumn? name.2 column = some code →
    isIdentifier name.1 = true ∧ name.1 ∉ mapping.columnNames ∧ name.1 ∉ mapping.codeColumns

/-- Some name of the alias table qualifies the place, and stands for a table in which the column has
the code name. -/
def QualifiedCode (mapping : Mapping) (aliases : Alias.Table) (before : List Char)
    (column code : String) : Prop :=
  ∃ qualifier table, IsQualifiedBy qualifier before ∧ aliases.get? qualifier = some table ∧
    mapping.codeColumn? table column = some code

/-- The rules for a word with the reversed text `before` in front of it: a word that is no column
and a parameter are kept, a column with a qualifier takes its code name in the table of the
qualifier, any other its code name in the only table that the source mentions, and is kept if there
is none or more than one. -/
structure ResolvesColumns (mapping : Mapping) (source : String) (aliases : Alias.Table)
    (rule : List Char → String → String) : Prop where
  kept : ∀ {before word}, word ∉ mapping.columnNames ∨ before.head? = some '@' →
    rule before word = word
  qualified : ∀ {before word code}, mapping.QualifiedCode aliases before word code →
    rule before word = code
  bare : ∀ {before word entry code}, word ∈ mapping.columnNames → before.head? ≠ some '@' →
    (∀ other, ¬mapping.QualifiedCode aliases before word other) →
    mapping.referencedOwners source word = [entry] →
    mapping.codeColumn? entry.2 word = some code → rule before word = code
  unresolved : ∀ {before word}, (∀ other, ¬mapping.QualifiedCode aliases before word other) →
    (mapping.referencedOwners source word).length ≠ 1 → rule before word = word

variable {mapping : Mapping} {source column code : String} {aliases : Alias.Table}
  {names : List (String × String)} {before : List Char}

instance : Decidable (mapping.KeysApart aliases) :=
  inferInstanceAs (Decidable (∀ key ∈ aliases.keys,
    withoutHash key ∉ mapping.columnNames ∧ withoutHash key ∉ mapping.codeColumns))

/-! ### Code names that are found -/

/-- The tables that a source mentions are those of which it has a name as a word. -/
theorem filter_mentions_owningEntries (mapping : Mapping) (source column : String) :
    (mapping.owningEntries column).filter (mentions source) =
      mapping.referencedOwners source column := by
  refine List.filter_congr fun entry hentry => ?_
  obtain ⟨hplain, hcode⟩ := isIdentifier_of_mem_tables (List.mem_filter.1 hentry).1
  rw [mentions, Reference.occurs_word hplain, Reference.occurs_word hcode]

theorem exists_codeColumn?_of_mem_referencedOwners {entry : String × String}
    (h : entry ∈ mapping.referencedOwners source column) :
    ∃ code, mapping.codeColumn? entry.2 column = some code :=
  Option.isSome_iff_exists.1 (List.mem_filter.1 (List.mem_filter.1 h).1).2

theorem nodup_referencedOwners (mapping : Mapping) (source column : String) :
    (mapping.referencedOwners source column).Nodup :=
  (mapping.tables.nodup_keys.of_map.filter _).filter _

theorem soleCodeColumn?_eq_some_iff :
    mapping.soleCodeColumn? source column = some code ↔
      ∃ entry, mapping.referencedOwners source column = [entry] ∧
        mapping.codeColumn? entry.2 column = some code := by
  rw [soleCodeColumn?, filter_mentions_owningEntries]
  constructor
  · intro h
    split at h
    · next entry hsole => exact ⟨entry, hsole, h⟩
    · cases h
  · rintro ⟨entry, hsole, hcode⟩
    rw [hsole]
    exact hcode

theorem exists_codeColumn?_of_soleCodeColumn?
    (h : mapping.soleCodeColumn? source column = some code) :
    ∃ codeTable, mapping.codeColumn? codeTable column = some code := by
  obtain ⟨entry, -, hcode⟩ := soleCodeColumn?_eq_some_iff.1 h
  exact ⟨entry.2, hcode⟩

theorem soleCodeColumn?_eq_none_iff :
    mapping.soleCodeColumn? source column = none ↔
      (mapping.referencedOwners source column).length ≠ 1 := by
  rw [Option.eq_none_iff_forall_ne_some, Ne, List.length_eq_one_iff]
  constructor
  · rintro h ⟨entry, hsole⟩
    have hmem : entry ∈ mapping.referencedOwners source column := by rw [hsole]; simp
    obtain ⟨code, hcode⟩ := exists_codeColumn?_of_mem_referencedOwners hmem
    exact h code (soleCodeColumn?_eq_some_iff.2 ⟨entry, hsole, hcode⟩)
  · intro h code hsome
    obtain ⟨entry, hsole, -⟩ := soleCodeColumn?_eq_some_iff.1 hsome
    exact h ⟨entry, hsole⟩

theorem exists_of_qualifiedCode? (h : mapping.qualifiedCode? names before column = some code) :
    ∃ name ∈ names, (Reference.qualified name.1).admits before = true ∧
      mapping.codeColumn? name.2 column = some code := by
  obtain ⟨name, hmem, hname⟩ := List.exists_of_findSome?_eq_some h
  split at hname
  · next hadmits => exact ⟨name, hmem, hadmits, hname⟩
  · cases hname

theorem qualifiedCode?_append (names names' : List (String × String)) :
    mapping.qualifiedCode? (names ++ names') before column =
      (mapping.qualifiedCode? names before column).or
        (mapping.qualifiedCode? names' before column) :=
  List.findSome?_append

theorem qualifiedCode?_singleton (name : String × String) :
    mapping.qualifiedCode? [name] before column =
      if (Reference.qualified name.1).admits before then mapping.codeColumn? name.2 column
      else none := by
  simp [qualifiedCode?]

/-- Where the names are identifiers, looking through them finds the code name for the qualifier, in
whatever order they come. -/
theorem StableNames.qualifiedCode?_eq_some_iff (h : mapping.StableNames aliases.entries) :
    mapping.qualifiedCode? aliases.entries before column = some code ↔
      mapping.QualifiedCode aliases before column code := by
  constructor
  · intro hcode
    obtain ⟨name, hmem, hadmits, hname⟩ := exists_of_qualifiedCode? hcode
    exact ⟨name.1, name.2, Reference.admits_qualified_eq_true.1 hadmits,
      KeyedList.get?_eq_some_iff.2 hmem, hname⟩
  · rintro ⟨qualifier, table, hqualifier, hget, hcode⟩
    have hmem := KeyedList.get?_eq_some_iff.1 hget
    cases hfound : mapping.qualifiedCode? aliases.entries before column with
    | none =>
      have hnone := List.findSome?_eq_none_iff.1 hfound _ hmem
      rw [if_pos (Reference.admits_qualified_eq_true.2 hqualifier), hcode] at hnone
      cases hnone
    | some found =>
      obtain ⟨name, hmem', hadmits, hname⟩ := exists_of_qualifiedCode? hfound
      -- both names are the word in front of the dot
      have hsame : name.1 = qualifier :=
        IsQualifiedBy.unique (h name hmem' _ _ hname).1 (h _ hmem _ _ hcode).1
          (Reference.admits_qualified_eq_true.1 hadmits) hqualifier
      have hget' : aliases.get? name.1 = some name.2 := KeyedList.get?_eq_some_iff.2 hmem'
      rw [hsame, hget] at hget'
      cases hget'
      rw [← hname, hcode]

theorem head?_ne_of_qualifiedCode? (h : mapping.qualifiedCode? names before column = some code) :
    before.head? ≠ some '@' := by
  obtain ⟨name, -, hadmits, -⟩ := exists_of_qualifiedCode? h
  exact Reference.admits_bare_iff.1 (Reference.admits_bare_of_qualified hadmits)

/-- What becomes of a column is the column or one of its code names. -/
theorem columnCode_eq_or (mapping : Mapping) (source : String) (names : List (String × String))
    (before : List Char) (column : String) :
    mapping.columnCode source names before column = column ∨
      ∃ codeTable, mapping.codeColumn? codeTable column =
        some (mapping.columnCode source names before column) := by
  rw [columnCode]
  cases hqualified : mapping.qualifiedCode? names before column with
  | some code =>
    obtain ⟨name, -, -, hcode⟩ := exists_of_qualifiedCode? hqualified
    exact .inr ⟨name.2, hcode⟩
  | none =>
    rw [Option.getD_none]
    split
    · exact .inl rfl
    · cases hsole : mapping.soleCodeColumn? source column with
      | none => exact .inl rfl
      | some code =>
        exact .inr (exists_codeColumn?_of_soleCodeColumn? hsole)

theorem columnsRecoded_wordAfter {columns : List String} (source : String)
    (names : List (String × String))
    (hcolumns : ∀ column ∈ columns, column ∈ mapping.columnNames) (before : List Char)
    (word : String) :
    mapping.ColumnsRecoded word (mapping.wordAfter source names columns before word) := by
  rw [wordAfter]
  split
  · next hword =>
    rcases columnCode_eq_or mapping source names before word with h | ⟨codeTable, h⟩
    · exact .inl h
    · exact .inr ⟨hcolumns word hword, mem_codeColumns_of_codeColumn? h⟩
  · exact .inl rfl

theorem columnsRecoded_columnWord (mapping : Mapping) (source : String) (aliases : Alias.Table)
    (before : List Char) (word : String) :
    mapping.ColumnsRecoded word (mapping.columnWord source aliases before word) :=
  columnsRecoded_wordAfter source aliases.entries (fun _ h => h) before word

theorem keepsWords_columnWord (mapping : Mapping) (source : String) (aliases : Alias.Table) :
    KeepsWords (mapping.columnWord source aliases) := by
  intro before word hword
  rcases columnsRecoded_columnWord mapping source aliases before word with h | ⟨-, h⟩
  · rw [h]
    exact hword
  · obtain ⟨column, hentry⟩ := mem_codeColumns.1 h
    exact (isIdentifier_of_mem_columnEntries hentry).2

theorem wordAfter_concat (columns : List String) (word : String) :
    mapping.wordAfter source names (columns ++ [column]) before word =
      if word = column then mapping.columnCode source names before column
      else mapping.wordAfter source names columns before word := by
  by_cases hword : word = column
  · subst hword
    simp [wordAfter]
  · simp [wordAfter, hword]

/-- A column is left as it is if its qualifier gives it no code name and it is a parameter or could
be of no or of several tables. -/
theorem columnCode_eq_self_iff (hcodes : ∀ code ∈ mapping.codeColumns, code ∉ mapping.columnNames)
    (hcolumn : column ∈ mapping.columnNames) :
    mapping.columnCode source names before column = column ↔
      mapping.qualifiedCode? names before column = none ∧
        (before.head? = some '@' ∨ mapping.soleCodeColumn? source column = none) := by
  have hne : ∀ {codeTable}, mapping.codeColumn? codeTable column ≠ some column := fun h =>
    hcodes column (mem_codeColumns_of_codeColumn? h) hcolumn
  rw [columnCode]
  cases hqualified : mapping.qualifiedCode? names before column with
  | some code =>
    obtain ⟨name, -, -, hcode⟩ := exists_of_qualifiedCode? hqualified
    simpa using fun heq : code = column => hne (heq ▸ hcode)
  | none =>
    by_cases hparameter : before.head? = some '@'
    · simp [hparameter]
    · cases hsole : mapping.soleCodeColumn? source column with
      | none => simp
      | some code =>
        obtain ⟨_, hcode⟩ := exists_codeColumn?_of_soleCodeColumn? hsole
        simpa [hparameter] using fun heq : code = column => hne (heq ▸ hcode)

/-! ### Qualifiers that stay -/

/-- A name of an alias table that stands for a table with columns is an identifier. -/
theorem isIdentifier_of_mem_resolve {text key table : String}
    (hentry : (key, table) ∈ (Alias.Table.resolve text).entries)
    (hcode : mapping.codeColumn? table column = some code) : isIdentifier key = true := by
  rcases Alias.Table.isIdentifier_or_eq hentry with hkey | heq
  · exact hkey
  · -- a name that stands for itself is the code name of a table
    have htable : isIdentifier table = true := (isIdentifier_of_codeColumn? hcode).1
    rwa [heq] at htable

theorem KeysApart.stableNames {text : String} (h : mapping.KeysApart (Alias.Table.resolve text)) :
    mapping.StableNames (Alias.Table.resolve text).entries := by
  rintro ⟨key, table⟩ hentry column code hcode
  have hkey : isIdentifier key = true := isIdentifier_of_mem_resolve hentry hcode
  have hmem : key ∈ (Alias.Table.resolve text).keys := List.mem_map.2 ⟨_, hentry, rfl⟩
  have hapart := h key hmem
  rw [Alias.withoutHash_of_isIdentifier hkey] at hapart
  exact ⟨hkey, hapart⟩

section Stable

variable {before before' : List Segment} {word word' : String}

theorem StableNames.admits {name : String × String} (h : mapping.StableNames names)
    (hmem : name ∈ names) (hcode : mapping.codeColumn? name.2 column = some code)
    (halign : Aligned mapping.ColumnsRecoded before before' word word') :
    (Reference.qualified name.1).admits (charsBefore before') =
      (Reference.qualified name.1).admits (charsBefore before) := by
  obtain ⟨hname, hcolumn, hcodes⟩ := h name hmem column code hcode
  exact halign.admits_qualified hname fun w w' hw => hw.eq_iff hcolumn hcodes

/-- The qualifier of a word gives it the same code name after other columns were replaced. -/
theorem StableNames.qualifiedCode?_eq (h : mapping.StableNames names)
    (halign : Aligned mapping.ColumnsRecoded before before' word word') (column : String) :
    mapping.qualifiedCode? names (charsBefore before') column =
      mapping.qualifiedCode? names (charsBefore before) column := by
  induction names with
  | nil => rfl
  | cons name names ih =>
    have hnames := ih fun other hmem => h other (List.mem_cons_of_mem _ hmem)
    have hname : mapping.qualifiedCode? [name] (charsBefore before') column =
        mapping.qualifiedCode? [name] (charsBefore before) column := by
      rw [qualifiedCode?_singleton, qualifiedCode?_singleton]
      cases hcode : mapping.codeColumn? name.2 column with
      | none => rw [ite_self, ite_self]
      | some code => rw [h.admits List.mem_cons_self hcode halign]
    rw [← List.singleton_append, qualifiedCode?_append, qualifiedCode?_append, hname, hnames]

end Stable

/-! ### The rules -/

/-- The decisions follow the rules. -/
theorem StableNames.resolvesColumns (source : String)
    (hnames : mapping.StableNames aliases.entries) :
    mapping.ResolvesColumns source aliases (mapping.columnWord source aliases) where
  kept := by
    rintro before word (hword | hparameter)
    · rw [columnWord, wordAfter, if_neg hword]
    · rw [columnWord, wordAfter]
      split
      · rw [columnCode, if_pos hparameter]
        cases hcode : mapping.qualifiedCode? aliases.entries before word with
        | none => rfl
        | some code => exact absurd hparameter (head?_ne_of_qualifiedCode? hcode)
      · rfl
  qualified := by
    intro before word code hcode
    have hword : word ∈ mapping.columnNames := by
      obtain ⟨_, _, -, -, hcolumn⟩ := hcode
      exact mem_columnNames_of_codeColumn? hcolumn
    rw [columnWord, wordAfter, if_pos hword, columnCode,
      hnames.qualifiedCode?_eq_some_iff.2 hcode, Option.getD_some]
  bare := by
    intro before word entry code hword hparameter hnone hsole hcode
    have hqualified : mapping.qualifiedCode? aliases.entries before word = none :=
      Option.eq_none_iff_forall_ne_some.2 fun other h =>
        hnone other (hnames.qualifiedCode?_eq_some_iff.1 h)
    rw [columnWord, wordAfter, if_pos hword, columnCode, hqualified, if_neg hparameter,
      soleCodeColumn?_eq_some_iff.2 ⟨entry, hsole, hcode⟩]
    rfl
  unresolved := by
    intro before word hnone hlength
    have hqualified : mapping.qualifiedCode? aliases.entries before word = none :=
      Option.eq_none_iff_forall_ne_some.2 fun other h =>
        hnone other (hnames.qualifiedCode?_eq_some_iff.1 h)
    rw [columnWord, wordAfter, columnCode, hqualified, soleCodeColumn?_eq_none_iff.2 hlength]
    simp

/-- The rules leave nothing open. -/
theorem ResolvesColumns.unique {rule rule' : List Char → String → String}
    (h : mapping.ResolvesColumns source aliases rule)
    (h' : mapping.ResolvesColumns source aliases rule') : rule = rule' := by
  funext before word
  by_cases hkept : word ∉ mapping.columnNames ∨ before.head? = some '@'
  · rw [h.kept hkept, h'.kept hkept]
  by_cases hqualified : ∃ code, mapping.QualifiedCode aliases before word code
  · obtain ⟨code, hcode⟩ := hqualified
    rw [h.qualified hcode, h'.qualified hcode]
  rw [not_exists] at hqualified
  by_cases hlength : (mapping.referencedOwners source word).length = 1
  · rw [not_or, not_not] at hkept
    obtain ⟨entry, hsole⟩ := List.length_eq_one_iff.1 hlength
    have hentry : entry ∈ mapping.referencedOwners source word := by
      rw [hsole]
      exact List.mem_singleton_self entry
    obtain ⟨code, hcode⟩ := exists_codeColumn?_of_mem_referencedOwners hentry
    rw [h.bare hkept.1 hkept.2 hqualified hsole hcode,
      h'.bare hkept.1 hkept.2 hqualified hsole hcode]
  · rw [h.unresolved hqualified hlength, h'.unresolved hqualified hlength]

end Codename.Mapping
