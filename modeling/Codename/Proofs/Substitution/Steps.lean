import Codename.Proofs.Substitution.Columns
import Codename.Proofs.Substitution.Tables
import Codename.Substitution.Basic

/-!
# One replacement after another

Whatever the names of a mapping are, encrypting a query is a run of replacements: of a table by its
code name, of a column behind a qualifier, and of a column for which only one table can be meant. A
property of texts, or of pairs of words, that each replacement keeps is kept by the run.

## Main definitions

* `Mapping.Replacement`, `Mapping.columnReplacements` — the replacements for a column, in order.
* `Mapping.Replaces` — the replacements made for the columns in a list.

## Main statements

* `Mapping.foldl_substituteColumn_eq` — substituting columns carries out their replacements.
* `Mapping.foldl_substituteColumn_induction` — a property that each replacement keeps.
* `Mapping.wordwise_encrypt` — a property of pairs of words that each replacement keeps.
-/

namespace Codename.Mapping

open Codename.Text

/-- A replacement: the references that are replaced, the column and the code name. -/
structure Replacement where
  reference : Reference
  column : String
  code : String

/-- Carries out a replacement. -/
def Replacement.apply (text : String) (replacement : Replacement) : String :=
  replacement.reference.substitute replacement.column replacement.code text

/-- The replacements of a column behind the names in the list. -/
def qualifiedReplacements (mapping : Mapping) (column : String) (names : List (String × String)) :
    List Replacement :=
  names.filterMap fun name =>
    (mapping.codeColumn? name.2 column).map (Replacement.mk (.qualified name.1) column)

/-- The replacements of a column, first those behind qualifiers. -/
def columnReplacements (mapping : Mapping) (source : String) (aliases : Alias.Table)
    (column : String) : List Replacement :=
  mapping.qualifiedReplacements column aliases.entries ++
    ((mapping.soleCodeColumn? source column).map (Replacement.mk .bare column)).toList

/-- The replacements made for the columns in the list: the references that are replaced, the column
and the code name. -/
inductive Replaces (mapping : Mapping) (source : String) (aliases : Alias.Table)
    (columns : List String) : Reference → String → String → Prop
  | qualified {name : String × String} {column code : String} (hname : name ∈ aliases.entries)
      (hcolumn : column ∈ columns) (hcode : mapping.codeColumn? name.2 column = some code) :
      Replaces mapping source aliases columns (.qualified name.1) column code
  | bare {column code : String} (hcolumn : column ∈ columns)
      (hsole : mapping.soleCodeColumn? source column = some code) :
      Replaces mapping source aliases columns .bare column code

/-- The alias table by which the columns of a query are replaced. -/
abbrev queryAliases (mapping : Mapping) (text : String) : Alias.Table :=
  Alias.Table.resolve (mapping.substituteTables text)

variable {mapping : Mapping} {source text text' : String} {aliases : Alias.Table}
  {columns : List String}

namespace Replaces

variable {reference : Reference} {column code : String}

theorem mem (h : mapping.Replaces source aliases columns reference column code) :
    column ∈ columns := by
  cases h with
  | qualified _ hcolumn _ => exact hcolumn
  | bare hcolumn _ => exact hcolumn

theorem exists_codeColumn? (h : mapping.Replaces source aliases columns reference column code) :
    ∃ codeTable, mapping.codeColumn? codeTable column = some code := by
  cases h with
  | @qualified name _ _ _ _ hcode => exact ⟨name.2, hcode⟩
  | bare _ hsole => exact exists_codeColumn?_of_soleCodeColumn? hsole

theorem isIdentifier (h : mapping.Replaces source aliases columns reference column code) :
    isIdentifier column = true ∧ isIdentifier code = true := by
  obtain ⟨codeTable, hcode⟩ := h.exists_codeColumn?
  exact (isIdentifier_of_codeColumn? hcode).2

end Replaces

/-! ### The run of replacements -/

theorem foldl_substituteQualifiedBy_eq (mapping : Mapping) (column text : String)
    (names : List (String × String)) :
    names.foldl (mapping.substituteQualifiedBy column) text =
      (mapping.qualifiedReplacements column names).foldl Replacement.apply text := by
  rw [qualifiedReplacements, List.foldl_filterMap]
  congr 1
  funext text name
  rw [substituteQualifiedBy]
  cases mapping.codeColumn? name.2 column with
  | none => rfl
  | some code => rfl

theorem substituteColumn_eq_foldl (mapping : Mapping) (source : String) (aliases : Alias.Table)
    (text column : String) :
    mapping.substituteColumn source aliases text column =
      (mapping.columnReplacements source aliases column).foldl Replacement.apply text := by
  rw [substituteColumn_eq, foldl_substituteQualifiedBy_eq, columnReplacements, List.foldl_append,
    substituteBare]
  cases mapping.soleCodeColumn? source column with
  | none => rfl
  | some code => rfl

/-- Substituting columns carries out their replacements one after another. -/
theorem foldl_substituteColumn_eq (mapping : Mapping) (source : String) (aliases : Alias.Table)
    (columns : List String) (text : String) :
    columns.foldl (mapping.substituteColumn source aliases) text =
      (columns.flatMap (mapping.columnReplacements source aliases)).foldl Replacement.apply
        text := by
  rw [List.foldl_flatMap]
  congr 1
  funext text column
  exact substituteColumn_eq_foldl mapping source aliases text column

theorem mem_qualifiedReplacements {names : List (String × String)} {column : String}
    {replacement : Replacement} :
    replacement ∈ mapping.qualifiedReplacements column names ↔
      ∃ name ∈ names, ∃ code, mapping.codeColumn? name.2 column = some code ∧
        Replacement.mk (.qualified name.1) column code = replacement := by
  simp [qualifiedReplacements, List.mem_filterMap, Option.map_eq_some_iff]

theorem replaces_of_mem {replacement : Replacement}
    (h : replacement ∈ columns.flatMap (mapping.columnReplacements source aliases)) :
    mapping.Replaces source aliases columns replacement.reference replacement.column
      replacement.code := by
  obtain ⟨column, hcolumn, hmem⟩ := List.mem_flatMap.1 h
  rcases List.mem_append.1 hmem with hmem | hmem
  · obtain ⟨name, hname, code, hcode, rfl⟩ := mem_qualifiedReplacements.1 hmem
    exact .qualified hname hcolumn hcode
  · rw [Option.mem_toList] at hmem
    obtain ⟨code, hsole, rfl⟩ := Option.map_eq_some_iff.1 hmem
    exact .bare hcolumn hsole

/-- A property that each replacement keeps is kept by substituting columns. -/
theorem foldl_substituteColumn_induction {I : String → Prop}
    (hstep : ∀ {reference column code text},
      mapping.Replaces source aliases columns reference column code →
        I text → I (reference.substitute column code text))
    (h : I text) : I (columns.foldl (mapping.substituteColumn source aliases) text) := by
  rw [foldl_substituteColumn_eq]
  refine List.foldlRecOn _ _ h ?_
  intro text htext replacement hmem
  exact hstep (replaces_of_mem hmem) htext

section Wordwise

variable {P : List Segment → String → String → Prop}

/-- One replacement keeps a property of pairs of words if it keeps it for the words that are
replaced. -/
theorem Replaces.wordwise {reference : Reference} {column code : String}
    (h : mapping.Replaces source aliases columns reference column code)
    (hstep : ∀ {b b' w}, Aligned (fun _ _ => True) b b' w column →
      reference.admits (charsBefore b') = true → P b w column → P b w code)
    (hpairs : Wordwise P text text') :
    Wordwise P text (reference.substitute column code text') :=
  hpairs.substitute (Q := fun _ _ => True) h.isIdentifier.1 h.isIdentifier.2
    (fun _ _ _ _ => trivial) (fun _ _ hP => hP) hstep

/-- A property of pairs of words that each replacement keeps is kept by encrypting. -/
theorem wordwise_encrypt (hwords : ∀ b w, HasWordAt text b w → P b w (mapping.tableWord w))
    (hstep : ∀ {reference column code},
      mapping.Replaces text (mapping.queryAliases text) mapping.columnNames reference column code →
      ∀ {b b' w}, Aligned (fun _ _ => True) b b' w column →
        reference.admits (charsBefore b') = true → P b w column → P b w code) :
    Wordwise P text (mapping.encrypt text) := by
  refine foldl_substituteColumn_induction (I := fun text' => Wordwise P text text')
    (fun hreplaces => hreplaces.wordwise (hstep hreplaces)) ?_
  refine (wordwise_substituteTables mapping text).imp ?_
  rintro b w _ hplace rfl
  exact hwords b w hplace

end Wordwise

/-- No table is left in an encrypted query. -/
theorem hasWord_encrypt_of_mem_keys (hapart : mapping.CodesApart) {table : String}
    (htable : table ∈ mapping.tables.keys) : hasWord (mapping.encrypt text) table = false := by
  have hpairs : Wordwise (fun _ _ w' => w' ∉ mapping.tables.keys) text (mapping.encrypt text) := by
    refine wordwise_encrypt (fun _ w _ => tableWord_not_mem_keys hapart.codeTables w) ?_
    intro reference column code hreplaces _ _ _ _ _ _
    obtain ⟨codeTable, hcode⟩ := hreplaces.exists_codeColumn?
    exact hapart.not_mem_keys (mem_entries_of_codeColumn? hcode)
  rw [← Bool.not_eq_true, hasWord_iff]
  rintro ⟨before', hplace⟩
  obtain ⟨before, name, -, hnot, -⟩ :=
    hpairs.exists_left (Q := fun _ _ => True) (fun _ _ _ _ => trivial) hplace
  exact hnot htable

end Codename.Mapping
