import Codename.Proofs.Substitution.Kept
import Codename.Proofs.Text.Place
import Mathlib.Data.List.TakeWhile

/-!
# References behind a qualifier

A column behind a qualifier takes its code name in the table that the qualifier stands for when it
is the turn of the column. By then the qualifier must still be what the alias table calls it, though
it is a word like any other: an alias that is called like a column is replaced with the column. So a
reference is encrypted if its qualifier is spared by the columns whose turn is earlier, and a
qualifier that is such a column can leave the reference as it was.

## Main definitions

* `Mapping.columnsBefore` — the columns whose turn is earlier.
* `Mapping.KindsApart` — tables, columns and both kinds of code names have no name in common.
* `Replacement.Misses` — a replacement does not touch a word.
* `HasQualifiedAt` — a word behind a qualifier, at a place known from another text.

## Main statements

* `HasQualifiedAt.substitute` — what a replacement makes of a qualifier and of the word behind it.
* `Mapping.columnNames_eq_append` — the columns in front of a column and behind it.
* `Mapping.flatMap_columnReplacements_eq_append` — the replacements in front of the one for a
  qualifier and a column.
* `Mapping.standsAt_encrypt_of_qualified` — references behind a qualifier that is spared.
* `Mapping.not_standsAt_encrypt_directory` — a reference behind one that is not.
-/

namespace Codename.Mapping

open Codename.Text

/-- The columns whose turn is earlier than that of the column. -/
def columnsBefore (mapping : Mapping) (column : String) : List String :=
  mapping.columnNames.takeWhile (· != column)

/-- No name is of two kinds: a table, the code name of a table, a column, the code name of a
column. -/
def KindsApart (mapping : Mapping) : Prop :=
  [mapping.tables.keys, mapping.codeTables, mapping.columnNames, mapping.codeColumns].Pairwise
    fun names others => ∀ name ∈ names, name ∉ others

/-- The replacement does not touch the word wherever the character in front of it is the one that
the reversed text `before` starts with. -/
def Replacement.Misses (replacement : Replacement) (before : List Char) (word : String) : Prop :=
  replacement.column = word →
    ∀ before', before'.head? = before.head? → replacement.reference.admits before' = false

/-- The word stands behind the qualifier and a dot, and in another text the segments `front` are in
front of the qualifier. -/
def HasQualifiedAt (text : String) (front : List Segment) (qualifier word : String) : Prop :=
  ∃ front', SamePlace front front' ∧
    HasWordAt text (.other '.' :: .word qualifier :: front') word

variable {mapping : Mapping} {source text qualifier table column code word : String}
  {aliases : Alias.Table} {columns : List String} {front before : List Segment}

instance : Decidable mapping.KindsApart :=
  inferInstanceAs (Decidable (List.Pairwise _ _))

/-! ### One replacement -/

theorem Replaces.misses {replacement : Replacement} {before : List Char}
    (h : mapping.Replaces source aliases columns replacement.reference replacement.column
      replacement.code)
    (hspared : mapping.Spared source columns before word) : replacement.Misses before word := by
  rintro rfl before' hhead
  rw [← Bool.not_eq_true]
  intro hadmits
  exact h.not_spared hadmits (hspared.of_head?_eq hhead)

theorem Replacement.misses_of_qualified {replacement : Replacement} {other : String}
    {before : List Char} (hreference : replacement.reference = .qualified other)
    (hdot : replacement.column = word → before.head? ≠ some '.') :
    replacement.Misses before word := by
  intro hcolumn before' hhead
  rw [← Bool.not_eq_true, hreference, Reference.admits_qualified_eq_true]
  rintro ⟨rest, rfl, -⟩
  exact hdot hcolumn hhead.symm

theorem HasQualifiedAt.standsAt (h : HasQualifiedAt text front qualifier word) (name : String) :
    StandsAt text (.other '.' :: .word name :: front) word := by
  obtain ⟨front', hsame, hplace⟩ := h
  exact ⟨_, .cons (.other '.') (.cons (.word trivial) hsame), hplace⟩

/-- What a replacement makes of a qualifier and of the word behind it. -/
theorem HasQualifiedAt.substitute (reference : Reference) (hcolumn : isIdentifier column = true)
    (hcode : isIdentifier code = true) (h : HasQualifiedAt text front qualifier word) :
    ∃ front', SamePlace front front' ∧ IsCut (.other '.' :: .word qualifier :: front') ∧
      HasQualifiedAt (reference.substitute column code text) front
        (reference.rule column code (charsBefore front') qualifier)
        (reference.rule column code (charsBefore (.other '.' :: .word qualifier :: front'))
          word) := by
  obtain ⟨front', hsame, hplace⟩ := h
  have hnext := hplace.substitute reference hcolumn hcode
  rw [rewriteBefore, rewriteBefore] at hnext
  exact ⟨front', hsame, hplace.isCut.tail, _, hsame.rewriteBefore _, hnext⟩

theorem HasQualifiedAt.apply {replacement : Replacement}
    (hcolumn : isIdentifier replacement.column = true)
    (hcode : isIdentifier replacement.code = true) (hcut : IsCut (.word qualifier :: front))
    (hmisses : replacement.Misses (charsBefore front) qualifier)
    (h : HasQualifiedAt text front qualifier word) :
    ∃ front', IsCut (.other '.' :: .word qualifier :: front') ∧
      HasQualifiedAt (replacement.apply text) front qualifier
        (replacement.reference.rule replacement.column replacement.code
          (charsBefore (.other '.' :: .word qualifier :: front')) word) := by
  obtain ⟨front', hsame, hcut', hnext⟩ := h.substitute replacement.reference hcolumn hcode
  have halign : Aligned (fun _ _ => True) front front' qualifier qualifier :=
    ⟨hcut, hcut'.tail, hsame⟩
  have hkept : replacement.reference.rule replacement.column replacement.code
      (charsBefore front') qualifier = qualifier := by
    refine if_neg ?_
    rintro ⟨hword, hadmits⟩
    rw [hmisses hword.symm _ halign.head?_charsBefore] at hadmits
    cases hadmits
  rw [hkept] at hnext
  exact ⟨front', hcut', hnext⟩

/-- Before the turn of the qualifier the reference stays: other columns are replaced, or the column
behind other qualifiers. -/
theorem HasQualifiedAt.apply_of_other {replacement : Replacement}
    (hcolumn : isIdentifier replacement.column = true)
    (hcode : isIdentifier replacement.code = true) (hcut : IsCut (.word qualifier :: front))
    (hmisses : replacement.Misses (charsBefore front) qualifier)
    (hother : replacement.column = word → ∃ other, replacement.reference = .qualified other ∧
      isIdentifier other = true ∧ other ≠ qualifier)
    (h : HasQualifiedAt text front qualifier word) :
    HasQualifiedAt (replacement.apply text) front qualifier word := by
  obtain ⟨front', hcut', hnext⟩ := h.apply hcolumn hcode hcut hmisses
  have hrule : replacement.reference.rule replacement.column replacement.code
      (charsBefore (.other '.' :: .word qualifier :: front')) word = word := by
    refine if_neg ?_
    rintro ⟨hword, hadmits⟩
    obtain ⟨other, hreference, hidentifier, hne⟩ := hother hword.symm
    rw [hreference, Reference.admits_qualified_iff hidentifier hcut'] at hadmits
    obtain ⟨rest, hrest⟩ := hadmits
    cases hrest
    exact hne rfl
  rwa [hrule] at hnext

/-- At the turn of the qualifier the column takes its code name. -/
theorem HasQualifiedAt.standsAt_apply (hqualifier : isIdentifier qualifier = true)
    (hcolumn : isIdentifier column = true) (hcode : isIdentifier code = true)
    (h : HasQualifiedAt text front qualifier column) :
    StandsAt (Replacement.apply text ⟨.qualified qualifier, column, code⟩)
      (.other '.' :: .word qualifier :: front) code := by
  obtain ⟨front', -, hcut, hnext⟩ := h.substitute (.qualified qualifier) hcolumn hcode
  have hadmits : (Reference.qualified qualifier).admits
      (charsBefore (.other '.' :: .word qualifier :: front')) = true :=
    (Reference.admits_qualified_iff hqualifier hcut).2 ⟨front', rfl⟩
  have hword : (Reference.qualified qualifier).rule column code
      (charsBefore (.other '.' :: .word qualifier :: front')) column = code :=
    if_pos ⟨rfl, hadmits⟩
  rw [hword] at hnext
  exact hnext.standsAt qualifier

/-! ### The run -/

/-- Of the replacements of a column, those in front of the one for a name of the alias table are for
other names. -/
theorem columnReplacements_eq_append (source : String)
    (hentry : (qualifier, table) ∈ aliases.entries)
    (hcode : mapping.codeColumn? table column = some code) :
    ∃ names ⊆ aliases.entries, ∃ last,
      mapping.columnReplacements source aliases column =
        mapping.qualifiedReplacements column names ++
          ⟨.qualified qualifier, column, code⟩ :: last ∧
      ∀ name ∈ names, name.1 ≠ qualifier := by
  obtain ⟨names, names', hentries, hothers⟩ := KeyedList.entries_eq_append hentry
  refine ⟨names, ?_, mapping.qualifiedReplacements column names' ++
    ((mapping.soleCodeColumn? source column).map (Replacement.mk .bare column)).toList, ?_, ?_⟩
  · rw [hentries]
    exact List.subset_append_left _ _
  · rw [columnReplacements, hentries, qualifiedReplacements, List.filterMap_append,
      List.filterMap_cons, hcode, List.append_assoc]
    rfl
  · exact fun name hname => hothers name (List.mem_append_left _ hname)

theorem ne_of_mem_columnsBefore {other : String} (h : other ∈ mapping.columnsBefore column) :
    other ≠ column := by
  have hne := List.mem_takeWhile_imp (p := (· != column)) h
  exact bne_iff_ne.1 hne

/-- The turn of a column comes once. -/
theorem columnNames_eq_append (h : column ∈ mapping.columnNames) :
    ∃ later, mapping.columnNames = mapping.columnsBefore column ++ column :: later ∧
      column ∉ later := by
  obtain ⟨earlier, later, hnames, hnew⟩ := List.eq_append_cons_of_mem h
  have hearlier : ∀ other ∈ earlier, (other != column) = true := by
    intro other hmem
    rw [bne_iff_ne]
    rintro rfl
    exact hnew hmem
  have hbefore : mapping.columnsBefore column = earlier := by
    rw [columnsBefore, hnames, List.takeWhile_append_of_pos hearlier]
    simp
  have hnodup := nodup_columnNames mapping
  rw [hnames, List.nodup_append, List.nodup_cons] at hnodup
  exact ⟨later, by rw [hbefore, hnames], hnodup.2.1.1⟩

/-- The run of replacements comes to the column behind the qualifier. Until then columns whose turn
is earlier are replaced, and the column behind other qualifiers. -/
theorem flatMap_columnReplacements_eq_append (source : String)
    (hentry : (qualifier, table) ∈ aliases.entries)
    (hcode : mapping.codeColumn? table column = some code) :
    ∃ first last,
      mapping.columnNames.flatMap (mapping.columnReplacements source aliases) =
        first ++ ⟨.qualified qualifier, column, code⟩ :: last ∧
      ∀ replacement ∈ first,
        mapping.Replaces source aliases (mapping.columnsBefore column) replacement.reference
            replacement.column replacement.code ∨
          replacement.column = column ∧
            ∃ name ∈ aliases.entries, name.1 ≠ qualifier ∧
              replacement.reference = .qualified name.1 ∧
              mapping.codeColumn? name.2 column = some replacement.code := by
  obtain ⟨later, hnames, -⟩ := columnNames_eq_append (mem_columnNames_of_codeColumn? hcode)
  obtain ⟨names, hsubset, last, hcolumn, hothers⟩ :=
    columnReplacements_eq_append source hentry hcode
  refine ⟨(mapping.columnsBefore column).flatMap (mapping.columnReplacements source aliases) ++
      mapping.qualifiedReplacements column names,
    last ++ later.flatMap (mapping.columnReplacements source aliases), ?_, ?_⟩
  · conv_lhs => rw [hnames]
    rw [List.flatMap_append, List.flatMap_cons, hcolumn]
    simp
  · intro replacement hmem
    rcases List.mem_append.1 hmem with hmem | hmem
    · exact .inl (replaces_of_mem hmem)
    · obtain ⟨name, hname, found, hfound, rfl⟩ := mem_qualifiedReplacements.1 hmem
      exact .inr ⟨rfl, name, hsubset hname, hothers name hname, rfl, hfound⟩

theorem HasQualifiedAt.foldl_apply {replacements : List Replacement}
    (hcut : IsCut (.word qualifier :: front))
    (hreplaces : ∀ replacement ∈ replacements, mapping.Replaces source aliases columns
      replacement.reference replacement.column replacement.code)
    (hmisses : ∀ replacement ∈ replacements, replacement.Misses (charsBefore front) qualifier)
    (hother : ∀ replacement ∈ replacements, replacement.column = word →
      ∃ other, replacement.reference = .qualified other ∧ isIdentifier other = true ∧
        other ≠ qualifier)
    (h : HasQualifiedAt text front qualifier word) :
    HasQualifiedAt (replacements.foldl Replacement.apply text) front qualifier word := by
  refine List.foldlRecOn (motive := fun text' => HasQualifiedAt text' front qualifier word)
    replacements Replacement.apply h ?_
  intro text' hreference replacement hmem
  obtain ⟨hcolumn, hcode⟩ := (hreplaces replacement hmem).isIdentifier
  exact hreference.apply_of_other hcolumn hcode hcut (hmisses replacement hmem)
    (hother replacement hmem)

/-- A word that is no column stays where it stands. -/
theorem standsAt_foldl_apply {replacements : List Replacement}
    (hreplaces : ∀ replacement ∈ replacements, mapping.Replaces source aliases columns
      replacement.reference replacement.column replacement.code)
    (hword : word ∉ columns) (h : StandsAt text before word) :
    StandsAt (replacements.foldl Replacement.apply text) before word := by
  refine List.foldlRecOn (motive := fun text' => StandsAt text' before word)
    replacements Replacement.apply h ?_
  intro text' hstands replacement hmem
  have hreplacement := hreplaces replacement hmem
  refine hstands.substitute_of_ne hreplacement.isIdentifier.1 hreplacement.isIdentifier.2 ?_
  rintro rfl
  exact hword hreplacement.mem

/-- In an encrypted query a column behind a qualifier that the alias table has for a table with the
column is the code name of the column in this table, if the qualifier is spared while the columns
whose turn is earlier are replaced. A qualifier that is called like the column itself must not stand
behind another qualifier. -/
theorem standsAt_encrypt_of_qualified (mapping : Mapping) (text : String)
    (hcodes : ∀ code ∈ mapping.codeColumns, code ∉ mapping.columnNames)
    {before : List Segment} {column code : String}
    (hplace : HasWordAt (mapping.substituteTables text) before column)
    (hqualified : mapping.QualifiedCode (Alias.Table.resolve (mapping.substituteTables text))
      (charsBefore before) column code)
    (hspared : ∀ qualifier front, before = .other '.' :: .word qualifier :: front →
      mapping.Spared text (mapping.columnsBefore column) (charsBefore front) qualifier ∧
        (qualifier = column → (charsBefore front).head? ≠ some '.')) :
    StandsAt (mapping.encrypt text) before code := by
  obtain ⟨qualifier, table, hbefore, hget, hcode⟩ := hqualified
  have hentry := KeyedList.get?_eq_some_iff.1 hget
  have hqualifier : isIdentifier qualifier = true := isIdentifier_of_mem_resolve hentry hcode
  obtain ⟨front, rfl⟩ := (Reference.admits_qualified_iff hqualifier hplace.isCut.tail).1
    (Reference.admits_qualified_eq_true.2 hbefore)
  have hcut : IsCut (.word qualifier :: front) := hplace.isCut.tail.tail
  obtain ⟨hearlier, hself⟩ := hspared qualifier front rfl
  obtain ⟨-, hcolumnId, hcodeId⟩ := isIdentifier_of_codeColumn? hcode
  obtain ⟨first, last, hrun, hfirst⟩ := flatMap_columnReplacements_eq_append text hentry hcode
  have hreplaces : ∀ replacement ∈ first ++ ⟨.qualified qualifier, column, code⟩ :: last,
      mapping.Replaces text (mapping.queryAliases text) mapping.columnNames
        replacement.reference replacement.column replacement.code := by
    rw [← hrun]
    exact fun replacement hmem => replaces_of_mem hmem
  -- up to the turn of the qualifier the reference stays
  have hturn : HasQualifiedAt (first.foldl Replacement.apply (mapping.substituteTables text))
      front qualifier column := by
    refine HasQualifiedAt.foldl_apply hcut
      (fun replacement hmem => hreplaces replacement (List.mem_append_left _ hmem)) ?_ ?_
      ⟨front, .refl front, hplace⟩
    · intro replacement hmem
      rcases hfirst replacement hmem with hbefore | ⟨hsame, name, -, -, hbehind, -⟩
      · exact hbefore.misses hearlier
      · exact Replacement.misses_of_qualified hbehind fun hword =>
          hself (hword.symm.trans hsame)
    · intro replacement hmem hsame
      rcases hfirst replacement hmem with hbefore | ⟨-, name, hname, hne, hbehind, hfound⟩
      · exact absurd hsame (ne_of_mem_columnsBefore hbefore.mem)
      · exact ⟨name.1, hbehind, isIdentifier_of_mem_resolve hname hfound, hne⟩
  rw [encrypt, substituteColumns, foldl_substituteColumn_eq, hrun, List.foldl_append,
    List.foldl_cons]
  -- after it the code name stays, for it is no column
  refine standsAt_foldl_apply (fun replacement hmem => hreplaces replacement ?_)
    (hcodes code (mem_codeColumns_of_codeColumn? hcode))
    (hturn.standsAt_apply hqualifier hcolumnId hcodeId)
  exact List.mem_append_right _ (List.mem_cons_of_mem _ hmem)

/-- The turn of `id` comes before that of `name`, but the alias of this name is kept, for both
tables have the column. -/
theorem standsAt_encrypt_of_qualified_shop :
    (∀ code ∈ shop.codeColumns, code ∉ shop.columnNames) ∧
      HasWordAt (shop.substituteTables "id.name FROM customer id, orders")
        [.other '.', .word "id"] "name" ∧
      shop.QualifiedCode
        (Alias.Table.resolve (shop.substituteTables "id.name FROM customer id, orders"))
        (charsBefore [.other '.', .word "id"]) "name" "C2" ∧
      shop.columnsBefore "name" = ["id"] ∧
      shop.Spared "id.name FROM customer id, orders" (shop.columnsBefore "name") [] "id" ∧
      shop.encrypt "id.name FROM customer id, orders" = "id.C2 FROM T1 id, T2" ∧
      StandsAt (shop.encrypt "id.name FROM customer id, orders") [.other '.', .word "id"] "C2" := by
  have hcodes : ∀ code ∈ shop.codeColumns, code ∉ shop.columnNames := by decide +kernel
  have hplace : HasWordAt (shop.substituteTables "id.name FROM customer id, orders")
      [.other '.', .word "id"] "name" := by
    refine ⟨segments " FROM T1 id, T2".toList, ?_⟩
    decide +kernel
  have hqualified : shop.QualifiedCode
      (Alias.Table.resolve (shop.substituteTables "id.name FROM customer id, orders"))
      (charsBefore [.other '.', .word "id"]) "name" "C2" :=
    ⟨"id", "T1", Reference.admits_qualified_eq_true.1 (by decide +kernel), by decide +kernel⟩
  have hspared :
      shop.Spared "id.name FROM customer id, orders" (shop.columnsBefore "name") [] "id" :=
    .inr (.inr ⟨by decide, by decide +kernel⟩)
  refine ⟨hcodes, hplace, hqualified, by decide +kernel, hspared, by decide +kernel,
    standsAt_encrypt_of_qualified shop _ hcodes hplace hqualified ?_⟩
  intro qualifier front hbefore
  cases hbefore
  exact ⟨hspared, by decide⟩

/-! ### A qualifier that is an earlier column -/

/-- A document with the same column names, the first of which is a column of one table only. -/
def directory : Mapping where
  document := {
    tables := .ofList [("customer", "T1"), ("orders", "T2")]
    columns := .ofList
      [("T1", .ofList [("name", "C1"), ("id", "C2")]), ("T2", .ofList [("id", "D1")])] }
  valid := by decide +kernel

/-- The alias `name` is replaced at the turn of the column of this name, and no reference behind it
is found after that. -/
theorem not_standsAt_encrypt_directory :
    directory.KindsApart ∧
      HasWordAt (directory.substituteTables "SELECT name.id FROM customer name JOIN orders o")
        [.other '.', .word "name", .other ' ', .word "SELECT"] "id" ∧
      directory.QualifiedCode
        (Alias.Table.resolve
          (directory.substituteTables "SELECT name.id FROM customer name JOIN orders o"))
        (charsBefore [.other '.', .word "name", .other ' ', .word "SELECT"]) "id" "C2" ∧
      directory.encrypt "SELECT name.id FROM customer name JOIN orders o" =
        "SELECT C1.id FROM T1 C1 JOIN T2 o" ∧
      ¬StandsAt (directory.encrypt "SELECT name.id FROM customer name JOIN orders o")
        [.other '.', .word "name", .other ' ', .word "SELECT"] "C2" := by
  have hencrypt : directory.encrypt "SELECT name.id FROM customer name JOIN orders o" =
      "SELECT C1.id FROM T1 C1 JOIN T2 o" := by decide +kernel
  refine ⟨by decide +kernel, ⟨segments " FROM T1 name JOIN T2 o".toList, by decide +kernel⟩, ?_,
    hencrypt, ?_⟩
  · exact ⟨"name", "T1", Reference.admits_qualified_eq_true.1 (by decide +kernel),
      by decide +kernel⟩
  · rw [hencrypt]
    intro hstands
    have habsent : hasWord "SELECT C1.id FROM T1 C1 JOIN T2 o" "C2" = false := by decide +kernel
    rw [hstands.hasWord] at habsent
    cases habsent

end Codename.Mapping
