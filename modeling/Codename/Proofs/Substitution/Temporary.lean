import Codename.Proofs.Substitution.Qualified

/-!
# Columns of temporary tables

The name of a temporary table begins with `#`, and no mapping has columns for such a table. But `#`
is no word character, so a column behind `#x.` is behind `x.` as well. If the alias table has the
plain name for a table with the column, then the column takes its code name in this table. It is
left alone only if the plain name stands for no such table. The name `x` is itself a word without a
qualifier and is replaced like one, so what counts is what it is at the turn of the column.

## Main definitions

* `Mapping.bareWord`, `Mapping.qualifiedWord` — what replacing a column makes of a word without a
  qualifier and of a word behind one.
* `HasTemporaryAt`, `Mapping.temporaryStep` — a name behind `#` and the word behind it, and what
  replacing a column makes of them.
* `Mapping.temporaryCode?` — the code name that a column takes behind such a name.
* `Mapping.temporaryWord` — the word that is there in the end.

## Main statements

* `HasTemporaryAt.foldl_substituteColumn` — what a run of replacements makes of them.
* `Mapping.temporaryWord_eq` — what is left to the columns behind the one that stood there.
* `Mapping.standsAt_substituteColumns_of_temporary` — when a column of a temporary table is kept.
* `Mapping.not_standsAt_substituteColumns_temporary` — one that takes the code name of an alias.
-/

namespace Codename.Mapping

open Codename.Text

/-- What becomes of a word without a qualifier when the column is replaced. -/
def bareWord (mapping : Mapping) (source word column : String) : String :=
  if word = column then (mapping.soleCodeColumn? source column).getD word else word

/-- The code name of the column in the table that the name stands for. -/
def boundCode? (mapping : Mapping) (aliases : Alias.Table) (name column : String) :
    Option String :=
  (aliases.get? name).bind (mapping.codeColumn? · column)

/-- What becomes of a word behind the name when the column is replaced behind all names of the alias
table. -/
def qualifiedWord (mapping : Mapping) (aliases : Alias.Table) (name word column : String) :
    String :=
  if word = column then (mapping.boundCode? aliases name column).getD word else word

/-- In the text a name stands behind `#`, and a word behind the name and a dot. In another text the
segments `front` are in front of the `#`. -/
def HasTemporaryAt (text : String) (front : List Segment) (reference : String × String) : Prop :=
  HasQualifiedAt text (.other '#' :: front) reference.1 reference.2

/-- What becomes of a name behind `#` and of the word behind it when the column is replaced. -/
def temporaryStep (mapping : Mapping) (source : String) (aliases : Alias.Table)
    (reference : String × String) (column : String) : String × String :=
  (mapping.bareWord source reference.1 column,
    mapping.bareWord source (mapping.qualifiedWord aliases reference.1 reference.2 column) column)

/-- The code name that the column takes behind `#` and the name, if any. It is the one for what has
become of the name when it is the turn of the column. -/
def temporaryCode? (mapping : Mapping) (source : String) (aliases : Alias.Table)
    (name column : String) : Option String :=
  mapping.boundCode? aliases ((mapping.columnsBefore column).foldl (mapping.bareWord source) name)
    column

/-- What becomes of the word behind `#` and a name in the course of all columns. -/
def temporaryWord (mapping : Mapping) (source : String) (aliases : Alias.Table)
    (name word : String) : String :=
  (mapping.columnNames.foldl (mapping.temporaryStep source aliases) (name, word)).2

variable {mapping : Mapping} {source text aliasText name qualifier column code word : String}
  {aliases : Alias.Table} {names : List (String × String)} {columns : List String}
  {reference : String × String} {front : List Segment}

theorem boundCode?_eq_some_iff :
    mapping.boundCode? aliases name column = some code ↔
      ∃ table, (name, table) ∈ aliases.entries ∧ mapping.codeColumn? table column = some code := by
  simp only [boundCode?, Option.bind_eq_some_iff, KeyedList.get?_eq_some_iff]

theorem mem_columnNames_of_boundCode? (h : mapping.boundCode? aliases name column = some code) :
    column ∈ mapping.columnNames := by
  obtain ⟨table, -, hcode⟩ := boundCode?_eq_some_iff.1 h
  exact mem_columnNames_of_codeColumn? hcode

/-! ### One replacement -/

/-- A name behind `#` has no qualifier, but is one. -/
theorem HasTemporaryAt.substitute_qualified (hqualifier : isIdentifier qualifier = true)
    (hcolumn : isIdentifier column = true) (hcode : isIdentifier code = true)
    (h : HasTemporaryAt text front (name, word)) :
    HasTemporaryAt ((Reference.qualified qualifier).substitute column code text) front
      (name, if word = column ∧ qualifier = name then code else word) := by
  have hplace : HasQualifiedAt text (.other '#' :: front) name word := h
  obtain ⟨_, hsame, hcut, hnext⟩ := hplace.substitute (.qualified qualifier) hcolumn hcode
  obtain ⟨⟩ | @⟨_, _, _, front', ⟨⟩ | ⟨_⟩, -⟩ := hsame
  have hname : (Reference.qualified qualifier).rule column code
      (charsBefore (.other '#' :: front')) name = name := by
    refine if_neg ?_
    rintro ⟨-, hadmits⟩
    obtain ⟨rest, hrest⟩ := (Reference.admits_qualified_iff hqualifier hcut.tail.tail).1 hadmits
    cases hrest
  have hadmits : (Reference.qualified qualifier).admits
      (charsBefore (.other '.' :: .word name :: .other '#' :: front')) = true ↔
        qualifier = name := by
    rw [Reference.admits_qualified_iff hqualifier hcut]
    constructor
    · rintro ⟨rest, hrest⟩
      cases hrest
      rfl
    · rintro rfl
      exact ⟨_, rfl⟩
  have hword : (Reference.qualified qualifier).rule column code
      (charsBefore (.other '.' :: .word name :: .other '#' :: front')) word =
        if word = column ∧ qualifier = name then code else word := by
    simp only [Reference.rule, hadmits]
  rw [hname, hword] at hnext
  exact hnext

/-- Neither a name behind `#` nor the word behind it is a parameter. -/
theorem HasTemporaryAt.substituteBare (source column : String)
    (h : HasTemporaryAt text front (name, word)) :
    HasTemporaryAt (mapping.substituteBare source column text) front
      (mapping.bareWord source name column, mapping.bareWord source word column) := by
  rw [Mapping.substituteBare, bareWord, bareWord]
  split
  · next code hsole =>
    obtain ⟨_, hcode⟩ := exists_codeColumn?_of_soleCodeColumn? hsole
    obtain ⟨-, hcolumnId, hcodeId⟩ := isIdentifier_of_codeColumn? hcode
    have hplace : HasQualifiedAt text (.other '#' :: front) name word := h
    obtain ⟨_, hsame, -, hnext⟩ := hplace.substitute .bare hcolumnId hcodeId
    obtain ⟨⟩ | @⟨_, _, _, front', ⟨⟩ | ⟨_⟩, -⟩ := hsame
    simpa [HasTemporaryAt, Reference.rule, Reference.admits_bare_iff, hsole] using hnext
  · next hsole => simpa [hsole] using h

/-! ### One column -/

/-- Behind other qualifiers a column is replaced without a change to the reference. -/
theorem HasTemporaryAt.foldl_substituteQualifiedBy_of_ne
    (hnames : ∀ entry ∈ names, ∀ code, mapping.codeColumn? entry.2 column = some code →
      isIdentifier entry.1 = true ∧ entry.1 ≠ name)
    (h : HasTemporaryAt text front (name, word)) :
    HasTemporaryAt (names.foldl (mapping.substituteQualifiedBy column) text) front
      (name, word) := by
  refine List.foldlRecOn (motive := fun text' => HasTemporaryAt text' front (name, word)) names _ h
    ?_
  intro text' hreference entry hmem
  rw [substituteQualifiedBy]
  split
  · next code hcode =>
    obtain ⟨hqualifier, hne⟩ := hnames entry hmem code hcode
    obtain ⟨-, hcolumnId, hcodeId⟩ := isIdentifier_of_codeColumn? hcode
    have hnext := hreference.substitute_qualified hqualifier hcolumnId hcodeId
    rwa [if_neg fun hboth => hne hboth.2] at hnext
  · exact hreference

/-- Of the names of the alias table only the one behind `#` matters, without the `#`. -/
theorem HasTemporaryAt.foldl_substituteQualifiedBy (aliasText column : String)
    (h : HasTemporaryAt text front (name, word)) :
    HasTemporaryAt
      ((Alias.Table.resolve aliasText).entries.foldl (mapping.substituteQualifiedBy column) text)
      front (name, mapping.qualifiedWord (Alias.Table.resolve aliasText) name word column) := by
  cases hbound : mapping.boundCode? (Alias.Table.resolve aliasText) name column with
  | none =>
    rw [qualifiedWord, hbound, Option.getD_none, ite_self]
    refine h.foldl_substituteQualifiedBy_of_ne fun entry hmem code hcode => ?_
    refine ⟨isIdentifier_of_mem_resolve hmem hcode, ?_⟩
    rintro rfl
    have hsome := boundCode?_eq_some_iff.2 ⟨entry.2, hmem, hcode⟩
    rw [hbound] at hsome
    cases hsome
  | some code =>
    obtain ⟨table, hentry, hcode⟩ := boundCode?_eq_some_iff.1 hbound
    obtain ⟨left, right, hentries, hothers⟩ := KeyedList.entries_eq_append hentry
    obtain ⟨-, hcolumnId, hcodeId⟩ := isIdentifier_of_codeColumn? hcode
    have hkept : ∀ entry ∈ left ++ right, ∀ code, mapping.codeColumn? entry.2 column = some code →
        isIdentifier entry.1 = true ∧ entry.1 ≠ name := by
      intro entry hmem other hother
      have hin : entry ∈ (Alias.Table.resolve aliasText).entries := by
        rw [hentries]
        exact ((List.sublist_cons_self _ right).append_left left).subset hmem
      exact ⟨isIdentifier_of_mem_resolve hin hother, hothers entry hmem⟩
    have hleft := h.foldl_substituteQualifiedBy_of_ne fun entry hmem =>
      hkept entry (List.mem_append_left _ hmem)
    have hturn := hleft.substitute_qualified (isIdentifier_of_mem_resolve hentry hcode) hcolumnId
      hcodeId
    simp only [and_true] at hturn
    rw [hentries, List.foldl_append, List.foldl_cons, substituteQualifiedBy, hcode, qualifiedWord,
      hbound, Option.getD_some]
    exact hturn.foldl_substituteQualifiedBy_of_ne fun entry hmem =>
      hkept entry (List.mem_append_right _ hmem)

theorem HasTemporaryAt.substituteColumn (source aliasText column : String)
    (h : HasTemporaryAt text front reference) :
    HasTemporaryAt (mapping.substituteColumn source (Alias.Table.resolve aliasText) text column)
      front (mapping.temporaryStep source (Alias.Table.resolve aliasText) reference column) := by
  rw [substituteColumn_eq]
  exact (h.foldl_substituteQualifiedBy aliasText column).substituteBare source column

/-! ### The run -/

/-- What a run of replacements makes of a name behind `#` and of the word behind it, is decided by
these two. -/
theorem HasTemporaryAt.foldl_substituteColumn (mapping : Mapping) (source aliasText : String)
    (columns : List String) (h : HasTemporaryAt text front reference) :
    HasTemporaryAt
      (columns.foldl (mapping.substituteColumn source (Alias.Table.resolve aliasText)) text) front
      (columns.foldl (mapping.temporaryStep source (Alias.Table.resolve aliasText)) reference) := by
  induction columns generalizing text reference with
  | nil => exact h
  | cons column columns ih => exact ih (h.substituteColumn source aliasText column)

theorem fst_foldl_temporaryStep (columns : List String) (reference : String × String) :
    (columns.foldl (mapping.temporaryStep source aliases) reference).1 =
      columns.foldl (mapping.bareWord source) reference.1 := by
  induction columns generalizing reference with
  | nil => rfl
  | cons column columns ih => exact ih _

/-- A word that is none of the columns stays. -/
theorem snd_foldl_temporaryStep_of_not_mem (hword : reference.2 ∉ columns) :
    (columns.foldl (mapping.temporaryStep source aliases) reference).2 = reference.2 := by
  induction columns generalizing reference with
  | nil => rfl
  | cons column columns ih =>
    rw [List.mem_cons, not_or] at hword
    have hstep : (mapping.temporaryStep source aliases reference column).2 = reference.2 := by
      simp [temporaryStep, qualifiedWord, bareWord, hword.1]
    rw [List.foldl_cons, ih (by rw [hstep]; exact hword.2), hstep]

/-- A column that is only replaced behind qualifiers is as it was until its turn. Then it takes its
code name or not, and what stands there is left to the later columns. -/
theorem temporaryWord_eq (hsole : mapping.soleCodeColumn? source column = none)
    {later : List String}
    (hnames : mapping.columnNames = mapping.columnsBefore column ++ column :: later) :
    mapping.temporaryWord source aliases name column =
      (later.foldl (mapping.temporaryStep source aliases)
        ((mapping.columnsBefore column).foldl (mapping.bareWord source) name,
          (mapping.temporaryCode? source aliases name column).getD column)).2 := by
  have hbefore : (mapping.columnsBefore column).foldl (mapping.temporaryStep source aliases)
      (name, column) =
        ((mapping.columnsBefore column).foldl (mapping.bareWord source) name, column) :=
    Prod.ext (fst_foldl_temporaryStep _ _)
      (snd_foldl_temporaryStep_of_not_mem fun hmem => ne_of_mem_columnsBefore hmem rfl)
  have hturn : mapping.temporaryStep source aliases
      ((mapping.columnsBefore column).foldl (mapping.bareWord source) name, column) column =
        ((mapping.columnsBefore column).foldl (mapping.bareWord source) name,
          (mapping.temporaryCode? source aliases name column).getD column) := by
    simp [temporaryStep, qualifiedWord, temporaryCode?, bareWord, hsole]
  rw [temporaryWord]
  conv_lhs => rw [hnames, List.foldl_append, hbefore, List.foldl_cons, hturn]

/-- The code name that a column takes at its turn stays if it is no column. -/
theorem temporaryWord_eq_getD (hsole : mapping.soleCodeColumn? source column = none)
    (hcodes : ∀ code, mapping.temporaryCode? source aliases name column = some code →
      code ∉ mapping.columnNames) :
    mapping.temporaryWord source aliases name column =
      (mapping.temporaryCode? source aliases name column).getD column := by
  by_cases hcolumn : column ∈ mapping.columnNames
  · obtain ⟨later, hnames, hnew⟩ := columnNames_eq_append hcolumn
    rw [temporaryWord_eq hsole hnames]
    refine snd_foldl_temporaryStep_of_not_mem ?_
    cases hcode : mapping.temporaryCode? source aliases name column with
    | none => exact hnew
    | some code =>
      intro hmem
      refine hcodes code hcode ?_
      rw [hnames]
      exact List.mem_append_right _ (List.mem_cons_of_mem _ hmem)
  · have hnone : mapping.temporaryCode? source aliases name column = none := by
      rw [Option.eq_none_iff_forall_ne_some]
      exact fun code hcode => hcolumn (mem_columnNames_of_boundCode? hcode)
    rw [temporaryWord, snd_foldl_temporaryStep_of_not_mem hcolumn, hnone, Option.getD_none]

/-- What stands behind the name of a temporary table is decided by the name and the word that was
there. -/
theorem HasTemporaryAt.standsAt_substituteColumns (mapping : Mapping) (source aliasText : String)
    (h : HasTemporaryAt text front (name, word)) :
    StandsAt (mapping.substituteColumns source (Alias.Table.resolve aliasText) text)
      (.other '.' :: .word name :: .other '#' :: front)
      (mapping.temporaryWord source (Alias.Table.resolve aliasText) name word) :=
  HasQualifiedAt.standsAt (h.foldl_substituteColumn mapping source aliasText mapping.columnNames)
    name

/-- Let the source mention no table with a column, or several. Behind the name of a temporary table
the column is left alone if the alias table has no table with the column for the plain name, as it
is at the turn of the column. Else the code name in this table stands there instead of the column,
if it is not a column itself. If it is one, the later columns go on with it, so that in all cases
the run over the name and the column alone says what stands there. -/
theorem standsAt_substituteColumns_of_temporary (mapping : Mapping)
    (source text aliasText : String) {front : List Segment} {name column : String}
    (hplace : HasWordAt text (.other '.' :: .word name :: .other '#' :: front) column)
    (hlength : (mapping.referencedOwners source column).length ≠ 1) :
    (mapping.temporaryCode? source (Alias.Table.resolve aliasText) name column = none →
        StandsAt (mapping.substituteColumns source (Alias.Table.resolve aliasText) text)
          (.other '.' :: .word name :: .other '#' :: front) column) ∧
      (∀ code, mapping.temporaryCode? source (Alias.Table.resolve aliasText) name column =
          some code → code ∉ mapping.columnNames →
        StandsAt (mapping.substituteColumns source (Alias.Table.resolve aliasText) text)
            (.other '.' :: .word name :: .other '#' :: front) code ∧
          ¬StandsAt (mapping.substituteColumns source (Alias.Table.resolve aliasText) text)
            (.other '.' :: .word name :: .other '#' :: front) column) ∧
      ∀ word, StandsAt (mapping.substituteColumns source (Alias.Table.resolve aliasText) text)
          (.other '.' :: .word name :: .other '#' :: front) word ↔
        word = mapping.temporaryWord source (Alias.Table.resolve aliasText) name column := by
  have hsole : mapping.soleCodeColumn? source column = none :=
    soleCodeColumn?_eq_none_iff.2 hlength
  have hreference : HasTemporaryAt text front (name, column) := ⟨_, .refl _, hplace⟩
  have hstands := hreference.standsAt_substituteColumns mapping source aliasText
  refine ⟨?_, ?_, fun word => ⟨fun hword => hword.unique hstands, ?_⟩⟩
  · intro hnone
    rwa [temporaryWord_eq_getD hsole (by simp [hnone]), hnone] at hstands
  · intro code hcode hnew
    rw [temporaryWord_eq_getD hsole (by simpa [hcode] using hnew), hcode] at hstands
    refine ⟨hstands, fun hkept => hnew ?_⟩
    rw [Option.getD_some] at hstands
    rw [hstands.unique hkept]
    exact mem_columnNames_of_boundCode? hcode
  · rintro rfl
    exact hstands

/-- No table is called `t`, so that `#t.id` is kept. But `x` is an alias of a table with the
column. -/
theorem standsAt_substituteColumns_of_temporary_shop :
    HasWordAt "SELECT #t.id, #x.id FROM #t s JOIN T1 x JOIN T2 o"
        [.other '.', .word "t", .other '#', .other ' ', .word "SELECT"] "id" ∧
      HasWordAt "SELECT #t.id, #x.id FROM #t s JOIN T1 x JOIN T2 o"
        [.other '.', .word "x", .other '#', .other ' ', .other ',', .word "id", .other '.',
          .word "t", .other '#', .other ' ', .word "SELECT"] "id" ∧
      (shop.referencedOwners "customer orders" "id").length ≠ 1 ∧
      shop.temporaryCode? "customer orders" (Alias.Table.resolve "FROM #t s JOIN T1 x JOIN T2 o")
        "t" "id" = none ∧
      shop.temporaryCode? "customer orders" (Alias.Table.resolve "FROM #t s JOIN T1 x JOIN T2 o")
        "x" "id" = some "C1" ∧
      StandsAt
        (shop.substituteColumns "customer orders"
          (Alias.Table.resolve "FROM #t s JOIN T1 x JOIN T2 o")
          "SELECT #t.id, #x.id FROM #t s JOIN T1 x JOIN T2 o")
        [.other '.', .word "t", .other '#', .other ' ', .word "SELECT"] "id" ∧
      StandsAt
        (shop.substituteColumns "customer orders"
          (Alias.Table.resolve "FROM #t s JOIN T1 x JOIN T2 o")
          "SELECT #t.id, #x.id FROM #t s JOIN T1 x JOIN T2 o")
        [.other '.', .word "x", .other '#', .other ' ', .other ',', .word "id", .other '.',
          .word "t", .other '#', .other ' ', .word "SELECT"] "C1" := by
  have hfirst : HasWordAt "SELECT #t.id, #x.id FROM #t s JOIN T1 x JOIN T2 o"
      [.other '.', .word "t", .other '#', .other ' ', .word "SELECT"] "id" := by
    refine ⟨segments ", #x.id FROM #t s JOIN T1 x JOIN T2 o".toList, ?_⟩
    decide +kernel
  have hsecond : HasWordAt "SELECT #t.id, #x.id FROM #t s JOIN T1 x JOIN T2 o"
      [.other '.', .word "x", .other '#', .other ' ', .other ',', .word "id", .other '.',
        .word "t", .other '#', .other ' ', .word "SELECT"] "id" := by
    refine ⟨segments " FROM #t s JOIN T1 x JOIN T2 o".toList, ?_⟩
    decide +kernel
  have hlength : (shop.referencedOwners "customer orders" "id").length ≠ 1 := by decide +kernel
  have hnone : shop.temporaryCode? "customer orders"
      (Alias.Table.resolve "FROM #t s JOIN T1 x JOIN T2 o") "t" "id" = none := by decide +kernel
  have hcode : shop.temporaryCode? "customer orders"
      (Alias.Table.resolve "FROM #t s JOIN T1 x JOIN T2 o") "x" "id" = some "C1" := by
    decide +kernel
  have hkept := (standsAt_substituteColumns_of_temporary shop "customer orders" _
    "FROM #t s JOIN T1 x JOIN T2 o" hfirst hlength).1 hnone
  have hreplaced := (standsAt_substituteColumns_of_temporary shop "customer orders" _
    "FROM #t s JOIN T1 x JOIN T2 o" hsecond hlength).2.1 "C1" hcode (by decide +kernel)
  exact ⟨hfirst, hsecond, hlength, hnone, hcode, hkept, hreplaced.1⟩

/-- The query reads the column `id` of the temporary table `#x`, and `x` is an alias. The column is
replaced as if it were of the table of the alias. -/
theorem not_standsAt_substituteColumns_temporary :
    HasWordAt "SELECT #x.id FROM #x s JOIN T1 x JOIN T2 o"
        [.other '.', .word "x", .other '#', .other ' ', .word "SELECT"] "id" ∧
      (shop.referencedOwners "SELECT #x.id FROM #x s JOIN customer x JOIN orders o" "id").length ≠
        1 ∧
      shop.substituteColumns "SELECT #x.id FROM #x s JOIN customer x JOIN orders o"
          (Alias.Table.resolve "SELECT #x.id FROM #x s JOIN T1 x JOIN T2 o")
          "SELECT #x.id FROM #x s JOIN T1 x JOIN T2 o" =
        "SELECT #x.C1 FROM #x s JOIN T1 x JOIN T2 o" ∧
      ¬StandsAt
        (shop.substituteColumns "SELECT #x.id FROM #x s JOIN customer x JOIN orders o"
          (Alias.Table.resolve "SELECT #x.id FROM #x s JOIN T1 x JOIN T2 o")
          "SELECT #x.id FROM #x s JOIN T1 x JOIN T2 o")
        [.other '.', .word "x", .other '#', .other ' ', .word "SELECT"] "id" := by
  have hresult : shop.substituteColumns "SELECT #x.id FROM #x s JOIN customer x JOIN orders o"
      (Alias.Table.resolve "SELECT #x.id FROM #x s JOIN T1 x JOIN T2 o")
      "SELECT #x.id FROM #x s JOIN T1 x JOIN T2 o" =
        "SELECT #x.C1 FROM #x s JOIN T1 x JOIN T2 o" := by decide +kernel
  refine ⟨⟨segments " FROM #x s JOIN T1 x JOIN T2 o".toList, by decide +kernel⟩,
    by decide +kernel, hresult, ?_⟩
  rw [hresult]
  intro hstands
  have habsent : hasWord "SELECT #x.C1 FROM #x s JOIN T1 x JOIN T2 o" "id" = false := by
    decide +kernel
  rw [hstands.hasWord] at habsent
  cases habsent

end Codename.Mapping
