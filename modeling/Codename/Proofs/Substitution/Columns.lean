import Codename.Proofs.Substitution.Resolution

/-!
# What substituting columns does to a word

Columns are replaced one after another in the whole text, and each of them qualifier by qualifier.
If no code name of a column is itself a column, and the names of the alias table are neither, then
no replacement gets in the way of another, and the outcome is one decision for each word, taken
from the word and the text in front of it.

## Main definitions

* `Mapping.columnStage` — where a word stands while its column is looked for behind qualifiers.

## Main statements

* `Mapping.substituteColumn_eq` — both steps are made for each column, found or not.
* `Mapping.substituteColumns_eq_mapWords` — substituting columns decides word by word.
* `Mapping.substituteColumns_resolves` — and it follows the rules.
-/

namespace Codename.Mapping

open Codename.Text

/-- What has become of a word when `column` was replaced behind the listed names, where `decided`
says what had become of other words before. -/
def columnStage (mapping : Mapping) (names : List (String × String)) (column : String)
    (decided : List Char → String → String) (before : List Char) (word : String) : String :=
  if word = column then (mapping.qualifiedCode? names before column).getD column
  else decided before word

variable {mapping : Mapping} {source column code : String} {aliases : Alias.Table}
  {names : List (String × String)} {before : List Char}

/-! ### Behind qualifiers -/

section Stage

variable {decided : List Char → String → String} {text text' word : String}

theorem columnStage_eq_or (mapping : Mapping) (names : List (String × String))
    (decided : List Char → String → String) (before : List Char) (column word : String) :
    (mapping.columnStage names column decided before word = decided before word ∧ word ≠ column) ∨
      word = column ∧ (mapping.columnStage names column decided before word = column ∨
        mapping.columnStage names column decided before word ∈ mapping.codeColumns) := by
  rw [columnStage]
  split
  · next hword =>
    refine .inr ⟨hword, ?_⟩
    cases hcode : mapping.qualifiedCode? names before column with
    | none => exact .inl rfl
    | some code =>
      obtain ⟨name, -, -, hcolumn⟩ := exists_of_qualifiedCode? hcode
      exact .inr (mem_codeColumns_of_codeColumn? hcolumn)
  · next hword => exact .inl ⟨rfl, hword⟩

theorem columnsRecoded_columnStage (hcolumn : column ∈ mapping.columnNames)
    (hdecided : ∀ before word, mapping.ColumnsRecoded word (decided before word))
    (before : List Char) (word : String) :
    mapping.ColumnsRecoded word (mapping.columnStage names column decided before word) := by
  rcases columnStage_eq_or mapping names decided before column word with ⟨h, -⟩ | ⟨rfl, h | h⟩
  · rw [h]
    exact hdecided before word
  · exact .inl h
  · exact .inr ⟨hcolumn, h⟩

/-- A word that reads as the column is the column, and no qualifier has given it a code name. -/
theorem eq_of_columnStage_eq (hcodes : ∀ code ∈ mapping.codeColumns, code ∉ mapping.columnNames)
    (hcolumn : column ∈ mapping.columnNames)
    (hdecided : ∀ before word, mapping.ColumnsRecoded word (decided before word))
    (h : mapping.columnStage names column decided before word = column) :
    word = column ∧ mapping.qualifiedCode? names before column = none := by
  have hword : word = column := by
    by_contra hne
    rw [columnStage, if_neg hne] at h
    rcases hdecided before word with heq | ⟨-, hcode⟩
    · exact hne (heq.symm.trans h)
    · rw [h] at hcode
      exact hcodes column hcode hcolumn
  refine ⟨hword, ?_⟩
  rw [columnStage, if_pos hword] at h
  cases hcode : mapping.qualifiedCode? names before column with
  | none => rfl
  | some code =>
    obtain ⟨name, -, -, hname⟩ := exists_of_qualifiedCode? hcode
    rw [hcode, Option.getD_some] at h
    subst h
    exact absurd hcolumn (hcodes _ (mem_codeColumns_of_codeColumn? hname))

/-- One more qualifier. -/
theorem wordwise_substituteQualifiedBy {name : String × String}
    (hcodes : ∀ code ∈ mapping.codeColumns, code ∉ mapping.columnNames)
    (hcolumn : column ∈ mapping.columnNames)
    (hdecided : ∀ before word, mapping.ColumnsRecoded word (decided before word))
    (hname : mapping.StableNames [name])
    (h : Wordwise (fun b w w' => w' = mapping.columnStage names column decided (charsBefore b) w)
      text text') :
    Wordwise
      (fun b w w' =>
        w' = mapping.columnStage (names ++ [name]) column decided (charsBefore b) w)
      text (mapping.substituteQualifiedBy column text' name) := by
  rw [substituteQualifiedBy]
  split
  · next code hcode =>
    obtain ⟨-, hcolumnId, hcodeId⟩ := isIdentifier_of_codeColumn? hcode
    refine h.substitute (Q := mapping.ColumnsRecoded) hcolumnId hcodeId ?_ ?_ ?_
    · rintro b w _ rfl
      exact columnsRecoded_columnStage hcolumn hdecided _ _
    · rintro b b' w _ halign hnot rfl
      have hadmits := hname.admits List.mem_cons_self hcode halign
      rw [columnStage] at hnot
      rw [columnStage, columnStage]
      split
      · next hword =>
        rw [if_pos hword] at hnot
        rw [qualifiedCode?_append]
        cases hbefore : mapping.qualifiedCode? names (charsBefore b) column with
        | some found => rfl
        | none =>
          -- the qualifier only matters where no earlier one has decided
          rw [hbefore, hadmits] at hnot
          have hnone : ¬(Reference.qualified name.1).admits (charsBefore b) = true :=
            fun hyes => hnot ⟨rfl, hyes⟩
          rw [qualifiedCode?_singleton, if_neg hnone]
          rfl
      · rfl
    · intro b b' w halign hadmits hw
      rw [hname.admits List.mem_cons_self hcode halign] at hadmits
      obtain ⟨hword, hnone⟩ := eq_of_columnStage_eq hcodes hcolumn hdecided hw.symm
      rw [columnStage, if_pos hword, qualifiedCode?_append, hnone, qualifiedCode?_singleton,
        if_pos hadmits, hcode]
      rfl
  · next hcode =>
    have hstage : ∀ before w, mapping.columnStage (names ++ [name]) column decided before w =
        mapping.columnStage names column decided before w := by
      intro before w
      rw [columnStage, columnStage, qualifiedCode?_append, qualifiedCode?_singleton, hcode]
      simp
    simpa only [hstage] using h

/-- All qualifiers. -/
theorem wordwise_substituteQualified
    (hcodes : ∀ code ∈ mapping.codeColumns, code ∉ mapping.columnNames)
    (hcolumn : column ∈ mapping.columnNames)
    (hdecided : ∀ before word, mapping.ColumnsRecoded word (decided before word))
    (hnames : mapping.StableNames names)
    (h : Wordwise (fun b w w' => w' = mapping.columnStage [] column decided (charsBefore b) w)
      text text') :
    Wordwise (fun b w w' => w' = mapping.columnStage names column decided (charsBefore b) w)
      text (names.foldl (mapping.substituteQualifiedBy column) text') := by
  induction names using List.reverseRecOn with
  | nil => exact h
  | append_singleton names name ih =>
    rw [List.foldl_append, List.foldl_cons, List.foldl_nil]
    have hprefix := ih fun other hmem => hnames other (List.mem_append_left _ hmem)
    refine wordwise_substituteQualifiedBy hcodes hcolumn hdecided ?_ hprefix
    exact fun other hmem => hnames other (List.mem_append_right _ hmem)

/-- The occurrences that no qualifier has given a code name. -/
theorem wordwise_substituteBare (source : String)
    (hcodes : ∀ code ∈ mapping.codeColumns, code ∉ mapping.columnNames)
    (hcolumn : column ∈ mapping.columnNames)
    (hdecided : ∀ before word, mapping.ColumnsRecoded word (decided before word))
    (h : Wordwise (fun b w w' => w' = mapping.columnStage names column decided (charsBefore b) w)
      text text') :
    Wordwise
      (fun b w w' =>
        w' = if w = column then mapping.columnCode source names (charsBefore b) column
          else decided (charsBefore b) w)
      text (mapping.substituteBare source column text') := by
  rw [substituteBare]
  split
  · next code hsole =>
    obtain ⟨_, hcode⟩ := exists_codeColumn?_of_soleCodeColumn? hsole
    obtain ⟨-, hcolumnId, hcodeId⟩ := isIdentifier_of_codeColumn? hcode
    refine h.substitute (Q := mapping.ColumnsRecoded) hcolumnId hcodeId ?_ ?_ ?_
    · rintro b w _ rfl
      exact columnsRecoded_columnStage hcolumn hdecided _ _
    · rintro b b' w _ halign hnot rfl
      rw [halign.admits_bare, Reference.admits_bare_iff] at hnot
      rw [columnStage] at hnot ⊢
      split
      · next hword =>
        rw [if_pos hword] at hnot
        rw [columnCode]
        cases hqualified : mapping.qualifiedCode? names (charsBefore b) column with
        | some found => rfl
        | none =>
          rw [hqualified] at hnot
          have hparameter : (charsBefore b).head? = some '@' := by
            by_contra hne
            exact hnot ⟨rfl, hne⟩
          rw [if_pos hparameter]
      · rfl
    · intro b b' w halign hadmits hw
      rw [halign.admits_bare, Reference.admits_bare_iff] at hadmits
      obtain ⟨hword, hnone⟩ := eq_of_columnStage_eq hcodes hcolumn hdecided hw.symm
      rw [if_pos hword, columnCode, hnone, if_neg hadmits, hsole]
      rfl
  · next hsole =>
    have hstage : ∀ before w, mapping.columnStage names column decided before w =
        if w = column then mapping.columnCode source names before column
        else decided before w := by
      intro before w
      rw [columnStage, columnCode, hsole]
      simp
    simpa only [hstage] using h

end Stage

/-! ### All columns -/

/-- A text without the column is left alone by either step, so that looking for it first makes no
difference. -/
theorem substituteColumn_eq (mapping : Mapping) (source : String) (aliases : Alias.Table)
    (text column : String) :
    mapping.substituteColumn source aliases text column =
      mapping.substituteBare source column
        (aliases.entries.foldl (mapping.substituteQualifiedBy column) text) := by
  rw [substituteColumn]
  split
  · rfl
  · next hbare =>
    rw [Bool.not_eq_true] at hbare
    have hqualified : ∀ names : List (String × String),
        names.foldl (mapping.substituteQualifiedBy column) text = text := by
      intro names
      induction names with
      | nil => rfl
      | cons name names ih =>
        have hname : mapping.substituteQualifiedBy column text name = text := by
          rw [substituteQualifiedBy]
          split
          · exact Reference.substitute_of_not_occurs (Reference.not_occurs_qualified hbare)
          · rfl
        rw [List.foldl_cons, hname, ih]
    rw [hqualified, substituteBare]
    split
    · exact (Reference.substitute_of_not_occurs hbare).symm
    · rfl

/-- A column that has not been decided on stands as it was. -/
theorem wordAfter_eq_columnStage {columns : List String} (hnew : column ∉ columns)
    (before : List Char) (word : String) :
    mapping.wordAfter source names columns before word =
      mapping.columnStage [] column (mapping.wordAfter source names columns) before word := by
  by_cases hword : word = column
  · subst hword
    simp [wordAfter, columnStage, qualifiedCode?, hnew]
  · rw [columnStage, if_neg hword]

/-- The columns in the list are decided on, and no others. -/
theorem wordwise_foldl_substituteColumn {columns : List String} (text : String)
    (hcodes : ∀ code ∈ mapping.codeColumns, code ∉ mapping.columnNames)
    (hnames : mapping.StableNames aliases.entries) (hnodup : columns.Nodup)
    (hcolumns : ∀ column ∈ columns, column ∈ mapping.columnNames) :
    Wordwise
      (fun b w w' => w' = mapping.wordAfter source aliases.entries columns (charsBefore b) w)
      text (columns.foldl (mapping.substituteColumn source aliases) text) := by
  induction columns using List.reverseRecOn with
  | nil =>
    refine (Wordwise.refl text).imp fun b w w' _ hsame => ?_
    simpa [wordAfter] using hsame
  | append_singleton columns column ih =>
    obtain ⟨hnodup, -, hapart⟩ := List.nodup_append.1 hnodup
    have hnew : column ∉ columns := fun hmem => hapart column hmem column (by simp) rfl
    have hcolumn : column ∈ mapping.columnNames := hcolumns column (by simp)
    have hsome : ∀ other ∈ columns, other ∈ mapping.columnNames :=
      fun other hmem => hcolumns other (List.mem_append_left _ hmem)
    have hdecided := columnsRecoded_wordAfter source aliases.entries hsome
    have hprevious := ih hnodup hsome
    simp only [wordAfter_eq_columnStage hnew] at hprevious
    have hqualified := wordwise_substituteQualified hcodes hcolumn hdecided hnames hprevious
    have hbare := wordwise_substituteBare source hcodes hcolumn hdecided hqualified
    rw [List.foldl_append, List.foldl_cons, List.foldl_nil, substituteColumn_eq]
    simpa only [wordAfter_concat] using hbare

theorem wordwise_substituteColumns (source text : String)
    (hcodes : ∀ code ∈ mapping.codeColumns, code ∉ mapping.columnNames)
    (hnames : mapping.StableNames aliases.entries) :
    Wordwise (fun b w w' => w' = mapping.columnWord source aliases (charsBefore b) w) text
      (mapping.substituteColumns source aliases text) :=
  wordwise_foldl_substituteColumn text hcodes hnames (nodup_columnNames mapping) fun _ h => h

/-- Substituting columns decides each word on its own, from the word and the text in front of
it. -/
theorem substituteColumns_eq_mapWords (source text : String)
    (hcodes : ∀ code ∈ mapping.codeColumns, code ∉ mapping.columnNames)
    (hnames : mapping.StableNames aliases.entries) :
    mapping.substituteColumns source aliases text =
      mapWords (mapping.columnWord source aliases) text :=
  (wordwise_substituteColumns source text hcodes hnames).eq_mapWords

/-- Substituting columns decides each word of the text on its own, from the text in front of it,
the alias table and the source, by the rules for columns. -/
theorem substituteColumns_resolves (mapping : Mapping) (source text aliasText : String)
    (hcodes : ∀ code ∈ mapping.codeColumns, code ∉ mapping.columnNames)
    (hkeys : mapping.KeysApart (Alias.Table.resolve aliasText)) :
    mapping.ResolvesColumns source (Alias.Table.resolve aliasText)
        (mapping.columnWord source (Alias.Table.resolve aliasText)) ∧
      mapping.substituteColumns source (Alias.Table.resolve aliasText) text =
        mapWords (mapping.columnWord source (Alias.Table.resolve aliasText)) text :=
  ⟨hkeys.stableNames.resolvesColumns source,
    substituteColumns_eq_mapWords source text hcodes hkeys.stableNames⟩

/-- The alias decides on `c.id`, the table `orders` on `total`; the bare `id` could be of either
table. -/
theorem substituteColumns_resolves_shop :
    (∀ code ∈ shop.codeColumns, code ∉ shop.columnNames) ∧
      shop.KeysApart (Alias.Table.resolve "FROM T1 c JOIN #T9 x") ∧
      shop.ResolvesColumns "customer orders" (Alias.Table.resolve "FROM T1 c JOIN #T9 x")
        (shop.columnWord "customer orders" (Alias.Table.resolve "FROM T1 c JOIN #T9 x")) ∧
      shop.substituteColumns "customer orders" (Alias.Table.resolve "FROM T1 c JOIN #T9 x")
        "c.id, T1.name, total, id, x.id, @name, xc.total" =
          "c.C1, T1.C2, D2, id, x.id, @name, xc.D2" := by
  have hcodes : ∀ code ∈ shop.codeColumns, code ∉ shop.columnNames := by decide +kernel
  have hkeys : shop.KeysApart (Alias.Table.resolve "FROM T1 c JOIN #T9 x") := by decide +kernel
  obtain ⟨hresolves, hwords⟩ := substituteColumns_resolves shop "customer orders"
    "c.id, T1.name, total, id, x.id, @name, xc.total" "FROM T1 c JOIN #T9 x" hcodes hkeys
  refine ⟨hcodes, hkeys, hresolves, ?_⟩
  rw [hwords]
  decide +kernel

end Codename.Mapping
