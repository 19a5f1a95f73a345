import Codename.Proofs.Check.Names
import Codename.Proofs.Substitution.Kept
import Codename.Proofs.Substitution.Restore

/-!
# Checking an encrypted query

Of the plain names of a query the check still finds, after encrypting, only columns for which no
table or several can be meant, and it finds all of those that stand there without a qualifier. A
column for which one table can be meant disappears when it is its turn, and no later column brings
it back.

## Main statements

* `Mapping.not_occurs_encrypt_of_sole` — a column of one table disappears.
* `Mapping.occurs_encrypt_of_unresolved` — a bare column of no or of several tables stays.
* `Mapping.report_encrypt` — what is reported of an encrypted query.
-/

namespace Codename.Mapping

open Codename.Text

variable {mapping : Mapping} {text column : String}

/-! ### Columns that are found -/

theorem occurs_of_occurs_encrypt (hapart : mapping.CodesApart)
    (hcolumn : column ∈ mapping.columnNames)
    (h : Reference.bare.occurs column (mapping.encrypt text) = true) :
    Reference.bare.occurs column text = true := by
  have hidentifier := isIdentifier_of_mem_columnNames hcolumn
  obtain ⟨before', hplace, hadmits⟩ := (Reference.occurs_iff hidentifier).1 h
  obtain ⟨before, word, hat, hcoded, halign⟩ :=
    (wordwise_coded_encrypt hapart text).exists_left (Q := fun _ _ => True)
      (fun _ _ _ _ => trivial) hplace
  obtain rfl : word = column := hcoded.eq_of_mem_columnNames hapart hcolumn
  rw [halign.admits_bare] at hadmits
  exact (Reference.occurs_iff hidentifier).2 ⟨before, hat, hadmits⟩

theorem not_mem_keys_of_occurs_encrypt (hapart : mapping.CodesApart)
    (hcolumn : column ∈ mapping.columnNames)
    (h : Reference.bare.occurs column (mapping.encrypt text) = true) :
    column ∉ mapping.tables.keys := by
  intro hkey
  obtain ⟨before, hplace, -⟩ :=
    (Reference.occurs_iff (isIdentifier_of_mem_columnNames hcolumn)).1 h
  have hword := hasWord_iff.2 ⟨before, hplace⟩
  rw [hasWord_encrypt_of_mem_keys hapart hkey] at hword
  cases hword

/-! ### Columns that disappear -/

/-- No replacement brings a column back. -/
theorem not_occurs_foldl_substituteColumn (hapart : mapping.CodesApart) {source : String}
    {aliases : Alias.Table} {columns : List String} (hcolumn : column ∈ mapping.columnNames)
    (h : Reference.bare.occurs column text = false) :
    Reference.bare.occurs column (columns.foldl (mapping.substituteColumn source aliases) text) =
      false := by
  refine foldl_substituteColumn_induction
    (I := fun text => Reference.bare.occurs column text = false) ?_ h
  intro reference other code text hreplaces hnone
  have hidentifier := isIdentifier_of_mem_columnNames hcolumn
  obtain ⟨codeTable, hcode⟩ := hreplaces.exists_codeColumn?
  have hne : code ≠ column := hapart.ne_of_codeColumn? hcode hcolumn
  rw [← Bool.not_eq_true]
  intro hoccurs
  obtain ⟨before, hplace, hadmits, -⟩ := Reference.exists_of_occurs_bare_substitute
    hreplaces.isIdentifier.1 hreplaces.isIdentifier.2 hidentifier hne hoccurs
  rw [(Reference.occurs_iff hidentifier).2 ⟨before, hplace, hadmits⟩] at hnone
  cases hnone

/-- When it is the turn of a column for which one table can be meant, it disappears. -/
theorem not_occurs_substituteColumn_of_sole (hapart : mapping.CodesApart) {source code : String}
    {aliases : Alias.Table} (hcolumn : column ∈ mapping.columnNames)
    (hsole : mapping.soleCodeColumn? source column = some code) :
    Reference.bare.occurs column (mapping.substituteColumn source aliases text column) = false := by
  obtain ⟨_, hcode⟩ := exists_codeColumn?_of_soleCodeColumn? hsole
  obtain ⟨-, hidentifier, hcodeIdentifier⟩ := isIdentifier_of_codeColumn? hcode
  have hne : code ≠ column := hapart.ne_of_codeColumn? hcode hcolumn
  rw [substituteColumn_eq, substituteBare, hsole, ← Bool.not_eq_true]
  intro hoccurs
  obtain ⟨before, -, hadmits, hnot⟩ := Reference.exists_of_occurs_bare_substitute
    hidentifier hcodeIdentifier hidentifier hne hoccurs
  exact hnot ⟨rfl, hadmits⟩

/-- A column for which one table can be meant is not found in the encrypted query. -/
theorem not_occurs_encrypt_of_sole (hapart : mapping.CodesApart)
    (hcolumn : column ∈ mapping.columnNames)
    (h : (mapping.referencedOwners text column).length = 1) :
    Reference.bare.occurs column (mapping.encrypt text) = false := by
  have hsome : mapping.soleCodeColumn? text column ≠ none :=
    fun hnone => soleCodeColumn?_eq_none_iff.1 hnone h
  obtain ⟨code, hsole⟩ := Option.ne_none_iff_exists'.1 hsome
  -- whatever the earlier columns have done, the later ones do not undo this
  obtain ⟨earlier, later, hsplit⟩ := List.append_of_mem hcolumn
  rw [encrypt, substituteColumns, hsplit, List.foldl_append, List.foldl_cons]
  exact not_occurs_foldl_substituteColumn hapart hcolumn
    (not_occurs_substituteColumn_of_sole hapart hcolumn hsole)

/-! ### Columns that stay -/

/-- A column for which no table or several can be meant stays where it is neither a parameter nor
qualified. -/
theorem occurs_encrypt_of_unresolved (hcolumn : column ∈ mapping.columnNames)
    (htable : column ∉ mapping.tables.keys)
    (hlength : (mapping.referencedOwners text column).length ≠ 1) {before : List Segment}
    (hplace : HasWordAt text before column) (hparameter : (charsBefore before).head? ≠ some '@')
    (hqualified : (charsBefore before).head? ≠ some '.') :
    Reference.bare.occurs column (mapping.encrypt text) = true := by
  obtain ⟨before', word', hplace', hstays, halign⟩ :=
    (wordwise_spared_encrypt mapping text).exists_right (Q := fun _ _ => True)
      (fun _ _ _ _ => trivial) hplace
  obtain rfl : word' = column := hstays htable (.inr (.inr ⟨hqualified, hlength⟩))
  refine (Reference.occurs_iff (isIdentifier_of_mem_columnNames hcolumn)).2
    ⟨before', hplace', ?_⟩
  rw [halign.admits_bare, Reference.admits_bare_iff]
  exact hparameter

/-! ### The report -/

/-- The plain names of an encrypted query are columns. -/
theorem plainNames_encrypt (hapart : mapping.CodesApart) (text : String) :
    mapping.plainNames (mapping.encrypt text) =
      mapping.columnNames.filter (Reference.bare.occurs · (mapping.encrypt text)) := by
  have htables :
      mapping.tables.keys.filter (Reference.word.occurs · (mapping.encrypt text)) = [] := by
    rw [List.filter_eq_nil_iff]
    intro table htable
    rw [occurs_table htable, hasWord_encrypt_of_mem_keys hapart htable]
    exact Bool.false_ne_true
  rw [plainNames_eq, htables]
  simp

theorem sublist_plainNames_encrypt (hapart : mapping.CodesApart) (text : String) :
    (mapping.plainNames (mapping.encrypt text)).Sublist (mapping.plainNames text) := by
  rw [plainNames_encrypt hapart, plainNames_eq mapping text, List.filter_filter]
  refine List.Sublist.trans (filter_sublist_filter ?_) (List.sublist_append_right _ _)
  intro column hcolumn hoccurs
  have hnot := not_mem_keys_of_occurs_encrypt hapart hcolumn hoccurs
  rw [occurs_of_occurs_encrypt hapart hcolumn hoccurs, Bool.and_true, Bool.not_eq_true',
    List.contains_eq_mem, decide_eq_false_iff_not]
  exact fun hmem => hnot (List.mem_filter.1 hmem).1

/-- What is reported of an encrypted query was reported of the query. It is no table, and a column
only if no table or several can be meant, and every such column that stands in the query without a
qualifier is reported. So where one table can be meant for each column that is found in the query,
the encrypted query passes the check. -/
theorem report_encrypt (mapping : Mapping) (text : String) (hapart : mapping.CodesApart) :
    (mapping.report (mapping.encrypt text)).names.Sublist (mapping.report text).names ∧
      (∀ name ∈ (mapping.report (mapping.encrypt text)).names,
        name ∉ mapping.tables.keys ∧ name ∈ mapping.columnNames ∧
          (mapping.referencedOwners text name).length ≠ 1) ∧
      (∀ column ∈ mapping.columnNames, column ∉ mapping.tables.keys →
        (mapping.referencedOwners text column).length ≠ 1 →
        ∀ before, HasWordAt text before column → (charsBefore before).head? ≠ some '@' →
          (charsBefore before).head? ≠ some '.' →
          column ∈ (mapping.report (mapping.encrypt text)).names) ∧
      ((∀ column ∈ mapping.columnNames, Reference.bare.occurs column text = true →
          (mapping.referencedOwners text column).length = 1) →
        mapping.isEncrypted (mapping.encrypt text) = true) := by
  rw [names_report, names_report]
  have hmem : ∀ {name}, name ∈ mapping.plainNames (mapping.encrypt text) ↔
      name ∈ mapping.columnNames ∧
        Reference.bare.occurs name (mapping.encrypt text) = true := by
    intro name
    rw [plainNames_encrypt hapart, List.mem_filter]
  have hlength : ∀ name ∈ mapping.plainNames (mapping.encrypt text),
      (mapping.referencedOwners text name).length ≠ 1 := by
    intro name hname hone
    obtain ⟨hcolumn, hoccurs⟩ := hmem.1 hname
    rw [not_occurs_encrypt_of_sole hapart hcolumn hone] at hoccurs
    cases hoccurs
  refine ⟨sublist_plainNames_encrypt hapart text, ?_, ?_, ?_⟩
  · intro name hname
    obtain ⟨hcolumn, hoccurs⟩ := hmem.1 hname
    exact ⟨not_mem_keys_of_occurs_encrypt hapart hcolumn hoccurs, hcolumn, hlength name hname⟩
  · intro column hcolumn htable hunresolved before hplace hparameter hqualified
    exact hmem.2 ⟨hcolumn, occurs_encrypt_of_unresolved hcolumn htable hunresolved hplace
      hparameter hqualified⟩
  · intro hsole
    rw [isEncrypted_iff, List.eq_nil_iff_forall_not_mem]
    intro name hname
    obtain ⟨hcolumn, hoccurs⟩ := hmem.1 hname
    exact hlength name hname
      (hsole name hcolumn (occurs_of_occurs_encrypt hapart hcolumn hoccurs))

/-- The bare `id` is reported, the others are not. -/
theorem report_encrypt_shop :
    shop.CodesApart ∧
      (shop.report "SELECT id, name, @total FROM customer, orders").names =
        ["customer", "orders", "id", "name"] ∧
      (shop.report (shop.encrypt "SELECT id, name, @total FROM customer, orders")).names.Sublist
        (shop.report "SELECT id, name, @total FROM customer, orders").names ∧
      (shop.referencedOwners "SELECT id, name, @total FROM customer, orders" "id").length ≠ 1 ∧
      "id" ∈ (shop.report
        (shop.encrypt "SELECT id, name, @total FROM customer, orders")).names ∧
      shop.isEncrypted (shop.encrypt "SELECT name FROM customer") = true := by
  have hapart : shop.CodesApart := by decide +kernel
  obtain ⟨hsublist, -, hunresolved, -⟩ :=
    report_encrypt shop "SELECT id, name, @total FROM customer, orders" hapart
  obtain ⟨-, -, -, hpasses⟩ := report_encrypt shop "SELECT name FROM customer" hapart
  have hlength : (shop.referencedOwners
      "SELECT id, name, @total FROM customer, orders" "id").length ≠ 1 := by decide +kernel
  have hplace : HasWordAt "SELECT id, name, @total FROM customer, orders"
      [.other ' ', .word "SELECT"] "id" := by
    refine ⟨segments ", name, @total FROM customer, orders".toList, ?_⟩
    decide +kernel
  refine ⟨hapart, by decide +kernel, hsublist, hlength, ?_, hpasses (by decide +kernel)⟩
  exact hunresolved "id" (by decide +kernel) (by decide +kernel) hlength _ hplace
    (by decide +kernel) (by decide +kernel)

end Codename.Mapping
