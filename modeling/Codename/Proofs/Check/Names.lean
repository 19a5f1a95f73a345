import Codename.Check.Basic
import Codename.Proofs.Mapping.Names
import Codename.Proofs.Text.References

/-!
# The plain names of a text

The check looks for each name of a mapping on its own. What it lists are the tables that are words
of the text and, behind them, the columns that are words of it other than parameters, and a text
passes if nothing is listed.

## Main statements

* `Mapping.plainNames_eq_eraseDups` — what the loops over the tables and the columns come to.
* `Mapping.plainNames_eq` — the order of the names that are listed.
* `Mapping.mem_plainNames` — which names are listed.
* `Mapping.isEncrypted_iff` — a text passes if it holds no plain name.
-/

namespace Codename.Mapping

open Codename.Text

variable {mapping : Mapping} {text name table : String}

theorem occurs_table (h : table ∈ mapping.tables.keys) (text : String) :
    Reference.word.occurs table text = hasWord text table :=
  Reference.occurs_word (isIdentifier_of_mem_keys h) text

/-! ### The loops -/

/-- One more name that is found is new, or else it is a repetition. -/
theorem eraseDups_concat_found (found : String → Bool) (names : List String) (name : String) :
    (names ++ [name].filter found).eraseDups =
      if found name && !names.contains name then names.eraseDups ++ [name]
      else names.eraseDups := by
  cases hfound : found name with
  | false => simp [hfound]
  | true =>
    by_cases hnoted : name ∈ names
    · simp [hfound, hnoted, eraseDups_concat_of_mem hnoted]
    · simp [hfound, hnoted, eraseDups_concat_of_not_mem hnoted]

theorem noteTable_eraseDups (text : String) (names : List String) (table : String) :
    noteTable text names.eraseDups table =
      (names ++ [table].filter (Reference.word.occurs · text)).eraseDups := by
  rw [eraseDups_concat_found, noteTable]
  simp

theorem noteColumn_eraseDups (text : String) (names : List String) (column : String) :
    noteColumn text names.eraseDups column =
      (names ++ [column].filter (Reference.bare.occurs · text)).eraseDups := by
  rw [eraseDups_concat_found, noteColumn]
  by_cases hnoted : column ∈ names <;> simp [hnoted]

/-- A loop that notes each name that is found and not noted yet. -/
theorem foldl_note {note : List String → String → List String} {found : String → Bool}
    (h : ∀ names name, note names.eraseDups name = (names ++ [name].filter found).eraseDups)
    (items names : List String) :
    items.foldl note names.eraseDups = (names ++ items.filter found).eraseDups := by
  induction items generalizing names with
  | nil => rw [List.foldl_nil, List.filter_nil, List.append_nil]
  | cons item items ih =>
    rw [List.foldl_cons, h, ih, List.append_assoc, ← List.filter_append, List.singleton_append]

/-- The two loops note what is found, tables and columns, and leave the repetitions out. -/
theorem plainNames_eq_eraseDups (mapping : Mapping) (text : String) :
    mapping.plainNames text =
      (mapping.tables.keys.filter (Reference.word.occurs · text) ++
        mapping.listedColumns.filter (Reference.bare.occurs · text)).eraseDups := by
  have htables := foldl_note (noteTable_eraseDups text) mapping.tables.keys []
  rw [List.eraseDups_nil, List.nil_append] at htables
  rw [plainNames, htables, foldl_note (noteColumn_eraseDups text)]

/-! ### The names -/

/-- The plain names are the tables, and then the columns that are not among them. -/
theorem plainNames_eq (mapping : Mapping) (text : String) :
    mapping.plainNames text =
      mapping.tables.keys.filter (Reference.word.occurs · text) ++
        (mapping.columnNames.filter (Reference.bare.occurs · text)).filter
          fun name =>
            !(mapping.tables.keys.filter (Reference.word.occurs · text)).contains name := by
  have htables : (mapping.tables.keys.filter (Reference.word.occurs · text)).Nodup :=
    mapping.tables.nodup_keys.filter _
  rw [plainNames_eq_eraseDups, List.eraseDups_append, eraseDups_eq_self htables, columnNames,
    ← eraseDups_filter, ← eraseDups_filter]
  rfl

theorem mem_plainNames :
    name ∈ mapping.plainNames text ↔
      (name ∈ mapping.tables.keys ∧ hasWord text name = true) ∨
        (name ∈ mapping.columnNames ∧ Reference.bare.occurs name text = true) := by
  rw [plainNames_eq_eraseDups, List.mem_eraseDups, List.mem_append, List.mem_filter,
    List.mem_filter, columnNames, List.mem_eraseDups]
  refine or_congr_left (and_congr_right fun htable => ?_)
  rw [occurs_table htable]

theorem plainNames_of_isEmpty (h : text.isEmpty = true) : mapping.plainNames text = [] := by
  obtain rfl : text = "" := by simpa using h
  have hnone : ∀ before name, ¬HasWordAt "" before name := by
    rintro before name ⟨after, hrow⟩
    have hnil : segments "".toList = [] := rfl
    rw [hnil] at hrow
    simp at hrow
  rw [List.eq_nil_iff_forall_not_mem]
  intro name hname
  rcases mem_plainNames.1 hname with ⟨-, hword⟩ | ⟨hcolumn, hbare⟩
  · obtain ⟨before, hplace⟩ := hasWord_iff.1 hword
    exact hnone before name hplace
  · obtain ⟨before, hplace, -⟩ :=
      (Reference.occurs_iff (isIdentifier_of_mem_columnNames hcolumn)).1 hbare
    exact hnone before name hplace

theorem names_report (mapping : Mapping) (text : String) :
    (mapping.report text).names = mapping.plainNames text := by
  rw [report]
  split
  · next hempty =>
    rw [plainNames_of_isEmpty hempty]
    rfl
  · rfl

/-- A text passes the check if it holds no plain name. -/
theorem isEncrypted_iff : mapping.isEncrypted text = true ↔ mapping.plainNames text = [] := by
  by_cases hempty : text.isEmpty = true
  · simp [isEncrypted, hempty, plainNames_of_isEmpty hempty]
  · rw [List.eq_nil_iff_forall_not_mem]
    simp only [isEncrypted, hempty, Bool.false_or, Bool.and_eq_true, Bool.not_eq_true',
      List.any_eq_false, mem_plainNames, not_or, not_and, columnNames, List.mem_eraseDups]
    constructor
    · rintro ⟨htables, hcolumns⟩ name
      refine ⟨fun htable => ?_, fun hcolumn => hcolumns name hcolumn⟩
      rw [← occurs_table htable]
      exact htables name htable
    · intro h
      refine ⟨fun table htable => ?_, fun column hcolumn => (h column).2 hcolumn⟩
      rw [occurs_table htable]
      exact (h table).1 htable

end Codename.Mapping
