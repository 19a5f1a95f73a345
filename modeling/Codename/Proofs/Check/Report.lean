import Codename.Proofs.Check.Names
import Codename.Session.Basic
import Mathlib.Data.List.Sort

/-!
# The report of a text

The check can stop at the first plain name or list them all, and a session answers for the empty
text without any mapping. All of these give one verdict, and what is listed is determined by the
words of the text and the order of the mapping.

## Main definitions

* `Mapping.ListsPlainNames` — which names are listed, and in which order.

## Main statements

* `Mapping.listsPlainNames_iff` — the plain names of a text are the only list of this kind.
* `Mapping.report_exact` — all ways to check a text agree.
-/

namespace Codename

namespace Mapping

open Codename.Text

/-- The names are the tables that are words of the text, in the order of the mapping, and behind
them those of the other columns that are words of it and not just parameters, in the order in which
the mapping first lists them. -/
def ListsPlainNames (mapping : Mapping) (text : String) (names : List String) : Prop :=
  ∃ columns, names = mapping.tables.keys.filter (hasWord text) ++ columns ∧
    (∀ column, column ∈ columns ↔ column ∈ mapping.listedColumns ∧
      (∃ before, HasWordAt text before column ∧ (charsBefore before).head? ≠ some '@') ∧
      ¬(column ∈ mapping.tables.keys ∧ hasWord text column = true)) ∧
    columns.Pairwise fun column later =>
      mapping.listedColumns.idxOf column < mapping.listedColumns.idxOf later

variable {mapping : Mapping} {text : String} {names names' : List String}

/-- There is only one list of this kind. -/
theorem ListsPlainNames.unique (h : mapping.ListsPlainNames text names)
    (h' : mapping.ListsPlainNames text names') : names = names' := by
  obtain ⟨columns, rfl, hmem, horder⟩ := h
  obtain ⟨columns', rfl, hmem', horder'⟩ := h'
  have hnodup : columns.Nodup := horder.imp fun hlt heq => absurd hlt (by simp [heq])
  have hnodup' : columns'.Nodup := horder'.imp fun hlt heq => absurd hlt (by simp [heq])
  have hperm : columns.Perm columns' :=
    (List.perm_ext_iff_of_nodup hnodup hnodup').2 fun column =>
      (hmem column).trans (hmem' column).symm
  have hsame : columns = columns' := hperm.eq_of_pairwise
    (fun column later _ _ hlt hgt => absurd hgt (Nat.lt_asymm hlt)) horder horder'
  rw [hsame]

theorem listsPlainNames_plainNames (mapping : Mapping) (text : String) :
    mapping.ListsPlainNames text (mapping.plainNames text) := by
  have htables : mapping.tables.keys.filter (Reference.word.occurs · text) =
      mapping.tables.keys.filter (hasWord text) :=
    List.filter_congr fun table htable => occurs_table htable text
  refine ⟨_, by rw [plainNames_eq, htables], fun column => ?_, ?_⟩
  · rw [List.mem_filter, List.mem_filter, and_assoc, columnNames, List.mem_eraseDups]
    refine and_congr_right fun hlisted => and_congr ?_ ?_
    · have hcolumn : column ∈ mapping.columnNames := List.mem_eraseDups.2 hlisted
      rw [Reference.occurs_iff (isIdentifier_of_mem_columnNames hcolumn)]
      simp only [Reference.admits_bare_iff]
    · simp [imp_iff_not_or]
  · exact ((pairwise_idxOf_eraseDups mapping.listedColumns).filter _).filter _

/-- The plain names of a text are the only list of this kind. -/
theorem listsPlainNames_iff :
    mapping.ListsPlainNames text names ↔ names = (mapping.report text).names := by
  rw [names_report]
  refine ⟨fun h => h.unique (listsPlainNames_plainNames mapping text), ?_⟩
  rintro rfl
  exact listsPlainNames_plainNames mapping text

theorem ok_report (mapping : Mapping) (text : String) :
    (mapping.report text).ok = (mapping.report text).names.isEmpty := by
  rw [report]
  split
  · rfl
  · rfl

theorem isEncrypted_eq_ok (mapping : Mapping) (text : String) :
    mapping.isEncrypted text = (mapping.report text).ok := by
  rw [Bool.eq_iff_iff, isEncrypted_iff, ok_report, names_report, List.isEmpty_iff]

/-- A session answers for the empty text what any mapping answers. -/
theorem check_empty {m : Type → Type} [Monad m] (service : Session.Service m)
    (schema : Option String) (mapping : Mapping) (options : Check.Options) :
    service.check schema options "" = pure (mapping.check options "") := by
  cases options with
  | mk listNames => cases listNames <;> rfl

/-- Whether the search for plain names ends at the first or lists them all, the verdict is the same:
a text passes if nothing is listed. What is listed has no repetitions, first the tables and then the
columns that are not listed as tables. For the empty text a session gives this answer without
loading anything. -/
theorem report_exact (mapping : Mapping) (text : String) :
    mapping.isEncrypted text = (mapping.report text).ok ∧
      (∀ options, (mapping.check options text).isOk = mapping.isEncrypted text) ∧
      ((mapping.report text).ok = true ↔ (mapping.report text).names = []) ∧
      (mapping.report text).names.Nodup ∧
      (∀ names, mapping.ListsPlainNames text names ↔ names = (mapping.report text).names) ∧
      ∀ {m : Type → Type} [Monad m] (service : Session.Service m) (schema : Option String)
        (options : Check.Options),
        service.check schema options "" = pure (mapping.check options "") := by
  refine ⟨isEncrypted_eq_ok mapping text, fun options => ?_, ?_, ?_, fun names =>
    listsPlainNames_iff, fun service schema options => check_empty service schema mapping options⟩
  · rw [check]
    split
    · exact (isEncrypted_eq_ok mapping text).symm
    · rfl
  · rw [ok_report, List.isEmpty_iff]
  · rw [names_report, plainNames_eq_eraseDups]
    exact nodup_eraseDups _

end Mapping

end Codename
