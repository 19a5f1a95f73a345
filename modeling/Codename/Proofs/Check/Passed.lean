import Codename.Proofs.Check.Names
import Codename.Proofs.Substitution.Tables
import Codename.Substitution.Basic

/-!
# Texts that pass the check

The check looks for what encrypting would replace: tables as words, and columns as words other than
parameters. So a text that passes it is left alone by each stage of encrypting, also where the code
name of one table or column is another.

## Main statements

* `Mapping.isEncrypted_iff_words` — a text passes if it has no table, and columns as parameters
  only.
* `Mapping.encrypt_eq_self` — a text that passes is not changed by encrypting.
-/

namespace Codename.Mapping

open Codename.Text

variable {mapping : Mapping} {text column : String}

/-- A column is not found in a text if it is a parameter wherever it is a word. -/
theorem not_occurs_bare_iff (hcolumn : column ∈ mapping.columnNames) :
    Reference.bare.occurs column text = false ↔
      ∀ before, HasWordAt text before column → (charsBefore before).head? = some '@' := by
  rw [← Bool.not_eq_true, Reference.occurs_iff (isIdentifier_of_mem_columnNames hcolumn),
    not_exists]
  refine forall_congr' fun before => ?_
  rw [not_and, Reference.admits_bare_iff, not_not]

/-- A text passes the check if no table is a word of it and each column only as a parameter. -/
theorem isEncrypted_iff_words :
    mapping.isEncrypted text = true ↔
      (∀ table ∈ mapping.tables.keys, hasWord text table = false) ∧
        ∀ column ∈ mapping.columnNames, ∀ before, HasWordAt text before column →
          (charsBefore before).head? = some '@' := by
  rw [isEncrypted_iff, List.eq_nil_iff_forall_not_mem]
  simp only [mem_plainNames, not_or, not_and, Bool.not_eq_true]
  constructor
  · intro h
    refine ⟨fun table htable => (h table).1 htable, fun column hcolumn => ?_⟩
    exact (not_occurs_bare_iff hcolumn).1 ((h column).2 hcolumn)
  · rintro ⟨htables, hcolumns⟩ name
    refine ⟨htables name, fun hcolumn => ?_⟩
    exact (not_occurs_bare_iff hcolumn).2 (hcolumns name hcolumn)

/-- Substituting columns leaves a text alone in which no column is found. -/
theorem substituteColumns_eq_self
    (h : ∀ column ∈ mapping.columnNames, Reference.bare.occurs column text = false)
    (source : String) (aliases : Alias.Table) :
    mapping.substituteColumns source aliases text = text := by
  refine List.foldlRecOn (motive := (· = text)) mapping.columnNames
    (mapping.substituteColumn source aliases) rfl ?_
  rintro _ rfl column hcolumn
  rw [substituteColumn, if_neg]
  rw [h column hcolumn]
  exact Bool.false_ne_true

/-- A text that passes the check has no table, and columns as parameters only. Neither stage of
encrypting changes it, whatever the source and the aliases for its columns are, and so encrypting
gives it back. -/
theorem encrypt_eq_self (mapping : Mapping) (text : String)
    (h : mapping.isEncrypted text = true) :
    (∀ table ∈ mapping.tables.keys, hasWord text table = false) ∧
      (∀ column ∈ mapping.columnNames, ∀ before, HasWordAt text before column →
        (charsBefore before).head? = some '@') ∧
      mapping.substituteTables text = text ∧
      (∀ source aliases, mapping.substituteColumns source aliases text = text) ∧
      mapping.encrypt text = text := by
  obtain ⟨htables, hcolumns⟩ := isEncrypted_iff_words.1 h
  have hsubstituted : mapping.substituteTables text = text := substituteTables_eq_self htables
  have hkept : ∀ source aliases, mapping.substituteColumns source aliases text = text :=
    substituteColumns_eq_self fun column hcolumn =>
      (not_occurs_bare_iff hcolumn).2 (hcolumns column hcolumn)
  refine ⟨htables, hcolumns, hsubstituted, hkept, ?_⟩
  rw [encrypt, hsubstituted]
  exact hkept text (Alias.Table.resolve text)

/-- Two tables, of which the second has the code name of the first as its own name, and the same for
two columns. -/
def successor : Mapping where
  document := {
    tables := .ofList [("customer", "orders"), ("orders", "T1")]
    columns := .ofList [("orders", .ofList [("id", "name"), ("name", "C1")])] }
  valid := by decide +kernel

/-- A query that asks for a customer would go through `orders` to `T1`, but this one does not. -/
theorem encrypt_eq_self_successor :
    successor.isEncrypted "SELECT x.C1, @name FROM T1 x WHERE orders_id = @id" = true ∧
      successor.substituteTables "FROM customer" = "FROM T1" ∧
      successor.encrypt "SELECT x.C1, @name FROM T1 x WHERE orders_id = @id" =
        "SELECT x.C1, @name FROM T1 x WHERE orders_id = @id" := by
  have hpasses :
      successor.isEncrypted "SELECT x.C1, @name FROM T1 x WHERE orders_id = @id" = true := by
    decide +kernel
  obtain ⟨-, -, -, -, hself⟩ := encrypt_eq_self successor _ hpasses
  exact ⟨hpasses, by decide +kernel, hself⟩

end Codename.Mapping
