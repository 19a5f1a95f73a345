import Codename.Proofs.Substitution.Steps

/-!
# Putting plain names back

Encrypting a query puts code names in the place of plain names and leaves all else as it is, also
where a column cannot be resolved or is a parameter. So if a code name stands for one plain name
only, and none is a word of the query itself, putting the plain names back gives the query.

## Main definitions

* `Mapping.restore` — a text with plain names in the place of code names.
* `Mapping.Coded` — a word that is as it was or has become one of its code names.

## Main statements

* `Mapping.wordwise_coded_encrypt` — what encrypting makes of each word.
* `Mapping.restore_encrypt` — putting the plain names back undoes encrypting.
-/

namespace Codename.Mapping

open Codename.Text

/-- The plain name of the first table or column with the code name. -/
def plainName? (mapping : Mapping) (code : String) : Option String :=
  (mapping.entries.find? (·.2 == code)).map Prod.fst

/-- The text with each word that is a code name replaced by its plain name. -/
def restore (mapping : Mapping) (text : String) : String :=
  mapWords (fun _ word => (mapping.plainName? word).getD word) text

/-- A word is as it was or has become one of its code names, as a table or as a column. -/
def Coded (mapping : Mapping) (word word' : String) : Prop :=
  word' = word ∨ (word, word') ∈ mapping.entries

variable {mapping : Mapping} {word code : String}

/-! ### Code names for words -/

theorem coded_tableWord (hapart : mapping.CodesApart) (word : String) :
    mapping.Coded word (mapping.tableWord word) := by
  rw [tableWord_eq hapart.codeTables]
  cases hcode : mapping.codeTable? word with
  | none => exact .inl rfl
  | some code => exact .inr (List.mem_append_left _ (KeyedList.get?_eq_some_iff.1 hcode))

/-- No word is replaced twice: a column that is found was in the query. -/
theorem Coded.eq_of_mem_columnNames (hapart : mapping.CodesApart) {column : String}
    (h : mapping.Coded word column) (hcolumn : column ∈ mapping.columnNames) : word = column := by
  rcases h with heq | hentry
  · exact heq.symm
  · exact absurd hcolumn (hapart.not_mem_columnNames hentry)

/-- Encrypting leaves a word or replaces it by one of its code names. -/
theorem wordwise_coded_encrypt (hapart : mapping.CodesApart) (text : String) :
    Wordwise (fun _ w w' => mapping.Coded w w') text (mapping.encrypt text) := by
  refine wordwise_encrypt (fun _ w _ => coded_tableWord hapart w) ?_
  intro reference column code hreplaces b b' w _ _ hcoded
  obtain rfl : w = column := hcoded.eq_of_mem_columnNames hapart hreplaces.mem
  obtain ⟨codeTable, hcode⟩ := hreplaces.exists_codeColumn?
  exact .inr (mem_entries_of_codeColumn? hcode)

/-! ### Plain names for code names -/

theorem plainName?_eq_none_iff :
    mapping.plainName? code = none ↔ ∀ entry ∈ mapping.entries, entry.2 ≠ code := by
  simp [plainName?]

theorem mem_entries_of_plainName? (h : mapping.plainName? code = some word) :
    (word, code) ∈ mapping.entries := by
  obtain ⟨⟨plain, found⟩, hfind, rfl⟩ := Option.map_eq_some_iff.1 h
  have hsame := List.find?_some hfind
  obtain rfl : found = code := by simpa using hsame
  exact List.mem_of_find?_eq_some hfind

theorem plainName?_of_mem_entries (hunique : mapping.CodesUnique)
    (h : (word, code) ∈ mapping.entries) : mapping.plainName? code = some word := by
  cases hplain : mapping.plainName? code with
  | none => exact absurd rfl (plainName?_eq_none_iff.1 hplain _ h)
  | some plain =>
    have hsame : plain = word := hunique _ (mem_entries_of_plainName? hplain) _ h rfl
    rw [hsame]

theorem keepsWords_restore (mapping : Mapping) :
    KeepsWords fun _ word => (mapping.plainName? word).getD word := by
  intro before word hword
  show isIdentifier ((mapping.plainName? word).getD word) = true
  cases hplain : mapping.plainName? word with
  | none => exact hword
  | some plain => exact (isIdentifier_of_mem_entries (mem_entries_of_plainName? hplain)).1

/-- Putting the plain names back into an encrypted query gives the query, if every code name stands
for one plain name and is no word of the query. -/
theorem restore_encrypt (mapping : Mapping) (text : String) (hapart : mapping.CodesApart)
    (hunique : mapping.CodesUnique)
    (hfresh : ∀ entry ∈ mapping.entries, hasWord text entry.2 = false) :
    mapping.restore (mapping.encrypt text) = text := by
  have hpairs : Wordwise (fun _ w w' => mapping.Coded w w' ∧ hasWord text w = true) text
      (mapping.encrypt text) :=
    (wordwise_coded_encrypt hapart text).imp fun b w w' hplace hcoded =>
      ⟨hcoded, hasWord_iff.2 ⟨b, hplace⟩⟩
  have hrestored : Wordwise (fun _ w w' => w' = w) text
      (mapping.restore (mapping.encrypt text)) := by
    refine hpairs.map (Q := fun _ _ => True) (fun _ _ _ _ => trivial)
      (keepsWords_restore mapping) ?_
    rintro b b' w w' - ⟨rfl | hentry, hword⟩
    · -- a word that stayed is in the query, and so no code name
      have hnone : mapping.plainName? w' = none := by
        rw [plainName?_eq_none_iff]
        rintro entry hentry rfl
        rw [hfresh entry hentry] at hword
        cases hword
      rw [hnone, Option.getD_none]
    · rw [plainName?_of_mem_entries hunique hentry, Option.getD_some]
  exact hrestored.eq

/-- A qualified, an ambiguous and a bare column and a parameter. -/
theorem restore_encrypt_shop :
    shop.CodesApart ∧ shop.CodesUnique ∧
      (∀ entry ∈ shop.entries,
        hasWord "c.id, id, total, @name FROM customer c, orders" entry.2 = false) ∧
      shop.encrypt "c.id, id, total, @name FROM customer c, orders" =
        "c.C1, id, D2, @name FROM T1 c, T2" ∧
      shop.restore (shop.encrypt "c.id, id, total, @name FROM customer c, orders") =
        "c.id, id, total, @name FROM customer c, orders" := by
  have hapart : shop.CodesApart := by decide +kernel
  have hunique : shop.CodesUnique := by decide +kernel
  have hfresh : ∀ entry ∈ shop.entries,
      hasWord "c.id, id, total, @name FROM customer c, orders" entry.2 = false := by
    decide +kernel
  exact ⟨hapart, hunique, hfresh, by decide +kernel,
    restore_encrypt shop _ hapart hunique hfresh⟩

end Codename.Mapping
