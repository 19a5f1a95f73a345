import Codename.Proofs.Mapping.Names
import Codename.Proofs.Text.References
import Codename.Proofs.Text.Stretches
import Codename.Substitution.Basic

/-!
# What substituting tables does to a word

Tables are replaced one after another in the whole text, but as a table is replaced wherever it is a
word, each word goes its own way. Where no code name of a table is itself a table, a word is
replaced at most once.

## Main definitions

* `Mapping.tableWord` — what becomes of a word.

## Main statements

* `Mapping.substituteTables_eq_mapWords` — substituting tables decides word by word.
* `Mapping.toList_substituteTables` — the text with each word replaced on its own.
* `Mapping.tableWord_eq` — a table takes its code name, any other word stays.
-/

namespace Codename.Mapping

open Codename.Text

/-- What becomes of a word when one table, given with its code name, is replaced. -/
def renameTable (word : String) (entry : String × String) : String :=
  if word = entry.1 then entry.2 else word

/-- What becomes of a word when the tables are replaced one after another. -/
def tableWord (mapping : Mapping) (word : String) : String :=
  mapping.tables.entries.foldl renameTable word

variable {mapping : Mapping} {text word code : String}

/-! ### Word by word -/

/-- One table is replaced in each word on its own. -/
theorem substituteTable_eq_mapWords {entry : String × String}
    (hentry : entry ∈ mapping.tables.entries) (text : String) :
    substituteTable text entry = mapWords (fun _ w => renameTable w entry) text := by
  obtain ⟨hplain, -⟩ := isIdentifier_of_mem_tables hentry
  have hrule : Reference.word.rule entry.1 entry.2 = fun _ w => renameTable w entry := by
    funext before w
    simp [Reference.rule, renameTable]
  rw [substituteTable, Reference.substitute_eq_mapWords hplain, hrule]

theorem keepsWords_renameTable {entry : String × String}
    (hentry : entry ∈ mapping.tables.entries) : KeepsWords fun _ w => renameTable w entry := by
  intro before w hw
  show isIdentifier (renameTable w entry) = true
  rw [renameTable]
  split
  · exact (isIdentifier_of_mem_tables hentry).2
  · exact hw

theorem wordwise_substituteTables (mapping : Mapping) (text : String) :
    Wordwise (fun _ w w' => w' = mapping.tableWord w) text (mapping.substituteTables text) :=
  Wordwise.foldl text (fun _ hentry => substituteTable_eq_mapWords hentry)
    fun _ hentry => keepsWords_renameTable hentry

/-- Substituting tables decides each word on its own. -/
theorem substituteTables_eq_mapWords (mapping : Mapping) (text : String) :
    mapping.substituteTables text = mapWords (fun _ w => mapping.tableWord w) text :=
  (wordwise_substituteTables mapping text).eq_mapWords (f := fun _ w => mapping.tableWord w)

theorem substituteTables_of_isIdentifier (h : isIdentifier word = true) :
    mapping.substituteTables word = mapping.tableWord word := by
  rw [substituteTables_eq_mapWords, mapWords_of_isIdentifier h]

/-- A word stays or becomes the code name of a table. -/
theorem recoded_tableWord (mapping : Mapping) (word : String) :
    Recoded mapping.tables.keys mapping.codeTables word (mapping.tableWord word) := by
  have hfold : ∀ (entries : List (String × String)) (word : String),
      Recoded (entries.map Prod.fst) (entries.map Prod.snd) word
        (entries.foldl renameTable word) := by
    intro entries
    induction entries with
    | nil => exact fun word => .inl rfl
    | cons entry entries ih =>
      intro word
      rw [List.foldl_cons, renameTable]
      split
      · next hword =>
        -- what has become of the table may be a later table
        refine .inr ⟨List.mem_cons.2 (.inl hword), ?_⟩
        rcases ih entry.2 with hsame | ⟨-, hcode⟩
        · rw [hsame]
          exact List.mem_cons_self
        · exact List.mem_cons_of_mem _ hcode
      · rcases ih word with hsame | ⟨htable, hcode⟩
        · exact .inl hsame
        · exact .inr ⟨List.mem_cons_of_mem _ htable, List.mem_cons_of_mem _ hcode⟩
  exact hfold mapping.tables.entries word

/-- The text with the tables substituted has the stretches between words that the text has, and
between them what each of its words becomes when it meets the tables one after another. No word has
an influence on another, nor has what stands around it, so that it becomes what it would if it were
the whole text. -/
theorem toList_substituteTables (mapping : Mapping) (text : String) :
    (mapping.substituteTables text).toList =
        interleave (stretches text) ((words text).map mapping.tableWord) ∧
      stretches (mapping.substituteTables text) = stretches text ∧
      words (mapping.substituteTables text) = (words text).map mapping.tableWord ∧
      ∀ word ∈ words text, mapping.substituteTables word = mapping.tableWord word := by
  have hpairs := wordwise_substituteTables mapping text
  refine ⟨hpairs.toList_eq_interleave, hpairs.stretches_eq, hpairs.words_eq_map, ?_⟩
  intro word hword
  exact substituteTables_of_isIdentifier (isIdentifier_of_mem_words hword)

/-! A table is replaced behind an `@` too. -/

example : shop.substituteTables "@customer=éorders, customers" = "@T1=éT2, customers" := by
  decide +kernel

/-! ### One replacement for each word -/

theorem foldl_renameTable_of_not_mem {entries : List (String × String)}
    (h : word ∉ entries.map Prod.fst) : entries.foldl renameTable word = word := by
  induction entries with
  | nil => rfl
  | cons entry entries ih =>
    rw [List.map_cons, List.mem_cons, not_or] at h
    rw [List.foldl_cons, renameTable, if_neg h.1, ih h.2]

theorem foldl_renameTable_of_mem {entries : List (String × String)}
    (hnodup : (entries.map Prod.fst).Nodup) (hcode : code ∉ entries.map Prod.fst)
    (h : (word, code) ∈ entries) : entries.foldl renameTable word = code := by
  induction entries with
  | nil => cases h
  | cons entry entries ih =>
    rw [List.map_cons, List.nodup_cons] at hnodup
    rw [List.map_cons, List.mem_cons, not_or] at hcode
    rcases List.mem_cons.1 h with rfl | h
    · -- the code name is no table, so nothing takes its place
      rw [List.foldl_cons, renameTable, if_pos rfl, foldl_renameTable_of_not_mem hcode.2]
    · have hne : word ≠ entry.1 := by
        rintro rfl
        exact hnodup.1 (List.mem_map.2 ⟨_, h, rfl⟩)
      rw [List.foldl_cons, renameTable, if_neg hne, ih hnodup.2 hcode.2 h]

/-- A table takes its code name, any other word stays. -/
theorem tableWord_eq (hcodes : ∀ code ∈ mapping.codeTables, code ∉ mapping.tables.keys)
    (word : String) : mapping.tableWord word = (mapping.codeTable? word).getD word := by
  cases hcode : mapping.codeTable? word with
  | none => exact foldl_renameTable_of_not_mem (KeyedList.get?_eq_none_iff.1 hcode)
  | some code =>
    have hmem : (word, code) ∈ mapping.tables.entries := KeyedList.get?_eq_some_iff.1 hcode
    have hapart : code ∉ mapping.tables.keys := hcodes code (List.mem_map.2 ⟨_, hmem, rfl⟩)
    exact foldl_renameTable_of_mem mapping.tables.nodup_keys hapart hmem

/-- No table is left. -/
theorem tableWord_not_mem_keys (hcodes : ∀ code ∈ mapping.codeTables, code ∉ mapping.tables.keys)
    (word : String) : mapping.tableWord word ∉ mapping.tables.keys := by
  rw [tableWord_eq hcodes]
  cases hcode : mapping.codeTable? word with
  | none => exact KeyedList.get?_eq_none_iff.1 hcode
  | some code => exact hcodes code (KeyedList.mem_values.2 ⟨word, hcode⟩)

theorem substituteTables_eq_self (h : ∀ table ∈ mapping.tables.keys, hasWord text table = false) :
    mapping.substituteTables text = text := by
  refine ((wordwise_substituteTables mapping text).imp ?_).eq
  rintro b w _ hplace rfl
  refine foldl_renameTable_of_not_mem fun hmem => ?_
  have hnone := h w hmem
  rw [hasWord_iff.2 ⟨b, hplace⟩] at hnone
  cases hnone

/-- The code name of a table is in the text with the tables substituted if the query has it or a
table with this code name. -/
theorem hasWord_substituteTables
    (hcodes : ∀ code ∈ mapping.codeTables, code ∉ mapping.tables.keys)
    (hcode : code ∈ mapping.codeTables) :
    hasWord (mapping.substituteTables text) code = true ↔
      hasWord text code = true ∨
        ∃ table, (table, code) ∈ mapping.tables.entries ∧ hasWord text table = true := by
  have hsame : mapping.tableWord code = code :=
    foldl_renameTable_of_not_mem (hcodes code hcode)
  rw [(wordwise_substituteTables mapping text).hasWord_iff]
  constructor
  · rintro ⟨w, hw, hword⟩
    rw [tableWord_eq hcodes] at hword
    cases htable : mapping.codeTable? w with
    | none =>
      rw [htable, Option.getD_none] at hword
      exact .inl (hword ▸ hw)
    | some found =>
      rw [htable, Option.getD_some] at hword
      exact .inr ⟨w, KeyedList.get?_eq_some_iff.1 (hword ▸ htable), hw⟩
  · rintro (hword | ⟨table, hentry, hword⟩)
    · exact ⟨code, hword, hsame⟩
    · refine ⟨table, hword, ?_⟩
      rw [tableWord_eq hcodes, codeTable?, KeyedList.get?_eq_some_iff.2 hentry, Option.getD_some]

end Codename.Mapping
