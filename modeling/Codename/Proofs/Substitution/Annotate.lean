import Codename.Proofs.Mapping.Names
import Codename.Proofs.Text.Stretches
import Codename.Proofs.Text.Substring
import Codename.Substitution.Basic

/-!
# What annotating does to a text

Annotating writes plain names in front of code names, column after column, and a later column may
find its code name in what was written for an earlier one. All that is written are word characters,
next to others of their kind. So words stay apart and are annotated one by one, no character of the
text is lost, and the text gets longer with the first code name that is found in it.

## Main statements

* `Mapping.wordwise_annotate` — annotating rewrites word by word.
* `Mapping.sublist_annotate` — annotating only inserts.
* `Mapping.annotate_eq_self_iff` — the texts that annotating leaves alone.
* `Mapping.annotate_inserts` — all of this for any mapping and text.
-/

namespace Codename.Mapping

open Codename.Text

/-- What is written for the code name of a column. -/
def annotatedCode (entry : String × String) : String :=
  entry.1 ++ "_" ++ entry.2

variable {mapping : Mapping} {text word : String} {entry : String × String}

/-! ### One column -/

theorem isIdentifier_annotatedCode (hentry : entry ∈ mapping.columnEntries) :
    isIdentifier (annotatedCode entry) = true := by
  obtain ⟨hplain, hcode⟩ := isIdentifier_of_mem_columnEntries hentry
  obtain ⟨hne, hplain⟩ := isIdentifier_iff.1 hplain
  refine isIdentifier_iff.2 ⟨by simp [annotatedCode], ?_⟩
  intro c hc
  simp only [annotatedCode, String.toList_append, List.mem_append] at hc
  rcases hc with (hc | hc) | hc
  · exact hplain c hc
  · obtain rfl : c = '_' := by simpa using hc
    decide
  · exact (isIdentifier_iff.1 hcode).2 c hc

theorem sublist_annotatedCode (entry : String × String) :
    entry.2.toList.Sublist (annotatedCode entry).toList := by
  rw [annotatedCode, String.toList_append]
  exact List.sublist_append_right _ _

theorem length_lt_annotatedCode (entry : String × String) :
    entry.2.toList.length < (annotatedCode entry).toList.length := by
  simp [annotatedCode]
  omega

/-- A code name of a column is searched from left to right, and its annotation put in its place. -/
theorem rewrites_annotateColumn (hentry : entry ∈ mapping.columnEntries) (text : String) :
    Rewrites entry.2.toList (annotatedCode entry).toList text.toList
      (annotateColumn text entry).toList := by
  obtain ⟨-, hcode⟩ := isIdentifier_of_mem_columnEntries hentry
  exact rewrites_replaceSubstring (isIdentifier_iff.1 hcode).1 (annotatedCode entry) text

theorem annotateColumn_eq_mapWords (hentry : entry ∈ mapping.columnEntries) (text : String) :
    annotateColumn text entry = mapWords (fun _ word => annotateColumn word entry) text := by
  obtain ⟨-, hcode⟩ := isIdentifier_of_mem_columnEntries hentry
  exact replaceSubstring_eq_mapWords hcode (annotatedCode entry) text

theorem keepsWords_annotateColumn (hentry : entry ∈ mapping.columnEntries) :
    KeepsWords fun _ word => annotateColumn word entry := by
  obtain ⟨-, hcode⟩ := isIdentifier_of_mem_columnEntries hentry
  exact keepsWords_replaceSubstring hcode (isIdentifier_annotatedCode hentry)
    (sublist_annotatedCode entry)

theorem sublist_annotateColumn (hentry : entry ∈ mapping.columnEntries) (text : String) :
    text.toList.Sublist (annotateColumn text entry).toList :=
  (rewrites_annotateColumn hentry text).sublist (sublist_annotatedCode entry)

theorem annotateColumn_eq_self_iff (hentry : entry ∈ mapping.columnEntries) :
    annotateColumn text entry = text ↔ ¬entry.2.toList <:+: text.toList := by
  obtain ⟨-, hcode⟩ := isIdentifier_of_mem_columnEntries hentry
  rw [← String.toList_inj]
  exact (rewrites_annotateColumn hentry text).eq_iff (isIdentifier_iff.1 hcode).1
    (sublist_annotatedCode entry) (length_lt_annotatedCode entry)

/-! ### All columns -/

theorem annotate_eq_foldl (mapping : Mapping) (text : String) :
    mapping.annotate text = mapping.columnEntries.foldl annotateColumn text := rfl

/-- Annotating rewrites word by word, and makes of a word what it makes of the word alone. -/
theorem wordwise_annotate (mapping : Mapping) (text : String) :
    Wordwise (fun _ w w' => w' = mapping.annotate w) text (mapping.annotate text) :=
  Wordwise.foldl text (fun _ hentry => annotateColumn_eq_mapWords hentry)
    fun _ hentry => keepsWords_annotateColumn hentry

theorem sublist_foldl_annotateColumn {entries : List (String × String)}
    (hentries : ∀ entry ∈ entries, entry ∈ mapping.columnEntries) (text : String) :
    text.toList.Sublist (entries.foldl annotateColumn text).toList := by
  refine List.foldlRecOn (motive := fun text' => text.toList.Sublist text'.toList) entries
    annotateColumn (List.Sublist.refl _) ?_
  intro text' hsublist entry hmem
  exact hsublist.trans (sublist_annotateColumn (hentries entry hmem) text')

/-- Annotating only inserts characters. -/
theorem sublist_annotate (mapping : Mapping) (text : String) :
    text.toList.Sublist (mapping.annotate text).toList :=
  sublist_foldl_annotateColumn (fun _ hentry => hentry) text

theorem isIdentifier_annotate (hword : isIdentifier word = true) :
    isIdentifier (mapping.annotate word) = true := by
  refine List.foldlRecOn (motive := fun word' => isIdentifier word' = true)
    mapping.columnEntries annotateColumn hword ?_
  intro word' hword' entry hentry
  exact keepsWords_annotateColumn hentry [] word' hword'

/-- What one column inserts no other takes out, so a text stays if every column leaves it alone. -/
theorem foldl_annotateColumn_eq_self_iff {entries : List (String × String)}
    (hentries : ∀ entry ∈ entries, entry ∈ mapping.columnEntries) :
    entries.foldl annotateColumn text = text ↔
      ∀ entry ∈ entries, ¬entry.2.toList <:+: text.toList := by
  induction entries with
  | nil => simp
  | cons entry entries ih =>
    have hentry := hentries entry List.mem_cons_self
    have hlater : ∀ other ∈ entries, other ∈ mapping.columnEntries :=
      fun other hmem => hentries other (List.mem_cons_of_mem _ hmem)
    rw [List.foldl_cons, List.forall_mem_cons, ← annotateColumn_eq_self_iff hentry]
    constructor
    · intro hsame
      have hbetween := sublist_foldl_annotateColumn hlater (annotateColumn text entry)
      rw [hsame] at hbetween
      have hstep : annotateColumn text entry = text :=
        String.toList_inj.1 (hbetween.antisymm (sublist_annotateColumn hentry text))
      rw [hstep] at hsame
      exact ⟨hstep, (ih hlater).1 hsame⟩
    · rintro ⟨hstep, hrest⟩
      rw [hstep]
      exact (ih hlater).2 hrest

/-- Annotating leaves a text alone if it holds no code name of a column, inside of words or not. -/
theorem annotate_eq_self_iff :
    mapping.annotate text = text ↔
      ∀ code ∈ mapping.codeColumns, ¬code.toList <:+: text.toList := by
  rw [annotate_eq_foldl, foldl_annotateColumn_eq_self_iff fun _ hentry => hentry, codeColumns,
    List.forall_mem_map]

/-- An annotated text has the stretches between words that the text has, and between them its words,
each annotated as if it were the whole text. An annotated word is a word that has the characters of
the word in their order. The text is left alone if no code name of a column occurs in it, inside of
words or not, and only then. -/
theorem annotate_inserts (mapping : Mapping) (text : String) :
    (mapping.annotate text).toList =
        interleave (stretches text) ((words text).map mapping.annotate) ∧
      stretches (mapping.annotate text) = stretches text ∧
      words (mapping.annotate text) = (words text).map mapping.annotate ∧
      (∀ word ∈ words text, isIdentifier (mapping.annotate word) = true ∧
        word.toList.Sublist (mapping.annotate word).toList) ∧
      (mapping.annotate text = text ↔
        ∀ code ∈ mapping.codeColumns, ¬code.toList <:+: text.toList) := by
  have hpairs := wordwise_annotate mapping text
  refine ⟨hpairs.toList_eq_interleave, hpairs.stretches_eq, hpairs.words_eq_map, ?_,
    annotate_eq_self_iff⟩
  intro word hword
  exact ⟨isIdentifier_annotate (isIdentifier_of_mem_words hword), sublist_annotate mapping word⟩

/-- Two columns of which the code name of one begins like that of the other. -/
def nested : Mapping where
  document := {
    tables := ∅
    columns := .ofList [("T1", .ofList [("name", "C1"), ("id", "C12")])] }
  valid := by decide +kernel

/-! The second column finds its code name behind what was written for the first. -/

example : nested.annotate "C12, éxC1" = "name_id_C12, éxname_C1" := by
  decide +kernel

end Codename.Mapping
