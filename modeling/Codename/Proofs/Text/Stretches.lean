import Codename.Proofs.Text.Wordwise

/-!
# Words and the stretches between them

A text is a row of words with a stretch of other characters in front of the first of them, between
any two, and behind the last. The outer stretches may be empty. Texts that differ in their words
only have the same stretches.

## Main definitions

* `words`, `stretches` — the words of a text, and what stands between them.
* `interleave` — the text that stretches and words make up.

## Main statements

* `interleave_stretches_words` — a text is made up of its stretches and words.
* `Wordwise.stretches_eq`, `Wordwise.forall₂_words` — changing a text word by word.
* `Wordwise.toList_eq_interleave` — a text of which each word was replaced on its own.
-/

namespace Codename.Text

open Codename.Mapping (isIdentifier)
open List (Forall₂)

/-- The words of a row of segments. -/
def wordsOf : List Segment → List String
  | [] => []
  | .word name :: row => name :: wordsOf row
  | .other _ :: row => wordsOf row

/-- The stretches between the words of a row of segments. -/
def stretchesOf : List Segment → List (List Char)
  | [] => [[]]
  | .word _ :: row => [] :: stretchesOf row
  | .other c :: row => (stretchesOf row).modifyHead (c :: ·)

/-- The words of a text, from left to right. -/
def words (text : String) : List String :=
  wordsOf (segments text.toList)

/-- The stretches between the words of a text, from the one in front of the first word to the one
behind the last. -/
def stretches (text : String) : List (List Char) :=
  stretchesOf (segments text.toList)

/-- Stretches with a word between any two of them. -/
def interleave : List (List Char) → List String → List Char
  | stretch :: stretches, word :: words => stretch ++ word.toList ++ interleave stretches words
  | stretches, _ => stretches.flatten

theorem isIdentifier_of_mem_words {text word : String} (h : word ∈ words text) :
    isIdentifier word = true := by
  have hrow : ∀ {row : List Segment}, word ∈ wordsOf row → .word word ∈ row := by
    intro row hmem
    induction row with
    | nil => cases hmem
    | cons segment row ih =>
      cases segment with
      | other c => exact List.mem_cons_of_mem _ (ih hmem)
      | word name =>
        rcases List.mem_cons.1 hmem with rfl | hmem
        · exact List.mem_cons_self
        · exact List.mem_cons_of_mem _ (ih hmem)
  exact (isCut_segments text.toList).valid _ (hrow h)

theorem stretchesOf_ne_nil (row : List Segment) : stretchesOf row ≠ [] := by
  induction row with
  | nil => simp [stretchesOf]
  | cons segment row ih =>
    cases segment with
    | word name => simp [stretchesOf]
    | other c => simpa [stretchesOf, List.modifyHead_eq_nil_iff] using ih

/-- A text is made up of its stretches and words. -/
theorem interleave_stretches_words (text : String) :
    interleave (stretches text) (words text) = text.toList := by
  have hrow : ∀ row, interleave (stretchesOf row) (wordsOf row) = charsOf row := by
    intro row
    induction row with
    | nil => rfl
    | cons segment row ih =>
      cases segment with
      | word name => simp [stretchesOf, wordsOf, interleave, ih]
      | other c =>
        -- the character joins the stretch in front of the next word
        obtain ⟨stretch, later, hstretches⟩ :=
          List.exists_cons_of_ne_nil (stretchesOf_ne_nil row)
        rw [hstretches] at ih
        rw [stretchesOf, wordsOf, hstretches, List.modifyHead_cons, charsOf_cons,
          Segment.chars_other, ← ih]
        cases wordsOf row with
        | nil => simp [interleave]
        | cons name names => simp [interleave]
  rw [stretches, words, hrow, charsOf_segments]

namespace Wordwise

variable {P : List Segment → String → String → Prop} {Q : String → String → Prop}
  {text text' : String}

/-- Changing a text word by word keeps the stretches. -/
theorem stretches_eq (h : Wordwise P text text') : stretches text' = stretches text := by
  have hrow := WordwiseFrom.forall₂ (Q := fun _ _ => True) (fun _ _ _ _ => trivial) h
  rw [stretches, stretches]
  generalize segments text.toList = row at hrow ⊢
  generalize segments text'.toList = row' at hrow ⊢
  induction hrow with
  | nil => rfl
  | cons hsegment _ ih =>
    cases hsegment with
    | word _ => rw [stretchesOf, stretchesOf, ih]
    | other c => rw [stretchesOf, stretchesOf, ih]

/-- The words of the two texts stand in pairs. -/
theorem forall₂_words (hPQ : ∀ b w w', P b w w' → Q w w') (h : Wordwise P text text') :
    Forall₂ Q (words text) (words text') := by
  have hrow := WordwiseFrom.forall₂ hPQ h
  rw [words, words]
  generalize segments text.toList = row at hrow ⊢
  generalize segments text'.toList = row' at hrow ⊢
  induction hrow with
  | nil => exact .nil
  | cons hsegment _ ih =>
    cases hsegment with
    | word hname => exact .cons hname ih
    | other c => exact ih

section Map

variable {f : String → String}

/-- Where what becomes of a word depends on the word only, the words are replaced one by one. -/
theorem words_eq_map (h : Wordwise (fun _ w w' => w' = f w) text text') :
    words text' = (words text).map f := by
  have hpairs := h.forall₂_words (Q := fun w w' => w' = f w) fun _ _ _ => id
  have hsame : Forall₂ Eq ((words text).map f) (words text') :=
    List.forall₂_map_left_iff.2 (hpairs.imp fun _ _ => Eq.symm)
  rw [List.forall₂_eq_eq_eq] at hsame
  exact hsame.symm

/-- The text then is its stretches with the new words between them. -/
theorem toList_eq_interleave (h : Wordwise (fun _ w w' => w' = f w) text text') :
    text'.toList = interleave (stretches text) ((words text).map f) := by
  rw [← h.words_eq_map, ← h.stretches_eq, interleave_stretches_words]

end Map

end Wordwise

end Codename.Text
