import Codename.Proofs.Text.References

/-!
# Places of a text

A place of a text is given by the segments in front of it. Rewriting a text word by word moves no
place, but the segments in front of it may become others, so the same place of another text is found
behind segments that differ in words only. This is how one place is followed through many
replacements of which each decides by what stands in front of it at that time.

## Main definitions

* `SamePlace` — the segments in front of one place in two texts.
* `StandsAt` — the word at a place that is known from another text.
* `rewriteBefore` — what a rule makes of the segments in front of a place.

## Main statements

* `StandsAt.unique` — one word stands at a place.
* `HasWordAt.mapWords` — what a rule makes of the word at a place.
* `StandsAt.substitute_of_ne` — replacing a name keeps the other words.
-/

namespace Codename.Text

open Codename.Mapping (isIdentifier)
open List (Forall₂)

/-- The same place in two texts that differ in words only. -/
def SamePlace (before before' : List Segment) : Prop :=
  Forall₂ (Segment.Rel fun _ _ => True) before before'

/-- The word stands at the place that has the segments `before` in front of it in another text. -/
def StandsAt (text : String) (before : List Segment) (word : String) : Prop :=
  ∃ before', SamePlace before before' ∧ HasWordAt text before' word

/-- What a rule makes of the segments in front of a place, read backwards. -/
def rewriteBefore (f : List Char → String → String) : List Segment → List Segment
  | [] => []
  | .word name :: before => .word (f (charsBefore before) name) :: rewriteBefore f before
  | .other c :: before => .other c :: rewriteBefore f before

variable {f : List Char → String → String} {before before' : List Segment} {text word : String}

theorem SamePlace.refl (before : List Segment) : SamePlace before before := by
  rw [SamePlace, List.forall₂_same]
  intro segment _
  cases segment with
  | word name => exact .word trivial
  | other c => exact .other c

/-- Rewriting moves no place. -/
theorem SamePlace.rewriteBefore (f : List Char → String → String) (h : SamePlace before before') :
    SamePlace before (rewriteBefore f before') := by
  induction h with
  | nil => exact .nil
  | cons hsegment _ ih =>
    cases hsegment with
    | word _ => exact .cons (.word trivial) ih
    | other c => exact .cons (.other c) ih

theorem StandsAt.hasWord (h : StandsAt text before word) : hasWord text word = true := by
  obtain ⟨before', -, hplace⟩ := h
  exact hasWord_iff.2 ⟨before', hplace⟩

/-- One word stands at a place. -/
theorem StandsAt.unique {word' : String} (h : StandsAt text before word)
    (h' : StandsAt text before word') : word = word' := by
  obtain ⟨front, hsame, after, hrow⟩ := h
  obtain ⟨front', hsame', after', hrow'⟩ := h'
  have hlength : front.reverse.length = front'.reverse.length := by
    rw [List.length_reverse, List.length_reverse, ← hsame.length_eq, hsame'.length_eq]
  have htails := (List.append_inj (hrow.symm.trans hrow') hlength).2
  exact Segment.word.inj (List.cons.inj htails).1

/-! ### Rewriting -/

theorem rewriteFrom_append (f : List Char → String → String) (before left right : List Segment) :
    rewriteFrom f before (left ++ right) =
      rewriteFrom f before left ++ rewriteFrom f (left.reverse ++ before) right := by
  induction left generalizing before with
  | nil => rfl
  | cons segment left ih => cases segment <;> simp [rewriteFrom, ih]

theorem rewriteFrom_reverse (f : List Char → String → String) (before : List Segment) :
    rewriteFrom f [] before.reverse = (rewriteBefore f before).reverse := by
  induction before with
  | nil => rfl
  | cons segment before ih =>
    rw [List.reverse_cons, rewriteFrom_append, ih, List.reverse_reverse, List.append_nil]
    cases segment <;> simp [rewriteFrom, Text.rewriteBefore]

/-- What a rule makes of the word at a place. -/
theorem HasWordAt.mapWords (hf : KeepsWords f) (h : HasWordAt text before word) :
    HasWordAt (mapWords f text) (rewriteBefore f before) (f (charsBefore before) word) := by
  obtain ⟨after, hrow⟩ := h
  refine ⟨rewriteFrom f (.word word :: before) after, ?_⟩
  rw [segments_mapWords hf, hrow, rewriteFrom_append, rewriteFrom_reverse]
  simp [rewriteFrom]

section Substitute

variable {reference : Reference} {name replacement : String}

theorem HasWordAt.substitute (reference : Reference) (hname : isIdentifier name = true)
    (hreplacement : isIdentifier replacement = true) (h : HasWordAt text before word) :
    HasWordAt (reference.substitute name replacement text)
      (rewriteBefore (reference.rule name replacement) before)
      (reference.rule name replacement (charsBefore before) word) := by
  rw [Reference.substitute_eq_mapWords hname]
  exact h.mapWords (Reference.keepsWords_rule hreplacement)

/-- Replacing a name keeps the other words where they are. -/
theorem StandsAt.substitute_of_ne (hname : isIdentifier name = true)
    (hreplacement : isIdentifier replacement = true) (hne : word ≠ name)
    (h : StandsAt text before word) :
    StandsAt (reference.substitute name replacement text) before word := by
  obtain ⟨before', hsame, hplace⟩ := h
  have hrule : reference.rule name replacement (charsBefore before') word = word :=
    if_neg fun hcond => hne hcond.1
  have hnext := hplace.substitute reference hname hreplacement
  rw [hrule] at hnext
  exact ⟨_, hsame.rewriteBefore _, hnext⟩

end Substitute

end Codename.Text
