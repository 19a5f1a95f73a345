import Codename.Proofs.Text.Segment

/-!
# Changing a text word by word

A text is rewritten word by word when each word is replaced by another word, chosen from the word
and the text in front of it, and everything between the words stays. Whatever a rule of this kind
is repeated or combined with, the words of the old and of the new text stand in pairs, so that a
property of such pairs can be carried through any number of rewritings.

## Main definitions

* `mapWords` — a text with each of its words decided on by a rule.
* `Wordwise` — two texts that differ in their words only, and the words by a given relation.
* `HasWordAt`, `hasWord` — a word of a text, with the segments in front of it or wherever it is.
* `Recoded` — words of one kind may have been replaced by words of another.

## Main statements

* `segments_mapWords` — a rule that keeps words leaves the cut of a text as it is.
* `Wordwise.map` — what one more rewriting does to the pairs of words.
* `Wordwise.foldl` — what a run of rewritings of single words does.
* `Wordwise.eq_mapWords` — pairs that follow a rule make a text rewritten by it.
* `Wordwise.exists_left`, `Wordwise.exists_right` — each word has its counterpart.
-/

namespace Codename.Text

open Codename.Mapping (isIdentifier)
open List (Forall₂)

/-- Rewrites the words of a row that has the segments `before` in front of it, read backwards. The
rule sees the text in front of the word, also read backwards, and the word. -/
def rewriteFrom (f : List Char → String → String) : List Segment → List Segment → List Segment
  | _, [] => []
  | before, .word name :: rest =>
    .word (f (charsBefore before) name) :: rewriteFrom f (.word name :: before) rest
  | before, .other c :: rest => .other c :: rewriteFrom f (.other c :: before) rest

/-- The text with each word replaced by what the rule makes of it. The rule is given the text in
front of the word, read backwards, and the word. -/
def mapWords (f : List Char → String → String) (text : String) : String :=
  String.ofList (charsOf (rewriteFrom f [] (segments text.toList)))

/-- A rule that puts identifiers in the place of identifiers. -/
def KeepsWords (f : List Char → String → String) : Prop :=
  ∀ before name, isIdentifier name = true → isIdentifier (f before name) = true

/-- Two rows that differ in their words only, where `P` holds of the segments in front of a word in
the first row, of the word, and of its counterpart. -/
inductive WordwiseFrom (P : List Segment → String → String → Prop) :
    List Segment → List Segment → List Segment → Prop
  | nil (before : List Segment) : WordwiseFrom P before [] []
  | word {before rest rest' : List Segment} {name name' : String} (h : P before name name')
      (hrest : WordwiseFrom P (.word name :: before) rest rest') :
      WordwiseFrom P before (.word name :: rest) (.word name' :: rest')
  | other {before rest rest' : List Segment} (c : Char)
      (hrest : WordwiseFrom P (.other c :: before) rest rest') :
      WordwiseFrom P before (.other c :: rest) (.other c :: rest')

/-- Two texts that differ in their words only, where `P` holds of the segments in front of a word
in the first text, read backwards, of the word, and of its counterpart in the second text. -/
def Wordwise (P : List Segment → String → String → Prop) (text text' : String) : Prop :=
  WordwiseFrom P [] (segments text.toList) (segments text'.toList)

/-- The word `name` stands in the text behind the segments `before`, read backwards. -/
def HasWordAt (text : String) (before : List Segment) (name : String) : Prop :=
  ∃ after, segments text.toList = before.reverse ++ .word name :: after

/-- Whether the text has the word `name`. -/
def hasWord (text name : String) : Bool :=
  (segments text.toList).contains (.word name)

/-- A word is as it was, or one of `plain` was replaced by one of `codes`. -/
def Recoded (plain codes : List String) (name name' : String) : Prop :=
  name' = name ∨ (name ∈ plain ∧ name' ∈ codes)

/-- The places of a word and of its counterpart: nothing but words differs in front of them, and
these by the relation `Q`. -/
structure Aligned (Q : String → String → Prop) (before before' : List Segment)
    (name name' : String) : Prop where
  cut : IsCut (.word name :: before)
  cut' : IsCut (.word name' :: before')
  rel : Forall₂ (Segment.Rel Q) before before'

variable {P P' : List Segment → String → String → Prop} {Q : String → String → Prop}
  {f : List Char → String → String}

/-! ### Rows -/

theorem isCut_of_forall₂ {row row' : List Segment} (h : Forall₂ (Segment.Rel Q) row row')
    (hQ : ∀ name name', isIdentifier name = true → Q name name' → isIdentifier name' = true)
    (hrow : IsCut row) : IsCut row' := by
  induction h with
  | nil => exact .nil
  | @cons segment segment' row row' hsegment hrest ih =>
    obtain ⟨hvalid, hnext, hcut⟩ := isCut_cons.1 hrow
    refine isCut_cons.2 ⟨?_, ?_, ih hcut⟩
    · cases hsegment with
      | word hname => exact hQ _ _ hvalid hname
      | other c => exact hvalid
    · intro hword next hmem
      cases hrest with
      | nil => cases hmem
      | @cons next₀ next₁ _ _ hrel _ =>
        obtain rfl : next₁ = next := by simpa using hmem
        have hword₀ : segment.isWord = true := by cases hsegment <;> exact hword
        have hnext₀ : next₀.isWord = false := hnext hword₀ next₀ rfl
        cases hrel <;> exact hnext₀

theorem isCut_at {before rest : List Segment} {segment : Segment}
    (h : IsCut (before.reverse ++ segment :: rest)) : IsCut (segment :: before) := by
  have happ : before.reverse ++ segment :: rest = (segment :: before).reverse ++ rest := by simp
  rw [happ] at h
  simpa using h.of_append.1.reverse

namespace WordwiseFrom

theorem forall₂ {before row row' : List Segment} (hPQ : ∀ b w w', P b w w' → Q w w')
    (h : WordwiseFrom P before row row') : Forall₂ (Segment.Rel Q) row row' := by
  induction h with
  | nil => exact .nil
  | word h _ ih => exact .cons (.word (hPQ _ _ _ h)) ih
  | other c _ ih => exact .cons (.other c) ih

theorem refl (before row : List Segment) :
    WordwiseFrom (fun _ w w' => w' = w) before row row := by
  induction row generalizing before with
  | nil => exact .nil before
  | cons segment row ih =>
    cases segment with
    | word name => exact .word rfl (ih _)
    | other c => exact .other c (ih _)

theorem imp {before row row' : List Segment}
    (hP : ∀ b w w' after, before.reverse ++ row = b.reverse ++ .word w :: after →
      P b w w' → P' b w w')
    (h : WordwiseFrom P before row row') : WordwiseFrom P' before row row' := by
  induction h with
  | nil => exact .nil _
  | @word before rest _ name name' h _ ih =>
    refine .word (hP before name name' rest rfl h) (ih ?_)
    exact fun b w w' after hrow => hP b w w' after (by simpa using hrow)
  | other c _ ih =>
    exact .other c (ih fun b w w' after hrow => hP b w w' after (by simpa using hrow))

/-- One more rewriting of the second row. -/
theorem rewrite {before before' row row' : List Segment} (hPQ : ∀ b w w', P b w w' → Q w w')
    (hstep : ∀ {b b' w w'}, Aligned Q b b' w w' → P b w w' → P' b w (f (charsBefore b') w'))
    (h : WordwiseFrom P before row row') (hbefore : Forall₂ (Segment.Rel Q) before before')
    (hcut : IsCut (before.reverse ++ row)) (hcut' : IsCut (before'.reverse ++ row')) :
    WordwiseFrom P' before row (rewriteFrom f before' row') := by
  -- the rule is given what has become of `before` on the way
  induction h generalizing before' with
  | nil => exact .nil _
  | @word before rest rest' name name' h _ ih =>
    refine .word (hstep ⟨isCut_at hcut, isCut_at hcut', hbefore⟩ h) ?_
    exact ih (.cons (.word (hPQ _ _ _ h)) hbefore) (by simpa using hcut) (by simpa using hcut')
  | other c _ ih =>
    exact .other c (ih (.cons (.other c) hbefore) (by simpa using hcut) (by simpa using hcut'))

theorem and {before row row' : List Segment} (h : WordwiseFrom P before row row')
    (h' : WordwiseFrom P' before row row') :
    WordwiseFrom (fun b w w' => P b w w' ∧ P' b w w') before row row' := by
  induction h with
  | nil => exact .nil _
  | word h _ ih =>
    cases h' with
    | word h' hrest => exact .word ⟨h, h'⟩ (ih hrest)
  | other c _ ih =>
    cases h' with
    | other _ hrest => exact .other c (ih hrest)

theorem eq_rewriteFrom {before row row' : List Segment}
    (h : WordwiseFrom (fun b w w' => w' = f (charsBefore b) w) before row row') :
    row' = rewriteFrom f before row := by
  induction h with
  | nil => rfl
  | word h _ ih => rw [rewriteFrom, h, ih]
  | other c _ ih => rw [rewriteFrom, ih]

theorem exists_left {before row left' right' : List Segment} {name' : String}
    (hPQ : ∀ b w w', P b w w' → Q w w')
    (h : WordwiseFrom P before row (left' ++ .word name' :: right')) :
    ∃ left name right, row = left ++ .word name :: right ∧
      P (left.reverse ++ before) name name' ∧ Forall₂ (Segment.Rel Q) left left' := by
  induction left' generalizing before row with
  | nil =>
    cases h with
    | @word _ rest _ name _ h _ => exact ⟨[], name, rest, rfl, h, .nil⟩
  | cons segment' left' ih =>
    cases h with
    | @word _ rest _ name _ h hrest =>
      obtain ⟨left, found, right, rfl, hfound, hleft⟩ := ih hrest
      exact ⟨.word name :: left, found, right, rfl, by simpa using hfound,
        .cons (.word (hPQ _ _ _ h)) hleft⟩
    | other c hrest =>
      obtain ⟨left, found, right, rfl, hfound, hleft⟩ := ih hrest
      exact ⟨.other c :: left, found, right, rfl, by simpa using hfound, .cons (.other c) hleft⟩

theorem exists_right {before row' left right : List Segment} {name : String}
    (hPQ : ∀ b w w', P b w w' → Q w w')
    (h : WordwiseFrom P before (left ++ .word name :: right) row') :
    ∃ left' name' right', row' = left' ++ .word name' :: right' ∧
      P (left.reverse ++ before) name name' ∧ Forall₂ (Segment.Rel Q) left left' := by
  induction left generalizing before row' with
  | nil =>
    cases h with
    | @word _ _ rest' _ name' h _ => exact ⟨[], name', rest', rfl, h, .nil⟩
  | cons segment left ih =>
    cases h with
    | @word _ _ rest' _ name' h hrest =>
      obtain ⟨left', found, right', rfl, hfound, hleft⟩ := ih hrest
      exact ⟨.word name' :: left', found, right', rfl, by simpa using hfound,
        .cons (.word (hPQ _ _ _ h)) hleft⟩
    | other c hrest =>
      obtain ⟨left', found, right', rfl, hfound, hleft⟩ := ih hrest
      exact ⟨.other c :: left', found, right', rfl, by simpa using hfound, .cons (.other c) hleft⟩

end WordwiseFrom

/-! ### Texts -/

theorem wordwiseFrom_rewriteFrom (f : List Char → String → String)
    (before row : List Segment) :
    WordwiseFrom (fun b w w' => w' = f (charsBefore b) w) before row
      (rewriteFrom f before row) := by
  induction row generalizing before with
  | nil => exact .nil before
  | cons segment row ih =>
    cases segment with
    | word name => exact .word rfl (ih _)
    | other c => exact .other c (ih _)

/-- A rule that keeps words leaves the cut of a text as it is. -/
theorem segments_mapWords (hf : KeepsWords f) (text : String) :
    segments (mapWords f text).toList = rewriteFrom f [] (segments text.toList) := by
  rw [mapWords, String.toList_ofList]
  apply segments_charsOf
  have hpairs : Forall₂ (Segment.Rel fun w w' => ∃ before, w' = f before w)
      (segments text.toList) (rewriteFrom f [] (segments text.toList)) :=
    (wordwiseFrom_rewriteFrom f [] _).forall₂ fun b _ _ h => ⟨charsBefore b, h⟩
  refine isCut_of_forall₂ hpairs ?_ (isCut_segments _)
  rintro name _ hname ⟨before, rfl⟩
  exact hf before name hname

theorem wordwise_mapWords (hf : KeepsWords f) (text : String) :
    Wordwise (fun b w w' => w' = f (charsBefore b) w) text (mapWords f text) := by
  rw [Wordwise, segments_mapWords hf]
  exact wordwiseFrom_rewriteFrom f [] _

/-- A text that is one word is decided on as a whole. -/
theorem mapWords_of_isIdentifier {word : String} (h : isIdentifier word = true) :
    mapWords f word = f [] word := by
  have hcut : IsCut [.word word] := isCut_cons.2 ⟨h, by simp, .nil⟩
  have hsegments : segments word.toList = [.word word] := by simpa using segments_charsOf hcut
  rw [mapWords, hsegments]
  simp [rewriteFrom]

theorem HasWordAt.isCut {text name : String} {before : List Segment}
    (h : HasWordAt text before name) : IsCut (.word name :: before) := by
  obtain ⟨after, h⟩ := h
  have hcut := isCut_segments text.toList
  rw [h] at hcut
  exact isCut_at hcut

theorem hasWord_iff {text name : String} :
    hasWord text name = true ↔ ∃ before, HasWordAt text before name := by
  rw [hasWord, List.contains_iff_mem, List.mem_iff_append]
  constructor
  · rintro ⟨left, right, hrow⟩
    exact ⟨left.reverse, right, by simpa using hrow⟩
  · rintro ⟨before, after, hrow⟩
    exact ⟨before.reverse, after, hrow⟩

/-- A word of neither kind appears where it was. -/
theorem Recoded.eq_iff {plain codes : List String} {name name' word : String}
    (h : Recoded plain codes name name') (hplain : word ∉ plain) (hcodes : word ∉ codes) :
    name' = word ↔ name = word := by
  rcases h with rfl | ⟨hname, hname'⟩
  · exact Iff.rfl
  · constructor
    · rintro rfl
      exact absurd hname' hcodes
    · rintro rfl
      exact absurd hname hplain

namespace Wordwise

variable {text text' : String}

theorem refl (text : String) : Wordwise (fun _ w w' => w' = w) text text :=
  WordwiseFrom.refl [] _

/-- What holds of the pairs may use that the first of them are the words of the text. -/
theorem imp (hP : ∀ b w w', HasWordAt text b w → P b w w' → P' b w w') (h : Wordwise P text text') :
    Wordwise P' text text' :=
  WordwiseFrom.imp (fun b w w' after hrow => hP b w w' ⟨after, by simpa using hrow⟩) h

theorem and (h : Wordwise P text text') (h' : Wordwise P' text text') :
    Wordwise (fun b w w' => P b w w' ∧ P' b w w') text text' :=
  WordwiseFrom.and h h'

/-- One more rewriting of the second text, where what it does to a word may depend on how the words
in front of it were changed before. -/
theorem map (hPQ : ∀ b w w', P b w w' → Q w w') (hf : KeepsWords f)
    (hstep : ∀ {b b' w w'}, Aligned Q b b' w w' → P b w w' → P' b w (f (charsBefore b') w'))
    (h : Wordwise P text text') : Wordwise P' text (mapWords f text') := by
  rw [Wordwise, segments_mapWords hf]
  exact WordwiseFrom.rewrite hPQ hstep h .nil (isCut_segments _) (isCut_segments _)

/-- Pairs of words that follow a rule make a text rewritten by it. -/
theorem eq_mapWords (h : Wordwise (fun b w w' => w' = f (charsBefore b) w) text text') :
    text' = mapWords f text := by
  have hrow := WordwiseFrom.eq_rewriteFrom h
  rw [mapWords, ← hrow, charsOf_segments, String.ofList_toList]

/-- Where each step of a run rewrites the words of a text on their own, so does the run. -/
theorem foldl {α : Type} {step rule : String → α → String} {entries : List α} (text : String)
    (hstep : ∀ entry ∈ entries, ∀ text, step text entry = mapWords (fun _ w => rule w entry) text)
    (hrule : ∀ entry ∈ entries, KeepsWords fun _ w => rule w entry) :
    Wordwise (fun _ w w' => w' = entries.foldl rule w) text (entries.foldl step text) := by
  induction entries using List.reverseRecOn with
  | nil => exact refl text
  | append_singleton entries entry ih =>
    have hprevious := ih (fun other hmem => hstep other (List.mem_append_left _ hmem))
      fun other hmem => hrule other (List.mem_append_left _ hmem)
    have hlast : entry ∈ entries ++ [entry] := List.mem_append_right _ (List.mem_singleton_self _)
    simp only [List.foldl_append, List.foldl_cons, List.foldl_nil]
    rw [hstep entry hlast]
    refine hprevious.map (Q := fun _ _ => True) (fun _ _ _ _ => trivial) (hrule entry hlast) ?_
    rintro b b' w _ - rfl
    rfl

theorem eq (h : Wordwise (fun _ w w' => w' = w) text text') : text' = text := by
  rw [eq_mapWords (f := fun _ w => w) h]
  exact (eq_mapWords (f := fun _ w => w) (refl text)).symm

theorem exists_left {before' : List Segment} {name' : String} (hPQ : ∀ b w w', P b w w' → Q w w')
    (h : Wordwise P text text') (hplace : HasWordAt text' before' name') :
    ∃ before name, HasWordAt text before name ∧ P before name name' ∧
      Aligned Q before before' name name' := by
  have hcut' := hplace.isCut
  obtain ⟨after, hplace⟩ := hplace
  rw [Wordwise, hplace] at h
  obtain ⟨left, name, right, hrow, hP, hleft⟩ := h.exists_left hPQ
  have hat : HasWordAt text left.reverse name := ⟨right, by simpa using hrow⟩
  refine ⟨left.reverse, name, hat, by simpa using hP, hat.isCut, hcut', ?_⟩
  simpa using List.rel_reverse hleft

theorem exists_right {before : List Segment} {name : String} (hPQ : ∀ b w w', P b w w' → Q w w')
    (h : Wordwise P text text') (hplace : HasWordAt text before name) :
    ∃ before' name', HasWordAt text' before' name' ∧ P before name name' ∧
      Aligned Q before before' name name' := by
  have hcut := hplace.isCut
  obtain ⟨after, hplace⟩ := hplace
  rw [Wordwise, hplace] at h
  obtain ⟨left', name', right', hrow, hP, hleft⟩ := h.exists_right hPQ
  have hat : HasWordAt text' left'.reverse name' := ⟨right', by simpa using hrow⟩
  refine ⟨left'.reverse, name', hat, by simpa using hP, hcut, hat.isCut, ?_⟩
  simpa using List.rel_reverse hleft

/-- The words of the second text, where what becomes of a word depends on the word only. -/
theorem hasWord_iff {f : String → String} {name' : String}
    (h : Wordwise (fun _ w w' => w' = f w) text text') :
    hasWord text' name' = true ↔ ∃ name, hasWord text name = true ∧ f name = name' := by
  have hPQ : ∀ (_ : List Segment) (w w' : String), w' = f w → w' = f w := fun _ _ _ => id
  rw [Text.hasWord_iff]
  constructor
  · rintro ⟨before', hplace⟩
    obtain ⟨before, name, hat, rfl, -⟩ := h.exists_left hPQ hplace
    exact ⟨name, Text.hasWord_iff.2 ⟨before, hat⟩, rfl⟩
  · rintro ⟨name, hname, rfl⟩
    obtain ⟨before, hat⟩ := Text.hasWord_iff.1 hname
    obtain ⟨before', _, hplace, rfl, -⟩ := h.exists_right hPQ hat
    exact ⟨before', hplace⟩

/-- A word of neither kind is in both texts or in none. -/
theorem hasWord_eq {plain codes : List String} {word : String}
    (hPQ : ∀ b w w', P b w w' → Recoded plain codes w w') (h : Wordwise P text text')
    (hplain : word ∉ plain) (hcodes : word ∉ codes) : hasWord text' word = hasWord text word := by
  rw [Bool.eq_iff_iff, Text.hasWord_iff, Text.hasWord_iff]
  constructor
  · rintro ⟨before', hplace⟩
    obtain ⟨before, name, hat, hP, -⟩ := h.exists_left hPQ hplace
    obtain rfl := ((hPQ _ _ _ hP).eq_iff hplain hcodes).1 rfl
    exact ⟨before, hat⟩
  · rintro ⟨before, hat⟩
    obtain ⟨before', name', hplace, hP, -⟩ := h.exists_right hPQ hat
    obtain rfl := ((hPQ _ _ _ hP).eq_iff hplain hcodes).2 rfl
    exact ⟨before', hplace⟩

end Wordwise

end Codename.Text
