import Codename.Mapping.Document
import Mathlib.Data.List.Chain
import Mathlib.Data.List.Forall2

/-!
# Words of a text

A text is cut into segments: its words, which are the maximal runs of word characters, and the
single characters between them. The cut loses nothing and is the only one in which no word touches
another, so that facts about a text can be stated word by word.

## Main definitions

* `Segment`, `segments` — the segments of a text, from left to right.
* `charsOf`, `charsBefore` — the text that segments make up, read forwards or backwards.
* `IsCut` — segments that are the cut of some text.

## Main statements

* `charsOf_segments` — the segments of a text make up the text.
* `segments_charsOf` — a row of segments in which no word touches another is a cut.
-/

namespace Codename.Text

open Codename.Mapping (isIdentifier)

/-- A part of a text: a word, or a character that belongs to no word. -/
inductive Segment where
  | word (name : String)
  | other (c : Char)
  deriving Repr, DecidableEq

namespace Segment

/-- The characters of a segment. -/
def chars : Segment → List Char
  | .word name => name.toList
  | .other c => [c]

/-- Whether the segment is a word. -/
def isWord : Segment → Bool
  | .word _ => true
  | .other _ => false

/-- A word is an identifier, and any other character is no word character. -/
def IsValid : Segment → Prop
  | .word name => isIdentifier name = true
  | .other c => isWordChar c = false

/-- Puts a character in front of a row of segments; a word character joins a word that follows. -/
def push (c : Char) : List Segment → List Segment
  | .word name :: rest =>
    if isWordChar c then .word (String.ofList (c :: name.toList)) :: rest
    else .other c :: .word name :: rest
  | rest => (if isWordChar c then .word (String.ofList [c]) else .other c) :: rest

/-- Two segments of which the words are related by `Q` and all else is the same. -/
inductive Rel (Q : String → String → Prop) : Segment → Segment → Prop
  | word {name name' : String} (h : Q name name') : Rel Q (.word name) (.word name')
  | other (c : Char) : Rel Q (.other c) (.other c)

@[simp] theorem chars_word (name : String) : (Segment.word name).chars = name.toList := rfl

@[simp] theorem chars_other (c : Char) : (Segment.other c).chars = [c] := rfl

end Segment

/-- The segments of a text, from left to right. -/
def segments (text : List Char) : List Segment :=
  text.foldr Segment.push []

/-- The text that a row of segments makes up. -/
def charsOf (row : List Segment) : List Char :=
  row.flatMap Segment.chars

/-- The text of the segments in front of a place, both of them read backwards: the segment next to
the place comes first. -/
def charsBefore (before : List Segment) : List Char :=
  before.flatMap fun segment => segment.chars.reverse

/-- No word of the row touches another, so that each of them is a maximal run. -/
structure IsCut (row : List Segment) : Prop where
  valid : ∀ segment ∈ row, segment.IsValid
  apart : row.IsChain fun left right => ¬(left.isWord = true ∧ right.isWord = true)

/-- Whether a text begins with a word character. -/
def startsInWord (text : List Char) : Bool :=
  text.head?.any isWordChar

/-! ### Runs of word characters -/

theorem isIdentifier_iff {name : String} :
    isIdentifier name = true ↔ name.toList ≠ [] ∧ ∀ c ∈ name.toList, isWordChar c = true := by
  simp [isIdentifier]

@[simp] theorem startsInWord_nil : startsInWord [] = false := rfl

@[simp] theorem startsInWord_cons (c : Char) (text : List Char) :
    startsInWord (c :: text) = isWordChar c := rfl

theorem startsInWord_run {run rest : List Char} (hne : run ≠ [])
    (hrun : ∀ c ∈ run, isWordChar c = true) : startsInWord (run ++ rest) = true := by
  obtain ⟨c, tail, rfl⟩ := List.exists_cons_of_ne_nil hne
  exact hrun c List.mem_cons_self

/-- A text that begins with a run of word characters can be split behind the run in one way. -/
theorem run_append_inj {run run' rest rest' : List Char}
    (hrun : ∀ c ∈ run, isWordChar c = true) (hrun' : ∀ c ∈ run', isWordChar c = true)
    (hrest : startsInWord rest = false) (hrest' : startsInWord rest' = false)
    (h : run ++ rest = run' ++ rest') : run = run' ∧ rest = rest' := by
  -- the run is what the text begins with as long as there are word characters
  have htake : ∀ {run rest : List Char}, (∀ c ∈ run, isWordChar c = true) →
      startsInWord rest = false → (run ++ rest).takeWhile isWordChar = run := by
    intro run rest hrun hrest
    rw [List.takeWhile_append_of_pos hrun]
    cases rest with
    | nil => simp
    | cons c rest =>
      rw [startsInWord_cons] at hrest
      simp [hrest]
  have heq : run = run' := by
    rw [← htake hrun hrest, h, htake hrun' hrest']
  subst heq
  exact ⟨rfl, List.append_cancel_left h⟩

/-! ### Text of segments -/

@[simp] theorem charsOf_nil : charsOf [] = [] := rfl

@[simp] theorem charsOf_cons (segment : Segment) (row : List Segment) :
    charsOf (segment :: row) = segment.chars ++ charsOf row := by
  simp [charsOf]

@[simp] theorem charsOf_append (row row' : List Segment) :
    charsOf (row ++ row') = charsOf row ++ charsOf row' := by
  simp [charsOf]

@[simp] theorem charsBefore_nil : charsBefore [] = [] := rfl

@[simp] theorem charsBefore_cons (segment : Segment) (before : List Segment) :
    charsBefore (segment :: before) = segment.chars.reverse ++ charsBefore before := by
  simp [charsBefore]

/-! ### Rows without touching words -/

theorem isCut_cons {segment : Segment} {row : List Segment} :
    IsCut (segment :: row) ↔
      segment.IsValid ∧ (segment.isWord = true → ∀ next ∈ row.head?, next.isWord = false) ∧
        IsCut row := by
  constructor
  · rintro ⟨hvalid, hapart⟩
    rw [List.isChain_cons] at hapart
    refine ⟨hvalid _ List.mem_cons_self, ?_, fun s hs => hvalid s (List.mem_cons_of_mem _ hs),
      hapart.2⟩
    intro hword next hnext
    simpa [hword] using hapart.1 next hnext
  · rintro ⟨hsegment, hnext, hrow⟩
    refine ⟨?_, ?_⟩
    · intro s hs
      rcases List.mem_cons.1 hs with rfl | hs
      · exact hsegment
      · exact hrow.valid s hs
    · rw [List.isChain_cons]
      refine ⟨?_, hrow.apart⟩
      rintro next hmem ⟨hword, hword'⟩
      simp [hnext hword next hmem] at hword'

namespace IsCut

theorem nil : IsCut [] := ⟨by simp, .nil⟩

theorem of_append {row row' : List Segment} (h : IsCut (row ++ row')) : IsCut row ∧ IsCut row' := by
  obtain ⟨hvalid, hapart⟩ := h
  rw [List.isChain_append] at hapart
  exact ⟨⟨fun s hs => hvalid s (List.mem_append_left _ hs), hapart.1⟩,
    ⟨fun s hs => hvalid s (List.mem_append_right _ hs), hapart.2.1⟩⟩

theorem tail {segment : Segment} {row : List Segment} (h : IsCut (segment :: row)) : IsCut row :=
  (isCut_cons.1 h).2.2

theorem reverse {row : List Segment} (h : IsCut row) : IsCut row.reverse := by
  refine ⟨fun s hs => h.valid s (List.mem_reverse.1 hs), ?_⟩
  rw [List.isChain_reverse]
  exact h.apart.imp fun left right hlr hrl => hlr hrl.symm

theorem isIdentifier_word {name : String} {row : List Segment} (h : IsCut (.word name :: row)) :
    isIdentifier name = true :=
  (isCut_cons.1 h).1

theorem isWordChar_other {c : Char} {row : List Segment} (h : IsCut (.other c :: row)) :
    isWordChar c = false :=
  (isCut_cons.1 h).1

theorem word_eq {name : String} {row : List Segment} (h : IsCut (.word name :: row)) :
    row = [] ∨ ∃ c rest, row = .other c :: rest ∧ isWordChar c = false := by
  match row, h with
  | [], _ => exact .inl rfl
  | .other c :: rest, h => exact .inr ⟨c, rest, rfl, h.tail.isWordChar_other⟩
  | .word other :: _, h =>
    have hother := (isCut_cons.1 h).2.1 rfl (.word other) rfl
    cases hother

theorem startsInWord_word {name : String} {row : List Segment} (h : IsCut (.word name :: row)) :
    startsInWord (charsBefore (.word name :: row)) = true := by
  obtain ⟨hne, hrun⟩ := isIdentifier_iff.1 h.isIdentifier_word
  rw [charsBefore_cons]
  exact startsInWord_run (by simpa using hne) (by simpa using hrun)

theorem startsInWord_charsOf {name : String} {row : List Segment}
    (h : IsCut (.word name :: row)) : startsInWord (charsOf row) = false := by
  obtain rfl | ⟨c, rest, rfl, hc⟩ := h.word_eq
  · rfl
  · simpa using hc

theorem startsInWord_charsBefore {name : String} {before : List Segment}
    (h : IsCut (.word name :: before)) : startsInWord (charsBefore before) = false := by
  obtain rfl | ⟨c, rest, rfl, hc⟩ := h.word_eq
  · rfl
  · simpa using hc

end IsCut

/-! ### The cut of a text -/

theorem charsOf_push (c : Char) (row : List Segment) :
    charsOf (Segment.push c row) = c :: charsOf row := by
  unfold Segment.push
  split
  · split <;> simp
  · split <;> simp

theorem IsCut.push {row : List Segment} (h : IsCut row) (c : Char) :
    IsCut (Segment.push c row) := by
  by_cases hc : isWordChar c = true
  · have hsingle : isIdentifier (String.ofList [c]) = true := by simp [isIdentifier_iff, hc]
    match row, h with
    | [], _ =>
      simp only [Segment.push, hc, if_true]
      exact isCut_cons.2 ⟨hsingle, by simp, .nil⟩
    | .word name :: rest, h =>
      simp only [Segment.push, hc, if_true]
      obtain ⟨hname, hnext, hrest⟩ := isCut_cons.1 h
      have hjoined : isIdentifier (String.ofList (c :: name.toList)) = true := by
        simpa [isIdentifier_iff, hc] using (isIdentifier_iff.1 hname).2
      exact isCut_cons.2 ⟨hjoined, hnext, hrest⟩
    | .other d :: rest, h =>
      simp only [Segment.push, hc, if_true]
      exact isCut_cons.2 ⟨hsingle, by simp [Segment.isWord], h⟩
  · have hpush : Segment.push c row = .other c :: row := by
      unfold Segment.push
      split <;> simp [hc]
    rw [hpush]
    exact isCut_cons.2 ⟨by simpa [Segment.IsValid] using hc, by simp [Segment.isWord], h⟩

@[simp] theorem charsOf_segments (text : List Char) : charsOf (segments text) = text := by
  induction text with
  | nil => rfl
  | cons c text ih =>
    show charsOf (Segment.push c (segments text)) = c :: text
    rw [charsOf_push, ih]

theorem isCut_segments (text : List Char) : IsCut (segments text) := by
  induction text with
  | nil => exact .nil
  | cons c text ih => exact ih.push c

/-- A run of word characters in front of a row that begins with no word becomes a word. -/
theorem foldr_push_run {run : List Char} {row : List Segment} (hne : run ≠ [])
    (hrun : ∀ c ∈ run, isWordChar c = true) (hrow : ∀ name rest, row ≠ .word name :: rest) :
    run.foldr Segment.push row = .word (String.ofList run) :: row := by
  induction run with
  | nil => exact absurd rfl hne
  | cons c run ih =>
    have hc : isWordChar c = true := hrun c List.mem_cons_self
    rw [List.foldr_cons]
    -- the last character of the run opens the word, and the others join it
    by_cases hnil : run = []
    · subst hnil
      match row, hrow with
      | [], _ => simp [Segment.push, hc]
      | .other d :: rest, _ => simp [Segment.push, hc]
      | .word name :: rest, hrow => exact absurd rfl (hrow name rest)
    · rw [ih hnil fun d hd => hrun d (List.mem_cons_of_mem _ hd)]
      simp [Segment.push, hc]

/-- A row of segments in which no word touches another is the cut of its text. -/
theorem segments_charsOf {row : List Segment} (h : IsCut row) : segments (charsOf row) = row := by
  induction row with
  | nil => rfl
  | cons segment row ih =>
    have hrow : segments (charsOf row) = row := ih h.tail
    cases segment with
    | other c =>
      show Segment.push c (segments (charsOf row)) = .other c :: row
      rw [hrow]
      have hc := h.isWordChar_other
      unfold Segment.push
      split <;> simp [hc]
    | word name =>
      obtain ⟨hne, hrun⟩ := isIdentifier_iff.1 h.isIdentifier_word
      rw [charsOf_cons, segments, List.foldr_append]
      show name.toList.foldr Segment.push (segments (charsOf row)) = _
      rw [hrow, foldr_push_run hne hrun ?_, String.ofList_toList]
      rintro other rest rfl
      obtain h | ⟨c, rest', h, -⟩ := h.word_eq <;> cases h

end Codename.Text
