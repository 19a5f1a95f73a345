import Codename.Proofs.Text.Wordwise
import Codename.Text.Reference

/-!
# References are words

The search for a name goes through a text character by character and looks at the neighbours of
each occurrence. For an identifier it finds exactly the words of the text that are the name, so
that replacing the references to a name is a rewriting word by word.

## Main definitions

* `Reference.rule` — what replacing the references to a name does to a word.
* `IsQualifiedBy` — a text that ends with a qualifier and a dot.

## Main statements

* `Reference.occurs_iff` — a name is referred to where it is a word that the reference admits.
* `Reference.substitute_eq_mapWords` — replacing references rewrites word by word.
* `Wordwise.substitute` — what it does to pairs of words.
-/

namespace Codename.Text

open Codename.Mapping (isIdentifier)

/-- The pieces of a row that has the segments `before` in front of it, read backwards, when it is
cut at the words that are `name`. -/
def piecesOf (name : String) : List Segment → List Segment → List Piece
  | _, [] => []
  | before, .word other :: rest =>
    (if other = name then [.occurrence (charsBefore before)] else other.toList.map .other) ++
      piecesOf name (.word other :: before) rest
  | before, .other c :: rest => .other c :: piecesOf name (.other c :: before) rest

/-- What replacing the references to `name` makes of a word with the reversed text `before` in
front of it. -/
def Reference.rule (reference : Reference) (name replacement : String) (before : List Char)
    (word : String) : String :=
  if word = name ∧ reference.admits before = true then replacement else word

/-- The text, read backwards, ends with the qualifier and a dot, and no word character stands in
front of the qualifier. -/
def IsQualifiedBy (qualifier : String) (before : List Char) : Prop :=
  ∃ front, before = '.' :: (qualifier.toList.reverse ++ front) ∧ startsInWord front = false

/-! ### The search -/

/-- A run of word characters stands alone if no word character is next to it. -/
theorem standsAlone_run {run before after : List Char} (hne : run ≠ [])
    (hrun : ∀ c ∈ run, isWordChar c = true) :
    standsAlone run before after = (!startsInWord before && !startsInWord after) := by
  obtain ⟨first, rest, hfirst⟩ := List.exists_cons_of_ne_nil hne
  obtain ⟨last, rest', hlast⟩ :=
    List.exists_cons_of_ne_nil (mt List.reverse_eq_nil_iff.1 hne)
  have hfirstWord : isWordChar first = true := hrun first (by simp [hfirst])
  have hlastWord : isWordChar last = true := by
    apply hrun last
    rw [← List.mem_reverse, hlast]
    exact List.mem_cons_self
  have hstart : isBoundary before.head? (run ++ after).head? = !startsInWord before := by
    simp [isBoundary, startsInWord, hfirst, hfirstWord]
  have hend : isBoundary (run.reverse ++ before).head? after.head? = !startsInWord after := by
    simp [isBoundary, startsInWord, hlast, hlastWord]
  rw [standsAlone, hstart, hend]

theorem piecesFrom_skip (word : List Char) (stands : List Char → List Char → Bool)
    (passed before rest : List Char) :
    piecesFrom word stands passed.length before (passed ++ rest) =
      piecesFrom word stands 0 (passed.reverse ++ before) rest := by
  induction passed generalizing before with
  | nil => rfl
  | cons c passed ih =>
    rw [List.length_cons, List.cons_append, piecesFrom, ih]
    simp

theorem piecesFrom_self {stands : List Char → List Char → Bool} {before tail rest : List Char}
    {c : Char} (h : stands before rest = true) :
    piecesFrom (c :: tail) stands 0 before (c :: (tail ++ rest)) =
      .occurrence before :: piecesFrom (c :: tail) stands 0 (tail.reverse ++ c :: before) rest := by
  conv_lhs => unfold piecesFrom
  rw [if_pos (by simp [h])]
  exact congrArg _ (piecesFrom_skip (c :: tail) stands tail (c :: before) rest)

theorem piecesFrom_cons_of_not {word : List Char} {stands : List Char → List Char → Bool}
    {before rest : List Char} {c : Char}
    (h : ¬(word <+: c :: rest ∧ stands before ((c :: rest).drop word.length) = true)) :
    piecesFrom word stands 0 before (c :: rest) =
      .other c :: piecesFrom word stands 0 (c :: before) rest := by
  conv_lhs => unfold piecesFrom
  rw [if_neg (by simpa using h)]

theorem piecesFrom_inside {word run before rest : List Char} (hne : word ≠ [])
    (hword : ∀ c ∈ word, isWordChar c = true) (hrun : ∀ c ∈ run, isWordChar c = true)
    (hbefore : startsInWord before = true) :
    piecesFrom word (standsAlone word) 0 before (run ++ rest) =
      run.map .other ++ piecesFrom word (standsAlone word) 0 (run.reverse ++ before) rest := by
  induction run generalizing before with
  | nil => rfl
  | cons c run ih =>
    have hstep : ¬(word <+: c :: (run ++ rest) ∧
        standsAlone word before ((c :: (run ++ rest)).drop word.length) = true) := by
      rintro ⟨-, hstands⟩
      simp [standsAlone_run hne hword, hbefore] at hstands
    rw [List.cons_append, piecesFrom_cons_of_not hstep,
      ih (fun d hd => hrun d (List.mem_cons_of_mem _ hd)) (by simpa using hrun c)]
    simp

/-- A word is an occurrence if it is the name that is looked for, and else holds none. -/
theorem piecesFrom_word {name other : String} {before rest : List Char}
    (hname : isIdentifier name = true) (hother : isIdentifier other = true)
    (hbefore : startsInWord before = false) (hrest : startsInWord rest = false) :
    piecesFrom name.toList (standsAlone name.toList) 0 before (other.toList ++ rest) =
      (if other = name then [.occurrence before] else other.toList.map .other) ++
        piecesFrom name.toList (standsAlone name.toList) 0 (other.toList.reverse ++ before)
          rest := by
  obtain ⟨hne, hrun⟩ := isIdentifier_iff.1 hname
  obtain ⟨hne', hrun'⟩ := isIdentifier_iff.1 hother
  obtain ⟨c, tail, htail⟩ := List.exists_cons_of_ne_nil hne'
  by_cases heq : other = name
  · subst heq
    have hstands : standsAlone other.toList before rest = true := by
      simp [standsAlone_run hne hrun, hbefore, hrest]
    rw [htail] at hstands ⊢
    rw [List.cons_append, piecesFrom_self hstands]
    simp
  · have hstep : ¬(name.toList <+: c :: (tail ++ rest) ∧
        standsAlone name.toList before ((c :: (tail ++ rest)).drop name.toList.length) = true) := by
      rintro ⟨⟨after, hafter⟩, hstands⟩
      have hdrop : (c :: (tail ++ rest)).drop name.toList.length = after := by
        rw [← hafter, List.drop_left]
      rw [standsAlone_run hne hrun, hdrop, Bool.and_eq_true, Bool.not_eq_true',
        Bool.not_eq_true'] at hstands
      -- both runs are as long as they can be, so they are the same
      have hsplit : other.toList ++ rest = name.toList ++ after := by
        rw [hafter, htail, List.cons_append]
      exact heq (String.toList_inj.1 (run_append_inj hrun' hrun hrest hstands.2 hsplit).1)
    have hc : isWordChar c = true := hrun' c (by simp [htail])
    have htailRun : ∀ d ∈ tail, isWordChar d = true := fun d hd => hrun' d (by simp [htail, hd])
    rw [if_neg heq, htail, List.cons_append, piecesFrom_cons_of_not hstep,
      piecesFrom_inside hne hrun htailRun (by simpa using hc)]
    simp

/-- The search goes through a cut text segment by segment. -/
theorem piecesFrom_charsOf {name : String} {before row : List Segment}
    (hname : isIdentifier name = true) (hcut : IsCut (before.reverse ++ row)) :
    piecesFrom name.toList (standsAlone name.toList) 0 (charsBefore before) (charsOf row) =
      piecesOf name before row := by
  obtain ⟨hne, hrun⟩ := isIdentifier_iff.1 hname
  induction row generalizing before with
  | nil => simp [piecesFrom, piecesOf, hne]
  | cons segment row ih =>
    have hcut' : IsCut ((segment :: before).reverse ++ row) := by simpa using hcut
    have hrow := ih hcut'
    rw [charsBefore_cons] at hrow
    cases segment with
    | word other =>
      have hafter : startsInWord (charsOf row) = false := hcut.of_append.2.startsInWord_charsOf
      have hbefore : startsInWord (charsBefore before) = false :=
        (isCut_at hcut).startsInWord_charsBefore
      have hother : isIdentifier other = true := (isCut_at hcut).isIdentifier_word
      rw [charsOf_cons, Segment.chars_word, piecesFrom_word hname hother hbefore hafter, piecesOf]
      rw [Segment.chars_word] at hrow
      rw [hrow]
    | other c =>
      have hc : isWordChar c = false := (isCut_at hcut).isWordChar_other
      have hstep : ¬(name.toList <+: c :: charsOf row ∧ standsAlone name.toList
          (charsBefore before) ((c :: charsOf row).drop name.toList.length) = true) := by
        rintro ⟨⟨after, hafter⟩, -⟩
        obtain ⟨d, tail, htail⟩ := List.exists_cons_of_ne_nil hne
        rw [htail, List.cons_append] at hafter
        have hd : isWordChar d = true := hrun d (by simp [htail])
        rw [(List.cons.inj hafter).1, hc] at hd
        cases hd
      rw [charsOf_cons, Segment.chars_other, List.singleton_append, piecesFrom_cons_of_not hstep,
        piecesOf]
      simpa using hrow

theorem pieces_eq_piecesOf {name : String} (hname : isIdentifier name = true)
    (text : List Char) :
    pieces name.toList (standsAlone name.toList) text = piecesOf name [] (segments text) := by
  have hcut : IsCut ([].reverse ++ segments text) := isCut_segments text
  have h := piecesFrom_charsOf hname hcut
  rwa [charsOf_segments] at h

/-! ### What the pieces read -/

theorem flatMap_text_piecesOf (reference : Reference) (name replacement : String)
    (before row : List Segment) :
    (piecesOf name before row).flatMap (Piece.text fun front =>
        if reference.admits front then replacement.toList else name.toList) =
      charsOf (rewriteFrom (reference.rule name replacement) before row) := by
  have hother : ∀ chars : List Char, (chars.map Piece.other).flatMap (Piece.text fun front =>
      if reference.admits front then replacement.toList else name.toList) = chars := by
    intro chars
    induction chars with
    | nil => rfl
    | cons c chars ih => simp [Piece.text, ih]
  induction row generalizing before with
  | nil => rfl
  | cons segment row ih =>
    cases segment with
    | other c => simp [piecesOf, rewriteFrom, Piece.text, ih]
    | word other =>
      rw [piecesOf, List.flatMap_append, ih, rewriteFrom, charsOf_cons, Segment.chars_word]
      congr 1
      by_cases heq : other = name
      · subst heq
        by_cases hadmits : reference.admits (charsBefore before) = true
        · simp [Piece.text, Reference.rule, hadmits]
        · simp [Piece.text, Reference.rule, hadmits]
      · rw [if_neg heq, hother]
        simp [Reference.rule, heq]

theorem any_isAdmitted_piecesOf (reference : Reference) (name : String)
    (before row : List Segment) :
    (piecesOf name before row).any (Piece.isAdmitted reference.admits) = true ↔
      ∃ left right, row = left ++ .word name :: right ∧
        reference.admits (charsBefore (left.reverse ++ before)) = true := by
  induction row generalizing before with
  | nil => simp [piecesOf]
  | cons segment row ih =>
    -- a word of a row is its first segment or stands in the rest
    have hhead : ((segment = .word name ∧ reference.admits (charsBefore before) = true) ∨
        ∃ left right, row = left ++ .word name :: right ∧
          reference.admits (charsBefore (left.reverse ++ segment :: before)) = true) ↔
        ∃ left right, segment :: row = left ++ .word name :: right ∧
          reference.admits (charsBefore (left.reverse ++ before)) = true := by
      constructor
      · rintro (⟨rfl, hadmits⟩ | ⟨left, right, rfl, hadmits⟩)
        · exact ⟨[], row, rfl, hadmits⟩
        · exact ⟨segment :: left, right, rfl, by simpa using hadmits⟩
      · rintro ⟨left, right, hrow, hadmits⟩
        cases left with
        | nil =>
          obtain ⟨rfl, rfl⟩ := List.cons.inj hrow
          exact .inl ⟨rfl, hadmits⟩
        | cons first left =>
          obtain ⟨rfl, rfl⟩ := List.cons.inj hrow
          exact .inr ⟨left, right, rfl, by simpa using hadmits⟩
    rw [← hhead, ← ih]
    cases segment with
    | other c => simp [piecesOf, Piece.isAdmitted]
    | word other =>
      by_cases heq : other = name
      · simp [piecesOf, heq, Piece.isAdmitted]
      · simp [piecesOf, heq, Piece.isAdmitted]

/-! ### References to a name -/

namespace Reference

variable {reference : Reference} {name replacement text : String}

/-- A name is referred to where it is a word of the text that the reference admits. -/
theorem occurs_iff (hname : isIdentifier name = true) :
    reference.occurs name text = true ↔
      ∃ before, HasWordAt text before name ∧ reference.admits (charsBefore before) = true := by
  rw [occurs, occursWithin, pieces_eq_piecesOf hname, any_isAdmitted_piecesOf]
  constructor
  · rintro ⟨left, right, hrow, hadmits⟩
    exact ⟨left.reverse, ⟨right, by simpa using hrow⟩, by simpa using hadmits⟩
  · rintro ⟨before, ⟨after, hrow⟩, hadmits⟩
    exact ⟨before.reverse, after, hrow, by simpa using hadmits⟩

theorem occurs_word (hname : isIdentifier name = true) (text : String) :
    word.occurs name text = hasWord text name := by
  rw [Bool.eq_iff_iff, occurs_iff hname, hasWord_iff]
  simp

/-- Replacing the references to a name rewrites word by word. -/
theorem substitute_eq_mapWords (hname : isIdentifier name = true) (replacement text : String) :
    reference.substitute name replacement text =
      mapWords (reference.rule name replacement) text := by
  rw [substitute, replaceWithin, pieces_eq_piecesOf hname, flatMap_text_piecesOf, mapWords]

theorem substitute_of_not_occurs (h : reference.occurs name text = false) :
    reference.substitute name replacement text = text := by
  rw [occurs, occursWithin, List.any_eq_false] at h
  rw [substitute, replaceWithin]
  have hpieces := flatMap_text_pieces name.toList (standsAlone name.toList) text.toList
  refine Eq.trans (congrArg String.ofList (Eq.trans ?_ hpieces)) String.ofList_toList
  rw [List.flatMap_def, List.flatMap_def]
  congr 1
  -- no occurrence is admitted, so that each piece reads as it did
  refine List.map_congr_left fun piece hpiece => ?_
  cases piece with
  | other c => rfl
  | occurrence before =>
    have hadmits : reference.admits before = false := by simpa [Piece.isAdmitted] using h _ hpiece
    simp [Piece.text, hadmits]

theorem not_occurs_qualified {qualifier : String} (h : bare.occurs name text = false) :
    (qualified qualifier).occurs name text = false := by
  rw [occurs, occursWithin, List.any_eq_false] at h ⊢
  intro piece hpiece
  cases piece with
  | other c => exact Bool.false_ne_true
  | occurrence before =>
    exact fun hadmits => h _ hpiece (admits_bare_of_qualified hadmits)

theorem keepsWords_rule (hreplacement : isIdentifier replacement = true) :
    KeepsWords (reference.rule name replacement) := by
  intro before word hword
  rw [rule]
  split
  · exact hreplacement
  · exact hword

theorem admits_bare_iff {before : List Char} :
    bare.admits before = true ↔ before.head? ≠ some '@' := by
  simp [admits]

theorem admits_qualified_eq_true {qualifier : String} {before : List Char} :
    (qualified qualifier).admits before = true ↔ IsQualifiedBy qualifier before := by
  constructor
  · intro h
    change followsQualifier qualifier.toList before = true at h
    unfold followsQualifier at h
    split at h
    · next rest =>
      rw [Bool.and_eq_true, List.isPrefixOf_iff_prefix, Bool.not_eq_true'] at h
      obtain ⟨⟨front, hfront⟩, hword⟩ := h
      refine ⟨front, by rw [hfront], ?_⟩
      rw [← hfront, ← List.length_reverse, List.drop_left] at hword
      exact hword
    · cases h
  · rintro ⟨front, rfl, hword⟩
    have hdrop : (qualifier.toList.reverse ++ front).drop qualifier.toList.length = front := by
      rw [← List.length_reverse, List.drop_left]
    simp only [admits, followsQualifier, hdrop]
    rw [Bool.and_eq_true, List.isPrefixOf_iff_prefix, Bool.not_eq_true']
    exact ⟨List.prefix_append _ _, hword⟩

end Reference

/-- No two identifiers qualify the same place. -/
theorem IsQualifiedBy.unique {qualifier qualifier' : String} {before : List Char}
    (hid : isIdentifier qualifier = true) (hid' : isIdentifier qualifier' = true)
    (h : IsQualifiedBy qualifier before) (h' : IsQualifiedBy qualifier' before) :
    qualifier = qualifier' := by
  obtain ⟨front, rfl, hfront⟩ := h
  obtain ⟨front', hsame, hfront'⟩ := h'
  have hrun : ∀ c ∈ qualifier.toList.reverse, isWordChar c = true := by
    simpa using (isIdentifier_iff.1 hid).2
  have hrun' : ∀ c ∈ qualifier'.toList.reverse, isWordChar c = true := by
    simpa using (isIdentifier_iff.1 hid').2
  have hreverse := (run_append_inj hrun hrun' hfront hfront' (List.cons.inj hsame).2).1
  exact String.toList_inj.1 (List.reverse_inj.1 hreverse)

namespace Reference

/-- An identifier qualifies a word if it is itself the word in front of the dot. -/
theorem admits_qualified_iff {qualifier : String} {before : List Segment}
    (hqualifier : isIdentifier qualifier = true) (hcut : IsCut before) :
    (qualified qualifier).admits (charsBefore before) = true ↔
      ∃ rest, before = .other '.' :: .word qualifier :: rest := by
  obtain ⟨hne, hrun⟩ := isIdentifier_iff.1 hqualifier
  have hrun' : ∀ c ∈ qualifier.toList.reverse, isWordChar c = true := by simpa using hrun
  rw [admits_qualified_eq_true]
  constructor
  · rintro ⟨front, hbefore, hfront⟩
    -- the dot is no word character, so it is a segment of its own
    obtain ⟨rest, rfl⟩ : ∃ rest, before = .other '.' :: rest := by
      match before, hcut with
      | [], _ => simp at hbefore
      | .other c :: rest, _ =>
        rw [charsBefore_cons, Segment.chars_other] at hbefore
        obtain rfl := (List.cons.inj hbefore).1
        exact ⟨rest, rfl⟩
      | .word name :: rest, hcut =>
        have hstart := hcut.startsInWord_word
        rw [hbefore] at hstart
        cases hstart
    replace hbefore : charsBefore rest = qualifier.toList.reverse ++ front := by
      simpa using hbefore
    have hstart : startsInWord (charsBefore rest) = true := by
      rw [hbefore, startsInWord_run (by simpa using hne) hrun']
    match rest, hcut.tail with
    | [], _ => cases hstart
    | .other c :: rest, hcut =>
      rw [charsBefore_cons, Segment.chars_other] at hstart
      simp [hcut.isWordChar_other] at hstart
    | .word name :: rest, hcut =>
      have hname := (isIdentifier_iff.1 hcut.isIdentifier_word).2
      have hsame := (run_append_inj (by simpa using hname) hrun' hcut.startsInWord_charsBefore
        hfront hbefore).1
      obtain rfl : name = qualifier := String.toList_inj.1 (List.reverse_inj.1 hsame)
      exact ⟨rest, rfl⟩
  · rintro ⟨rest, rfl⟩
    exact ⟨charsBefore rest, by simp, hcut.tail.startsInWord_charsBefore⟩

end Reference

/-! ### References in texts that differ in words only -/

namespace Aligned

variable {Q : String → String → Prop} {before before' : List Segment} {name name' : String}

theorem head?_charsBefore (h : Aligned Q before before' name name') :
    (charsBefore before').head? = (charsBefore before).head? := by
  obtain ⟨hcut, hcut', hrel⟩ := h
  cases hrel with
  | nil => rfl
  | cons hsegment _ =>
    cases hsegment with
    | other c => rfl
    | word _ =>
      obtain hnil | ⟨c, rest, hcons, -⟩ := hcut.word_eq
      · cases hnil
      · cases hcons

theorem admits_bare (h : Aligned Q before before' name name') :
    Reference.bare.admits (charsBefore before') = Reference.bare.admits (charsBefore before) := by
  rw [Reference.admits, Reference.admits, h.head?_charsBefore]

/-- A qualifier that words neither lose nor become qualifies a word if it qualifies the
counterpart. -/
theorem admits_qualified {qualifier : String} (h : Aligned Q before before' name name')
    (hqualifier : isIdentifier qualifier = true)
    (hQ : ∀ w w', Q w w' → (w' = qualifier ↔ w = qualifier)) :
    (Reference.qualified qualifier).admits (charsBefore before') =
      (Reference.qualified qualifier).admits (charsBefore before) := by
  rw [Bool.eq_iff_iff, Reference.admits_qualified_iff hqualifier h.cut'.tail,
    Reference.admits_qualified_iff hqualifier h.cut.tail]
  constructor
  · rintro ⟨rest', rfl⟩
    obtain ⟨_, _, hdot, hrest, rfl⟩ := List.forall₂_cons_right_iff.1 h.rel
    obtain ⟨_, rest, hword, -, rfl⟩ := List.forall₂_cons_right_iff.1 hrest
    cases hdot
    cases hword with
    | word hname =>
      obtain rfl := (hQ _ _ hname).1 rfl
      exact ⟨rest, rfl⟩
  · rintro ⟨rest, rfl⟩
    have hrel := h.rel
    cases hrel with
    | cons hdot hrest =>
      cases hdot
      cases hrest with
      | @cons _ _ _ rest' hword _ =>
        cases hword with
        | word hname =>
          obtain rfl := (hQ _ _ hname).2 rfl
          exact ⟨rest', rfl⟩

end Aligned

namespace Reference

/-- A word that no parameter is and that is left after a replacement was there before, and is none
of the references that were replaced. -/
theorem exists_of_occurs_bare_substitute {reference : Reference}
    {name replacement other text : String} (hname : isIdentifier name = true)
    (hreplacement : isIdentifier replacement = true) (hother : isIdentifier other = true)
    (hne : replacement ≠ other)
    (h : bare.occurs other (reference.substitute name replacement text) = true) :
    ∃ before, HasWordAt text before other ∧ bare.admits (charsBefore before) = true ∧
      ¬(other = name ∧ reference.admits (charsBefore before) = true) := by
  obtain ⟨before', hplace, hadmits⟩ := (occurs_iff hother).1 h
  rw [substitute_eq_mapWords hname] at hplace
  obtain ⟨before, word, hat, hword, halign⟩ :=
    (wordwise_mapWords (keepsWords_rule hreplacement) text).exists_left
      (Q := fun _ _ => True) (fun _ _ _ _ => trivial) hplace
  rw [rule] at hword
  split at hword
  · exact absurd hword.symm hne
  · next hnot =>
    subst hword
    refine ⟨before, hat, ?_, hnot⟩
    rwa [halign.admits_bare] at hadmits

end Reference


/-- Replacing the references to a name in the second of two texts that differ in words only. -/
theorem Wordwise.substitute {P P' : List Segment → String → String → Prop}
    {Q : String → String → Prop} {reference : Reference} {name replacement text text' : String}
    (hname : isIdentifier name = true) (hreplacement : isIdentifier replacement = true)
    (hPQ : ∀ b w w', P b w w' → Q w w')
    (hkept : ∀ {b b' w w'}, Aligned Q b b' w w' →
      ¬(w' = name ∧ reference.admits (charsBefore b') = true) → P b w w' → P' b w w')
    (hreplaced : ∀ {b b' w}, Aligned Q b b' w name → reference.admits (charsBefore b') = true →
      P b w name → P' b w replacement)
    (h : Wordwise P text text') :
    Wordwise P' text (reference.substitute name replacement text') := by
  rw [Reference.substitute_eq_mapWords hname]
  refine h.map hPQ (Reference.keepsWords_rule hreplacement) ?_
  intro b b' w w' halign hP
  rw [Reference.rule]
  split
  · next hcond =>
    obtain ⟨rfl, hadmits⟩ := hcond
    exact hreplaced halign hadmits hP
  · next hcond => exact hkept halign hcond hP

end Codename.Text
