import Codename.Proofs.Text.Replacement

/-!
# Matches of any string

What is looked for need not be an identifier. A string matches where it occurs with a boundary at
each of its ends; the empty string matches at every boundary. A search finds the leftmost match and
goes on behind it, so matches that overlap an earlier one are not found, and whether a match is
accepted is asked of the found ones only. To replace is to cut the text at the accepted matches.

## Main definitions

* `MatchesAt` — the string stands at a position, between two boundaries.
* `Finds` — what a search from a position on finds.
* `gaps`, `seams` — the parts of a text between accepted matches, and where they end.
* `Splits` — a text that is cut where the accepted matches are.

## Main statements

* `finds_pieces`, `Finds.unique` — the pieces of a text are cut at what the search finds.
* `seams_gaps` — the text is cut where the accepted matches are.
* `Reference.substitute_matches` — predicate and replacement look at the same matches.
-/

namespace Codename.Text

/-- Whether a boundary is at a position of a text. -/
def boundaryAt (text : List Char) (position : Nat) : Bool :=
  isBoundary (text.take position).getLast? (text.drop position).head?

/-- The string stands at a position of the text, between two boundaries. -/
structure MatchesAt (string text : List Char) (start : Nat) : Prop where
  occurs : ∃ before after, text = before ++ string ++ after ∧ before.length = start
  boundary_start : boundaryAt text start = true
  boundary_end : boundaryAt text (start + string.length) = true

/-- What a search from a position on finds: the leftmost match, and what a search from behind it
finds. An empty match is passed by one character. -/
inductive Finds (string text : List Char) : Nat → List Nat → Prop
  | nothing {position : Nat} (hnone : ∀ start, position ≤ start → ¬MatchesAt string text start) :
      Finds string text position []
  | next {position start : Nat} {starts : List Nat} (hle : position ≤ start)
      (hmatch : MatchesAt string text start)
      (hfirst : ∀ i, position ≤ i → i < start → ¬MatchesAt string text i)
      (hrest : Finds string text (start + max 1 string.length) starts) :
      Finds string text position (start :: starts)

/-- The position of an occurrence. -/
def Piece.start? : Piece → Option Nat
  | .other _ => none
  | .occurrence before => some before.length

/-- The parts of a text between the occurrences that are accepted. All others are left in them. -/
def gaps (string : List Char) (admits : List Char → Bool) : List Piece → List (List Char)
  | [] => [[]]
  | piece :: pieces =>
    if piece.isAdmitted admits then [] :: gaps string admits pieces
    else (gaps string admits pieces).modifyHead (piece.text (fun _ => string) ++ ·)

/-- Each occurrence among the pieces of a text, of which `before` was passed already, remembers the
text in front of it. -/
inductive Cuts (string : List Char) : List Char → List Piece → Prop
  | nil (before : List Char) : Cuts string before []
  | other {before : List Char} {c : Char} {pieces : List Piece}
      (hrest : Cuts string (c :: before) pieces) : Cuts string before (.other c :: pieces)
  | occurrence {before : List Char} {pieces : List Piece}
      (hrest : Cuts string (string.reverse ++ before) pieces) :
      Cuts string before (.occurrence before :: pieces)

/-- Where strings of a width stand between the parts of a text that begins at a position. -/
def seams (width : Nat) : Nat → List (List Char) → List Nat
  | position, gap :: next :: gaps =>
    (position + gap.length) :: seams width (position + gap.length + width) (next :: gaps)
  | _, _ => []

variable {string text before rest : List Char} {position start : Nat} {starts : List Nat}

/-! ### Matches -/

theorem MatchesAt.add_length_le (h : MatchesAt string text start) :
    start + string.length ≤ text.length := by
  obtain ⟨⟨before, after, rfl, rfl⟩, -, -⟩ := h
  simp

/-- Behind a text that is read backwards, a match is an occurrence that stands alone. -/
theorem matchesAt_append_iff :
    MatchesAt string (before.reverse ++ rest) before.length ↔
      string <+: rest ∧ standsAlone string before (rest.drop string.length) = true := by
  have htake : (before.reverse ++ rest).take before.length = before.reverse :=
    List.take_left' List.length_reverse
  have hdrop : (before.reverse ++ rest).drop before.length = rest :=
    List.drop_left' List.length_reverse
  have hends : ∀ after, rest = string ++ after →
      (boundaryAt (before.reverse ++ rest) before.length = true ∧
          boundaryAt (before.reverse ++ rest) (before.length + string.length) = true ↔
        standsAlone string before (rest.drop string.length) = true) := by
    rintro after rfl
    have hlast : (before.reverse ++ (string ++ after)).take (before.length + string.length) =
        (string.reverse ++ before).reverse := by
      rw [← List.append_assoc]
      exact (List.take_left' (by simp)).trans (by simp)
    have hafter : (before.reverse ++ (string ++ after)).drop (before.length + string.length) =
        after := by
      rw [← List.append_assoc]
      exact List.drop_left' (by simp)
    rw [boundaryAt, boundaryAt, htake, hdrop, hlast, hafter, List.getLast?_reverse,
      List.getLast?_reverse, List.drop_left, standsAlone, Bool.and_eq_true]
  constructor
  · rintro ⟨⟨front, after, htext, hlength⟩, hstart, hend⟩
    rw [List.append_assoc] at htext
    have hrest := (List.append_inj htext (by simp [hlength])).2
    exact ⟨⟨after, hrest.symm⟩, (hends after hrest).1 ⟨hstart, hend⟩⟩
  · rintro ⟨⟨after, hafter⟩, hstands⟩
    obtain ⟨hstart, hend⟩ := (hends after hafter.symm).2 hstands
    exact ⟨⟨before.reverse, after, by simp [hafter], by simp⟩, hstart, hend⟩

/-! ### The search -/

namespace Finds

theorem unique {others : List Nat} (h : Finds string text position starts)
    (h' : Finds string text position others) : others = starts := by
  induction h generalizing others with
  | nothing hnone =>
    cases h' with
    | nothing _ => rfl
    | next hle hmatch _ _ => exact absurd hmatch (hnone _ hle)
  | @next position start starts hle hmatch hfirst _ ih =>
    cases h' with
    | nothing hnone => exact absurd hmatch (hnone _ hle)
    | @next _ other others hle' hmatch' hfirst' hrest' =>
      obtain rfl : other = start := by
        rcases Nat.lt_trichotomy other start with hlt | heq | hlt
        · exact absurd hmatch' (hfirst _ hle' hlt)
        · exact heq
        · exact absurd hmatch (hfirst' _ hle hlt)
      rw [ih hrest']

theorem matchesAt (h : Finds string text position starts) (hmem : start ∈ starts) :
    MatchesAt string text start := by
  induction h with
  | nothing _ => cases hmem
  | next _ hmatch _ _ ih =>
    rcases List.mem_cons.1 hmem with rfl | hmem
    · exact hmatch
    · exact ih hmem

/-- A position at which nothing matches can be passed. -/
theorem of_succ (hnone : ¬MatchesAt string text position)
    (h : Finds string text (position + 1) starts) : Finds string text position starts := by
  have hlater : ∀ {i}, position ≤ i → MatchesAt string text i → position + 1 ≤ i := by
    intro i hle hmatch
    rcases Nat.eq_or_lt_of_le hle with rfl | hlt
    · exact absurd hmatch hnone
    · exact hlt
  cases h with
  | nothing hnone' => exact .nothing fun i hle hmatch => hnone' i (hlater hle hmatch) hmatch
  | next hle hmatch hfirst hrest =>
    exact .next (Nat.le_of_succ_le hle) hmatch
      (fun i hi hlt hmatch' => hfirst i (hlater hi hmatch') hlt hmatch') hrest

theorem of_match (hmatch : MatchesAt string text position)
    (h : Finds string text (position + max 1 string.length) starts) :
    Finds string text position (position :: starts) :=
  .next (Nat.le_refl _) hmatch (fun _ hle hlt => absurd hlt (Nat.not_lt.2 hle)) h

theorem nothing_of_length_lt (h : text.length < position) : Finds string text position [] := by
  refine .nothing fun start hle hmatch => ?_
  have hlength := hmatch.add_length_le
  omega

end Finds

theorem piecesFrom_nil_of_stands {stands : List Char → List Char → Bool} {c : Char}
    (h : stands before (c :: rest) = true) :
    piecesFrom [] stands 0 before (c :: rest) =
      .occurrence before :: .other c :: piecesFrom [] stands 0 (c :: before) rest := by
  conv_lhs => unfold piecesFrom
  rw [if_pos (by simpa using h)]

/-- The pieces of a text are cut at what the search finds. -/
theorem finds_piecesFrom (string before rest : List Char) :
    Finds string (before.reverse ++ rest) before.length
      ((piecesFrom string (standsAlone string) 0 before rest).filterMap Piece.start?) := by
  induction hlength : rest.length using Nat.strongRecOn generalizing before rest with
  | ind n ih =>
    cases rest with
    | nil =>
      have hend : (before.reverse ++ []).length < before.length + 1 := by simp
      by_cases hmatch : MatchesAt string (before.reverse ++ []) before.length
      · obtain ⟨hstring, hstands⟩ := matchesAt_append_iff.1 hmatch
        obtain rfl := List.prefix_nil.1 hstring
        rw [piecesFrom, if_pos (by simpa using hstands)]
        exact .of_match hmatch (.nothing_of_length_lt hend)
      · have hnone : ¬(string.isEmpty && standsAlone string before []) = true := by
          intro h
          rw [Bool.and_eq_true, List.isEmpty_iff] at h
          obtain ⟨rfl, hstands⟩ := h
          exact hmatch (matchesAt_append_iff.2 ⟨List.nil_prefix, hstands⟩)
        rw [piecesFrom, if_neg hnone]
        exact .of_succ hmatch (.nothing_of_length_lt hend)
    | cons c rest =>
      rw [List.length_cons] at hlength
      have hpass := ih rest.length (by omega) (c :: before) rest rfl
      rw [List.reverse_cons, List.append_assoc, List.singleton_append, List.length_cons] at hpass
      by_cases hmatch : MatchesAt string (before.reverse ++ c :: rest) before.length
      · obtain ⟨⟨after, hafter⟩, hstands⟩ := matchesAt_append_iff.1 hmatch
        cases string with
        | nil =>
          rw [piecesFrom_nil_of_stands hstands]
          exact .of_match hmatch hpass
        | cons d tail =>
          obtain ⟨rfl, rfl⟩ : d = c ∧ tail ++ after = rest := by simpa using hafter
          have hskip := ih after.length (by simp at hlength; omega) (tail.reverse ++ d :: before)
            after rfl
          rw [piecesFrom_self (by simpa using hstands)]
          refine .of_match hmatch ?_
          simpa [Nat.add_comm, Nat.add_left_comm] using hskip
      · rw [piecesFrom_cons_of_not (mt matchesAt_append_iff.2 hmatch)]
        exact .of_succ hmatch hpass

theorem finds_pieces (string text : List Char) :
    Finds string text 0 ((pieces string (standsAlone string) text).filterMap Piece.start?) :=
  finds_piecesFrom string [] text

/-! ### The cut -/

theorem cuts_piecesFrom (string : List Char) (stands : List Char → List Char → Bool) (skip : Nat)
    (before rest : List Char) :
    Cuts string ((rest.take skip).reverse ++ before)
      (piecesFrom string stands skip before rest) := by
  induction rest generalizing skip before with
  | nil =>
    rw [List.take_nil, List.reverse_nil, List.nil_append]
    cases skip <;> (rw [piecesFrom]; split; exacts [.occurrence (.nil _), .nil _])
  | cons c rest ih =>
    cases skip with
    | succ skip =>
      have hrest := ih skip (c :: before)
      rw [piecesFrom]
      simpa using hrest
    | zero =>
      have hpass := ih 0 (c :: before)
      rw [List.take_zero, List.reverse_nil, List.nil_append] at hpass ⊢
      unfold piecesFrom
      split
      · next h =>
        cases string with
        | nil => exact .occurrence (.other hpass)
        | cons d tail =>
          obtain ⟨after, hafter⟩ : d :: tail <+: c :: rest := by
            simpa using (Bool.and_eq_true_iff.1 h).1
          obtain ⟨rfl, rfl⟩ : d = c ∧ tail ++ after = rest := by simpa using hafter
          have hskip := ih tail.length (d :: before)
          rw [List.take_left] at hskip
          exact .occurrence (by simpa using hskip)
      · exact .other hpass

theorem cuts_pieces (string : List Char) (stands : List Char → List Char → Bool)
    (text : List Char) : Cuts string [] (pieces string stands text) :=
  cuts_piecesFrom string stands 0 [] text

section Gaps

variable {admits : List Char → Bool} {pieces : List Piece}

theorem intercalate_modifyHead (separator front : List Char) {parts : List (List Char)}
    (h : parts ≠ []) :
    separator.intercalate (parts.modifyHead (front ++ ·)) =
      front ++ separator.intercalate parts := by
  match parts, h with
  | [part], _ => simp
  | part :: next :: parts, _ => simp

theorem seams_modifyHead (width position : Nat) (front : List Char) (parts : List (List Char)) :
    seams width position (parts.modifyHead (front ++ ·)) =
      seams width (position + front.length) parts := by
  match parts with
  | [] => rfl
  | [part] => rfl
  | part :: next :: parts => simp [seams, Nat.add_assoc]

theorem seams_cons_of_ne_nil (width position : Nat) (gap : List Char) {parts : List (List Char)}
    (h : parts ≠ []) :
    seams width position (gap :: parts) =
      (position + gap.length) :: seams width (position + gap.length + width) parts := by
  obtain ⟨next, parts, rfl⟩ := List.exists_cons_of_ne_nil h
  rfl

theorem gaps_ne_nil : gaps string admits pieces ≠ [] := by
  induction pieces with
  | nil => simp [gaps]
  | cons piece pieces ih =>
    rw [gaps]
    split
    · simp
    · rwa [ne_eq, List.modifyHead_eq_nil_iff]

theorem length_seams {parts : List (List Char)} (h : parts ≠ []) :
    (seams string.length position parts).length + 1 = parts.length := by
  induction parts generalizing position with
  | nil => exact absurd rfl h
  | cons part parts ih =>
    by_cases hparts : parts = []
    · subst hparts
      rfl
    · rw [seams_cons_of_ne_nil _ _ _ hparts, List.length_cons, List.length_cons, ih hparts]

/-- The parts with the replacement between them are what replacing gives. -/
theorem intercalate_gaps (replacement : List Char) :
    replacement.intercalate (gaps string admits pieces) =
      pieces.flatMap (Piece.text fun before => if admits before then replacement else string) := by
  induction pieces with
  | nil => rfl
  | cons piece pieces ih =>
    rw [gaps, List.flatMap_cons, ← ih]
    cases piece with
    | other c => exact intercalate_modifyHead replacement [c] gaps_ne_nil
    | occurrence before =>
      by_cases hadmits : admits before = true
      · have hpiece : (Piece.occurrence before).isAdmitted admits = true := hadmits
        rw [if_pos hpiece, List.intercalate_cons_of_ne_nil gaps_ne_nil, List.nil_append,
          Piece.text, if_pos hadmits]
      · have hpiece : ¬(Piece.occurrence before).isAdmitted admits = true := hadmits
        rw [if_neg hpiece, intercalate_modifyHead _ _ gaps_ne_nil, Piece.text, Piece.text,
          if_neg hadmits]

/-- The text is cut where the accepted matches are. -/
theorem seams_gaps (admits : List Char → Bool) (h : Cuts string before pieces) :
    seams string.length before.length (gaps string admits pieces) =
      (pieces.filter (Piece.isAdmitted admits)).filterMap Piece.start? := by
  induction h with
  | nil before => rfl
  | @other before c pieces _ ih =>
    rw [gaps, if_neg (by simp [Piece.isAdmitted]), seams_modifyHead,
      List.filter_cons_of_neg (by simp [Piece.isAdmitted]), ← ih]
    rfl
  | @occurrence before pieces _ ih =>
    rw [List.length_append, List.length_reverse, Nat.add_comm] at ih
    by_cases hadmits : (Piece.occurrence before).isAdmitted admits = true
    · rw [gaps, if_pos hadmits, seams_cons_of_ne_nil _ _ _ gaps_ne_nil,
        List.filter_cons_of_pos hadmits]
      simpa [Piece.start?] using ih
    · rw [gaps, if_neg hadmits, seams_modifyHead, List.filter_cons_of_neg hadmits]
      exact ih

/-- Each occurrence has in front of it what is written there in the text. -/
theorem Cuts.reverse_eq_take {front : List Char} (h : Cuts string before pieces)
    (hmem : .occurrence front ∈ pieces) :
    front.reverse =
      (before.reverse ++ pieces.flatMap (Piece.text fun _ => string)).take front.length := by
  induction h with
  | nil before => cases hmem
  | @other before c pieces _ ih =>
    obtain hhead | hmem := List.mem_cons.1 hmem
    · cases hhead
    · rw [ih hmem, List.flatMap_cons]
      simp [Piece.text]
  | @occurrence before pieces _ ih =>
    obtain hhead | hmem := List.mem_cons.1 hmem
    · cases hhead
      exact (List.take_left' List.length_reverse).symm
    · rw [ih hmem, List.flatMap_cons]
      simp [Piece.text]

end Gaps

/-! ### Texts of parts -/

theorem length_intercalate_cons (separator part : List Char) (parts : List (List Char)) :
    (separator.intercalate (part :: parts)).length =
      (part :: parts).flatten.length + parts.length * separator.length := by
  induction parts generalizing part with
  | nil => simp
  | cons next parts ih =>
    rw [List.intercalate_cons_cons, List.length_append, List.length_append, ih]
    simp only [List.flatten_cons, List.length_append, List.length_cons, Nat.succ_mul]
    omega

/-- Two or more parts with another string between them are another text. -/
theorem intercalate_inj {separator other : List Char} {parts : List (List Char)}
    (hparts : 1 < parts.length) (h : separator.intercalate parts = other.intercalate parts) :
    separator = other := by
  match parts, hparts with
  | part :: next :: parts, _ =>
    have hlength : separator.length = other.length := by
      have hsame := congrArg List.length h
      rw [length_intercalate_cons, length_intercalate_cons, Nat.add_left_cancel_iff] at hsame
      exact Nat.eq_of_mul_eq_mul_left (by simp) hsame
    rw [List.intercalate_cons_cons, List.intercalate_cons_cons, List.append_assoc,
      List.append_assoc, List.append_cancel_left_eq] at h
    exact (List.append_inj h hlength).1

/-! ### References to any string -/

/-- A text that is cut where the accepted matches of a string are. -/
structure Splits (string text : List Char) (accepted : List Nat) (parts : List (List Char)) :
    Prop where
  text_eq : text = string.intercalate parts
  length_parts : parts.length = accepted.length + 1
  seams_parts : seams string.length 0 parts = accepted
  matchesAt : ∀ start ∈ accepted, MatchesAt string text start

namespace Reference

/-- The matches that are such references, of those at the given positions. -/
def accepted (reference : Reference) (text : List Char) (starts : List Nat) : List Nat :=
  starts.filter fun start => reference.StandsBehind (text.take start)

variable {reference : Reference}

/-- What a reference asks of an occurrence is asked of the text in front of its position. -/
theorem accepted_filterMap_start? {pieces : List Piece}
    (h : ∀ front, .occurrence front ∈ pieces → front.reverse = text.take front.length) :
    reference.accepted text (pieces.filterMap Piece.start?) =
      (pieces.filter (Piece.isAdmitted reference.admits)).filterMap Piece.start? := by
  induction pieces with
  | nil => rfl
  | cons piece pieces ih =>
    have hpieces := ih fun front hmem => h front (List.mem_cons_of_mem _ hmem)
    cases piece with
    | other c => exact hpieces
    | occurrence front =>
      have hfront : reference.StandsBehind (text.take front.length) ↔
          (Piece.occurrence front).isAdmitted reference.admits = true := by
        rw [← h front List.mem_cons_self, ← admits_reverse, List.reverse_reverse]
        rfl
      by_cases hadmits : (Piece.occurrence front).isAdmitted reference.admits = true
      · rw [List.filter_cons_of_pos hadmits]
        simpa [accepted, Piece.start?, hfront.2 hadmits] using hpieces
      · rw [List.filter_cons_of_neg hadmits]
        simpa [accepted, Piece.start?, mt hfront.1 hadmits] using hpieces

theorem exists_splits (reference : Reference) {string text : String} {starts : List Nat}
    (hstarts : Finds string.toList text.toList 0 starts) :
    ∃ parts, Splits string.toList text.toList (reference.accepted text.toList starts) parts ∧
      (∀ replacement, (reference.substitute string replacement text).toList =
        replacement.toList.intercalate parts) ∧
      (reference.occurs string text = false ↔ reference.accepted text.toList starts = []) := by
  have hcuts := cuts_pieces string.toList (standsAlone string.toList) text.toList
  have htext := flatMap_text_pieces string.toList (standsAlone string.toList) text.toList
  have hfound := hstarts.unique (finds_pieces string.toList text.toList)
  simp only [substitute, replaceWithin, occurs, occursWithin]
  generalize pieces string.toList (standsAlone string.toList) text.toList = row at *
  have haccepted : reference.accepted text.toList starts =
      (row.filter (Piece.isAdmitted reference.admits)).filterMap Piece.start? := by
    rw [← hfound]
    refine accepted_filterMap_start? fun front hmem => ?_
    rw [hcuts.reverse_eq_take hmem, List.reverse_nil, List.nil_append, htext]
  have hseams := seams_gaps reference.admits hcuts
  rw [List.length_nil, ← haccepted] at hseams
  refine ⟨gaps string.toList reference.admits row, ?_, ?_, ?_⟩
  · constructor
    · rw [intercalate_gaps]
      simpa using htext.symm
    · rw [← hseams, length_seams gaps_ne_nil]
    · exact hseams
    · intro start hmem
      exact hstarts.matchesAt (List.mem_filter.1 hmem).1
  · intro replacement
    rw [String.toList_ofList, intercalate_gaps]
  · rw [haccepted, List.any_eq_false, List.filterMap_eq_nil_iff]
    constructor
    · intro hnone piece hmem
      obtain ⟨hpiece, hadmits⟩ := List.mem_filter.1 hmem
      exact absurd hadmits (hnone piece hpiece)
    · intro hnone piece hpiece hadmits
      have hstart := hnone piece (List.mem_filter.2 ⟨hpiece, hadmits⟩)
      cases piece with
      | other c => cases hadmits
      | occurrence front => cases hstart

theorem occurs_word_of_occurs_bare {string text : String} (h : bare.occurs string text = true) :
    word.occurs string text = true := by
  rw [occurs, occursWithin, List.any_eq_true] at h ⊢
  obtain ⟨piece, hpiece, hadmits⟩ := h
  refine ⟨piece, hpiece, ?_⟩
  cases piece with
  | other c => cases hadmits
  | occurrence front => rfl

/-- One search finds the matches of a string in a text, and all kinds of references accept some of
them. The text is the parts between the accepted matches with the string itself between them, and
replacing puts the replacement there instead. There is such a reference if a match is accepted; so
the string as its own replacement changes nothing, and any other replacement changes the text just
when there is a reference. -/
theorem substitute_matches (string text : String) :
    (∃ starts, Finds string.toList text.toList 0 starts ∧
      (∀ others, Finds string.toList text.toList 0 others → others = starts) ∧
      ∀ reference : Reference, ∃ parts,
        Splits string.toList text.toList (reference.accepted text.toList starts) parts ∧
        (∀ replacement, (reference.substitute string replacement text).toList =
          replacement.toList.intercalate parts) ∧
        (reference.occurs string text = false ↔
          (reference.accepted text.toList starts).length = 0)) ∧
      (∀ reference : Reference, reference.substitute string string text = text ∧
        ∀ replacement, replacement ≠ string →
          (reference.substitute string replacement text ≠ text ↔
            reference.occurs string text = true)) ∧
      (∀ qualifier, (qualified qualifier).occurs string text = true →
        bare.occurs string text = true) ∧
      (bare.occurs string text = true → word.occurs string text = true) := by
  have hstarts := finds_pieces string.toList text.toList
  generalize (pieces string.toList (standsAlone string.toList) text.toList).filterMap Piece.start? =
    starts at hstarts
  refine ⟨⟨starts, hstarts, fun others => hstarts.unique, fun reference => ?_⟩,
    fun reference => ?_, fun qualifier => ?_, occurs_word_of_occurs_bare⟩
  · obtain ⟨parts, hsplits, hsubstitute, hoccurs⟩ := reference.exists_splits hstarts
    exact ⟨parts, hsplits, hsubstitute, by rwa [List.length_eq_zero_iff]⟩
  · obtain ⟨parts, hsplits, hsubstitute, hoccurs⟩ := reference.exists_splits hstarts
    have hsame : reference.substitute string string text = text := by
      rw [← String.toList_inj, hsubstitute]
      exact hsplits.text_eq.symm
    refine ⟨hsame, fun replacement hne => ⟨fun hchanged => ?_, fun hsome hkept => ?_⟩⟩
    · rw [← Bool.not_eq_false]
      exact fun hnone => hchanged (substitute_of_not_occurs hnone)
    · -- a match is accepted, so that the parts are at least two
      have hparts : 1 < parts.length := by
        rw [hsplits.length_parts]
        have haccepted : reference.accepted text.toList starts ≠ [] :=
          mt hoccurs.2 (by simp [hsome])
        have hpos := List.length_pos_iff.2 haccepted
        omega
      have hinj := hsubstitute replacement
      rw [hkept, hsplits.text_eq] at hinj
      exact hne (String.toList_inj.1 (intercalate_inj hparts hinj).symm)
  · intro h
    cases hbare : bare.occurs string text with
    | true => rfl
    | false =>
      rw [not_occurs_qualified hbare] at h
      exact h

/-- The second of three overlapping occurrences is passed over, and the empty string matches at
every boundary. -/
example : word.substitute "a.a" "x" "a.a.a.a" = "x.x" ∧
    word.substitute "" "|" "ab, é c" = "|ab|, é |c|" := by decide +kernel

end Reference

end Codename.Text
