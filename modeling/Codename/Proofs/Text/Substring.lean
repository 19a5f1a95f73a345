import Codename.Proofs.Text.Wordwise
import Codename.Text.Reference

/-!
# Replacing a string inside of words

A string is replaced wherever it occurs, leftmost first and without overlap. An identifier occurs in
words only, and no occurrence reaches from one word into another, so that the words of a text are
rewritten one by one. A text in which the string occurs gets longer if the replacement is longer
than the string.

## Main definitions

* `Rewrites` — a text and what replacing a string makes of it.

## Main statements

* `Rewrites.unique`, `rewrites_replaceSubstring` — replacing a string follows these rules and no
  others do.
* `replaceSubstring_eq_mapWords` — an identifier is replaced in each word on its own.
* `Rewrites.eq_iff` — a text in which the string does not occur is left as it is, and no other is.
-/

namespace Codename.Text

open Codename.Mapping (isIdentifier)

/-- What replacing a string makes of a text: an occurrence at the front is replaced, and a character
at which none begins is kept. -/
inductive Rewrites (string replacement : List Char) : List Char → List Char → Prop
  | nil : Rewrites string replacement [] []
  | occurrence {rest rest' : List Char} (hrest : Rewrites string replacement rest rest') :
      Rewrites string replacement (string ++ rest) (replacement ++ rest')
  | other {c : Char} {rest rest' : List Char} (hnone : ¬string <+: c :: rest)
      (hrest : Rewrites string replacement rest rest') :
      Rewrites string replacement (c :: rest) (c :: rest')

variable {string replacement text text' : List Char}

/-! ### One result for each text -/

theorem Rewrites.unique {other : List Char} (hstring : string ≠ [])
    (h : Rewrites string replacement text text') (h' : Rewrites string replacement text other) :
    text' = other := by
  induction h generalizing other with
  | nil =>
    generalize hnil : [] = text at h'
    cases h' with
    | nil => rfl
    | occurrence _ => exact absurd (List.append_eq_nil_iff.1 hnil.symm).1 hstring
    | other _ _ => cases hnil
  | @occurrence rest rest' _ ih =>
    generalize hfront : string ++ rest = text at h'
    cases h' with
    | nil => exact absurd (List.append_eq_nil_iff.1 hfront).1 hstring
    | occurrence hrest =>
      obtain rfl := List.append_cancel_left hfront
      rw [ih hrest]
    | other hnone _ => exact absurd ⟨rest, hfront⟩ hnone
  | @other c rest rest' hnone _ ih =>
    generalize hfront : c :: rest = text at h'
    cases h' with
    | nil => cases hfront
    | occurrence _ => exact absurd ⟨_, hfront.symm⟩ hnone
    | other _ hrest =>
      cases hfront
      rw [ih hrest]

/-- The search from a position on, where some characters are still to be passed over. -/
theorem rewrites_piecesFrom (hstring : string ≠ []) (replacement : List Char) (skip : Nat)
    (before rest : List Char) :
    Rewrites string replacement (rest.drop skip)
      ((piecesFrom string (fun _ _ => true) skip before rest).flatMap
        (Piece.text fun _ => replacement)) := by
  induction rest generalizing skip before with
  | nil => simpa [piecesFrom, hstring] using Rewrites.nil
  | cons c rest ih =>
    cases skip with
    | succ skip => exact ih skip (c :: before)
    | zero =>
      obtain ⟨d, tail, rfl⟩ := List.exists_cons_of_ne_nil hstring
      unfold piecesFrom
      split
      · next h =>
        rw [Bool.and_true, List.isPrefixOf_iff_prefix] at h
        obtain ⟨after, hafter⟩ := h
        obtain ⟨rfl, rfl⟩ : d = c ∧ tail ++ after = rest := by simpa using hafter
        have hrest := ih tail.length (d :: before)
        rw [List.drop_left] at hrest
        exact .occurrence hrest
      · next h =>
        rw [Bool.and_true, List.isPrefixOf_iff_prefix] at h
        exact .other h (ih 0 (c :: before))

theorem rewrites_replaceSubstring {string : String} (hstring : string.toList ≠ [])
    (replacement text : String) :
    Rewrites string.toList replacement.toList text.toList
      (replaceSubstring string replacement text).toList := by
  have hpieces := rewrites_piecesFrom hstring replacement.toList 0 [] text.toList
  rw [replaceSubstring, String.toList_ofList]
  simpa [replaceWithin, pieces] using hpieces

/-! ### What the result has of the text -/

theorem Rewrites.sublist (hsublist : string.Sublist replacement)
    (h : Rewrites string replacement text text') : text.Sublist text' := by
  induction h with
  | nil => exact .slnil
  | occurrence _ ih => exact hsublist.append ih
  | other _ _ ih => exact ih.cons_cons _

theorem Rewrites.eq_of_not_infix (h : Rewrites string replacement text text')
    (hnone : ¬string <:+: text) : text' = text := by
  induction h with
  | nil => rfl
  | occurrence _ _ => exact absurd (List.prefix_append _ _).isInfix hnone
  | other _ _ ih => rw [ih fun hrest => hnone (List.infix_cons hrest)]

theorem Rewrites.length_lt_of_infix (hstring : string ≠ []) (hsublist : string.Sublist replacement)
    (hlength : string.length < replacement.length) (h : Rewrites string replacement text text')
    (hoccurs : string <:+: text) : text.length < text'.length := by
  induction h with
  | nil => exact absurd (List.eq_nil_of_infix_nil hoccurs) hstring
  | occurrence hrest _ =>
    have hle := (hrest.sublist hsublist).length_le
    rw [List.length_append, List.length_append]
    omega
  | other hnone _ ih =>
    -- no occurrence begins here, so it is in the rest
    have hrest := ih ((List.infix_cons_iff.1 hoccurs).resolve_left hnone)
    rw [List.length_cons, List.length_cons]
    omega

/-- If the replacement is longer than the string, only a text without the string stays as it is. -/
theorem Rewrites.eq_iff (hstring : string ≠ []) (hsublist : string.Sublist replacement)
    (hlength : string.length < replacement.length) (h : Rewrites string replacement text text') :
    text' = text ↔ ¬string <:+: text := by
  refine ⟨fun hsame hoccurs => ?_, h.eq_of_not_infix⟩
  have hlonger := h.length_lt_of_infix hstring hsublist hlength hoccurs
  rw [hsame] at hlonger
  exact Nat.lt_irrefl _ hlonger

/-! ### Words -/

theorem Rewrites.all_isWordChar (hreplacement : ∀ c ∈ replacement, isWordChar c = true)
    (h : Rewrites string replacement text text') (htext : ∀ c ∈ text, isWordChar c = true) :
    ∀ c ∈ text', isWordChar c = true := by
  induction h with
  | nil => exact htext
  | occurrence _ ih =>
    intro c hc
    rcases List.mem_append.1 hc with hc | hc
    · exact hreplacement c hc
    · exact ih (fun d hd => htext d (List.mem_append_right _ hd)) c hc
  | other _ _ ih =>
    intro c hc
    rcases List.mem_cons.1 hc with rfl | hc
    · exact htext _ List.mem_cons_self
    · exact ih (fun d hd => htext d (List.mem_cons_of_mem _ hd)) c hc

/-- An identifier at the front of a text is in the word there. -/
theorem prefix_of_prefix_append {run rest : List Char}
    (hstring : ∀ c ∈ string, isWordChar c = true) (hrest : startsInWord rest = false)
    (h : string <+: run ++ rest) : string <+: run := by
  obtain ⟨after, hafter⟩ := h
  rcases List.append_eq_append_iff.1 hafter with ⟨last, rfl, -⟩ | ⟨extra, rfl, rfl⟩
  · exact List.prefix_append string last
  · cases extra with
    | nil => simp
    | cons c extra =>
      -- a string that goes on behind the word would do so with a word character
      have hc : isWordChar c = true := hstring c (by simp)
      rw [List.cons_append, startsInWord_cons, hc] at hrest
      cases hrest

theorem Rewrites.append {run run' rest rest' : List Char}
    (hstring : ∀ c ∈ string, isWordChar c = true) (hstart : startsInWord rest = false)
    (h : Rewrites string replacement run run') (hrest : Rewrites string replacement rest rest') :
    Rewrites string replacement (run ++ rest) (run' ++ rest') := by
  induction h with
  | nil => exact hrest
  | occurrence _ ih =>
    rw [List.append_assoc, List.append_assoc]
    exact .occurrence ih
  | other hnone _ ih =>
    exact .other (fun hfront => hnone (prefix_of_prefix_append hstring hstart hfront)) ih

section Identifiers

variable {string replacement : String}

theorem keepsWords_replaceSubstring (hstring : isIdentifier string = true)
    (hreplacement : isIdentifier replacement = true)
    (hsublist : string.toList.Sublist replacement.toList) :
    KeepsWords fun _ word => replaceSubstring string replacement word := by
  intro before word hword
  obtain ⟨hne, hrun⟩ := isIdentifier_iff.1 hword
  have hrewrites := rewrites_replaceSubstring (isIdentifier_iff.1 hstring).1 replacement word
  refine isIdentifier_iff.2 ⟨?_, ?_⟩
  · intro hnil
    have hword := hrewrites.sublist hsublist
    rw [hnil] at hword
    exact hne (List.sublist_nil.1 hword)
  · exact hrewrites.all_isWordChar (isIdentifier_iff.1 hreplacement).2 hrun

/-- The words of a row are rewritten one by one. -/
theorem rewrites_rewriteFrom (hstring : isIdentifier string = true) (replacement : String)
    (before : List Segment) {row : List Segment} (hcut : IsCut row) :
    Rewrites string.toList replacement.toList (charsOf row)
      (charsOf
        (rewriteFrom (fun _ word => replaceSubstring string replacement word) before row)) := by
  obtain ⟨hne, hrun⟩ := isIdentifier_iff.1 hstring
  induction row generalizing before with
  | nil => exact .nil
  | cons segment row ih =>
    cases segment with
    | word name =>
      rw [charsOf_cons, rewriteFrom, charsOf_cons]
      exact (rewrites_replaceSubstring hne replacement name).append hrun hcut.startsInWord_charsOf
        (ih _ hcut.tail)
    | other c =>
      rw [charsOf_cons, rewriteFrom, charsOf_cons]
      refine .other ?_ (ih _ hcut.tail)
      -- an identifier begins with a word character
      rintro ⟨after, hafter⟩
      obtain ⟨d, tail, htail⟩ := List.exists_cons_of_ne_nil hne
      have hd : isWordChar d = true := hrun d (by simp [htail])
      rw [htail] at hafter
      obtain rfl : d = c := (List.cons.inj hafter).1
      rw [hcut.isWordChar_other] at hd
      cases hd

/-- An identifier is replaced in each word on its own. -/
theorem replaceSubstring_eq_mapWords (hstring : isIdentifier string = true)
    (replacement text : String) :
    replaceSubstring string replacement text =
      mapWords (fun _ word => replaceSubstring string replacement word) text := by
  obtain ⟨hne, -⟩ := isIdentifier_iff.1 hstring
  have hrow := rewrites_rewriteFrom hstring replacement [] (isCut_segments text.toList)
  rw [charsOf_segments] at hrow
  rw [mapWords, ← (rewrites_replaceSubstring hne replacement text).unique hne hrow,
    String.ofList_toList]

end Identifiers

end Codename.Text
