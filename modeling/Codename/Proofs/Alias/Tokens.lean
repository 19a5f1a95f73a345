import Codename.Proofs.Alias.Scan
import Mathlib.Data.List.TakeWhile

/-!
# Tokens and runs

A token stands for a maximal run of word characters, for a maximal run of white space or for a
single character. So the first token of a text says how the text begins, and the tokens behind it
are those of the rest.

## Main definitions

* `IsRun` — a maximal run of characters of a class.
* `Token.Begins` — what a token stands for at the beginning of a text.

## Main statements

* `ofText_eq_cons_iff` — the first token of a text and the text behind it.
-/

namespace Codename.Alias

open Codename.Text

/-- A maximal run of characters of a class, with `rest` behind it. -/
structure IsRun (p : Char → Bool) (run rest : List Char) : Prop where
  ne_nil : run ≠ []
  all : ∀ c ∈ run, p c = true
  stop : ∀ c, rest.head? = some c → p c = false

/-- A token stands for the beginning of a text, with `rest` behind it. -/
inductive Token.Begins : Token → List Char → List Char → Prop
  | word {run rest : List Char} (h : IsRun isWordChar run rest) :
      Begins (.word run) (run ++ rest) rest
  | space {run rest : List Char} (h : IsRun isBlank run rest) : Begins .space (run ++ rest) rest
  | hash (rest : List Char) : Begins .hash ('#' :: rest) rest
  | symbol {c : Char} {rest : List Char} (hword : isWordChar c = false) (hblank : isBlank c = false)
      (hhash : c ≠ '#') : Begins .symbol (c :: rest) rest

variable {run rest text : List Char} {tokens : List Token} {c : Char}

/-! ### Runs -/

theorem exists_isRun {p : Char → Bool} (hc : p c = true) (text : List Char) :
    ∃ run rest, c :: text = run ++ rest ∧ IsRun p run rest := by
  refine ⟨(c :: text).takeWhile p, (c :: text).dropWhile p, ?_, ?_, ?_, ?_⟩
  · exact List.takeWhile_append_dropWhile.symm
  · simp [hc]
  · intro d hd
    exact List.mem_takeWhile_imp hd
  · intro d hd
    have hnot := List.head?_dropWhile_not p (c :: text)
    rwa [hd] at hnot

theorem toNat_of_isWordChar (h : isWordChar c = true) : 48 ≤ c.toNat ∧ c.toNat ≤ 122 := by
  unfold isWordChar Char.isAlphanum Char.isAlpha Char.isUpper Char.isLower Char.isDigit at h
  simp only [Bool.or_eq_true, Bool.and_eq_true, decide_eq_true_eq, beq_iff_eq, ge_iff_le,
    UInt32.le_iff_toNat_le] at h
  rcases h with h | rfl
  · have h : (65 ≤ c.toNat ∧ c.toNat ≤ 90 ∨ 97 ≤ c.toNat ∧ c.toNat ≤ 122) ∨
        48 ≤ c.toNat ∧ c.toNat ≤ 57 := h
    omega
  · decide

/-- White space belongs to no word. -/
theorem isWordChar_of_isBlank (h : isBlank c = true) : isWordChar c = false := by
  rw [Bool.eq_false_iff]
  intro hword
  have hrange := toNat_of_isWordChar hword
  simp only [isBlank, isWithin, blankRanges, List.any_cons, List.any_nil, Bool.or_eq_true,
    Bool.and_eq_true, decide_eq_true_eq, Bool.or_false] at h
  omega

/-! ### The first token -/

theorem push_of_isBlank (hc : isBlank c = true) (h : ∀ rest, tokens ≠ .space :: rest) :
    Token.push c tokens = .space :: tokens := by
  unfold Token.push
  rw [if_neg (by simp [isWordChar_of_isBlank hc]), if_pos hc]
  split
  · next rest => exact absurd rfl (h rest)
  · rfl

theorem push_space (hc : isBlank c = true) (tokens : List Token) :
    Token.push c (.space :: tokens) = .space :: tokens := by
  unfold Token.push
  rw [if_neg (by simp [isWordChar_of_isBlank hc]), if_pos hc]

theorem push_of_other (hword : isWordChar c = false) (hblank : isBlank c = false)
    (tokens : List Token) :
    Token.push c tokens = (if c = '#' then .hash else .symbol) :: tokens := by
  simp only [Token.push, hword, hblank, Bool.false_eq_true, if_false]
  split
  · rfl
  · rfl

theorem ofText_ne_word (h : ∀ c, rest.head? = some c → isWordChar c = false) (chars : List Char)
    (after : List Token) : Token.ofText rest ≠ .word chars :: after := by
  cases rest with
  | nil => nofun
  | cons c rest =>
    rw [Token.ofText_cons]
    intro htokens
    obtain ⟨_, hpush, -⟩ | hpush | hpush :=
      push_of_isWordChar_eq_false (h c rfl) (Token.ofText rest)
    all_goals
      rw [hpush] at htokens
      cases htokens

theorem ofText_ne_space (h : ∀ c, rest.head? = some c → isBlank c = false) (after : List Token) :
    Token.ofText rest ≠ .space :: after := by
  cases rest with
  | nil => nofun
  | cons c rest =>
    rw [Token.ofText_cons]
    by_cases hc : isWordChar c = true
    · unfold Token.push
      rw [if_pos hc]
      split
      · nofun
      · nofun
    · rw [push_of_other (by simpa using hc) (h c rfl)]
      split
      · nofun
      · nofun

theorem foldr_push_gap (hne : run ≠ []) (hrun : ∀ c ∈ run, isBlank c = true)
    (htokens : ∀ rest, tokens ≠ .space :: rest) :
    run.foldr Token.push tokens = .space :: tokens := by
  induction run with
  | nil => exact absurd rfl hne
  | cons c run ih =>
    have hc : isBlank c = true := hrun c List.mem_cons_self
    rw [List.foldr_cons]
    -- the last character of the gap makes the token, and the others join it
    by_cases hnil : run = []
    · subst hnil
      exact push_of_isBlank hc htokens
    · rw [ih hnil fun d hd => hrun d (List.mem_cons_of_mem _ hd), push_space hc]

/-- A token that a text begins with is its first. -/
theorem Token.Begins.ofText {token : Token} (h : token.Begins text rest) :
    Token.ofText text = token :: Token.ofText rest := by
  cases h with
  | word hrun =>
    rw [Token.ofText, List.foldr_append]
    exact foldr_push_run hrun.ne_nil hrun.all (ofText_ne_word hrun.stop)
  | space hrun =>
    rw [Token.ofText, List.foldr_append]
    exact foldr_push_gap hrun.ne_nil hrun.all (ofText_ne_space hrun.stop)
  | hash rest => exact push_of_other (c := '#') (by decide) (by decide) _
  | symbol hword hblank hhash =>
    rw [Token.ofText_cons, push_of_other hword hblank, if_neg hhash]

/-- Every text but the empty one begins with some token. -/
theorem exists_begins (c : Char) (text : List Char) :
    ∃ (token : Token) (rest : List Char), token.Begins (c :: text) rest := by
  by_cases hword : isWordChar c = true
  · obtain ⟨run, rest, htext, hrun⟩ := exists_isRun hword text
    rw [htext]
    exact ⟨.word run, rest, .word hrun⟩
  by_cases hblank : isBlank c = true
  · obtain ⟨run, rest, htext, hrun⟩ := exists_isRun hblank text
    rw [htext]
    exact ⟨.space, rest, .space hrun⟩
  by_cases hhash : c = '#'
  · rw [hhash]
    exact ⟨.hash, text, .hash text⟩
  · rw [Bool.not_eq_true] at hword hblank
    exact ⟨.symbol, text, .symbol hword hblank hhash⟩

/-- The first token says how the text begins, and the others are those of the rest. -/
theorem ofText_eq_cons_iff {token : Token} :
    Token.ofText text = token :: tokens ↔
      ∃ rest, token.Begins text rest ∧ Token.ofText rest = tokens := by
  constructor
  · intro h
    cases text with
    | nil => cases h
    | cons c text =>
      obtain ⟨first, rest, hbegins⟩ := exists_begins c text
      rw [hbegins.ofText] at h
      cases h
      exact ⟨rest, hbegins, rfl⟩
  · rintro ⟨rest, hbegins, rfl⟩
    exact hbegins.ofText

end Codename.Alias
