import Codename.Proofs.Alias.Tokens
import Codename.Proofs.Text.Matches
import Mathlib.Data.List.SplitBy

/-!
# Lexemes

A lexeme is a token together with the characters that it stands for. A text falls apart into
lexemes at its seams, which are the places where neither a word nor a run of white space goes on.
The tokens of a text are those of its lexemes, and a word token stands in them for just the words
that a search for a name finds.

## Main definitions

* `IsMaximalRun` — a run that goes on neither to the left nor to the right.
* `Lexeme`, `Lexeme.StandsBetween` — a token with its characters, and where it stands in a text.
* `IsSeam` — a place between two lexemes.

## Main statements

* `standsBetween_iff` — a lexeme stands between two texts if there is a seam at each of its ends.
* `exists_lexes`, `Lexes.standsBetween_iff_mem` — a text is the row of the lexemes that stand in it.
* `matchesAt_iff_standsBetween` — an identifier matches at the places of its tokens.
* `exists_lexemes_ofText` — the tokens of a text and the words that a search finds.
-/

namespace Codename.Alias

open Codename.Text
open Codename.Mapping (isIdentifier)

/-- A run of characters of a class, between two texts in which it does not go on. -/
structure IsMaximalRun (p : Char → Bool) (before run after : List Char) : Prop
    extends IsRun p run after where
  start : ∀ c, before.getLast? = some c → p c = false

/-- A token and the characters that it stands for. -/
@[ext]
structure Lexeme where
  token : Token
  chars : List Char
  deriving Repr, DecidableEq

/-- The text that a row of lexemes makes up. -/
def textOf (row : List Lexeme) : List Char :=
  (row.map Lexeme.chars).flatten

/-- A lexeme has the texts `before` in front of it and `after` behind it. A word and a run of white
space are as long as they can be there; any other character stands on its own. -/
inductive Lexeme.StandsBetween : Lexeme → List Char → List Char → Prop
  | word {before run after : List Char} (h : IsMaximalRun isWordChar before run after) :
      StandsBetween ⟨.word run, run⟩ before after
  | space {before run after : List Char} (h : IsMaximalRun isBlank before run after) :
      StandsBetween ⟨.space, run⟩ before after
  | hash (before after : List Char) : StandsBetween ⟨.hash, ['#']⟩ before after
  | symbol {c : Char} (before after : List Char) (hword : isWordChar c = false)
      (hblank : isBlank c = false) (hhash : c ≠ '#') : StandsBetween ⟨.symbol, [c]⟩ before after

/-- Whether one token stands for both of two neighbours. -/
def joins (c d : Char) : Bool :=
  isWordChar c && isWordChar d || isBlank c && isBlank d

/-- No token goes on from the one text into the other. -/
def IsSeam (before after : List Char) : Prop :=
  ∀ c ∈ before.getLast?, ∀ d ∈ after.head?, joins c d = false

/-- The lexemes of a text: its parts between seams, with its tokens. -/
structure Lexes (text : List Char) (row : List Lexeme) : Prop where
  tokens : row.map Lexeme.token = Token.ofText text
  chars : row.map Lexeme.chars = text.splitBy joins
  alone : ∀ lexeme ∈ row, lexeme.StandsBetween [] []

variable {text before run after rest : List Char} {row : List Lexeme} {lexeme : Lexeme} {c d : Char}

/-! ### Neighbours -/

theorem joins_comm (c d : Char) : joins c d = joins d c := by
  rw [joins, joins, Bool.and_comm (isWordChar c), Bool.and_comm (isBlank c)]

theorem joins_of_isWordChar (hd : isWordChar d = true) (c : Char) : joins c d = isWordChar c := by
  have hblank : isBlank d = false := by
    rw [Bool.eq_false_iff]
    intro h
    rw [isWordChar_of_isBlank h] at hd
    cases hd
  simp [joins, hd, hblank]

theorem joins_of_isBlank (hd : isBlank d = true) (c : Char) : joins c d = isBlank c := by
  simp [joins, hd, isWordChar_of_isBlank hd]

theorem joins_of_other (hword : isWordChar d = false) (hblank : isBlank d = false) (c : Char) :
    joins c d = false := by
  simp [joins, hword, hblank]

theorem isSeam_singleton (hword : isWordChar d = false) (hblank : isBlank d = false)
    (before after : List Char) : IsSeam before [d] ∧ IsSeam [d] after := by
  constructor
  · intro c _ d' hd'
    obtain rfl : d = d' := by simpa using hd'
    exact joins_of_other hword hblank c
  · intro d' hd' c _
    obtain rfl : d = d' := by simpa using hd'
    rw [joins_comm]
    exact joins_of_other hword hblank c

theorem isSeam_nil_left (after : List Char) : IsSeam [] after := by
  intro c hc
  cases hc

theorem isSeam_nil_right (before : List Char) : IsSeam before [] := by
  intro c _ d hd
  cases hd

theorem isSeam_append_left {front : List Char} (hne : before ≠ []) :
    IsSeam (front ++ before) after ↔ IsSeam before after := by
  rw [IsSeam, IsSeam, List.getLast?_append_of_ne_nil _ hne]

theorem isSeam_append_right {back : List Char} (hne : after ≠ []) :
    IsSeam before (after ++ back) ↔ IsSeam before after := by
  rw [IsSeam, IsSeam, List.head?_append_of_ne_nil _ hne]

theorem isSeam_of_ends
    (h : ∃ hbefore hafter, joins (before.getLast hbefore) (after.head hafter) = false) :
    IsSeam before after := by
  obtain ⟨hbefore, hafter, hjoins⟩ := h
  intro c hc d hd
  rwa [← List.getLast_of_mem_getLast? hc, ← List.head_of_mem_head? hd]

/-! ### Lexemes and seams -/

section Class

variable {p : Char → Bool} (hp : ∀ {d}, p d = true → ∀ c, joins c d = p c)

include hp

/-- A run of a class is maximal if there is a seam at each of its ends. -/
theorem isMaximalRun_iff :
    IsMaximalRun p before run after ↔
      IsMaximalRun p [] run [] ∧ IsSeam before run ∧ IsSeam run after := by
  constructor
  · rintro ⟨⟨hne, hall, hstop⟩, hstart⟩
    refine ⟨⟨⟨hne, hall, by simp⟩, by simp⟩, ?_, ?_⟩
    · intro c hc d hd
      rw [hp (hall d (List.mem_of_mem_head? hd))]
      exact hstart c hc
    · intro c hc d hd
      rw [joins_comm, hp (hall c (List.mem_of_mem_getLast? hc))]
      exact hstop d hd
  · rintro ⟨⟨⟨hne, hall, -⟩, -⟩, hbefore, hafter⟩
    refine ⟨⟨hne, hall, ?_⟩, ?_⟩
    · intro d hd
      have hlast := hafter _ (List.getLast?_eq_getLast_of_ne_nil hne) d hd
      rwa [joins_comm, hp (hall _ (List.getLast_mem hne))] at hlast
    · intro c hc
      have hhead := hbefore c hc _ (List.head?_eq_some_head hne)
      rwa [hp (hall _ (List.head_mem hne))] at hhead

/-- A run of a class has no seam inside. -/
theorem isChain_joins (hall : ∀ c ∈ run, p c = true) :
    run.IsChain fun c d => joins c d = true := by
  refine (List.pairwise_of_forall_mem_list fun c hc d hd => ?_).isChain
  rw [hp (hall d hd)]
  exact hall c hc

end Class

/-- A lexeme stands between two texts if there is a seam at each of its ends. -/
theorem standsBetween_iff :
    lexeme.StandsBetween before after ↔
      lexeme.StandsBetween [] [] ∧ IsSeam before lexeme.chars ∧ IsSeam lexeme.chars after := by
  constructor
  · intro h
    cases h with
    | word h =>
      obtain ⟨halone, hseams⟩ := (isMaximalRun_iff joins_of_isWordChar).1 h
      exact ⟨.word halone, hseams⟩
    | space h =>
      obtain ⟨halone, hseams⟩ := (isMaximalRun_iff joins_of_isBlank).1 h
      exact ⟨.space halone, hseams⟩
    | hash => exact ⟨.hash _ _, isSeam_singleton (by decide) (by decide) before after⟩
    | symbol _ _ hword hblank hhash =>
      exact ⟨.symbol _ _ hword hblank hhash, isSeam_singleton hword hblank before after⟩
  · rintro ⟨halone, hseams⟩
    cases halone with
    | word halone => exact .word ((isMaximalRun_iff joins_of_isWordChar).2 ⟨halone, hseams⟩)
    | space halone => exact .space ((isMaximalRun_iff joins_of_isBlank).2 ⟨halone, hseams⟩)
    | hash => exact .hash before after
    | symbol _ _ hword hblank hhash => exact .symbol before after hword hblank hhash

namespace Lexeme.StandsBetween

theorem chars_ne_nil (h : lexeme.StandsBetween before after) : lexeme.chars ≠ [] := by
  cases h with
  | word h => exact h.ne_nil
  | space h => exact h.ne_nil
  | hash => simp
  | symbol => simp

theorem begins (h : lexeme.StandsBetween before after) :
    lexeme.token.Begins (lexeme.chars ++ after) after := by
  cases h with
  | word h => exact .word h.toIsRun
  | space h => exact .space h.toIsRun
  | hash => exact .hash after
  | symbol _ _ hword hblank hhash => exact .symbol hword hblank hhash

theorem isChain (h : lexeme.StandsBetween before after) :
    lexeme.chars.IsChain fun c d => joins c d = true := by
  cases h with
  | word h => exact isChain_joins joins_of_isWordChar h.all
  | space h => exact isChain_joins joins_of_isBlank h.all
  | hash => exact .singleton _
  | symbol => exact .singleton _

/-- One token stands for given characters. -/
theorem eq_of_chars_eq {other : Lexeme} (h : lexeme.StandsBetween [] [])
    (h' : other.StandsBetween [] []) (hchars : lexeme.chars = other.chars) : lexeme = other := by
  have hfirst := h.begins.ofText
  rw [hchars, h'.begins.ofText] at hfirst
  exact Lexeme.ext (List.cons.inj hfirst).1.symm hchars

/-- Where a lexeme stands, the parts of a text between its seams are those in front of the lexeme,
the lexeme and those behind it. -/
theorem splitBy_eq (h : lexeme.StandsBetween before after) :
    (before ++ lexeme.chars ++ after).splitBy joins =
      before.splitBy joins ++ lexeme.chars :: after.splitBy joins := by
  obtain ⟨-, hbefore, hafter⟩ := standsBetween_iff.1 h
  have hfront : IsSeam before (lexeme.chars ++ after) :=
    (isSeam_append_right h.chars_ne_nil).2 hbefore
  rw [List.append_assoc, List.splitBy_append hfront, List.splitBy_append hafter,
    List.splitBy_of_isChain h.chars_ne_nil h.isChain, List.singleton_append]

end Lexeme.StandsBetween

/-- What begins a text is a lexeme. -/
theorem Token.Begins.exists_lexeme {token : Token} (h : token.Begins text rest) :
    ∃ lexeme : Lexeme, lexeme.token = token ∧ text = lexeme.chars ++ rest ∧
      lexeme.StandsBetween [] rest := by
  cases h with
  | @word run _ h => exact ⟨⟨.word run, run⟩, rfl, rfl, .word ⟨h, by simp⟩⟩
  | @space run _ h => exact ⟨⟨.space, run⟩, rfl, rfl, .space ⟨h, by simp⟩⟩
  | hash rest => exact ⟨⟨.hash, ['#']⟩, rfl, rfl, .hash _ _⟩
  | @symbol c _ hword hblank hhash =>
    exact ⟨⟨.symbol, [c]⟩, rfl, rfl, .symbol _ _ hword hblank hhash⟩

/-! ### The lexemes of a text -/

/-- The lexemes of a text are its parts between seams, with its tokens. -/
theorem exists_lexes (text : List Char) : ∃ row, Lexes text row := by
  induction hlength : text.length using Nat.strongRecOn generalizing text with
  | ind n ih =>
    cases text with
    | nil => exact ⟨[], rfl, rfl, by simp⟩
    | cons c text =>
      -- the first lexeme is taken off, and behind it is a seam
      obtain ⟨token, rest, hbegins⟩ := exists_begins c text
      obtain ⟨lexeme, rfl, htext, hstands⟩ := hbegins.exists_lexeme
      have hshorter : rest.length < n := by
        have hpos := List.length_pos_iff.2 hstands.chars_ne_nil
        rw [← hlength, htext, List.length_append]
        omega
      obtain ⟨row, htokens, hchars, halone⟩ := ih _ hshorter rest rfl
      have hsplit := hstands.splitBy_eq
      refine ⟨lexeme :: row, ?_, ?_, ?_⟩
      · rw [List.map_cons, htokens, hbegins.ofText]
      · rw [List.map_cons, hchars, htext]
        simpa using hsplit.symm
      · rintro other (_ | ⟨_, hother⟩)
        · exact (standsBetween_iff.1 hstands).1
        · exact halone other hother

/-- There is a seam at each end of a part. -/
theorem isSeam_of_splitBy {front back : List (List Char)}
    (h : text.splitBy joins = front ++ run :: back) :
    IsSeam front.flatten run ∧ IsSeam run back.flatten := by
  have hchain := List.isChain_getLast_head_splitBy joins text
  rw [h, List.isChain_append, List.isChain_cons] at hchain
  obtain ⟨-, ⟨hnext, -⟩, hprevious⟩ := hchain
  constructor
  · rcases List.eq_nil_or_concat' front with rfl | ⟨front, left, rfl⟩
    · exact isSeam_nil_left run
    · have hends := hprevious left (by simp) run rfl
      rw [List.flatten_append, List.flatten_singleton, isSeam_append_left hends.1]
      exact isSeam_of_ends hends
  · rcases back with _ | ⟨right, back⟩
    · exact isSeam_nil_right run
    · have hends := hnext right rfl
      rw [List.flatten_cons, isSeam_append_right hends.2.1]
      exact isSeam_of_ends hends

namespace Lexes

theorem textOf_eq (h : Lexes text row) : textOf row = text := by
  rw [textOf, h.chars, List.flatten_splitBy]

/-- The lexemes stand where they are in the text, and no others stand there. -/
theorem standsBetween_iff_mem (h : Lexes text row) (lexeme : Lexeme) (before after : List Char) :
    before ++ lexeme.chars ++ after = text ∧ lexeme.StandsBetween before after ↔
      ∃ front back, row = front ++ lexeme :: back ∧ textOf front = before ∧
        textOf back = after := by
  constructor
  · rintro ⟨rfl, hstands⟩
    -- the seams of the texts around the lexeme are seams of the whole text, and there are no others
    have hparts := h.chars
    rw [hstands.splitBy_eq] at hparts
    obtain ⟨front, last, rfl, hfront, hlast⟩ := List.map_eq_append_iff.1 hparts
    obtain ⟨other, back, rfl, hchars, hback⟩ := List.map_eq_cons_iff.1 hlast
    have halone := (standsBetween_iff.1 hstands).1
    obtain rfl := (h.alone other (by simp)).eq_of_chars_eq halone hchars
    refine ⟨front, back, rfl, ?_, ?_⟩
    · rw [textOf, hfront, List.flatten_splitBy]
    · rw [textOf, hback, List.flatten_splitBy]
  · rintro ⟨front, back, rfl, rfl, rfl⟩
    have hparts := h.chars
    rw [List.map_append, List.map_cons] at hparts
    have hseams := isSeam_of_splitBy hparts.symm
    refine ⟨?_, standsBetween_iff.2 ⟨h.alone lexeme (by simp), hseams⟩⟩
    rw [← h.textOf_eq]
    simp [textOf]

end Lexes

/-! ### Tokens and words -/

/-- The tokens behind some tokens of a text are those of the text that is left. -/
theorem exists_ofText_eq {front tokens : List Token} (h : Token.ofText text = front ++ tokens) :
    ∃ rest, Token.ofText rest = tokens := by
  induction front generalizing text with
  | nil => exact ⟨text, h⟩
  | cons token front ih =>
    obtain ⟨rest, -, hrest⟩ := ofText_eq_cons_iff.1 h
    exact ih hrest

theorem ofText_ne_word_word (text : List Char) (front back : List Token) (left right : List Char) :
    Token.ofText text ≠ front ++ .word left :: .word right :: back := by
  intro h
  obtain ⟨rest, hrest⟩ := exists_ofText_eq h
  obtain ⟨after, hbegins, hafter⟩ := ofText_eq_cons_iff.1 hrest
  cases hbegins with
  | word hrun => exact ofText_ne_word hrun.stop right back hafter

theorem ofText_ne_space_space (text : List Char) (front back : List Token) :
    Token.ofText text ≠ front ++ .space :: .space :: back := by
  intro h
  obtain ⟨rest, hrest⟩ := exists_ofText_eq h
  obtain ⟨after, hbegins, hafter⟩ := ofText_eq_cons_iff.1 hrest
  cases hbegins with
  | space hrun => exact ofText_ne_space hrun.stop back hafter

/-- A search for an identifier finds the word tokens. -/
theorem occurs_word_iff_mem_ofText {name : String} (hname : isIdentifier name = true)
    (text : String) :
    Reference.word.occurs name text = true ↔ .word name.toList ∈ Token.ofText text.toList := by
  rw [Reference.occurs_word hname, hasWord, List.contains_iff_mem, ofText_eq_tokensOf,
    word_mem_tokensOf (isCut_segments _), String.ofList_toList]

/-- An identifier matches where a word token stands for it. -/
theorem matchesAt_iff_standsBetween {name : String} (hname : isIdentifier name = true)
    (before after : List Char) :
    MatchesAt name.toList (before ++ name.toList ++ after) before.length ↔
      Lexeme.StandsBetween ⟨.word name.toList, name.toList⟩ before after := by
  obtain ⟨hne, hrun⟩ := isIdentifier_iff.1 hname
  have hmatch : MatchesAt name.toList (before.reverse.reverse ++ (name.toList ++ after))
      before.reverse.length ↔ _ := matchesAt_append_iff
  rw [List.reverse_reverse, List.length_reverse, List.drop_left, standsAlone_run hne hrun,
    ← List.append_assoc, Bool.and_eq_true, Bool.not_eq_true', Bool.not_eq_true',
    startsInWord_eq_false_iff, startsInWord_eq_false_iff, List.head?_reverse] at hmatch
  rw [hmatch]
  constructor
  · rintro ⟨-, hstart, hstop⟩
    exact .word ⟨⟨hne, hrun, hstop⟩, hstart⟩
  · intro h
    cases h with
    | word h => exact ⟨List.prefix_append _ _, h.start, h.stop⟩

/-- A text is a row of lexemes, and its tokens are theirs: a word token for each maximal run of word
characters, one for each maximal run of white space, for each `#` and for each other character, all
of them in the order of the text. So two words are never next to each other, nor two tokens of white
space. A search finds an identifier just if it is one of the word tokens, and the identifier matches
at the places of these tokens only. -/
theorem exists_lexemes_ofText (text : String) :
    (∃ row : List Lexeme,
        row.map Lexeme.token = Token.ofText text.toList ∧ textOf row = text.toList ∧
        ∀ lexeme before after,
          before ++ lexeme.chars ++ after = text.toList ∧ lexeme.StandsBetween before after ↔
            ∃ front back, row = front ++ lexeme :: back ∧ textOf front = before ∧
              textOf back = after) ∧
      (∀ front back left right,
        Token.ofText text.toList ≠ front ++ .word left :: .word right :: back) ∧
      (∀ front back, Token.ofText text.toList ≠ front ++ .space :: .space :: back) ∧
      ∀ name, isIdentifier name = true →
        (Reference.word.occurs name text = true ↔
          .word name.toList ∈ Token.ofText text.toList) ∧
        ∀ before after, before ++ name.toList ++ after = text.toList →
          (MatchesAt name.toList text.toList before.length ↔
            Lexeme.StandsBetween ⟨.word name.toList, name.toList⟩ before after) := by
  obtain ⟨row, hrow⟩ := exists_lexes text.toList
  refine ⟨⟨row, hrow.tokens, hrow.textOf_eq, hrow.standsBetween_iff_mem⟩, ?_, ?_, ?_⟩
  · exact ofText_ne_word_word text.toList
  · exact ofText_ne_space_space text.toList
  · intro name hname
    refine ⟨occurs_word_iff_mem_ofText hname text, ?_⟩
    intro before after htext
    rw [← htext]
    exact matchesAt_iff_standsBetween hname before after

/-- The word `id` is a token at the end, and is not part of the token `ids`. -/
theorem exists_lexemes_ofText_query :
    isIdentifier "id" = true ∧
      .word "id".toList ∈ Token.ofText "FROM #é\t ids,id".toList ∧
      Reference.word.occurs "id" "FROM #é\t ids,id" = true ∧
      "FROM #é\t ids,".toList ++ "id".toList ++ [] = "FROM #é\t ids,id".toList ∧
      MatchesAt "id".toList "FROM #é\t ids,id".toList "FROM #é\t ids,".toList.length := by
  have hname : isIdentifier "id" = true := by decide
  have htoken : Token.word "id".toList ∈ Token.ofText "FROM #é\t ids,id".toList := by
    decide +kernel
  have htext : "FROM #é\t ids,".toList ++ "id".toList ++ [] = "FROM #é\t ids,id".toList := by
    decide +kernel
  have hlast : "FROM #é\t ids,".toList.getLast? = some ',' := by decide +kernel
  have hrun : IsMaximalRun isWordChar "FROM #é\t ids,".toList "id".toList [] := by
    refine ⟨⟨by decide, List.all_eq_true.1 (by decide), by simp⟩, ?_⟩
    intro c hc
    obtain rfl := Option.some.inj (hlast.symm.trans hc)
    decide
  obtain ⟨-, -, -, hsearch⟩ := exists_lexemes_ofText "FROM #é\t ids,id"
  obtain ⟨hoccurs, hmatches⟩ := hsearch "id" hname
  exact ⟨hname, htoken, hoccurs.2 htoken, htext, (hmatches _ _ htext).2 (.word hrun)⟩

end Codename.Alias
