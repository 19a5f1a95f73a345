import Codename.Alias.Binding
import Codename.Proofs.Text.Wordwise
import Mathlib.Data.List.Infix

/-!
# The search for aliases

The tokens of a text follow its cut into words, and a clause takes its table and its alias from
the words. So the bindings of a text depend on nothing but the words that are keywords and those
that the bindings name: where only other words differ, the bindings are the same.

## Main definitions

* `tokensOf` — the tokens of a row of segments.
* `withoutHash` — a name without the sign of a temporary table.

## Main statements

* `ofText_eq_tokensOf` — the tokens of a text are those of its segments.
* `exists_word_of_mem_bindings` — an alias is a word of the text.
* `bindings_eq_of_wordwise` — texts that differ in other words have the same bindings.
-/

namespace Codename.Alias

open Codename.Text
open Codename.Mapping (isIdentifier)
open List (Forall₂)

/-- The tokens of a row of segments. -/
def tokensOf : List Segment → List Token
  | [] => []
  | .word name :: rest => .word name.toList :: tokensOf rest
  | .other c :: rest => Token.push c (tokensOf rest)

/-- A name without the sign that starts the name of a temporary table. -/
def withoutHash (name : String) : String :=
  match name.toList with
  | '#' :: rest => String.ofList rest
  | _ => name

/-- Two tokens of which the words are related by `Q` and all else is the same. -/
inductive Token.Rel (Q : String → String → Prop) : Token → Token → Prop
  | word {chars chars' : List Char} (h : Q (String.ofList chars) (String.ofList chars')) :
      Rel Q (.word chars) (.word chars')
  | hash : Rel Q .hash .hash
  | space : Rel Q .space .space
  | symbol : Rel Q .symbol .symbol

/-- What a relation between words leaves as it is, so that clauses are read alike: the keywords,
and the words that `fixed` picks. -/
structure KeepsClauses (Q : String → String → Prop) (fixed : String → Prop) : Prop where
  identifier : ∀ {w w'}, Q w w' → isIdentifier w = true
  keyword : ∀ {w w' k}, k ∈ ["FROM", "JOIN", "AS"] → Q w w' → (w' = k ↔ w = k)
  fixed : ∀ {w w'}, Q w w' → fixed w → w' = w

/-! ### Tokens and segments -/

theorem push_of_isWordChar_eq_false {c : Char} (hc : isWordChar c = false) (tokens : List Token) :
    (∃ rest, Token.push c tokens = .space :: rest ∧ (rest = tokens ∨ .space :: rest = tokens)) ∨
      Token.push c tokens = .hash :: tokens ∨ Token.push c tokens = .symbol :: tokens := by
  simp only [Token.push, hc, Bool.false_eq_true, if_false]
  split
  · split
    · next rest => exact .inl ⟨rest, rfl, .inr rfl⟩
    · exact .inl ⟨tokens, rfl, .inl rfl⟩
  · split
    · exact .inr (.inl rfl)
    · exact .inr (.inr rfl)

theorem word_mem_push {c : Char} (hc : isWordChar c = false) {tokens : List Token}
    {chars : List Char} : Token.word chars ∈ Token.push c tokens ↔ .word chars ∈ tokens := by
  obtain ⟨rest, hpush, rfl | rfl⟩ | hpush | hpush := push_of_isWordChar_eq_false hc tokens
  all_goals simp [hpush]

theorem word_mem_tokensOf {row : List Segment} (hcut : IsCut row) {chars : List Char} :
    Token.word chars ∈ tokensOf row ↔ .word (String.ofList chars) ∈ row := by
  induction row with
  | nil => simp [tokensOf]
  | cons segment row ih =>
    cases segment with
    | word name =>
      have hname : chars = name.toList ↔ String.ofList chars = name := by
        rw [← String.toList_inj, String.toList_ofList]
      simp [tokensOf, ih hcut.tail, hname]
    | other c => simp [tokensOf, word_mem_push hcut.isWordChar_other, ih hcut.tail]

theorem foldr_push_run {run : List Char} {tokens : List Token} (hne : run ≠ [])
    (hrun : ∀ c ∈ run, isWordChar c = true) (htokens : ∀ chars rest, tokens ≠ .word chars :: rest) :
    run.foldr Token.push tokens = .word run :: tokens := by
  induction run with
  | nil => exact absurd rfl hne
  | cons c run ih =>
    have hc : isWordChar c = true := hrun c List.mem_cons_self
    rw [List.foldr_cons]
    by_cases hnil : run = []
    · subst hnil
      match tokens, htokens with
      | [], _ => simp [Token.push, hc]
      | .word chars :: rest, htokens => exact absurd rfl (htokens chars rest)
      | .hash :: rest, _ => simp [Token.push, hc]
      | .space :: rest, _ => simp [Token.push, hc]
      | .symbol :: rest, _ => simp [Token.push, hc]
    · rw [ih hnil fun d hd => hrun d (List.mem_cons_of_mem _ hd)]
      simp [Token.push, hc]

theorem ofText_charsOf {row : List Segment} (hcut : IsCut row) :
    Token.ofText (charsOf row) = tokensOf row := by
  induction row with
  | nil => rfl
  | cons segment row ih =>
    have hrow := ih hcut.tail
    cases segment with
    | other c =>
      rw [charsOf_cons, Segment.chars_other, List.singleton_append, Token.ofText_cons, hrow,
        tokensOf]
    | word name =>
      obtain ⟨hne, hrun⟩ := isIdentifier_iff.1 hcut.isIdentifier_word
      rw [charsOf_cons, Segment.chars_word, Token.ofText, List.foldr_append]
      show name.toList.foldr Token.push (Token.ofText (charsOf row)) = _
      rw [hrow, foldr_push_run hne hrun ?_, tokensOf]
      intro chars rest htokens
      obtain rfl | ⟨c, row, rfl, hc⟩ := hcut.word_eq
      · cases htokens
      · rw [tokensOf] at htokens
        obtain ⟨rest, hpush, -⟩ | hpush | hpush := push_of_isWordChar_eq_false hc (tokensOf row)
        all_goals
          rw [hpush] at htokens
          cases htokens

theorem ofText_eq_tokensOf (text : List Char) : Token.ofText text = tokensOf (segments text) := by
  have h := ofText_charsOf (isCut_segments text)
  rwa [charsOf_segments] at h

/-! ### Reading clauses -/

variable {Q : String → String → Prop} {tokens tokens' : List Token}

theorem name?_spec {name : String} {rest : List Token} (h : name? tokens = some (name, rest)) :
    (∃ chars, Token.word chars ∈ tokens ∧ name = String.ofList chars) ∧ rest <:+ tokens := by
  unfold name? at h
  split at h
  · next chars rest =>
    cases h
    exact ⟨⟨chars, by simp, rfl⟩, ⟨[.space, .word ['A', 'S'], .space, .word chars], rfl⟩⟩
  · next chars rest _ =>
    cases h
    exact ⟨⟨chars, by simp, rfl⟩, ⟨[.space, .word chars], rfl⟩⟩
  · cases h

theorem table?_spec {table : String} {rest : List Token} (h : table? tokens = some (table, rest)) :
    (∃ chars, Token.word chars ∈ tokens ∧
      (table = String.ofList chars ∨ table = String.ofList ('#' :: chars))) ∧ rest <:+ tokens := by
  unfold table? at h
  split at h
  · next chars rest =>
    cases h
    exact ⟨⟨chars, by simp, .inl rfl⟩, ⟨[.space, .word chars], rfl⟩⟩
  · next chars rest =>
    cases h
    exact ⟨⟨chars, by simp, .inr rfl⟩, ⟨[.space, .hash, .word chars], rfl⟩⟩
  · cases h

/-- A clause takes its alias from the words behind the keyword. -/
theorem clause?_eq (tokens : List Token) :
    clause? tokens = (table? tokens).bind fun first =>
      (name? first.2).map fun second => (⟨second.1, first.1⟩, second.2) := by
  rw [clause?]
  cases table? tokens with
  | none => rfl
  | some first =>
    obtain ⟨table, middle⟩ := first
    show _ = (name? middle).map _
    cases hname : name? middle with
    | none => simp [hname]
    | some second => simp [hname]

theorem clause?_spec {binding : Binding} {rest : List Token}
    (h : clause? tokens = some (binding, rest)) :
    (∃ chars, Token.word chars ∈ tokens ∧ binding.name = String.ofList chars) ∧
      (∃ chars, Token.word chars ∈ tokens ∧
        (binding.table = String.ofList chars ∨ binding.table = String.ofList ('#' :: chars))) ∧
      rest <:+ tokens := by
  rw [clause?_eq, Option.bind_eq_some_iff] at h
  obtain ⟨⟨table, middle⟩, htable, hclause⟩ := h
  obtain ⟨⟨name, last⟩, hname, hread⟩ := Option.map_eq_some_iff.1 hclause
  cases hread
  obtain ⟨⟨chars, hmem, hchars⟩, hsuffix⟩ := name?_spec hname
  obtain ⟨hword, hmiddle⟩ := table?_spec htable
  exact ⟨⟨chars, hmiddle.subset hmem, hchars⟩, hword, hsuffix.trans hmiddle⟩

/-- A binding is read from a clause of the text. -/
theorem exists_clause_of_mem_bindingsOf {binding : Binding} (h : binding ∈ bindingsOf tokens) :
    ∃ front rest, front <:+ tokens ∧ clause? front = some (binding, rest) := by
  fun_induction bindingsOf tokens with
  | case1 chars rest hkeyword first after hclause _ ih =>
    rcases List.mem_cons.1 h with rfl | h
    · exact ⟨rest, after, List.suffix_cons _ _, hclause⟩
    · obtain ⟨front, last, hfront, hread⟩ := ih h
      have hafter : after <:+ rest := (clause?_spec hclause).2.2
      exact ⟨front, last, (hfront.trans hafter).trans (List.suffix_cons _ _), hread⟩
  | case2 chars rest hkeyword hclause ih =>
    obtain ⟨front, last, hfront, hread⟩ := ih h
    exact ⟨front, last, hfront.trans (List.suffix_cons _ _), hread⟩
  | case3 chars rest hkeyword ih =>
    obtain ⟨front, last, hfront, hread⟩ := ih h
    exact ⟨front, last, hfront.trans (List.suffix_cons _ _), hread⟩
  | case4 token rest hword ih =>
    obtain ⟨front, last, hfront, hread⟩ := ih h
    exact ⟨front, last, hfront.trans (List.suffix_cons _ _), hread⟩
  | case5 => cases h

/-- The alias of a binding is a word of the text. -/
theorem exists_word_of_mem_bindings {text : String} {binding : Binding}
    (h : binding ∈ bindings text) : .word binding.name ∈ segments text.toList := by
  obtain ⟨front, rest, hfront, hread⟩ := exists_clause_of_mem_bindingsOf h
  obtain ⟨⟨chars, hmem, hname⟩, -⟩ := clause?_spec hread
  have hword := hfront.subset hmem
  rw [ofText_eq_tokensOf, word_mem_tokensOf (isCut_segments _)] at hword
  rwa [hname]

/-- The table of a binding is a word of the text, unless it is a temporary table. -/
theorem word_table_of_mem_bindings {text : String} {binding : Binding}
    (h : binding ∈ bindings text) (hidentifier : isIdentifier binding.table = true) :
    .word binding.table ∈ segments text.toList := by
  obtain ⟨front, rest, hfront, hread⟩ := exists_clause_of_mem_bindingsOf h
  obtain ⟨-, ⟨chars, hmem, htable | htable⟩, -⟩ := clause?_spec hread
  · have hword := hfront.subset hmem
    rw [ofText_eq_tokensOf, word_mem_tokensOf (isCut_segments _)] at hword
    rwa [htable]
  · have hhash : isWordChar '#' = true :=
      (isIdentifier_iff.1 hidentifier).2 '#' (by simp [htable])
    cases hhash

/-! ### Clauses of texts that differ in other words -/

theorem push_rel {c : Char} (hc : isWordChar c = false)
    (h : Forall₂ (Token.Rel Q) tokens tokens') :
    Forall₂ (Token.Rel Q) (Token.push c tokens) (Token.push c tokens') := by
  simp only [Token.push, hc, Bool.false_eq_true, if_false]
  by_cases hblank : isBlank c = true
  · rw [if_pos hblank, if_pos hblank]
    cases h with
    | nil => exact .cons .space .nil
    | cons hfirst hrest =>
      cases hfirst with
      | space => exact .cons .space hrest
      | word hw => exact .cons .space (.cons (.word hw) hrest)
      | hash => exact .cons .space (.cons .hash hrest)
      | symbol => exact .cons .space (.cons .symbol hrest)
  · rw [if_neg hblank, if_neg hblank]
    split
    · exact .cons .hash h
    · exact .cons .symbol h

theorem tokensOf_rel {row row' : List Segment} (hcut : IsCut row)
    (h : Forall₂ (Segment.Rel Q) row row') :
    Forall₂ (Token.Rel fun w w' => isIdentifier w = true ∧ Q w w') (tokensOf row)
      (tokensOf row') := by
  induction h with
  | nil => exact .nil
  | cons hsegment _ ih =>
    cases hsegment with
    | other c => exact push_rel hcut.isWordChar_other (ih hcut.tail)
    | word hname =>
      refine .cons (.word ?_) (ih hcut.tail)
      rw [String.ofList_toList, String.ofList_toList]
      exact ⟨hcut.isIdentifier_word, hname⟩

theorem withoutHash_of_isIdentifier {name : String} (h : isIdentifier name = true) :
    withoutHash name = name := by
  rw [withoutHash]
  split
  · next rest hname =>
    have hhash := (isIdentifier_iff.1 h).2 '#' (by simp [hname])
    cases hhash
  · rfl

theorem withoutHash_hash (chars : List Char) :
    withoutHash (String.ofList ('#' :: chars)) = String.ofList chars := by
  simp [withoutHash]

variable {fixed : String → Prop}

theorem table?_rel (hQ : KeepsClauses Q fixed) (h : Forall₂ (Token.Rel Q) tokens tokens') :
    Option.Rel (fun read read' => (fixed (withoutHash read.1) → read'.1 = read.1) ∧
      Forall₂ (Token.Rel Q) read.2 read'.2) (table? tokens) (table? tokens') := by
  cases h with
  | nil => exact .none
  | cons hfirst hrest =>
    cases hfirst with
    | space =>
      cases hrest with
      | nil => exact .none
      | cons hsecond hrest =>
        cases hsecond with
        | word hw =>
          refine .some ⟨?_, hrest⟩
          intro hfixed
          rw [withoutHash_of_isIdentifier (hQ.identifier hw)] at hfixed
          exact hQ.fixed hw hfixed
        | hash =>
          cases hrest with
          | nil => exact .none
          | cons hthird hrest =>
            cases hthird with
            | word hw =>
              refine .some ⟨?_, hrest⟩
              intro hfixed
              rw [withoutHash_hash] at hfixed
              rw [String.ofList_inj.1 (hQ.fixed hw hfixed)]
            | _ => exact .none
        | _ => exact .none
    | _ => exact .none

/-- A word behind white space is an alias, unless it is an `AS` with another word behind it. -/
theorem name?_word {chars : List Char} {rest : List Token}
    (h : ¬(chars = ['A', 'S'] ∧ ∃ name after, rest = .space :: .word name :: after)) :
    name? (.space :: .word chars :: rest) = some (String.ofList chars, rest) := by
  unfold name?
  split
  · next name after htokens =>
    cases htokens
    exact absurd ⟨rfl, name, after, rfl⟩ h
  · next other after _ htokens =>
    cases htokens
    rfl
  · next hnone => exact absurd rfl (hnone chars rest)

theorem name?_rel (hQ : KeepsClauses Q fixed) (h : Forall₂ (Token.Rel Q) tokens tokens') :
    Option.Rel (fun read read' => (fixed read.1 → read'.1 = read.1) ∧
      Forall₂ (Token.Rel Q) read.2 read'.2) (name? tokens) (name? tokens') := by
  cases h with
  | nil => exact .none
  | cons hfirst hrest =>
    cases hfirst with
    | space =>
      cases hrest with
      | nil => exact .none
      | @cons _ _ rest rest' hsecond hrest =>
        cases hsecond with
        | @word chars chars' hw =>
          have has : String.ofList chars' = String.ofList ['A', 'S'] ↔
              String.ofList chars = String.ofList ['A', 'S'] := hQ.keyword (by decide) hw
          rw [String.ofList_inj, String.ofList_inj] at has
          -- an `AS` is passed over only where another word follows
          by_cases hnext : ∃ name after, rest = .space :: .word name :: after
          · obtain ⟨name, after, rfl⟩ := hnext
            obtain ⟨_, _, hspace, hrest', rfl⟩ := List.forall₂_cons_left_iff.1 hrest
            obtain ⟨_, after', hname, hafter, rfl⟩ := List.forall₂_cons_left_iff.1 hrest'
            cases hspace
            cases hname with
            | word hw' =>
              by_cases hchars : chars = ['A', 'S']
              · obtain rfl := has.2 hchars
                subst hchars
                exact .some ⟨hQ.fixed hw', hafter⟩
              · rw [name?_word fun h => hchars h.1, name?_word fun h => hchars (has.1 h.1)]
                exact .some ⟨hQ.fixed hw, .cons .space (.cons (.word hw') hafter)⟩
          · have hnext' : ¬∃ name after, rest' = .space :: .word name :: after := by
              rintro ⟨name', after', rfl⟩
              obtain ⟨_, _, hspace, hrest', rfl⟩ := List.forall₂_cons_right_iff.1 hrest
              obtain ⟨_, after, hname, -, rfl⟩ := List.forall₂_cons_right_iff.1 hrest'
              cases hspace
              cases hname with
              | word _ => exact hnext ⟨_, after, rfl⟩
            rw [name?_word fun h => hnext h.2, name?_word fun h => hnext' h.2]
            exact .some ⟨hQ.fixed hw, hrest⟩
        | _ => exact .none
    | _ => exact .none

theorem clause?_rel (hQ : KeepsClauses Q fixed) (h : Forall₂ (Token.Rel Q) tokens tokens') :
    Option.Rel (fun read read' => (fixed read.1.name → fixed (withoutHash read.1.table) →
        read'.1 = read.1) ∧ Forall₂ (Token.Rel Q) read.2 read'.2)
      (clause? tokens) (clause? tokens') := by
  have htable := table?_rel hQ h
  rw [clause?_eq, clause?_eq]
  generalize table? tokens = read at htable ⊢
  generalize table? tokens' = read' at htable ⊢
  cases htable with
  | none => exact .none
  | @some first first' hfirst =>
    have hname := name?_rel hQ hfirst.2
    rw [Option.bind_some, Option.bind_some]
    generalize name? first.2 = read at hname ⊢
    generalize name? first'.2 = read' at hname ⊢
    cases hname with
    | none => exact .none
    | @some second second' hsecond =>
      refine .some ⟨?_, hsecond.2⟩
      intro hfixed hfixed'
      have hsame : first'.1 = first.1 := hfirst.1 hfixed'
      show Binding.mk second'.1 first'.1 = Binding.mk second.1 first.1
      rw [hsecond.1 hfixed, hsame]

theorem isKeyword_iff {chars : List Char} :
    isKeyword chars = true ↔ String.ofList chars = "FROM" ∨ String.ofList chars = "JOIN" := by
  have hfrom : String.ofList chars = String.ofList ['F', 'R', 'O', 'M'] ↔
      chars = ['F', 'R', 'O', 'M'] := String.ofList_inj
  have hjoin : String.ofList chars = String.ofList ['J', 'O', 'I', 'N'] ↔
      chars = ['J', 'O', 'I', 'N'] := String.ofList_inj
  show _ ↔ String.ofList chars = String.ofList ['F', 'R', 'O', 'M'] ∨
    String.ofList chars = String.ofList ['J', 'O', 'I', 'N']
  simp [isKeyword, hfrom, hjoin]

theorem bindingsOf_clause {chars : List Char} {rest after : List Token} {binding : Binding}
    (hkey : isKeyword chars = true) (hclause : clause? rest = some (binding, after)) :
    bindingsOf (.word chars :: rest) = binding :: bindingsOf after := by
  rw [bindingsOf, if_pos hkey]
  split
  · next h =>
    rw [hclause] at h
    cases h
    rfl
  · next h =>
    rw [hclause] at h
    cases h

theorem bindingsOf_no_clause {chars : List Char} {rest : List Token}
    (h : ¬(isKeyword chars = true ∧ (clause? rest).isSome = true)) :
    bindingsOf (.word chars :: rest) = bindingsOf rest := by
  rw [bindingsOf]
  split
  · next hkey =>
    split
    · next hclause => exact absurd ⟨hkey, by simp [hclause]⟩ h
    · rfl
  · rfl

theorem bindingsOf_of_ne_word {token : Token} {rest : List Token}
    (h : ∀ chars, token ≠ .word chars) : bindingsOf (token :: rest) = bindingsOf rest := by
  rw [bindingsOf]
  exact h

/-- Tokens that differ in other words have the same bindings. -/
theorem bindingsOf_eq (hQ : KeepsClauses Q fixed) (h : Forall₂ (Token.Rel Q) tokens tokens')
    (hbindings : ∀ binding ∈ bindingsOf tokens,
      fixed binding.name ∧ fixed (withoutHash binding.table)) :
    bindingsOf tokens' = bindingsOf tokens := by
  have hkeyword : ∀ {chars chars'}, Q (String.ofList chars) (String.ofList chars') →
      isKeyword chars' = isKeyword chars := by
    intro chars chars' hw
    rw [Bool.eq_iff_iff, isKeyword_iff, isKeyword_iff, hQ.keyword (by simp) hw,
      hQ.keyword (by simp) hw]
  -- the scan of the first tokens leads, and the other takes the same way
  fun_induction bindingsOf tokens generalizing tokens' with
  | case1 chars rest hkey binding after hclause _ ih =>
    obtain ⟨_, rest', hword, hrest, rfl⟩ := List.forall₂_cons_left_iff.1 h
    cases hword with
    | @word _ chars' hw =>
      have hread := clause?_rel hQ hrest
      rw [hclause] at hread
      generalize hclause' : clause? rest' = read' at hread
      cases hread with
      | @some _ second hsecond =>
        obtain ⟨binding', after'⟩ := second
        have hfixed := hbindings binding List.mem_cons_self
        obtain rfl : binding' = binding := hsecond.1 hfixed.1 hfixed.2
        rw [bindingsOf_clause ((hkeyword hw).trans hkey) hclause']
        rw [ih hsecond.2 fun b hb => hbindings b (List.mem_cons_of_mem _ hb)]
  | case2 chars rest hkey hclause ih =>
    obtain ⟨_, rest', hword, hrest, rfl⟩ := List.forall₂_cons_left_iff.1 h
    cases hword with
    | @word _ chars' hw =>
      have hread := clause?_rel hQ hrest
      rw [hclause] at hread
      generalize hclause' : clause? rest' = read' at hread
      cases hread
      rw [bindingsOf_no_clause (by simp [hclause']), ih hrest hbindings]
  | case3 chars rest hkey ih =>
    obtain ⟨_, rest', hword, hrest, rfl⟩ := List.forall₂_cons_left_iff.1 h
    cases hword with
    | @word _ chars' hw =>
      rw [bindingsOf_no_clause (by simp [hkeyword hw, hkey]), ih hrest hbindings]
  | case4 token rest hother ih =>
    obtain ⟨_, rest', htoken, hrest, rfl⟩ := List.forall₂_cons_left_iff.1 h
    cases htoken with
    | @word chars _ _ => exact absurd rfl (hother chars)
    | _ =>
      rw [bindingsOf]
      · exact ih hrest hbindings
      · simp
  | case5 =>
    cases h
    rw [bindingsOf]

/-- Texts that differ in words that are no keywords and that the first text does not bind have the
same bindings. -/
theorem bindings_eq_of_wordwise {P : List Segment → String → String → Prop} {text text' : String}
    (hPQ : ∀ b w w', P b w w' → Q w w')
    (hQ : KeepsClauses (fun w w' => isIdentifier w = true ∧ Q w w') fixed)
    (hbindings : ∀ binding ∈ bindings text,
      fixed binding.name ∧ fixed (withoutHash binding.table))
    (h : Wordwise P text text') : bindings text' = bindings text := by
  rw [bindings, ofText_eq_tokensOf] at hbindings ⊢
  rw [bindings, ofText_eq_tokensOf]
  exact bindingsOf_eq hQ (tokensOf_rel (isCut_segments _) (h.forall₂ hPQ)) hbindings

end Codename.Alias
