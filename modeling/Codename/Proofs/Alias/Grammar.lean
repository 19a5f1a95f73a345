import Codename.Proofs.Alias.Tokens

/-!
# The grammar of clauses

Clauses can be read from the characters of a text, without any tokens: a clause is a keyword, white
space, a table, white space and an alias, where words and white space are maximal runs. A text is
read from left to right, one clause, word or other character after another. There is one way to do
so, and it gives the bindings of the text.

## Main definitions

* `ReadsTable`, `ReadsName`, `ReadsClause` — the parts of a clause, and what follows a keyword.
* `ReadsBindings` — a text and the bindings of its clauses.

## Main statements

* `table?_ofText_eq_some_iff`, `name?_ofText_eq_some_iff`, `clause?_ofText_eq_some_iff` — what is
  read from the tokens of a text is what the grammar reads from its characters.
* `bindings_eq_iff_readsBindings` — the bindings of a text are those that the grammar gives.
-/

namespace Codename.Alias

open Codename.Text

/-- A table in front of `rest`: a word, or the sign `#` and a word right behind it. -/
inductive ReadsTable : List Char → String → List Char → Prop
  | plain {name : String} {rest : List Char} (h : IsRun isWordChar name.toList rest) :
      ReadsTable (name.toList ++ rest) name rest
  | temporary {name : String} {rest : List Char} (h : IsRun isWordChar name.toList rest) :
      ReadsTable ('#' :: (name.toList ++ rest)) ("#" ++ name) rest

/-- White space and a word behind it, in front of `rest`. -/
def ReadsNext (text : List Char) (name : String) (rest : List Char) : Prop :=
  ∃ gap, text = gap ++ (name.toList ++ rest) ∧ IsRun isBlank gap (name.toList ++ rest) ∧
    IsRun isWordChar name.toList rest

/-- An alias in front of `rest`: the word behind `AS` and white space, or else the word that is
there, which is `AS` itself if no word follows it after white space. -/
inductive ReadsName : List Char → String → List Char → Prop
  | introduced {text rest : List Char} {name : String} (h : ReadsNext text name rest) :
      ReadsName ("AS".toList ++ text) name rest
  | direct {name : String} {rest : List Char} (h : IsRun isWordChar name.toList rest)
      (hlast : name = "AS" → ∀ next after, ¬ReadsNext rest next after) :
      ReadsName (name.toList ++ rest) name rest

/-- The part of a clause behind its keyword: white space, a table, white space and an alias. -/
inductive ReadsClause : List Char → Binding → List Char → Prop
  | mk {gap front gap' back rest : List Char} {table name : String}
      (hgap : IsRun isBlank gap front) (htable : ReadsTable front table (gap' ++ back))
      (hgap' : IsRun isBlank gap' back) (hname : ReadsName back name rest) :
      ReadsClause (gap ++ front) ⟨name, table⟩ rest

/-- The words that start a clause; no other spelling of them does. -/
def StartsClause (word : String) : Prop := word = "FROM" ∨ word = "JOIN"

/-- A text and the bindings of its clauses. Behind a clause the reading goes on right after the
alias, and behind a word that starts none right after the word. -/
inductive ReadsBindings : List Char → List Binding → Prop
  | nil : ReadsBindings [] []
  | clause {keyword : String} {text rest : List Char} {binding : Binding} {found : List Binding}
      (hword : IsRun isWordChar keyword.toList text) (hkeyword : StartsClause keyword)
      (hclause : ReadsClause text binding rest) (hrest : ReadsBindings rest found) :
      ReadsBindings (keyword.toList ++ text) (binding :: found)
  | word {name : String} {rest : List Char} {found : List Binding}
      (hword : IsRun isWordChar name.toList rest)
      (hnone : StartsClause name → ∀ binding after, ¬ReadsClause rest binding after)
      (hrest : ReadsBindings rest found) : ReadsBindings (name.toList ++ rest) found
  | other {c : Char} {rest : List Char} {found : List Binding} (hc : isWordChar c = false)
      (hrest : ReadsBindings rest found) : ReadsBindings (c :: rest) found

variable {text rest : List Char} {tokens : List Token} {name table : String} {binding : Binding}

/-! ### The parts of a clause -/

theorem ofText_eq_of_readsNext (h : ReadsNext text name rest) :
    Token.ofText text = .space :: .word name.toList :: Token.ofText rest := by
  obtain ⟨gap, rfl, hgap, hname⟩ := h
  rw [(Token.Begins.space hgap).ofText, (Token.Begins.word hname).ofText]

theorem exists_readsNext {chars : List Char}
    (h : Token.ofText text = .space :: .word chars :: tokens) :
    ∃ rest, ReadsNext text (String.ofList chars) rest ∧ Token.ofText rest = tokens := by
  obtain ⟨front, hspace, hfront⟩ := ofText_eq_cons_iff.1 h
  obtain ⟨rest, hword, hrest⟩ := ofText_eq_cons_iff.1 hfront
  cases hspace with
  | @space gap _ hgap =>
    cases hword with
    | word hrun =>
      rw [← String.toList_ofList (l := chars)] at hgap hrun
      exact ⟨rest, ⟨gap, by rw [String.toList_ofList], hgap, hrun⟩, hrest⟩

/-- An `AS` with white space behind it is a maximal word there. -/
theorem ReadsNext.isRun_as (h : ReadsNext text name rest) : IsRun isWordChar "AS".toList text := by
  obtain ⟨gap, rfl, hgap, -⟩ := h
  refine ⟨by decide, List.all_eq_true.1 (by decide), ?_⟩
  intro c hc
  rw [List.head?_append_of_ne_nil _ hgap.ne_nil] at hc
  exact isWordChar_of_isBlank (hgap.all c (List.mem_of_head? hc))

theorem hash_append (name : String) : "#" ++ name = String.ofList ('#' :: name.toList) := by
  rw [← String.toList_inj]
  simp

/-- A table is read from the tokens as the grammar has it. -/
theorem table?_ofText_eq_some_iff :
    table? (Token.ofText text) = some (table, tokens) ↔
      ∃ gap front rest, text = gap ++ front ∧ IsRun isBlank gap front ∧
        ReadsTable front table rest ∧ Token.ofText rest = tokens := by
  constructor
  · intro h
    unfold table? at h
    split at h
    · next chars after htokens =>
      cases h
      obtain ⟨rest, ⟨gap, rfl, hgap, hname⟩, hrest⟩ := exists_readsNext htokens
      exact ⟨gap, _, rest, rfl, hgap, .plain hname, hrest⟩
    · next chars after htokens =>
      cases h
      obtain ⟨front, hspace, hfront⟩ := ofText_eq_cons_iff.1 htokens
      obtain ⟨middle, hhash, hmiddle⟩ := ofText_eq_cons_iff.1 hfront
      obtain ⟨rest, hword, hrest⟩ := ofText_eq_cons_iff.1 hmiddle
      cases hspace with
      | @space gap _ hgap =>
        cases hhash
        cases hword with
        | word hrun =>
          rw [← String.toList_ofList (l := chars)] at hrun
          have htable := ReadsTable.temporary hrun
          rw [hash_append, String.toList_ofList] at htable
          exact ⟨gap, _, rest, rfl, hgap, htable, hrest⟩
    · cases h
  · rintro ⟨gap, front, rest, rfl, hgap, htable, rfl⟩
    rw [(Token.Begins.space hgap).ofText]
    cases htable with
    | @plain name _ hrun =>
      rw [(Token.Begins.word hrun).ofText, table?, String.ofList_toList]
    | @temporary name _ hrun =>
      rw [(Token.Begins.hash _).ofText, (Token.Begins.word hrun).ofText, table?, hash_append]

/-- An alias is read from the tokens as the grammar has it. -/
theorem name?_ofText_eq_some_iff :
    name? (Token.ofText text) = some (name, tokens) ↔
      ∃ gap front rest, text = gap ++ front ∧ IsRun isBlank gap front ∧
        ReadsName front name rest ∧ Token.ofText rest = tokens := by
  constructor
  · intro h
    unfold name? at h
    split at h
    · next chars after htokens =>
      cases h
      obtain ⟨front, ⟨gap, rfl, hgap, has⟩, hfront⟩ := exists_readsNext htokens
      obtain ⟨rest, hnext, hrest⟩ := exists_readsNext hfront
      exact ⟨gap, _, rest, rfl, hgap, .introduced hnext, hrest⟩
    · next chars after hnot htokens =>
      cases h
      obtain ⟨rest, ⟨gap, rfl, hgap, hname⟩, rfl⟩ := exists_readsNext htokens
      refine ⟨gap, _, rest, rfl, hgap, .direct hname ?_, rfl⟩
      intro has next last hnext
      have hchars : chars = ['A', 'S'] := String.ofList_inj.1 has
      exact hnot next.toList _ (ofText_eq_of_readsNext hnext) hchars
    · cases h
  · rintro ⟨gap, front, rest, rfl, hgap, hname, rfl⟩
    rw [(Token.Begins.space hgap).ofText]
    cases hname with
    | introduced hnext =>
      rw [(Token.Begins.word hnext.isRun_as).ofText, ofText_eq_of_readsNext hnext]
      show name? (.space :: .word ['A', 'S'] :: .space :: .word name.toList :: _) = _
      rw [name?, String.ofList_toList]
    | @direct name _ hrun hlast =>
      rw [(Token.Begins.word hrun).ofText, name?_word, String.ofList_toList]
      rintro ⟨has, next, after, hnext⟩
      obtain ⟨last, hreads, -⟩ := exists_readsNext hnext
      exact hlast (String.toList_inj.1 has) _ _ hreads

/-- A clause is read from the tokens as the grammar has it. -/
theorem clause?_ofText_eq_some_iff :
    clause? (Token.ofText text) = some (binding, tokens) ↔
      ∃ rest, ReadsClause text binding rest ∧ Token.ofText rest = tokens := by
  rw [clause?_eq, Option.bind_eq_some_iff]
  constructor
  · rintro ⟨⟨table, middle⟩, htable, hclause⟩
    obtain ⟨⟨name, last⟩, hname, hread⟩ := Option.map_eq_some_iff.1 hclause
    cases hread
    obtain ⟨gap, front, between, rfl, hgap, hfront, rfl⟩ := table?_ofText_eq_some_iff.1 htable
    obtain ⟨gap', back, rest, rfl, hgap', hback, hrest⟩ := name?_ofText_eq_some_iff.1 hname
    exact ⟨rest, .mk hgap hfront hgap' hback, hrest⟩
  · rintro ⟨rest, hclause, rfl⟩
    cases hclause with
    | mk hgap htable hgap' hname =>
      refine ⟨_, table?_ofText_eq_some_iff.2 ⟨_, _, _, rfl, hgap, htable, rfl⟩, ?_⟩
      rw [name?_ofText_eq_some_iff.2 ⟨_, _, _, rfl, hgap', hname, rfl⟩]
      rfl

/-! ### Whole texts -/

theorem startsClause_iff {name : String} : StartsClause name ↔ isKeyword name.toList = true := by
  rw [isKeyword_iff, String.ofList_toList, StartsClause]

/-- What the grammar gives is found by the scan of the tokens. -/
theorem bindingsOf_ofText {found : List Binding} (h : ReadsBindings text found) :
    bindingsOf (Token.ofText text) = found := by
  induction h with
  | nil => rw [Token.ofText_nil, bindingsOf]
  | clause hword hkeyword hclause _ ih =>
    have hread := clause?_ofText_eq_some_iff.2 ⟨_, hclause, rfl⟩
    rw [(Token.Begins.word hword).ofText, bindingsOf_clause (startsClause_iff.1 hkeyword) hread, ih]
  | @word name rest _ hword hnone _ ih =>
    rw [(Token.Begins.word hword).ofText, bindingsOf_no_clause, ih]
    rintro ⟨hkeyword, hclause⟩
    obtain ⟨⟨binding, after⟩, hclause⟩ := Option.isSome_iff_exists.1 hclause
    obtain ⟨last, hreads, -⟩ := clause?_ofText_eq_some_iff.1 hclause
    exact hnone (startsClause_iff.2 hkeyword) _ _ hreads
  | @other c rest _ hc _ ih =>
    rw [Token.ofText_cons]
    obtain ⟨after, hpush, rfl | hspace⟩ | hpush | hpush :=
      push_of_isWordChar_eq_false hc (Token.ofText rest)
    · rw [hpush, bindingsOf_of_ne_word (by simp), ih]
    · rw [hpush, hspace, ih]
    · rw [hpush, bindingsOf_of_ne_word (by simp), ih]
    · rw [hpush, bindingsOf_of_ne_word (by simp), ih]

theorem readsBindings_append {gap rest : List Char} {found : List Binding}
    (hgap : ∀ c ∈ gap, isWordChar c = false) (h : ReadsBindings rest found) :
    ReadsBindings (gap ++ rest) found := by
  induction gap with
  | nil => exact h
  | cons c gap ih =>
    exact .other (hgap c List.mem_cons_self) (ih fun d hd => hgap d (List.mem_cons_of_mem _ hd))

/-- What the scan of the tokens finds, the grammar gives. -/
theorem readsBindings_of_ofText (h : Token.ofText text = tokens) :
    ReadsBindings text (bindingsOf tokens) := by
  fun_induction bindingsOf tokens generalizing text with
  | case1 chars rest hkeyword binding after hclause _ ih =>
    obtain ⟨behind, hbegins, rfl⟩ := ofText_eq_cons_iff.1 h
    obtain ⟨last, hreads, hlast⟩ := clause?_ofText_eq_some_iff.1 hclause
    cases hbegins with
    | word hrun =>
      rw [← String.toList_ofList (l := chars)] at hrun hkeyword ⊢
      exact .clause hrun (startsClause_iff.2 hkeyword) hreads (ih hlast)
  | case2 chars rest hkeyword hclause ih =>
    obtain ⟨behind, hbegins, rfl⟩ := ofText_eq_cons_iff.1 h
    cases hbegins with
    | word hrun =>
      rw [← String.toList_ofList (l := chars)] at hrun ⊢
      refine .word hrun ?_ (ih rfl)
      intro _ binding last hreads
      have hread := clause?_ofText_eq_some_iff.2 ⟨last, hreads, rfl⟩
      rw [hclause] at hread
      cases hread
  | case3 chars rest hkeyword ih =>
    obtain ⟨behind, hbegins, rfl⟩ := ofText_eq_cons_iff.1 h
    cases hbegins with
    | word hrun =>
      rw [← String.toList_ofList (l := chars)] at hrun hkeyword ⊢
      exact .word hrun (fun hstarts => absurd (startsClause_iff.1 hstarts) hkeyword) (ih rfl)
  | case4 token rest hother ih =>
    obtain ⟨behind, hbegins, rfl⟩ := ofText_eq_cons_iff.1 h
    cases hbegins with
    | word hrun => exact absurd rfl (hother _)
    | space hrun =>
      exact readsBindings_append (fun c hc => isWordChar_of_isBlank (hrun.all c hc)) (ih rfl)
    | hash behind => exact .other (by decide) (ih rfl)
    | symbol hword hblank hhash => exact .other hword (ih rfl)
  | case5 =>
    cases text with
    | nil => exact .nil
    | cons c text =>
      obtain ⟨token, behind, hbegins⟩ := exists_begins c text
      rw [hbegins.ofText] at h
      cases h

/-- The bindings of a text are those that the grammar gives. -/
theorem bindings_eq_iff_readsBindings (text : String) (found : List Binding) :
    bindings text = found ↔ ReadsBindings text.toList found := by
  constructor
  · rintro rfl
    exact readsBindings_of_ofText rfl
  · exact bindingsOf_ofText

/-! A dangling `AS` is an alias, and a keyword may be a table. -/

example : bindings "FROM FROM AS; JOIN #T AS\tx" = [⟨"AS", "FROM"⟩, ⟨"x", "#T"⟩] := by
  decide +kernel

end Codename.Alias
