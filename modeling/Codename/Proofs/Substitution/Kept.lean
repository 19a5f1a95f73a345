import Codename.Proofs.Substitution.Steps
import Codename.Proofs.Text.Stretches

/-!
# What encrypting keeps

Whatever the names of a mapping are, replacements put words in the place of words, and so encrypting
a query keeps what stands between its words. Substituting columns moreover does not touch three
kinds of words: those that are no columns, parameters, and columns without a qualifier for which no
table or several can be meant. What counts in front of a word is one character, which no replacement
changes. So a word that is spared at first is spared to the end, also where the code name of one
column is another column.

## Main definitions

* `Mapping.Spared` — the words that replacing the listed columns leaves alone.

## Main statements

* `Mapping.Replaces.not_spared` — no replacement touches a word that is spared.
* `Mapping.wordwise_spared`, `Mapping.wordwise_spared_encrypt` — what each replacement spares, the
  whole run spares.
* `Mapping.substituteColumns_spares` — the words that no run touches, and the parameters of a query.
* `Mapping.stretches_encrypt` — the shape of a query.
-/

namespace Codename.Mapping

open Codename.Text
open List (Forall₂)

/-- Replacing the columns in the list leaves a word with the reversed text `before` in front of it
alone: the word is none of them, or a parameter, or it has no qualifier and the source mentions no
table or several that have it as a column. -/
def Spared (mapping : Mapping) (source : String) (columns : List String) (before : List Char)
    (word : String) : Prop :=
  word ∉ columns ∨ before.head? = some '@' ∨
    before.head? ≠ some '.' ∧ (mapping.referencedOwners source word).length ≠ 1

variable {mapping : Mapping} {source word : String} {aliases : Alias.Table} {columns : List String}
  {before before' : List Char}

/-! ### Words that are spared -/

theorem Spared.of_head?_eq (hhead : before'.head? = before.head?)
    (h : mapping.Spared source columns before word) :
    mapping.Spared source columns before' word := by
  rw [Spared, hhead]
  exact h

/-- No replacement touches a word that is spared. -/
theorem Replaces.not_spared {reference : Reference} {column code : String}
    (h : mapping.Replaces source aliases columns reference column code)
    (hadmits : reference.admits before = true) :
    ¬mapping.Spared source columns before column := by
  rintro (hnot | hparameter | ⟨hdot, hlength⟩)
  · exact hnot h.mem
  · have hbare : Reference.bare.admits before = true := by
      cases h with
      | qualified _ _ _ => exact Reference.admits_bare_of_qualified hadmits
      | bare _ _ => exact hadmits
    exact Reference.admits_bare_iff.1 hbare hparameter
  · cases h with
    | qualified _ _ _ =>
      -- a qualifier ends with a dot
      obtain ⟨front, rfl, -⟩ := Reference.admits_qualified_eq_true.1 hadmits
      exact hdot rfl
    | bare _ hsole =>
      rw [soleCodeColumn?_eq_none_iff.2 hlength] at hsole
      cases hsole

/-- In front of a word the character that counts is the same in both texts. -/
theorem Replaces.not_spared_of_aligned {reference : Reference} {column code : String}
    {Q : String → String → Prop} {b b' : List Segment}
    (h : mapping.Replaces source aliases columns reference column code)
    (halign : Aligned Q b b' word column) (hadmits : reference.admits (charsBefore b') = true) :
    ¬mapping.Spared source columns (charsBefore b) column := by
  intro hspared
  exact h.not_spared hadmits (hspared.of_head?_eq halign.head?_charsBefore)

/-- A word that is spared comes out unchanged when the columns in the list are replaced. -/
theorem wordwise_spared (source : String) (aliases : Alias.Table) (columns : List String)
    (text : String) :
    Wordwise (fun b w w' => mapping.Spared source columns (charsBefore b) w → w' = w) text
      (columns.foldl (mapping.substituteColumn source aliases) text) := by
  refine foldl_substituteColumn_induction (I := Wordwise _ text) ?_ ?_
  · intro reference column code text' hreplaces
    refine hreplaces.wordwise ?_
    intro b b' w halign hadmits hkept hspared
    -- up to here the word is what it was, so it is the column that is replaced
    obtain rfl := hkept hspared
    exact absurd hspared (hreplaces.not_spared_of_aligned halign hadmits)
  · refine (Wordwise.refl text).imp ?_
    intro b w w' _ hsame _
    exact hsame

/-- A word that is spared comes out of encrypting unchanged if it is no table. -/
theorem wordwise_spared_encrypt (mapping : Mapping) (text : String) :
    Wordwise
      (fun b w w' => w ∉ mapping.tables.keys →
        mapping.Spared text mapping.columnNames (charsBefore b) w → w' = w)
      text (mapping.encrypt text) := by
  refine wordwise_encrypt ?_ ?_
  · intro b w _ htable _
    exact foldl_renameTable_of_not_mem htable
  · intro reference column code hreplaces b b' w halign hadmits hkept htable hspared
    obtain rfl := hkept htable hspared
    exact absurd hspared (hreplaces.not_spared_of_aligned halign hadmits)

/-- Substituting columns leaves each word alone that is no column, or is a parameter, or has no
qualifier and could be a column of no table or of several that the source mentions. So in an
encrypted query a parameter is what substituting tables has made of it. -/
theorem substituteColumns_spares (mapping : Mapping) (source text : String)
    (aliases : Alias.Table) :
    Wordwise
        (fun before word word' =>
          word ∉ mapping.columnNames ∨ (charsBefore before).head? = some '@' ∨
              (charsBefore before).head? ≠ some '.' ∧
                (mapping.referencedOwners source word).length ≠ 1 →
            word' = word)
        text (mapping.substituteColumns source aliases text) ∧
      ∀ query, Wordwise
        (fun before word word' => (charsBefore before).head? = some '@' → word' = word)
        (mapping.substituteTables query) (mapping.encrypt query) := by
  refine ⟨wordwise_spared source aliases mapping.columnNames text, ?_⟩
  intro query
  refine (wordwise_spared query (mapping.queryAliases query) mapping.columnNames
    (mapping.substituteTables query)).imp ?_
  intro b w w' _ hspared hparameter
  exact hspared (.inr (.inl hparameter))

/-! ### The shape of a query -/

/-- Each word is as it was, or a table or column in the place of which a code name stands. -/
theorem wordwise_recoded_encrypt (mapping : Mapping) (text : String) :
    Wordwise
      (fun _ w w' => Recoded (mapping.tables.keys ++ mapping.columnNames)
        (mapping.codeTables ++ mapping.codeColumns) w w')
      text (mapping.encrypt text) := by
  refine wordwise_encrypt ?_ ?_
  · intro b w _
    rcases recoded_tableWord mapping w with hsame | ⟨htable, hcode⟩
    · exact .inl hsame
    · exact .inr ⟨List.mem_append_left _ htable, List.mem_append_left _ hcode⟩
  · intro reference column code hreplaces b b' w _ _ hrecoded
    obtain ⟨codeTable, hcode⟩ := hreplaces.exists_codeColumn?
    refine .inr ⟨?_, List.mem_append_right _ (mem_codeColumns_of_codeColumn? hcode)⟩
    rcases hrecoded with rfl | ⟨hplain, -⟩
    · exact List.mem_append_right _ hreplaces.mem
    · exact hplain

/-- An encrypted query has the stretches between words that the query has, and as many words. Each
of them is the word of the query at this place or the code name of a table or column, and a word
that is neither a table nor a column is unchanged. -/
theorem stretches_encrypt (mapping : Mapping) (text : String) :
    stretches (mapping.encrypt text) = stretches text ∧
      (words (mapping.encrypt text)).length = (words text).length ∧
      Forall₂
        (fun word word' =>
          (word' = word ∨ word' ∈ mapping.codeTables ∨ word' ∈ mapping.codeColumns) ∧
            (word ∉ mapping.tables.keys → word ∉ mapping.columnNames → word' = word))
        (words text) (words (mapping.encrypt text)) := by
  have hpairs := wordwise_recoded_encrypt mapping text
  have hwords := hpairs.forall₂_words (Q := Recoded _ _) fun _ _ _ h => h
  refine ⟨hpairs.stretches_eq, hwords.length_eq.symm, hwords.imp ?_⟩
  rintro word word' (hsame | ⟨hplain, hcode⟩)
  · exact ⟨.inl hsame, fun _ _ => hsame⟩
  · refine ⟨.inr (List.mem_append.1 hcode), ?_⟩
    intro htable hcolumn
    exact absurd hplain (by simp [htable, hcolumn])

end Codename.Mapping
