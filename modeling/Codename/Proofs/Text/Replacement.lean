import Codename.Proofs.Text.References

/-!
# Replacing a name in the cut of a text

A text has one cut into words and other characters. Whether a word is a reference to a name depends
on the text in front of it, as it was written. To replace a name is to write some segments of the
cut in another way, and no replacement has an influence on another.

## Main definitions

* `Reference.StandsBehind` — what has to stand in front of a name.

## Main statements

* `charsOf_rewriteFrom` — a rule for words, applied to each segment by its position.
* `Reference.substitute_cut` — which segments of a text are replaced.
-/

namespace Codename.Text

open Codename.Mapping (isIdentifier)

/-- What has to stand in front of a name for such a reference to it: nothing in particular, no `@`,
or the qualifier and a dot, with the start of the text or no word character in front of them. -/
def Reference.StandsBehind (reference : Reference) (front : List Char) : Prop :=
  match reference with
  | .word => True
  | .bare => front.getLast? ≠ some '@'
  | .qualified qualifier =>
    ∃ outer, front = outer ++ qualifier.toList ++ ['.'] ∧
      ∀ c, outer.getLast? = some c → isWordChar c = false

variable {reference : Reference} {front : List Char} {name : String}

/-! ### The text in front of a name -/

theorem startsInWord_eq_false_iff {text : List Char} :
    startsInWord text = false ↔ ∀ c, text.head? = some c → isWordChar c = false := by
  cases text with
  | nil => simp
  | cons c text => simp

/-- A name is looked at with the text in front of it read backwards. -/
theorem Reference.admits_reverse :
    reference.admits front.reverse = true ↔ reference.StandsBehind front := by
  cases reference with
  | word => exact iff_of_true rfl trivial
  | bare => rw [admits_bare_iff, List.head?_reverse, StandsBehind]
  | qualified qualifier =>
    rw [admits_qualified_eq_true, IsQualifiedBy, StandsBehind]
    constructor
    · rintro ⟨outer, hfront, hstart⟩
      refine ⟨outer.reverse, ?_, ?_⟩
      · rw [← List.reverse_inj, hfront]
        simp
      · intro c hlast
        rw [List.getLast?_reverse] at hlast
        exact startsInWord_eq_false_iff.1 hstart c hlast
    · rintro ⟨outer, rfl, hlast⟩
      refine ⟨outer.reverse, by simp, startsInWord_eq_false_iff.2 ?_⟩
      intro c hhead
      rw [List.head?_reverse] at hhead
      exact hlast c hhead

instance (reference : Reference) (front : List Char) : Decidable (reference.StandsBehind front) :=
  decidable_of_iff (reference.admits front.reverse = true) Reference.admits_reverse

theorem charsBefore_reverse (row : List Segment) :
    charsBefore row.reverse = (charsOf row).reverse := by
  induction row with
  | nil => rfl
  | cons segment row ih =>
    rw [List.reverse_cons, charsOf_cons, List.reverse_append, ← ih]
    simp [charsBefore]

theorem admits_charsBefore_reverse {row : List Segment} :
    reference.admits (charsBefore row.reverse) = true ↔ reference.StandsBehind (charsOf row) := by
  rw [charsBefore_reverse, Reference.admits_reverse]

/-! ### Segments by their positions -/

/-- What a rule for words makes of a segment with the segments `front` before it. -/
def Segment.rewritten (f : List Char → String → String) (front : List Segment) :
    Segment → List Char
  | .word name => (f (charsBefore front.reverse) name).toList
  | .other c => [c]

/-- A rewritten row has in each position what the rule makes of the segment there. -/
theorem charsOf_rewriteFrom (f : List Char → String → String) (front row : List Segment) :
    charsOf (rewriteFrom f front.reverse row) =
      (row.mapIdx fun i segment => segment.rewritten f (front ++ row.take i)).flatten := by
  induction row generalizing front with
  | nil => rfl
  | cons segment row ih =>
    have hrow := ih (front ++ [segment])
    simp only [List.reverse_append, List.reverse_singleton, List.singleton_append,
      List.append_assoc] at hrow
    cases segment with
    | word name =>
      rw [rewriteFrom, charsOf_cons, hrow, List.mapIdx_cons, List.flatten_cons]
      simp [Segment.rewritten]
    | other c =>
      rw [rewriteFrom, charsOf_cons, hrow, List.mapIdx_cons, List.flatten_cons]
      simp [Segment.rewritten]

theorem rewritten_rule (replacement : String) (front : List Segment) (segment : Segment) :
    segment.rewritten (reference.rule name replacement) front =
      if segment = .word name ∧ reference.StandsBehind (charsOf front) then replacement.toList
      else segment.chars := by
  cases segment with
  | other c => simp [Segment.rewritten]
  | word other =>
    simp only [Segment.rewritten, Reference.rule, admits_charsBefore_reverse, Segment.word.injEq]
    split <;> rfl

/-- A text has one cut into words and other characters. To replace the references to a name is to
write the replacement for those words of the cut that are the name and have in front of them what
the reference asks for, and all other segments as they are. The name is referred to if there is such
a word. -/
theorem Reference.substitute_cut (hname : isIdentifier name = true) (reference : Reference)
    (replacement text : String) :
    ∃ row, (IsCut row ∧ charsOf row = text.toList ∧
        ∀ other, IsCut other → charsOf other = text.toList → other = row) ∧
      (reference.substitute name replacement text).toList =
        (row.mapIdx fun i segment =>
          if segment = .word name ∧ reference.StandsBehind (charsOf (row.take i)) then
            replacement.toList
          else segment.chars).flatten ∧
      (reference.occurs name text = true ↔
        ∃ front back, row = front ++ .word name :: back ∧
          reference.StandsBehind (charsOf front)) := by
  refine ⟨segments text.toList, ⟨isCut_segments _, charsOf_segments _, ?_⟩, ?_, ?_⟩
  · intro other hcut htext
    rw [← htext, segments_charsOf hcut]
  · have hrow := charsOf_rewriteFrom (reference.rule name replacement) [] (segments text.toList)
    simp only [List.nil_append, rewritten_rule] at hrow
    rw [substitute_eq_mapWords hname, mapWords, String.toList_ofList]
    exact hrow
  · rw [occurs_iff hname]
    constructor
    · rintro ⟨before, ⟨back, hrow⟩, hadmits⟩
      refine ⟨before.reverse, back, hrow, admits_charsBefore_reverse.1 ?_⟩
      rwa [List.reverse_reverse]
    · rintro ⟨front, back, hrow, hstands⟩
      refine ⟨front.reverse, ⟨back, ?_⟩, admits_charsBefore_reverse.2 hstands⟩
      rw [List.reverse_reverse, hrow]

/-- Of the words `id`, the first is qualified and the third too, as no word goes on in front of its
qualifier. -/
theorem Reference.substitute_cut_query :
    isIdentifier "id" = true ∧
      (qualified "c").substitute "id" "c.id" "c.id, bc.id, éc.id, #c.ids, @id" =
        "c.c.id, bc.id, éc.c.id, #c.ids, @id" ∧
      (qualified "c").occurs "id" "c.id, bc.id, éc.id, #c.ids, @id" = true := by
  have hname : isIdentifier "id" = true := by decide
  obtain ⟨row, ⟨-, -, hunique⟩, hsubstitute, hoccurs⟩ := substitute_cut hname (qualified "c") "c.id"
    "c.id, bc.id, éc.id, #c.ids, @id"
  obtain rfl := hunique _ (isCut_segments _) (charsOf_segments _)
  refine ⟨hname, String.toList_inj.1 (hsubstitute.trans (by decide +kernel)), hoccurs.2 ?_⟩
  exact ⟨[.word "c", .other '.'], _, rfl, by decide +kernel⟩

end Codename.Text
