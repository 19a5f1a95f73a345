import Codename.Text.Occurrence

/-!
# References to a name

A name is mentioned in a text where it stands alone as a word. Some rules ask for more: a column is
not mentioned by the query parameter `@name`, and a qualified reference needs its qualifier and a
dot right in front of it. What is asked is decided from the text before the occurrence as it is
written, so a rule never sees what was put in for an earlier occurrence.

## Main definitions

* `Reference` — what has to stand in front of an occurrence.
* `Reference.occurs`, `Reference.substitute` — whether a name is referred to, and the text with
  these references replaced.
* `replaceSubstring` — every occurrence replaced, inside of words too.
-/

namespace Codename.Text

/-- The ways in which a text refers to a name. -/
inductive Reference where
  /-- The name as a whole word, whatever is in front of it. -/
  | word
  /-- The name as a whole word that is no parameter, so not written `@name`. -/
  | bare
  /-- The name as a whole word, written `qualifier.name`. -/
  | qualified (qualifier : String)
  deriving Repr, DecidableEq

namespace Reference

/-- Whether the reversed text `before` ends with the qualifier and a dot, the qualifier itself
starting where no word goes on. -/
def followsQualifier (qualifier before : List Char) : Bool :=
  match before with
  | '.' :: rest =>
    qualifier.reverse.isPrefixOf rest && !(rest.drop qualifier.length).head?.any isWordChar
  | _ => false

/-- Whether an occurrence with the reversed text `before` in front of it is such a reference. -/
def admits (reference : Reference) (before : List Char) : Bool :=
  match reference with
  | .word => true
  | .bare => before.head? != some '@'
  | .qualified qualifier => followsQualifier qualifier.toList before

/-- Whether the text refers to the name. -/
def occurs (reference : Reference) (name text : String) : Bool :=
  occursWithin name.toList (standsAlone name.toList) reference.admits text.toList

/-- The text with every such reference to the name replaced. The qualifier is kept as written. -/
def substitute (reference : Reference) (name replacement text : String) : String :=
  String.ofList <|
    replaceWithin name.toList (standsAlone name.toList) reference.admits replacement.toList
      text.toList

@[simp] theorem admits_word (before : List Char) : Reference.word.admits before = true := rfl

/-- A qualified reference is no parameter. -/
theorem admits_bare_of_qualified {qualifier : String} {before : List Char}
    (h : (Reference.qualified qualifier).admits before = true) :
    Reference.bare.admits before = true := by
  cases before with
  | nil => simp [admits, followsQualifier] at h
  | cons c rest =>
    by_cases hc : c = '.'
    · subst hc; simp [admits]
    · simp [admits, followsQualifier, hc] at h

end Reference

/-- The text with every occurrence of a string replaced, inside of words too. -/
def replaceSubstring (string replacement text : String) : String :=
  String.ofList <|
    replaceWithin string.toList (fun _ _ => true) (fun _ => true) replacement.toList text.toList

end Codename.Text
