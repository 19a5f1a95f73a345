import Codename.Text.Word

/-!
# Occurrences of a word in a text

A text is cut at the occurrences of a word: leftmost first, without overlap, and past an occurrence
that does not stand where it should the search goes on at the next character. The cut text is a
list of pieces, of which each occurrence remembers the text in front of it, so that a later rule
can look back from it.

## Main definitions

* `Piece`, `pieces` — the cut text.
* `Piece.text` — what a piece reads when occurrences are written as given.
* `replaceWithin` — the text with the admitted occurrences replaced.
* `occursWithin` — whether there is an admitted occurrence.

## Main statements

* `flatMap_text_pieces` — writing every occurrence as the word itself gives the text back.
-/

namespace Codename.Text

/-- A part of a text that was cut at the occurrences of a word. -/
inductive Piece where
  /-- A character outside all occurrences. -/
  | other (c : Char)
  /-- An occurrence, with the text before it in reversed order. -/
  | occurrence (before : List Char)
  deriving Repr, DecidableEq

namespace Piece

/-- The characters of a piece when an occurrence with the text `before` in front of it is written
as `write before`. -/
def text (write : List Char → List Char) : Piece → List Char
  | .other c => [c]
  | .occurrence before => write before

/-- Whether the piece is an occurrence that `admits` accepts. -/
def isAdmitted (admits : List Char → Bool) : Piece → Bool
  | .other _ => false
  | .occurrence before => admits before

end Piece

/-- The pieces of a text, from a position that has `before` (reversed) behind it. An occurrence
counts where `stands before after` holds. The number is how many characters of the last occurrence
are still to be passed over. -/
def piecesFrom (word : List Char) (stands : List Char → List Char → Bool) :
    Nat → List Char → List Char → List Piece
  | _, before, [] => if word.isEmpty && stands before [] then [.occurrence before] else []
  | skip + 1, before, c :: rest => piecesFrom word stands skip (c :: before) rest
  | 0, before, c :: rest =>
    if word.isPrefixOf (c :: rest) && stands before ((c :: rest).drop word.length) then
      match word with
      | [] => .occurrence before :: .other c :: piecesFrom word stands 0 (c :: before) rest
      | _ :: tail => .occurrence before :: piecesFrom word stands tail.length (c :: before) rest
    else
      .other c :: piecesFrom word stands 0 (c :: before) rest

/-- The pieces of a whole text. -/
def pieces (word : List Char) (stands : List Char → List Char → Bool) (text : List Char) :
    List Piece :=
  piecesFrom word stands 0 [] text

/-- The text with each occurrence that `admits` accepts replaced, and all else as it was. -/
def replaceWithin (word : List Char) (stands : List Char → List Char → Bool)
    (admits : List Char → Bool) (replacement text : List Char) : List Char :=
  (pieces word stands text).flatMap
    (Piece.text fun before => if admits before then replacement else word)

/-- Whether some occurrence is accepted by `admits`. -/
def occursWithin (word : List Char) (stands : List Char → List Char → Bool)
    (admits : List Char → Bool) (text : List Char) : Bool :=
  (pieces word stands text).any (Piece.isAdmitted admits)

/-! ### Cutting loses nothing -/

theorem flatMap_text_piecesFrom (word : List Char) (stands : List Char → List Char → Bool)
    (skip : Nat) (before rest : List Char) :
    (piecesFrom word stands skip before rest).flatMap (Piece.text fun _ => word) =
      rest.drop skip := by
  induction rest generalizing skip before with
  | nil => cases word <;> simp [piecesFrom, Piece.text]
  | cons c rest ih =>
    cases skip with
    | succ skip => simpa [piecesFrom] using ih skip (c :: before)
    | zero =>
      unfold piecesFrom
      split
      · next h =>
        have hpre : word <+: c :: rest := by
          simpa using (Bool.and_eq_true_iff.1 h).1
        cases word with
        | nil => simp [Piece.text, ih]
        | cons d tail =>
          obtain ⟨after, hafter⟩ := hpre
          obtain ⟨rfl, rfl⟩ : d = c ∧ tail ++ after = rest := by simpa using hafter
          simp [Piece.text, ih]
      · simp [Piece.text, ih]

/-- Writing every occurrence as the word itself gives the text back. -/
theorem flatMap_text_pieces (word : List Char) (stands : List Char → List Char → Bool)
    (text : List Char) :
    (pieces word stands text).flatMap (Piece.text fun _ => word) = text := by
  simpa [pieces] using flatMap_text_piecesFrom word stands 0 [] text

end Codename.Text
