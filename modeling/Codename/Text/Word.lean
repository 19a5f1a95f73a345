/-!
# Classes of characters

Names are made of ASCII letters, digits and `_`. A *word* of a text is a maximal run of these
characters; every other character, letters outside ASCII included, separates words. Larger classes
are written down as lists of closed ranges of code points, white space among them.

## Main definitions

* `isWordChar` — the characters that can continue a word.
* `isBoundary` — whether a word starts or ends between two neighbouring characters.
* `standsAlone` — whether an occurrence of a string begins and ends on boundaries.
* `isWithin` — membership in a list of ranges.
* `isBlank` — the Unicode property `White_Space`.
-/

namespace Codename.Text

/-! ### Words -/

/-- A word character: an ASCII letter, an ASCII digit or an underscore. -/
def isWordChar (c : Char) : Bool :=
  c.isAlphanum || c == '_'

/-- A boundary lies between two neighbours of which exactly one is a word character. The ends of a
text count as characters that are none. -/
def isBoundary (left right : Option Char) : Bool :=
  left.any isWordChar != right.any isWordChar

/-- An occurrence of `word` between `before` (the text in front of it, reversed) and `after` stands
alone if it begins and ends on a boundary. -/
def standsAlone (word before after : List Char) : Bool :=
  isBoundary before.head? (word ++ after).head? &&
    isBoundary (word.reverse ++ before).head? after.head?

/-! ### Ranges -/

/-- Whether one of the closed ranges holds the character. -/
def isWithin (ranges : List (Nat × Nat)) (c : Char) : Bool :=
  ranges.any fun range => range.1 ≤ c.toNat && c.toNat ≤ range.2

/-- The closed ranges of code points that have the property `White_Space`. -/
def blankRanges : List (Nat × Nat) :=
  [(0x9, 0xD), (0x20, 0x20), (0x85, 0x85), (0xA0, 0xA0), (0x1680, 0x1680), (0x2000, 0x200A),
    (0x2028, 0x2029), (0x202F, 0x202F), (0x205F, 0x205F), (0x3000, 0x3000)]

/-- White space, inside ASCII and beyond it. -/
def isBlank (c : Char) : Bool :=
  isWithin blankRanges c

example : (blankRanges.map fun range => range.2 + 1 - range.1).sum = 25 := by decide

end Codename.Text
