import Codename.Json.Escape
import Codename.Json.Number

/-!
# Values that are passed over

The value of a field that no record knows is only checked for its form: it may nest to any depth,
its numbers may be of any size and its escapes need not pair up. The check keeps the brackets that
are open and goes through the text once.

## Main definitions

* `skipBlank` — drops the white space in front.
* `skipWord` — passes over one of the words `null`, `true` and `false`.
* `skipValue` — passes over a value.

## Main statements

* `length_lt_of_skipValue` — passing over a value takes text.
-/

namespace Codename.Json

/-- White space between the parts of a JSON text. -/
def isSpace (c : Char) : Bool :=
  c == ' ' || c == '\t' || c == '\n' || c == '\r'

/-- The text without the white space in front. -/
def skipBlank (text : List Char) : List Char :=
  text.dropWhile isSpace

theorem length_skipBlank_le (text : List Char) : (skipBlank text).length ≤ text.length :=
  length_dropWhile_le isSpace text

/-- What follows the first character that is no white space is shorter than the text. -/
theorem length_lt_of_skipBlank {text rest : List Char} {c : Char}
    (h : skipBlank text = c :: rest) : rest.length < text.length := by
  have hle := length_skipBlank_le text
  rw [h, List.length_cons] at hle
  exact hle

/-- Passes over the given characters, the rest of a word. -/
def skipWord (word text : List Char) : Except Fault (List Char) :=
  match word, text with
  | [], text => .ok text
  | _ :: _, [] => .error .endInValue
  | w :: word, c :: rest => if c = w then skipWord word rest else .error .noLiteral

theorem length_le_of_skipWord {word text rest : List Char} (h : skipWord word text = .ok rest) :
    rest.length ≤ text.length := by
  fun_induction skipWord word text with
  | case1 text => cases h; exact Nat.le_refl _
  | case2 => cases h
  | case3 word c tail ih => exact Nat.le_succ_of_le (ih h)
  | case4 => cases h

def skipColon (text : List Char) : Except Fault (List Char) :=
  match skipBlank text with
  | [] => .error .endInObject
  | ':' :: rest => .ok rest
  | _ => .error .noColon

theorem length_lt_of_skipColon {text rest : List Char} (h : skipColon text = .ok rest) :
    rest.length < text.length := by
  unfold skipColon at h
  split at h
  · cases h
  · next hblank =>
    cases h
    exact length_lt_of_skipBlank hblank
  · cases h

def skipKey (text : List Char) : Except Fault (List Char) :=
  match skipBlank text with
  | [] => .error .endInObject
  | '"' :: rest => do
    let rest ← skipString rest
    skipColon rest
  | _ => .error .keyNotString

theorem length_lt_of_skipKey {text rest : List Char} (h : skipKey text = .ok rest) :
    rest.length < text.length := by
  unfold skipKey at h
  split at h
  · cases h
  · next tail hblank =>
    have htail := length_lt_of_skipBlank hblank
    cases hstring : skipString tail with
    | error fault => simp [hstring, bind, Except.bind] at h
    | ok after =>
      have hlt := length_lt_of_skipString hstring
      simp only [hstring, bind, Except.bind] at h
      have hcolon := length_lt_of_skipColon h
      omega
  · cases h

/-- Passes over a word, a number or a string that starts with `c`. -/
def skipScalar (c : Char) (rest : List Char) : Except Fault (List Char) :=
  match c with
  | 'n' => skipWord ['u', 'l', 'l'] rest
  | 't' => skipWord ['r', 'u', 'e'] rest
  | 'f' => skipWord ['a', 'l', 's', 'e'] rest
  | '"' => skipString rest
  | c =>
    if c = '-' || c.isDigit then
      (readNumeral .malformedNumber (c :: rest)).map fun (_, rest) => rest
    else .error .noValue

theorem length_lt_of_skipScalar {c : Char} {text rest : List Char}
    (h : skipScalar c text = .ok rest) : rest.length < text.length + 1 := by
  unfold skipScalar at h
  split at h
  · exact Nat.lt_succ_of_le (length_le_of_skipWord h)
  · exact Nat.lt_succ_of_le (length_le_of_skipWord h)
  · exact Nat.lt_succ_of_le (length_le_of_skipWord h)
  · exact Nat.lt_succ_of_lt (length_lt_of_skipString h)
  · split at h
    · cases hnumeral : readNumeral .malformedNumber (c :: text) with
      | error fault => simp [hnumeral, Except.map] at h
      | ok pair =>
        obtain ⟨numeral, after⟩ := pair
        have hlt := length_lt_of_readNumeral hnumeral
        simp only [hnumeral, Except.map] at h
        cases h
        simpa using hlt
    · cases h

/-- A list or an object that is open. -/
inductive Container where
  | list
  | object
  deriving Repr, DecidableEq

namespace Container

def closing : Container → Char
  | .list => ']'
  | .object => '}'

/-- The fault of a text that ends inside the container. -/
def atEnd : Container → Fault
  | .list => .endInList
  | .object => .endInObject

/-- The fault of a text that goes on with neither a comma nor the closing bracket. -/
def notClosed : Container → Fault
  | .list => .noListEnd
  | .object => .noObjectEnd

end Container

/-- What a text that is passed over has to go on with. -/
inductive Expects where
  /-- A value, in front of which a key stands if it is a member of an object. -/
  | item
  /-- The same, or the end of the container that was just opened. -/
  | itemOrEnd
  /-- A comma or the end of the innermost container, if one is open. -/
  | separator
  deriving Repr, DecidableEq

/-- Passes over the key of a member of an object; elements of a list have none. -/
def skipLabel (containers : List Container) (text : List Char) : Except Fault (List Char) :=
  match containers with
  | .object :: _ => skipKey text
  | _ => .ok text

theorem length_le_of_skipLabel {containers : List Container} {text rest : List Char}
    (h : skipLabel containers text = .ok rest) : rest.length ≤ text.length := by
  unfold skipLabel at h
  split at h
  · exact Nat.le_of_lt (length_lt_of_skipKey h)
  · cases h
    exact Nat.le_refl _

/-- Passes over text until every container is closed. -/
def skipFrom (expects : Expects) (containers : List Container) (text : List Char) :
    Except Fault (List Char) :=
  match expects, containers with
  | .item, containers =>
    match hlabel : skipLabel containers text with
    | .error fault => .error fault
    | .ok labelled =>
      have := length_le_of_skipLabel hlabel
      match hblank : skipBlank labelled with
      | [] => .error .endInValue
      | '[' :: rest =>
        have := length_lt_of_skipBlank hblank
        skipFrom .itemOrEnd (.list :: containers) rest
      | '{' :: rest =>
        have := length_lt_of_skipBlank hblank
        skipFrom .itemOrEnd (.object :: containers) rest
      | c :: rest =>
        have := length_lt_of_skipBlank hblank
        match hscalar : skipScalar c rest with
        | .error fault => .error fault
        | .ok after =>
          have := length_lt_of_skipScalar hscalar
          skipFrom .separator containers after
  | _, [] => .ok text
  | expects, container :: outer =>
    match hblank : skipBlank text with
    | [] => .error container.atEnd
    | c :: rest =>
      have := length_lt_of_skipBlank hblank
      if c = container.closing then skipFrom .separator outer rest
      else if expects = .itemOrEnd then skipFrom .item (container :: outer) (c :: rest)
      else if c = ',' then skipFrom .item (container :: outer) rest
      else .error container.notClosed
termination_by 2 * text.length + if expects = .itemOrEnd then 1 else 0
decreasing_by all_goals grind

/-- Passing over text never lengthens it, and takes some if a value comes first. -/
theorem length_le_of_skipFrom {expects : Expects} {containers : List Container}
    {text rest : List Char} (h : skipFrom expects containers text = .ok rest) :
    rest.length + (if expects = .item then 1 else 0) ≤ text.length := by
  fun_induction skipFrom expects containers text <;> grind

def skipValue (text : List Char) : Except Fault (List Char) :=
  skipFrom .item [] text

theorem length_lt_of_skipValue {text rest : List Char} (h : skipValue text = .ok rest) :
    rest.length < text.length := by
  have hle := length_le_of_skipFrom h
  rwa [if_pos rfl] at hle

end Codename.Json
