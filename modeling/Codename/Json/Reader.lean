import Codename.Json.Skip
import Codename.KeyedList

/-!
# Readers of JSON values

A reader takes a value of one kind off the front of a text. It reads from left to right and stops at
the first fault, so a value of the wrong kind is reported before anything that is wrong behind it.
Every reader takes some text, which is what lets lists and objects be read to their end.

## Main definitions

* `Reader` — a reader of values of a type.
* `Reader.string`, `Reader.boolean`, `Reader.nullable`, `Reader.list`, `Reader.keyed` — the kinds of
  values that documents are made of.
* `Reader.members` — the members of an object, whatever their keys mean.
* `Reader.parse` — reads a whole text.
-/

namespace Codename.Json

/-- Takes a value off the front of a text. -/
structure Reader (α : Type) where
  run : List Char → Except Fault (α × List Char)
  length_lt : ∀ {text value rest}, run text = .ok (value, rest) → rest.length < text.length

/-! ### Values of the wrong kind -/

/-- Names the value in front of a text that starts with no white space. Words, numbers and strings
are read whole; lists and objects are known by their bracket. -/
def readFound (text : List Char) : Except Fault Found :=
  match text with
  | [] => .error .endInValue
  | 'n' :: rest => (skipWord ['u', 'l', 'l'] rest).map fun _ => .null
  | 't' :: rest => (skipWord ['r', 'u', 'e'] rest).map fun _ => .boolean true
  | 'f' :: rest => (skipWord ['a', 'l', 's', 'e'] rest).map fun _ => .boolean false
  | '"' :: rest => (readString rest).map fun (chars, _) => .string (String.ofList chars)
  | '[' :: _ => .ok .sequence
  | '{' :: _ => .ok .map
  | c :: _ =>
    if c = '-' || c.isDigit then do
      let (numeral, _) ← readNumeral .endInValue text
      numeral.found
    else .error .noValue

/-- The fault of a text whose value is not of the kind that is needed. -/
def mismatch (expected : String) (text : List Char) : Fault :=
  match readFound text with
  | .ok found => .wrongKind found expected
  | .error fault => fault

namespace Reader

variable {α β σ : Type}

/-- Applies a function to what is read. -/
def map (f : α → β) (reader : Reader α) : Reader β where
  run text := (reader.run text).map fun (value, rest) => (f value, rest)
  length_lt := by
    intro text value rest h
    cases hrun : reader.run text with
    | error fault => simp [hrun, Except.map] at h
    | ok pair =>
      simp only [hrun, Except.map] at h
      cases h
      exact reader.length_lt hrun

/-- A string. Messages call it by the name of what it stands for. -/
def string (expected : String) : Reader String where
  run text :=
    match skipBlank text with
    | '"' :: rest => (readString rest).map fun (chars, rest) => (String.ofList chars, rest)
    | rest => .error (mismatch expected rest)
  length_lt := by
    intro text value rest h
    split at h
    · next tail hblank =>
      have htail := length_lt_of_skipBlank hblank
      cases hstring : readString tail with
      | error fault => simp [hstring, Except.map] at h
      | ok pair =>
        have hlt := length_lt_of_readString hstring
        simp only [hstring, Except.map] at h
        cases h
        omega
    · cases h

/-- One of the words `true` and `false`. -/
def boolean : Reader Bool where
  run text :=
    match skipBlank text with
    | 't' :: rest => (skipWord ['r', 'u', 'e'] rest).map fun rest => (true, rest)
    | 'f' :: rest => (skipWord ['a', 'l', 's', 'e'] rest).map fun rest => (false, rest)
    | rest => .error (mismatch "a boolean" rest)
  length_lt := by
    intro text value rest h
    split at h
    · next tail hblank =>
      have htail := length_lt_of_skipBlank hblank
      cases hword : skipWord ['r', 'u', 'e'] tail with
      | error fault => simp [hword, Except.map] at h
      | ok after =>
        have hle := length_le_of_skipWord hword
        simp only [hword, Except.map] at h
        cases h
        omega
    · next tail hblank =>
      have htail := length_lt_of_skipBlank hblank
      cases hword : skipWord ['a', 'l', 's', 'e'] tail with
      | error fault => simp [hword, Except.map] at h
      | ok after =>
        have hle := length_le_of_skipWord hword
        simp only [hword, Except.map] at h
        cases h
        omega
    · cases h

/-- The word `null`, or else a value. -/
def nullable (reader : Reader α) : Reader (Option α) where
  run text :=
    match skipBlank text with
    | 'n' :: rest => (skipWord ['u', 'l', 'l'] rest).map fun rest => (none, rest)
    | _ => (reader.map some).run text
  length_lt := by
    intro text value rest h
    split at h
    · next tail hblank =>
      have htail := length_lt_of_skipBlank hblank
      cases hword : skipWord ['u', 'l', 'l'] tail with
      | error fault => simp [hword, Except.map] at h
      | ok after =>
        have hle := length_le_of_skipWord hword
        simp only [hword, Except.map] at h
        cases h
        omega
    · exact (reader.map some).length_lt h

/-- Any value, of which only the form is checked. -/
def ignored : Reader Unit where
  run text := (skipValue text).map fun rest => ((), rest)
  length_lt := by
    intro text value rest h
    cases hskip : skipValue text with
    | error fault => simp [hskip, Except.map] at h
    | ok after =>
      have hlt := length_lt_of_skipValue hskip
      simp only [hskip, Except.map] at h
      cases h
      exact hlt

end Reader

/-! ### Lists -/

/-- How a list or an object goes on: it is closed in front of the text, or another part of it starts
there. -/
inductive Next where
  | closed (rest : List Char)
  | more (rest : List Char)
  deriving Repr, DecidableEq

/-- Looks for another element of a list, past the comma that separates it from the one before. -/
def nextElement (first : Bool) (text : List Char) : Except Fault Next :=
  match skipBlank text with
  | [] => .error .endInList
  | ']' :: rest => .ok (.closed rest)
  | c :: rest =>
    if first then .ok (.more (c :: rest))
    else if c = ',' then
      match skipBlank rest with
      | [] => .error .endInValue
      | ']' :: _ => .error .trailingComma
      | next => .ok (.more next)
    else .error .noListEnd

theorem length_lt_of_nextElement_closed {first : Bool} {text rest : List Char}
    (h : nextElement first text = .ok (.closed rest)) : rest.length < text.length := by
  unfold nextElement at h
  split at h
  · cases h
  · next hblank =>
    cases h
    exact length_lt_of_skipBlank hblank
  · split at h
    · cases h
    · split at h
      · split at h <;> cases h
      · cases h

theorem length_le_of_nextElement_more {first : Bool} {text rest : List Char}
    (h : nextElement first text = .ok (.more rest)) : rest.length ≤ text.length := by
  unfold nextElement at h
  split at h
  · cases h
  · cases h
  · next c tail _ hblank =>
    have hle := length_skipBlank_le text
    rw [hblank, List.length_cons] at hle
    split at h
    · cases h
      exact hle
    · split at h
      · have htail := length_skipBlank_le tail
        split at h
        · cases h
        · cases h
        · cases h
          omega
      · cases h

namespace Reader

variable {α : Type}

/-- The elements of a list after its opening bracket, or after the element before them. -/
def elements (item : Reader α) (first : Bool) (text : List Char) :
    Except Fault (List α × List Char) :=
  match hnext : nextElement first text with
  | .error fault => .error fault
  | .ok (.closed rest) => .ok ([], rest)
  | .ok (.more next) =>
    have := length_le_of_nextElement_more hnext
    match hitem : item.run next with
    | .error fault => .error fault
    | .ok (value, rest) =>
      have := item.length_lt hitem
      (item.elements false rest).map fun (values, rest) => (value :: values, rest)
termination_by text.length
decreasing_by omega

theorem length_lt_of_elements {item : Reader α} {first : Bool} {text rest : List Char}
    {values : List α} (h : item.elements first text = .ok (values, rest)) :
    rest.length < text.length := by
  fun_induction elements item first text generalizing values with
  | case1 => cases h
  | case2 first text after hnext =>
    cases h
    exact length_lt_of_nextElement_closed hnext
  | case3 => cases h
  | case4 first text next hnext hle value after hitem hlt ih =>
    cases hrest : item.elements false after with
    | error fault => simp [hrest, Except.map] at h
    | ok pair =>
      simp only [hrest, Except.map] at h
      cases h
      have hlast := ih hrest
      omega

def list (item : Reader α) : Reader (List α) where
  run text :=
    match skipBlank text with
    | '[' :: rest => item.elements true rest
    | rest => .error (mismatch "a sequence" rest)
  length_lt := by
    intro text value rest h
    split at h
    · next hblank =>
      exact Nat.lt_trans (length_lt_of_elements h) (length_lt_of_skipBlank hblank)
    · cases h

end Reader

/-! ### Objects -/

/-- Looks for another member of an object, past the comma in front of it and the opening quote of
its key. -/
def nextMember (first : Bool) (text : List Char) : Except Fault Next :=
  match skipBlank text with
  | [] => .error .endInObject
  | '}' :: rest => .ok (.closed rest)
  | c :: rest =>
    if first then if c = '"' then .ok (.more rest) else .error .keyNotString
    else if c = ',' then
      match skipBlank rest with
      | [] => .error .endInValue
      | '"' :: rest => .ok (.more rest)
      | '}' :: _ => .error .trailingComma
      | _ => .error .keyNotString
    else .error .noObjectEnd

theorem length_lt_of_nextMember_closed {first : Bool} {text rest : List Char}
    (h : nextMember first text = .ok (.closed rest)) : rest.length < text.length := by
  unfold nextMember at h
  split at h
  · cases h
  · next hblank =>
    cases h
    exact length_lt_of_skipBlank hblank
  · split at h
    · split at h <;> cases h
    · split at h
      · split at h <;> cases h
      · cases h

theorem length_lt_of_nextMember_more {first : Bool} {text rest : List Char}
    (h : nextMember first text = .ok (.more rest)) : rest.length < text.length := by
  unfold nextMember at h
  split at h
  · cases h
  · cases h
  · next hblank =>
    have hlt := length_lt_of_skipBlank hblank
    split at h
    · split at h
      · cases h
        exact hlt
      · cases h
    · split at h
      · split at h
        · cases h
        · next hinner =>
          cases h
          exact Nat.lt_trans (length_lt_of_skipBlank hinner) hlt
        · cases h
        · cases h
      · cases h

/-- Reads a key after its opening quote. -/
def readKey (text : List Char) : Except Fault (String × List Char) :=
  (readString text).map fun (chars, rest) => (String.ofList chars, rest)

theorem length_lt_of_readKey {text rest : List Char} {key : String}
    (h : readKey text = .ok (key, rest)) : rest.length < text.length := by
  unfold readKey at h
  cases hstring : readString text with
  | error fault => simp [hstring, Except.map] at h
  | ok pair =>
    simp only [hstring, Except.map] at h
    cases h
    exact length_lt_of_readString hstring

namespace Reader

variable {α σ : Type}

/-- The members of an object after its opening brace, or after the member before them. What was read
so far is a state; `member` says how the value of a key is read into it. -/
def members (member : σ → String → Except Fault (Reader (σ → σ))) (first : Bool) (state : σ)
    (text : List Char) : Except Fault (σ × List Char) :=
  match hnext : nextMember first text with
  | .error fault => .error fault
  | .ok (.closed rest) => .ok (state, rest)
  | .ok (.more next) =>
    have := length_lt_of_nextMember_more hnext
    match hkey : readKey next with
    | .error fault => .error fault
    | .ok (key, labelled) =>
      have := length_lt_of_readKey hkey
      match member state key with
      | .error fault => .error fault
      | .ok reader =>
        match hcolon : skipColon labelled with
        | .error fault => .error fault
        | .ok unread =>
          have := length_lt_of_skipColon hcolon
          match hvalue : reader.run unread with
          | .error fault => .error fault
          | .ok (update, rest) =>
            have := reader.length_lt hvalue
            members member false (update state) rest
termination_by text.length
decreasing_by omega

theorem length_lt_of_members {member : σ → String → Except Fault (Reader (σ → σ))} {first : Bool}
    {state final : σ} {text rest : List Char}
    (h : members member first state text = .ok (final, rest)) : rest.length < text.length := by
  fun_induction members member first state text with
  | case2 first state text after hnext =>
    cases h
    exact length_lt_of_nextMember_closed hnext
  | case7 =>
    next hlast ih =>
    have := ih h
    omega
  | _ => cases h

/-- The entries of an object after its opening brace, each key once: a repeated key keeps its place
and takes the later value. -/
def entries (value : Reader α) : List Char → Except Fault (KeyedList α × List Char) :=
  members (fun _ key => .ok (value.map fun entry known => known.insert key entry)) true ∅

/-- An object that holds values of one kind under any keys. -/
def keyed (value : Reader α) : Reader (KeyedList α) where
  run text :=
    match skipBlank text with
    | '{' :: rest => value.entries rest
    | rest => .error (mismatch "a map" rest)
  length_lt := by
    intro text entries rest h
    split at h
    · next hblank =>
      exact Nat.lt_trans (length_lt_of_members h) (length_lt_of_skipBlank hblank)
    · cases h

/-! ### Whole texts -/

/-- Reads a text that holds one value and nothing behind it. -/
def parse (reader : Reader α) (text : String) : Except Fault α := do
  let (value, rest) ← reader.run text.toList
  match skipBlank rest with
  | [] => pure value
  | _ => .error .trailingText

end Reader

end Codename.Json
