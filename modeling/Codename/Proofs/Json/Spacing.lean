import Codename.Json.Skip
import Codename.Json.Value

/-!
# White space in written values

The compact and the indented form of a value differ only in the white space between its parts. So
both are one form, for two ways to place white space, and what reads a value in any such form reads
it in both.

## Main definitions

* `Spacing` — where white space is placed.
* `Value.write` — a value with its white space placed in some way.

## Main statements

* `Value.write_tight`, `Value.write_wide` — the compact and the indented form.
-/

namespace Codename.Json

/-- The text is white space, or empty. -/
def Blank (text : List Char) : Prop :=
  ∀ c ∈ text, isSpace c = true

theorem blank_nil : Blank [] := nofun

theorem blank_newLine (depth : Nat) : Blank (newLine depth) := by
  intro c hc
  rcases List.mem_cons.1 hc with rfl | hc
  · rfl
  · rw [List.eq_of_mem_replicate hc]
    rfl

/-- White space in front of a text is dropped. -/
theorem skipBlank_append {blank : List Char} (h : Blank blank) (text : List Char) :
    skipBlank (blank ++ text) = skipBlank text :=
  List.dropWhile_append_of_pos h

theorem skipBlank_cons {c : Char} (h : isSpace c = false) (text : List Char) :
    skipBlank (c :: text) = c :: text :=
  List.dropWhile_cons_of_neg (by simp [h])

theorem skipBlank_append_cons {blank : List Char} (h : Blank blank) (c : Char)
    (hc : isSpace c = false) (text : List Char) : skipBlank (blank ++ c :: text) = c :: text := by
  rw [skipBlank_append h, skipBlank_cons hc]

/-- Where the white space of a written value is. -/
structure Spacing where
  /-- In front of what stands at a depth. -/
  gap : Nat → List Char
  /-- In front of the value of a member. -/
  afterColon : List Char
  blank_gap : ∀ depth, Blank (gap depth)
  blank_afterColon : Blank afterColon

namespace Spacing

/-- No white space at all. -/
def tight : Spacing where
  gap _ := []
  afterColon := []
  blank_gap _ := blank_nil
  blank_afterColon := blank_nil

/-- Each element and member on a line of its own, and a blank in front of the value of a member. -/
def wide : Spacing where
  gap := newLine
  afterColon := [' ']
  blank_gap := blank_newLine
  blank_afterColon := by
    intro c hc
    rw [List.mem_singleton.1 hc]
    rfl

/-- The parts that follow the first one, each behind a comma. -/
def following (spacing : Spacing) (depth : Nat) (parts : List (List Char)) : List Char :=
  parts.flatMap fun part => ',' :: (spacing.gap depth ++ part)

/-- Parts between brackets, one level deeper than `depth`. -/
def enclose (spacing : Spacing) (opening closing : Char) (depth : Nat) :
    List (List Char) → List Char
  | [] => [opening, closing]
  | part :: parts =>
    opening :: (spacing.gap (depth + 1) ++ (part ++ (spacing.following (depth + 1) parts ++
      (spacing.gap depth ++ [closing]))))

theorem following_cons_append (spacing : Spacing) (depth : Nat) (part : List Char)
    (parts : List (List Char)) (rest : List Char) :
    spacing.following depth (part :: parts) ++ rest =
      ',' :: (spacing.gap depth ++ (part ++ (spacing.following depth parts ++ rest))) := by
  simp [following]

theorem enclose_cons_append (spacing : Spacing) (opening closing : Char) (depth : Nat)
    (part : List Char) (parts : List (List Char)) (rest : List Char) :
    spacing.enclose opening closing depth (part :: parts) ++ rest =
      opening :: (spacing.gap (depth + 1) ++ (part ++ (spacing.following (depth + 1) parts ++
        (spacing.gap depth ++ closing :: rest)))) := by
  simp [enclose]

theorem separate_cons (separator part : List Char) (parts : List (List Char)) :
    separate separator (part :: parts) =
      part ++ parts.flatMap fun part => separator ++ part := by
  induction parts generalizing part with
  | nil => simp [separate]
  | cons next parts ih =>
    rw [separate, ih, List.flatMap_cons, List.append_assoc, List.append_assoc]
    exact nofun

theorem enclose_tight (opening closing : Char) (depth : Nat) (parts : List (List Char)) :
    tight.enclose opening closing depth parts =
      opening :: separate [','] parts ++ [closing] := by
  cases parts with
  | nil => rfl
  | cons part parts =>
    rw [separate_cons]
    simp [enclose, following, tight]

theorem enclose_wide (opening closing : Char) (depth : Nat) (parts : List (List Char)) :
    wide.enclose opening closing depth parts = block opening closing depth parts := by
  cases parts with
  | nil => rfl
  | cons part parts =>
    rw [block, separate_cons]
    simp [enclose, following, wide]

end Spacing

namespace Value

mutual

/-- The written form of a value that stands at a depth, with its white space placed in some way. -/
def write (spacing : Spacing) (depth : Nat) : Value → List Char
  | .null => ['n', 'u', 'l', 'l']
  | .boolean value => if value then ['t', 'r', 'u', 'e'] else ['f', 'a', 'l', 's', 'e']
  | .string value => writeString value
  | .list elements => spacing.enclose '[' ']' depth (writeElements spacing (depth + 1) elements)
  | .object members => spacing.enclose '{' '}' depth (writeMembers spacing (depth + 1) members)

def writeElements (spacing : Spacing) (depth : Nat) : List Value → List (List Char)
  | [] => []
  | value :: rest => write spacing depth value :: writeElements spacing depth rest

def writeMembers (spacing : Spacing) (depth : Nat) : List (String × Value) → List (List Char)
  | [] => []
  | (key, value) :: rest =>
    (writeString key ++ ':' :: (spacing.afterColon ++ write spacing depth value)) ::
      writeMembers spacing depth rest

end

/-- The written form of a member. -/
def writeMember (spacing : Spacing) (depth : Nat) (member : String × Value) : List Char :=
  writeString member.1 ++ ':' :: (spacing.afterColon ++ write spacing depth member.2)

mutual

/-- Without white space, this is the compact form. -/
theorem write_tight (depth : Nat) : (value : Value) → value.write .tight depth = value.writeCompact
  | .null => rfl
  | .boolean _ => rfl
  | .string _ => rfl
  | .list elements => by
    rw [write, writeCompact, writeElements_tight, Spacing.enclose_tight]
  | .object members => by
    rw [write, writeCompact, writeMembers_tight, Spacing.enclose_tight]

theorem writeElements_tight (depth : Nat) :
    (elements : List Value) → writeElements .tight depth elements = compactElements elements
  | [] => rfl
  | value :: rest => by
    rw [writeElements, compactElements, write_tight, writeElements_tight]

theorem writeMembers_tight (depth : Nat) :
    (members : List (String × Value)) → writeMembers .tight depth members = compactMembers members
  | [] => rfl
  | (key, value) :: rest => by
    rw [writeMembers, compactMembers, write_tight, writeMembers_tight]
    rfl

end

mutual

/-- With each part on a line of its own, this is the indented form. -/
theorem write_wide (depth : Nat) :
    (value : Value) → value.write .wide depth = value.writeIndented depth
  | .null => rfl
  | .boolean _ => rfl
  | .string _ => rfl
  | .list elements => by
    rw [write, writeIndented, writeElements_wide, Spacing.enclose_wide]
  | .object members => by
    rw [write, writeIndented, writeMembers_wide, Spacing.enclose_wide]

theorem writeElements_wide (depth : Nat) :
    (elements : List Value) → writeElements .wide depth elements = indentedElements depth elements
  | [] => rfl
  | value :: rest => by
    rw [writeElements, indentedElements, write_wide, writeElements_wide]

theorem writeMembers_wide (depth : Nat) : (members : List (String × Value)) →
    writeMembers .wide depth members = indentedMembers depth members
  | [] => rfl
  | (key, value) :: rest => by
    rw [writeMembers, indentedMembers, write_wide, writeMembers_wide]
    rfl

end

end Value

end Codename.Json
