import Codename.Proofs.Json.Spacing

/-!
# The grammar of JSON

A value can be written in many ways. White space may stand between any two parts of it, and a
character of a string is written as it is, as an escape of one letter or as an escape of its code
point, with the digits in either case. The two forms in which documents are written are ways among
these.

The relations of this module say how a text begins and what is behind it.

## Main definitions

* `BeginsChar`, `BeginsString` — the characters of strings.
* `Value.Begins` — the values.
* `Value.WrittenAs` — the whole texts.

## Main statements

* `readString_of_begins` — a string is read in whichever way it is written.
* `Value.writtenAs_compact`, `Value.writtenAs_indented` — the forms of documents.
-/

namespace Codename.Json

/-! ### Strings -/

/-- A digit in base sixteen, in either case. -/
inductive HexDigit : Nat → Char → Prop
  | decimal {n : Nat} {c : Char} (hn : n < 10) (hc : c.toNat = '0'.toNat + n) : HexDigit n c
  | lower {n : Nat} {c : Char} (hn : n < 6) (hc : c.toNat = 'a'.toNat + n) : HexDigit (10 + n) c
  | upper {n : Nat} {c : Char} (hn : n < 6) (hc : c.toNat = 'A'.toNat + n) : HexDigit (10 + n) c

/-- The text begins with four digits of the number. -/
inductive BeginsUnit : Nat → List Char → List Char → Prop
  | digits {k l m n : Nat} {a b c d : Char} {rest : List Char} (ha : HexDigit k a)
      (hb : HexDigit l b) (hc : HexDigit m c) (hd : HexDigit n d) :
      BeginsUnit (k * 4096 + l * 256 + m * 16 + n) (a :: b :: c :: d :: rest) rest

/-- The letters that stand behind a backslash for a character. -/
def shortEscapes : List (Char × Char) :=
  [('"', '"'), ('\\', '\\'), ('/', '/'), ('b', '\x08'), ('f', '\x0c'), ('n', '\n'), ('r', '\r'),
    ('t', '\t')]

/-- The text begins with the character, as a string has it. -/
inductive BeginsChar (c : Char) : List Char → List Char → Prop
  | plain {rest : List Char} (hquote : c ≠ '"') (hslash : c ≠ '\\') (hcontrol : 0x20 ≤ c.toNat) :
      BeginsChar c (c :: rest) rest
  | short {letter : Char} {rest : List Char} (h : (letter, c) ∈ shortEscapes) :
      BeginsChar c ('\\' :: letter :: rest) rest
  | unit {text rest : List Char} (h : BeginsUnit c.toNat text rest) :
      BeginsChar c ('\\' :: 'u' :: text) rest
  | pair {high low : Nat} {text behind rest : List Char}
      (hhigh : BeginsUnit high text ('\\' :: 'u' :: behind)) (hlow : BeginsUnit low behind rest)
      (hranges : 0xD800 ≤ high ∧ high < 0xDC00 ∧ 0xDC00 ≤ low ∧ low < 0xE000)
      (hc : c.toNat = 0x10000 + (high - 0xD800) * 0x400 + (low - 0xDC00)) :
      BeginsChar c ('\\' :: 'u' :: text) rest

/-- The text begins with the characters of a string and its closing quote. -/
inductive BeginsString : List Char → List Char → List Char → Prop
  | closed (rest : List Char) : BeginsString [] ('"' :: rest) rest
  | cons {c : Char} {chars text behind rest : List Char} (hc : BeginsChar c text behind)
      (hchars : BeginsString chars behind rest) : BeginsString (c :: chars) text rest

theorem HexDigit.hexValue? {n : Nat} {c : Char} (h : HexDigit n c) :
    Json.hexValue? c = some n := by
  have hdecimal : c.isDigit = true ↔ 48 ≤ c.toNat ∧ c.toNat ≤ 57 := by
    simp [Char.isDigit, UInt32.le_iff_toNat_le]
  have hlower : 'a' ≤ c ∧ c ≤ 'f' ↔ 97 ≤ c.toNat ∧ c.toNat ≤ 102 := Iff.rfl
  have hupper : 'A' ≤ c ∧ c ≤ 'F' ↔ 65 ≤ c.toNat ∧ c.toNat ≤ 70 := Iff.rfl
  simp only [Json.hexValue?, hdecimal, hlower, hupper]
  cases h with
  | decimal hn hc =>
    have hc : c.toNat = 48 + n := hc
    rw [if_pos (by omega), Option.some.injEq]
    omega
  | @lower n _ hn hc =>
    have hc : c.toNat = 97 + n := hc
    rw [if_neg (by omega), if_pos (by omega), Option.some.injEq]
    omega
  | @upper n _ hn hc =>
    have hc : c.toNat = 65 + n := hc
    rw [if_neg (by omega), if_neg (by omega), if_pos (by omega), Option.some.injEq]
    omega

theorem readHex4_of_begins {n : Nat} {text rest : List Char} (h : BeginsUnit n text rest) :
    readHex4 text = .ok (n, rest) := by
  cases h with
  | digits ha hb hc hd =>
    simp only [readHex4, ha.hexValue?, hb.hexValue?, hc.hexValue?, hd.hexValue?]

/-- No code point of a character is half of a surrogate pair. -/
theorem toNat_lt_or_lt (c : Char) : c.toNat < 0xD800 ∨ 0xDFFF < c.toNat :=
  c.valid.imp_right And.left

/-- A character is read in whichever way it is written. -/
theorem nextChar_of_begins {c : Char} {text rest : List Char} (h : BeginsChar c text rest) :
    nextChar text = .ok (some c, rest) := by
  cases h with
  | plain hquote hslash hcontrol =>
    unfold nextChar
    split <;> simp_all
  | short h =>
    simp only [shortEscapes, List.mem_cons, Prod.mk.injEq, List.not_mem_nil, or_false] at h
    rcases h with ⟨rfl, rfl⟩ | ⟨rfl, rfl⟩ | ⟨rfl, rfl⟩ | ⟨rfl, rfl⟩ | ⟨rfl, rfl⟩ | ⟨rfl, rfl⟩ |
      ⟨rfl, rfl⟩ | ⟨rfl, rfl⟩ <;> rfl
  | @unit text _ h =>
    have hunit := toNat_lt_or_lt c
    have hlow : ¬(0xDC00 ≤ c.toNat ∧ c.toNat ≤ 0xDFFF) := by omega
    have hhigh : ¬(0xD800 ≤ c.toNat ∧ c.toNat ≤ 0xDBFF) := by omega
    simp [nextChar, readCodePoint, readHex4_of_begins h, bind, Except.bind, pure, Except.pure,
      Except.map, hlow, hhigh]
  | @pair high low text behind _ hhigh hlow hranges hc =>
    have hnotLow : ¬(0xDC00 ≤ high ∧ high ≤ 0xDFFF) := by omega
    have hisHigh : 0xD800 ≤ high ∧ high ≤ 0xDBFF := by omega
    have hisLow : ¬(low < 0xDC00 ∨ 0xDFFF < low) := by omega
    simp [nextChar, readCodePoint, readLowSurrogate, readHex4_of_begins hhigh,
      readHex4_of_begins hlow, bind, Except.bind, pure, Except.pure, Except.map, hnotLow, hisHigh,
      hisLow, ← hc]

/-- A string is read in whichever way it is written. -/
theorem readString_of_begins {chars text rest : List Char} (h : BeginsString chars text rest) :
    readString text = .ok (chars, rest) := by
  induction h with
  | closed rest => exact readString_of_none rfl
  | cons hc _ ih =>
    rw [readString_of_some (nextChar_of_begins hc), ih]
    rfl

theorem hexDigit_hexDigit {n : Nat} (h : n < 16) : HexDigit n (hexDigit n) := by
  have hdecimal : ∀ n : Fin 10, (hexDigit n).toNat = '0'.toNat + n := by decide
  have hlower : ∀ n : Fin 6, (hexDigit (10 + n)).toNat = 'a'.toNat + n := by decide
  by_cases hn : n < 10
  · exact .decimal hn (hdecimal ⟨n, hn⟩)
  · obtain ⟨m, rfl⟩ := Nat.exists_eq_add_of_le (Nat.not_lt.1 hn)
    have hm : m < 6 := by omega
    exact .lower hm (hlower ⟨m, hm⟩)

/-- The way in which documents have a character is one of the ways. -/
theorem beginsChar_escape (c : Char) (rest : List Char) : BeginsChar c (escape c ++ rest) rest := by
  unfold escape
  split
  case h_8 hquote hslash _ _ _ _ _ =>
    split
    · next hcontrol =>
      have hzero : HexDigit 0 '0' := hexDigit_hexDigit (by decide)
      have hhigh : HexDigit (c.toNat / 16) _ := hexDigit_hexDigit (by omega)
      have hlow : HexDigit (c.toNat % 16) _ := hexDigit_hexDigit (by omega)
      have hvalue : 0 * 4096 + 0 * 256 + c.toNat / 16 * 16 + c.toNat % 16 = c.toNat := by omega
      have hunit : BeginsUnit _ _ rest := .digits hzero hzero hhigh hlow
      rw [hvalue] at hunit
      exact .unit hunit
    · next hcontrol => exact .plain hquote hslash (Nat.not_lt.1 hcontrol)
  all_goals exact .short (by decide)

theorem beginsString_write (chars rest : List Char) :
    BeginsString chars (chars.flatMap escape ++ '"' :: rest) rest := by
  induction chars with
  | nil => exact .closed rest
  | cons c chars ih =>
    rw [List.flatMap_cons, List.append_assoc]
    exact .cons (beginsChar_escape c _) ih

/-! ### Values -/

/-- What stands in front of a part of a list or an object: white space, and a comma in it if another
part is in front. -/
def Separates : Bool → List Char → Prop
  | true, text => Blank text
  | false, text => ∃ gap blank, text = gap ++ ',' :: blank ∧ Blank gap ∧ Blank blank

mutual

/-- The text begins with the value. -/
inductive Value.Begins : Value → List Char → List Char → Prop
  | null (rest : List Char) : Value.Begins .null ('n' :: 'u' :: 'l' :: 'l' :: rest) rest
  | yes (rest : List Char) : Value.Begins (.boolean true) ('t' :: 'r' :: 'u' :: 'e' :: rest) rest
  | no (rest : List Char) :
      Value.Begins (.boolean false) ('f' :: 'a' :: 'l' :: 's' :: 'e' :: rest) rest
  | string {value : String} {text rest : List Char} (h : BeginsString value.toList text rest) :
      Value.Begins (.string value) ('"' :: text) rest
  | list {elements : List Value} {text rest : List Char}
      (h : Value.BeginsElements true elements text rest) :
      Value.Begins (.list elements) ('[' :: text) rest
  | object {members : List (String × Value)} {text rest : List Char}
      (h : Value.BeginsMembers true members text rest) :
      Value.Begins (.object members) ('{' :: text) rest

/-- The text begins with the elements of a list and its closing bracket; the first of them is the
first of the list or not. -/
inductive Value.BeginsElements : Bool → List Value → List Char → List Char → Prop
  | closed {first : Bool} {blank rest : List Char} (hblank : Blank blank) :
      Value.BeginsElements first [] (blank ++ ']' :: rest) rest
  | cons {first : Bool} {value : Value} {elements : List Value}
      {separator text behind rest : List Char} (hseparator : Separates first separator)
      (hvalue : Value.Begins value text behind)
      (hrest : Value.BeginsElements false elements behind rest) :
      Value.BeginsElements first (value :: elements) (separator ++ text) rest

/-- The text begins with a key, a colon and a value. -/
inductive Value.BeginsMember : String → Value → List Char → List Char → Prop
  | mk {key : String} {value : Value} {text gap blank behind rest : List Char}
      (hkey : BeginsString key.toList text (gap ++ ':' :: (blank ++ behind))) (hgap : Blank gap)
      (hblank : Blank blank) (hvalue : Value.Begins value behind rest) :
      Value.BeginsMember key value ('"' :: text) rest

/-- The text begins with the members of an object and its closing brace; the first of them is the
first of the object or not. -/
inductive Value.BeginsMembers : Bool → List (String × Value) → List Char → List Char → Prop
  | closed {first : Bool} {blank rest : List Char} (hblank : Blank blank) :
      Value.BeginsMembers first [] (blank ++ '}' :: rest) rest
  | cons {first : Bool} {key : String} {value : Value} {members : List (String × Value)}
      {separator text behind rest : List Char} (hseparator : Separates first separator)
      (hmember : Value.BeginsMember key value text behind)
      (hrest : Value.BeginsMembers false members behind rest) :
      Value.BeginsMembers first ((key, value) :: members) (separator ++ text) rest

end

/-- The text holds the value and nothing else but white space. -/
def Value.WrittenAs (value : Value) (text : String) : Prop :=
  ∃ blank written rest, text.toList = blank ++ written ∧ Blank blank ∧ value.Begins written rest ∧
    Blank rest

namespace Value

/-- A value starts with no white space and with no closing bracket. -/
theorem Begins.exists_eq_cons {value : Value} {text rest : List Char}
    (h : value.Begins text rest) : ∃ c tail, text = c :: tail ∧ isSpace c = false ∧ c ≠ ']' := by
  cases h <;> exact ⟨_, _, rfl, rfl, by decide⟩

/-! ### The forms of documents -/

theorem beginsMember_write (spacing : Spacing) (depth : Nat) (key : String) {value : Value}
    {rest : List Char} (h : value.Begins (value.write spacing depth ++ rest) rest) :
    BeginsMember key value (writeMember spacing depth (key, value) ++ rest) rest := by
  rw [writeMember, writeString]
  simp only [List.append_assoc, List.cons_append, List.nil_append]
  exact .mk (beginsString_write key.toList _) blank_nil spacing.blank_afterColon h

mutual

/-- Whatever white space is placed between the parts of a value, it is written. -/
theorem begins_write (spacing : Spacing) (depth : Nat) :
    (value : Value) → (rest : List Char) → value.Begins (value.write spacing depth ++ rest) rest
  | .null, rest => .null rest
  | .boolean true, rest => .yes rest
  | .boolean false, rest => .no rest
  | .string value, rest => by
    rw [write, writeString, List.append_assoc]
    exact .string (beginsString_write value.toList rest)
  | .list [], _ => .list (.closed blank_nil)
  | .list (value :: elements), rest => by
    rw [write, writeElements, Spacing.enclose_cons_append]
    exact .list (.cons (spacing.blank_gap (depth + 1)) (begins_write spacing (depth + 1) value _)
      (begins_following_elements spacing (depth + 1) elements (spacing.blank_gap depth) rest))
  | .object [], _ => .object (.closed blank_nil)
  | .object ((key, value) :: members), rest => by
    rw [write, writeMembers, Spacing.enclose_cons_append]
    exact .object (.cons (spacing.blank_gap (depth + 1))
      (beginsMember_write spacing (depth + 1) key (begins_write spacing (depth + 1) value _))
      (begins_following_members spacing (depth + 1) members (spacing.blank_gap depth) rest))

theorem begins_following_elements (spacing : Spacing) (depth : Nat) :
    (elements : List Value) → {blank : List Char} → Blank blank → (rest : List Char) →
      BeginsElements false elements
        (spacing.following depth (writeElements spacing depth elements) ++ (blank ++ ']' :: rest))
        rest
  | [], _, hblank, _ => .closed hblank
  | value :: elements, _, hblank, rest => by
    rw [writeElements, Spacing.following_cons_append, ← List.cons_append]
    exact .cons ⟨[], spacing.gap depth, rfl, blank_nil, spacing.blank_gap depth⟩
      (begins_write spacing depth value _)
      (begins_following_elements spacing depth elements hblank rest)

theorem begins_following_members (spacing : Spacing) (depth : Nat) :
    (members : List (String × Value)) → {blank : List Char} → Blank blank → (rest : List Char) →
      BeginsMembers false members
        (spacing.following depth (writeMembers spacing depth members) ++ (blank ++ '}' :: rest))
        rest
  | [], _, hblank, _ => .closed hblank
  | (key, value) :: members, _, hblank, rest => by
    rw [writeMembers, Spacing.following_cons_append, ← List.cons_append]
    exact .cons ⟨[], spacing.gap depth, rfl, blank_nil, spacing.blank_gap depth⟩
      (beginsMember_write spacing depth key (begins_write spacing depth value _))
      (begins_following_members spacing depth members hblank rest)

end

theorem writtenAs_compact (value : Value) : value.WrittenAs value.compact := by
  refine ⟨[], value.writeCompact, [], ?_, blank_nil, ?_, blank_nil⟩
  · rw [compact, String.toList_ofList, List.nil_append]
  · simpa only [write_tight, List.append_nil] using begins_write .tight 0 value []

theorem writtenAs_indented (value : Value) : value.WrittenAs value.indented := by
  refine ⟨[], value.writeIndented 0, [], ?_, blank_nil, ?_, blank_nil⟩
  · rw [indented, String.toList_ofList, List.nil_append]
  · simpa only [write_wide, List.append_nil] using begins_write .wide 0 value []

end Value

end Codename.Json
