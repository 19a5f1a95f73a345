import Codename.Json.Fault

/-!
# Strings in JSON

A string stands between double quotes. Quotes, backslashes and controls are written as escapes, and
a reader takes any character as an escape of its code point, by two escapes if it lies outside the
first 65536.

## Main definitions

* `escape` — how a character is written.
* `nextChar`, `readString` — read one character, or all of them, after the opening quote.
* `skipString` — passes over a string of which only the form is checked.

## Main statements

* `length_lt_of_readString` — reading a string takes text.
-/

namespace Codename.Json

/-- A digit in base sixteen, lower case. -/
def hexDigit (n : Nat) : Char :=
  if n < 10 then Char.ofNat (48 + n) else Char.ofNat (87 + n)

/-- The value of a digit in base sixteen, in either case. -/
def hexValue? (c : Char) : Option Nat :=
  if c.isDigit then some (c.toNat - 48)
  else if 'a' ≤ c ∧ c ≤ 'f' then some (c.toNat - 87)
  else if 'A' ≤ c ∧ c ≤ 'F' then some (c.toNat - 55)
  else none

/-- How a character of a string is written. -/
def escape (c : Char) : List Char :=
  match c with
  | '"' => ['\\', '"']
  | '\\' => ['\\', '\\']
  | '\x08' => ['\\', 'b']
  | '\x0c' => ['\\', 'f']
  | '\n' => ['\\', 'n']
  | '\r' => ['\\', 'r']
  | '\t' => ['\\', 't']
  | c =>
    if c.toNat < 0x20 then
      ['\\', 'u', '0', '0', hexDigit (c.toNat / 16), hexDigit (c.toNat % 16)]
    else [c]

/-- The character that a one letter escape stands for. -/
def shortEscape? : Char → Option Char
  | '"' => some '"'
  | '\\' => some '\\'
  | '/' => some '/'
  | 'b' => some '\x08'
  | 'f' => some '\x0c'
  | 'n' => some '\n'
  | 'r' => some '\r'
  | 't' => some '\t'
  | _ => none

/-- Reads four digits in base sixteen. Fewer than four bytes of text end inside the string. -/
def readHex4 : List Char → Except Fault (Nat × List Char)
  | a :: b :: c :: d :: rest =>
    match hexValue? a, hexValue? b, hexValue? c, hexValue? d with
    | some a, some b, some c, some d => .ok (a * 4096 + b * 256 + c * 16 + d, rest)
    | _, _, _, _ => .error .unknownEscape
  | rest =>
    .error (if (String.ofList rest).utf8ByteSize < 4 then .endInString else .unknownEscape)

/-- Reads the second half of a surrogate pair whose first half had the value `high`. -/
def readLowSurrogate (high : Nat) (text : List Char) : Except Fault (Char × List Char) :=
  match text with
  | [] => .error .endInString
  | '\\' :: [] => .error .endInString
  | '\\' :: 'u' :: rest => do
    let (low, rest) ← readHex4 rest
    if low < 0xDC00 || 0xDFFF < low then .error .unpairedLow
    else pure (Char.ofNat (0x10000 + (high - 0xD800) * 0x400 + (low - 0xDC00)), rest)
  | _ => .error .unpairedHigh

/-- Reads the digits of an escape by code point and the second escape that they may need. -/
def readCodePoint (text : List Char) : Except Fault (Char × List Char) := do
  let (unit, rest) ← readHex4 text
  if 0xDC00 ≤ unit && unit ≤ 0xDFFF then .error .unpairedLow
  else if 0xD800 ≤ unit && unit ≤ 0xDBFF then readLowSurrogate unit rest
  else pure (Char.ofNat unit, rest)

/-- Reads one character of a string, or its closing quote, for which there is no character. -/
def nextChar (text : List Char) : Except Fault (Option Char × List Char) :=
  match text with
  | [] => .error .endInString
  | '"' :: rest => .ok (none, rest)
  | '\\' :: [] => .error .endInString
  | '\\' :: 'u' :: rest => (readCodePoint rest).map fun (c, rest) => (some c, rest)
  | '\\' :: c :: rest =>
    match shortEscape? c with
    | some c => .ok (some c, rest)
    | none => .error .unknownEscape
  | c :: rest => if c.toNat < 0x20 then .error .rawControl else .ok (some c, rest)

theorem length_lt_of_readHex4 {text rest : List Char} {n : Nat}
    (h : readHex4 text = .ok (n, rest)) : rest.length < text.length := by
  unfold readHex4 at h
  split at h
  · split at h
    · cases h
      simp only [List.length_cons]
      omega
    · cases h
  · cases h

theorem length_lt_of_readLowSurrogate {high : Nat} {text rest : List Char} {c : Char}
    (h : readLowSurrogate high text = .ok (c, rest)) : rest.length < text.length := by
  unfold readLowSurrogate at h
  split at h
  · cases h
  · cases h
  · next tail =>
    cases hlow : readHex4 tail with
    | error fault => simp [hlow, bind, Except.bind] at h
    | ok pair =>
      obtain ⟨low, after⟩ := pair
      have hlt := length_lt_of_readHex4 hlow
      simp only [hlow, bind, Except.bind] at h
      split at h
      · cases h
      · simp only [pure, Except.pure, Except.ok.injEq, Prod.mk.injEq] at h
        obtain ⟨-, rfl⟩ := h
        simp only [List.length_cons]
        omega
  · cases h

theorem length_lt_of_readCodePoint {text rest : List Char} {c : Char}
    (h : readCodePoint text = .ok (c, rest)) : rest.length < text.length := by
  unfold readCodePoint at h
  cases hunit : readHex4 text with
  | error fault => simp [hunit, bind, Except.bind] at h
  | ok pair =>
    obtain ⟨unit, after⟩ := pair
    have hlt := length_lt_of_readHex4 hunit
    simp only [hunit, bind, Except.bind] at h
    split at h
    · cases h
    · split at h
      · exact Nat.lt_trans (length_lt_of_readLowSurrogate h) hlt
      · cases h
        exact hlt

theorem length_lt_of_nextChar {text rest : List Char} {c : Option Char}
    (h : nextChar text = .ok (c, rest)) : rest.length < text.length := by
  unfold nextChar at h
  split at h
  · cases h
  · cases h
    simp
  · cases h
  · next tail =>
    cases hpoint : readCodePoint tail with
    | error fault => simp [hpoint, Except.map] at h
    | ok pair =>
      obtain ⟨point, after⟩ := pair
      have hlt := length_lt_of_readCodePoint hpoint
      simp only [hpoint, Except.map] at h
      cases h
      simp only [List.length_cons]
      omega
  · split at h
    · cases h
      simp only [List.length_cons]
      omega
    · cases h
  · split at h
    · cases h
    · cases h
      simp

/-- Reads a string after its opening quote. -/
def readString (text : List Char) : Except Fault (List Char × List Char) :=
  match h : nextChar text with
  | .error fault => .error fault
  | .ok (none, rest) => .ok ([], rest)
  | .ok (some c, rest) =>
    have := length_lt_of_nextChar h
    (readString rest).map fun (chars, rest) => (c :: chars, rest)
termination_by text.length

theorem readString_of_none {text rest : List Char} (h : nextChar text = .ok (none, rest)) :
    readString text = .ok ([], rest) := by
  rw [readString]
  split <;> simp_all

theorem readString_of_some {text rest : List Char} {c : Char}
    (h : nextChar text = .ok (some c, rest)) :
    readString text = (readString rest).map fun (chars, rest) => (c :: chars, rest) := by
  rw [readString]
  split <;> simp_all

theorem length_lt_of_readString {text chars rest : List Char}
    (h : readString text = .ok (chars, rest)) : rest.length < text.length := by
  induction hn : text.length using Nat.strongRecOn generalizing text chars with
  | _ n ih =>
    cases hnext : nextChar text with
    | error fault =>
      rw [readString] at h
      split at h <;> simp_all
    | ok pair =>
      obtain ⟨c?, after⟩ := pair
      have hlt := length_lt_of_nextChar hnext
      cases c? with
      | none =>
        rw [readString_of_none hnext] at h
        cases h
        omega
      | some c =>
        rw [readString_of_some hnext] at h
        cases hrest : readString after with
        | error fault => simp [hrest, Except.map] at h
        | ok pair =>
          obtain ⟨tail, last⟩ := pair
          simp only [hrest, Except.map] at h
          cases h
          have hlast := ih after.length (by omega) hrest rfl
          omega

/-! ### Strings that are passed over -/

/-- Passes over one character of a string, or its closing quote; tells whether it was the quote.
The halves of surrogate pairs may stand alone. -/
def skipChar (text : List Char) : Except Fault (Bool × List Char) :=
  match text with
  | [] => .error .endInString
  | '"' :: rest => .ok (true, rest)
  | '\\' :: [] => .error .endInString
  | '\\' :: 'u' :: rest => (readHex4 rest).map fun (_, rest) => (false, rest)
  | '\\' :: c :: rest =>
    if (shortEscape? c).isSome then .ok (false, rest) else .error .unknownEscape
  | c :: rest => if c.toNat < 0x20 then .error .rawControl else .ok (false, rest)

theorem length_lt_of_skipChar {text rest : List Char} {closed : Bool}
    (h : skipChar text = .ok (closed, rest)) : rest.length < text.length := by
  unfold skipChar at h
  split at h
  · cases h
  · cases h
    simp
  · cases h
  · next tail =>
    cases hhex : readHex4 tail with
    | error fault => simp [hhex, Except.map] at h
    | ok pair =>
      obtain ⟨unit, after⟩ := pair
      have hlt := length_lt_of_readHex4 hhex
      simp only [hhex, Except.map] at h
      cases h
      simp only [List.length_cons]
      omega
  · split at h
    · cases h
      simp only [List.length_cons]
      omega
    · cases h
  · split at h
    · cases h
    · cases h
      simp

/-- Passes over a string after its opening quote. -/
def skipString (text : List Char) : Except Fault (List Char) :=
  match h : skipChar text with
  | .error fault => .error fault
  | .ok (true, rest) => .ok rest
  | .ok (false, rest) =>
    have := length_lt_of_skipChar h
    skipString rest
termination_by text.length

theorem length_lt_of_skipString {text rest : List Char} (h : skipString text = .ok rest) :
    rest.length < text.length := by
  fun_induction skipString text with
  | case1 text fault hskip => cases h
  | case2 text after hskip =>
    cases h
    exact length_lt_of_skipChar hskip
  | case3 text after hskip hlt ih => exact Nat.lt_trans (ih h) hlt

end Codename.Json
