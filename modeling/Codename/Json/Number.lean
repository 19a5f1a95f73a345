import Codename.Decimal.Text
import Codename.Json.Fault

/-!
# Numbers in JSON

No document of this library holds a number, yet one that stands where another value is needed is
read and named in the message. Integers of up to 64 bits keep their value; any other number becomes
a floating point number. Its value is the significand, cut to 64 bits, times a power of ten, each
rounded on its own.

## Main definitions

* `Numeral`, `readNumeral` — the parts of a written number.
* `Numeral.found` — the number as a message names it.
-/

namespace Codename.Json

/-- The parts of a written number. -/
structure Numeral where
  negative : Bool
  whole : List Char
  fraction : Option (List Char)
  /-- Whether the exponent is negative, and its digits. -/
  exponent : Option (Bool × List Char)
  deriving Repr, DecidableEq

def spanDigits (text : List Char) : List Char × List Char :=
  (text.takeWhile Char.isDigit, text.dropWhile Char.isDigit)

/-- Reads one digit or more. Where the text ends instead, the fault is `atEnd`. -/
def readDigits (atEnd : Fault) (text : List Char) : Except Fault (List Char × List Char) :=
  match text with
  | [] => .error atEnd
  | c :: _ => if c.isDigit then .ok (spanDigits text) else .error .malformedNumber

/-- Reads the digits in front of the point, of which a zero can only be the single one. -/
def readWhole (atEnd : Fault) (text : List Char) : Except Fault (List Char × List Char) := do
  let (digits, rest) ← readDigits atEnd text
  if digits.head? = some '0' && digits.length ≠ 1 then .error .malformedNumber
  else pure (digits, rest)

/-- Reads a point and digits, if there is a point. -/
def readFraction (atEnd : Fault) (text : List Char) :
    Except Fault (Option (List Char) × List Char) :=
  match text with
  | '.' :: rest => (readDigits atEnd rest).map fun (digits, rest) => (some digits, rest)
  | _ => .ok (none, text)

/-- Splits off the sign of an exponent: whether it is a minus, and the text behind it. -/
def spanSign : List Char → Bool × List Char
  | '-' :: rest => (true, rest)
  | '+' :: rest => (false, rest)
  | text => (false, text)

/-- Reads an exponent, if there is one. -/
def readExponent (atEnd : Fault) (text : List Char) :
    Except Fault (Option (Bool × List Char) × List Char) :=
  match text with
  | c :: rest =>
    if c = 'e' || c = 'E' then
      let (negative, rest) := spanSign rest
      (readDigits atEnd rest).map fun (digits, rest) => (some (negative, digits), rest)
    else .ok (none, text)
  | [] => .ok (none, text)

/-- Reads a number. Where the text ends inside it, the fault is `atEnd`. -/
def readNumeral (atEnd : Fault) (text : List Char) : Except Fault (Numeral × List Char) := do
  let (negative, rest) := match text with
    | '-' :: rest => (true, rest)
    | _ => (false, text)
  let (whole, rest) ← readWhole atEnd rest
  let (fraction, rest) ← readFraction atEnd rest
  let (exponent, rest) ← readExponent atEnd rest
  pure (⟨negative, whole, fraction, exponent⟩, rest)

def digitValue (c : Char) : Nat := c.toNat - '0'.toNat

def digitsValue (digits : List Char) : Nat :=
  digits.foldl (fun n c => n * 10 + digitValue c) 0

/-- What is below this bound, `2 ^ 64`, fits into 64 bits. -/
def wordBound : Nat := 0x10000000000000000

/-- Appends digits to a significand as long as it fits into 64 bits; the second part are the digits
left over. -/
def appendDigits (significand : Nat) : List Char → Nat × List Char
  | [] => (significand, [])
  | c :: rest =>
    if significand * 10 + digitValue c < wordBound then
      appendDigits (significand * 10 + digitValue c) rest
    else (significand, c :: rest)

/-- A floating point number times a power of ten, by one multiplication or division if the power is
in range. A number too small in between is brought into range by `10 ^ 308` at a time. -/
def scale (x : Float) (exponent : Int) : Except Fault Float :=
  if exponent < -308 then
    if x == 0 then .ok x else scale (x / Float.ofScientific 1 false 308) (exponent + 308)
  else if exponent < 0 then .ok (x / Float.ofScientific 1 false exponent.natAbs)
  else if exponent ≤ 308 then
    let product := x * Float.ofScientific 1 false exponent.natAbs
    if product.isInf then .error .numberTooLarge else .ok product
  else if x == 0 then .ok x
  else .error .numberTooLarge
termination_by (-exponent).toNat

namespace Numeral

/-- The significand in 64 bits and the power of ten that goes with it, the written exponent not
counted. -/
def significand (n : Numeral) : Nat × Int :=
  let (whole, dropped) := appendDigits 0 n.whole
  let places := n.fraction.getD []
  let (full, left) := appendDigits whole places
  (full, dropped.length - (places.length - left.length))

/-- The value as a floating point number. An exponent beyond 31 bits makes the number zero or too
large. -/
def toFloat (n : Numeral) : Except Fault Float := do
  let (full, power) := n.significand
  let magnitude ← match n.exponent with
    | none => scale full.toUInt64.toFloat power
    | some (negative, digits) =>
      let written := digitsValue digits
      if written < 0x80000000 then
        scale full.toUInt64.toFloat (if negative then power - written else power + written)
      else if full ≠ 0 && !negative then .error .numberTooLarge
      else .ok 0
  pure (if n.negative then -magnitude else magnitude)

/-- The value as an integer of at most 64 bits, if it is written as one. Negative zero is none. -/
def toInt? (n : Numeral) : Option Int :=
  let magnitude := digitsValue n.whole
  if n.fraction.isSome || n.exponent.isSome then none
  else if n.negative then
    if magnitude ≠ 0 && 2 * magnitude ≤ wordBound then some (-(magnitude : Int)) else none
  else if magnitude < wordBound then some magnitude
  else none

/-- The number as a message names it. -/
def found (n : Numeral) : Except Fault Found :=
  match n.toInt? with
  | some value => .ok (.integer value)
  | none => n.toFloat.map fun x => .decimal (Decimal.textOf x)

end Numeral

/-! ### Reading takes text -/

theorem length_dropWhile_le (p : Char → Bool) (text : List Char) :
    (text.dropWhile p).length ≤ text.length :=
  (List.dropWhile_suffix p).length_le

theorem length_lt_of_readDigits {atEnd : Fault} {text digits rest : List Char}
    (h : readDigits atEnd text = .ok (digits, rest)) : rest.length < text.length := by
  unfold readDigits at h
  split at h
  · cases h
  · next c tail =>
    split at h
    · next hdigit =>
      cases h
      have hle := length_dropWhile_le Char.isDigit tail
      simp only [List.dropWhile_cons, hdigit, if_true, List.length_cons]
      omega
    · cases h

theorem length_lt_of_readWhole {atEnd : Fault} {text digits rest : List Char}
    (h : readWhole atEnd text = .ok (digits, rest)) : rest.length < text.length := by
  unfold readWhole at h
  cases hdigits : readDigits atEnd text with
  | error fault => simp [hdigits, bind, Except.bind] at h
  | ok pair =>
    obtain ⟨all, after⟩ := pair
    have hlt := length_lt_of_readDigits hdigits
    simp only [hdigits, bind, Except.bind] at h
    split at h
    · cases h
    · cases h
      exact hlt

theorem length_le_of_readFraction {atEnd : Fault} {text rest : List Char}
    {digits : Option (List Char)} (h : readFraction atEnd text = .ok (digits, rest)) :
    rest.length ≤ text.length := by
  unfold readFraction at h
  split at h
  · next tail =>
    cases hdigits : readDigits atEnd tail with
    | error fault => simp [hdigits, Except.map] at h
    | ok pair =>
      obtain ⟨all, after⟩ := pair
      have hlt := length_lt_of_readDigits hdigits
      simp only [hdigits, Except.map] at h
      cases h
      simp only [List.length_cons]
      omega
  · cases h
    exact Nat.le_refl _

theorem length_spanSign_le (text : List Char) : (spanSign text).2.length ≤ text.length := by
  unfold spanSign
  split <;> simp

theorem length_le_of_readExponent {atEnd : Fault} {text rest : List Char}
    {exponent : Option (Bool × List Char)} (h : readExponent atEnd text = .ok (exponent, rest)) :
    rest.length ≤ text.length := by
  unfold readExponent at h
  split at h
  · next c tail =>
    split at h
    · have hsign := length_spanSign_le tail
      cases hdigits : readDigits atEnd (spanSign tail).2 with
      | error fault => simp [hdigits, Except.map] at h
      | ok pair =>
        obtain ⟨all, after⟩ := pair
        have hlt := length_lt_of_readDigits hdigits
        simp only [hdigits, Except.map] at h
        cases h
        simp only [List.length_cons]
        omega
    · cases h
      exact Nat.le_refl _
  · cases h
    exact Nat.le_refl _

/-- Reading a number takes text. -/
theorem length_lt_of_readNumeral {atEnd : Fault} {text rest : List Char} {n : Numeral}
    (h : readNumeral atEnd text = .ok (n, rest)) : rest.length < text.length := by
  unfold readNumeral at h
  split at h
  next negative unsigned hunsigned =>
  have hle : unsigned.length ≤ text.length := by
    split at hunsigned
    · cases hunsigned
      simp
    · cases hunsigned
      exact Nat.le_refl _
  cases hwhole : readWhole atEnd unsigned with
  | error fault => simp [hwhole, bind, Except.bind] at h
  | ok pair =>
    obtain ⟨whole, afterWhole⟩ := pair
    have hlt := length_lt_of_readWhole hwhole
    simp only [hwhole, bind, Except.bind] at h
    cases hfraction : readFraction atEnd afterWhole with
    | error fault => simp [hfraction] at h
    | ok pair =>
      obtain ⟨fraction, afterFraction⟩ := pair
      have hfractionLe := length_le_of_readFraction hfraction
      simp only [hfraction] at h
      cases hexponent : readExponent atEnd afterFraction with
      | error fault => simp [hexponent] at h
      | ok pair =>
        obtain ⟨exponent, last⟩ := pair
        have hexponentLe := length_le_of_readExponent hexponent
        simp only [hexponent] at h
        cases h
        omega

end Codename.Json
