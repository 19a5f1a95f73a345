import Codename.Decimal.Shortest

/-!
# The text of a floating point number

A floating point number is written with its shortest decimal digits. Numbers whose leading digit is
between the places `10 ^ -5` and `10 ^ 15` are written out, with `.0` if they are integers; others
have an exponent with a sign in either direction.

## Main definitions

* `Binary.ofFloat?` — a floating point number as an exact binary number.
* `textOf` — its text.
-/

namespace Codename.Decimal

/-- The number `2 ^ 52`: a floating point number has 52 bits of fraction, above them 11 bits of
scale and one of sign. -/
def fractionBound : Nat := 0x10000000000000

/-- The magnitude of a floating point number, if it is finite and not zero. -/
def Binary.ofFloat? (x : Float) : Option Binary :=
  let bits := x.toBits.toNat
  let fraction : Nat := bits % fractionBound
  let scale : Nat := bits / fractionBound % 0x800
  if scale = 0x7FF then none
  else if scale = 0 then
    if fraction = 0 then none else some ⟨fraction, -1074, false⟩
  else some ⟨fractionBound + fraction, scale - 1075, fraction == 0 && scale != 1⟩

/-- A decimal with its digits written out around the point. -/
def positional (digits : List Char) (exponent : Int) : List Char :=
  if 0 ≤ exponent then digits ++ List.replicate exponent.toNat '0' ++ ['.', '0']
  else
    let places := (-exponent).toNat
    let padded := List.replicate (places + 1 - digits.length) '0' ++ digits
    padded.take (padded.length - places) ++ '.' :: padded.drop (padded.length - places)

/-- A decimal with one digit before the point and a power of ten, `top`, after the digits. -/
def scientific (digits : List Char) (top : Int) : List Char :=
  digits.take 1 ++ (if digits.length = 1 then [] else '.' :: digits.drop 1) ++
    ['e', if top < 0 then '-' else '+'] ++ Nat.toDigits 10 top.natAbs

/-- The text of a positive number. -/
def text (d : Decimal) : List Char :=
  let digits := Nat.toDigits 10 d.digits
  let top := d.exponent + digits.length - 1
  if -5 ≤ top && top ≤ 15 then positional digits d.exponent else scientific digits top

/-- The text of a finite floating point number. -/
def textOf (x : Float) : String :=
  let sign := if x.toBits.toNat / fractionBound < 0x800 then [] else ['-']
  match Binary.ofFloat? x with
  | some magnitude => String.ofList (sign ++ (magnitude.shortest.stripZeros 17).text)
  | none => String.ofList (sign ++ ['0', '.', '0'])

end Codename.Decimal
