/-!
# The shortest decimal of a binary number

A finite binary number stands for all reals that round to it. Among the decimals in that interval
the one with the fewest digits is chosen, and of those the one nearest to the number itself; a tie
goes to the even digit. All comparisons are between natural numbers.

## Main definitions

* `Binary` — a positive number `mantissa * 2 ^ exponent` and how far its neighbours are.
* `Decimal` — a number `digits * 10 ^ exponent`.
* `Binary.shortest` — the chosen decimal.
-/

namespace Codename

/-- The number `digits * 10 ^ exponent`. -/
structure Decimal where
  digits : Nat
  exponent : Int
  deriving Repr, DecidableEq

namespace Decimal

/-- A positive binary number. Below a power of two its lower neighbour is only half as far away as
its upper one. -/
structure Binary where
  mantissa : Nat
  exponent : Int
  narrowBelow : Bool
  deriving Repr, DecidableEq

namespace Binary

/-- A quarter of the number's last place, over the grid step `10 ^ grid`: numerator. -/
def quarterNum (x : Binary) (grid : Int) : Nat :=
  Nat.pow 2 (x.exponent - 2).toNat * Nat.pow 10 (-grid).toNat

/-- A quarter of the number's last place, over the grid step `10 ^ grid`: denominator. -/
def quarterDen (x : Binary) (grid : Int) : Nat :=
  Nat.pow 2 (2 - x.exponent).toNat * Nat.pow 10 grid.toNat

/-- Whether the decimal rounds to the number: it lies between the midpoints to the neighbours, and
on one of them only if the mantissa is even. -/
def readsBack (x : Binary) (d : Decimal) : Bool :=
  let point := d.digits * x.quarterDen d.exponent
  let low := (4 * x.mantissa - if x.narrowBelow then 1 else 2) * x.quarterNum d.exponent
  let high := (4 * x.mantissa + 2) * x.quarterNum d.exponent
  if x.mantissa % 2 = 0 then low ≤ point && point ≤ high else low < point && point < high

/-- The candidate of one decimal grid: the nearer of the two neighbours on the grid that read back,
if any does. -/
def onGrid? (x : Binary) (grid : Int) : Option Decimal :=
  let num := 4 * x.mantissa * x.quarterNum grid
  let den := x.quarterDen grid
  let below : Decimal := ⟨num / den, grid⟩
  let above : Decimal := ⟨num / den + 1, grid⟩
  let half := compare (2 * (num % den)) den
  let preferBelow := half == .lt || (half == .eq && below.digits % 2 == 0)
  if x.readsBack below && (preferBelow || !x.readsBack above) then some below
  else if x.readsBack above then some above
  else none

/-- The exponent of the number's leading decimal digit. -/
def leadingExponent (x : Binary) : Int :=
  let num := x.mantissa * Nat.pow 2 x.exponent.toNat
  let den := Nat.pow 2 (-x.exponent).toNat
  if den ≤ num then ((Nat.toDigits 10 (num / den)).length : Int) - 1
  else -((((List.range 400).find? fun k => den ≤ num * Nat.pow 10 k).getD 0 : Nat) : Int)

/-- The decimal with the fewest digits that reads back. Seventeen digits always do. -/
def shortest (x : Binary) : Decimal :=
  let top := x.leadingExponent
  ((List.range 17).findSome? fun more : Nat => x.onGrid? (top - more)).getD
    ⟨4 * x.mantissa * x.quarterNum (top - 16) / x.quarterDen (top - 16), top - 16⟩

end Binary

/-- Moves factors of ten from the digits to the exponent, at most `bound` of them. -/
def stripZeros : Nat → Decimal → Decimal
  | 0, d => d
  | bound + 1, d =>
    if d.digits ≠ 0 && d.digits % 10 == 0 then stripZeros bound ⟨d.digits / 10, d.exponent + 1⟩
    else d

example : (Binary.mk (2 ^ 52) (-52) true).shortest.stripZeros 17 = ⟨1, 0⟩ := by decide +kernel

end Decimal

end Codename
