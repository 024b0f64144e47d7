/-!
The shortest decimal that stands for a binary64 number.

A finite number is `significand * 2 ^ exponent`, and around it lies the interval of the reals that
round to it. A decimal stands for the number when it lies in that interval. `Magnitude.shortest`
looks at ever finer decimal grids and stops at the first one with a point inside the interval: of
the points of that grid only the two neighbours of the number can be its answer, because the
interval holds the number and has no gaps. All of it is exact arithmetic on natural numbers, so the
answer never depends on how a machine rounds.
-/

set_option autoImplicit false

namespace Photoplot.Decimal

/-! ## 1. Binary64 numbers, taken apart -/

/-- The size of a finite nonzero binary64 number, `significand * 2 ^ exponent`. The next smaller
number is only half as far away as the next larger one exactly when `closeBelow` holds: that is so
at the powers of two. -/
structure Magnitude where
  significand : Nat
  exponent : Int
  closeBelow : Bool

/-- What a binary64 bit pattern stands for. -/
inductive Binary64 where
  | notANumber
  | infinite (negative : Bool)
  | zero (negative : Bool)
  | finite (negative : Bool) (size : Magnitude)

/-- Reads the sign, the eleven exponent bits and the 52 fraction bits of a pattern. -/
def Binary64.ofBits (bits : Nat) : Binary64 :=
  let negative := bits / Nat.pow 2 63 % 2 == 1
  let scale : Nat := bits / Nat.pow 2 52 % Nat.pow 2 11
  let fraction : Nat := bits % Nat.pow 2 52
  if scale = 2047 then
    if fraction = 0 then .infinite negative else .notANumber
  else if scale = 0 then
    if fraction = 0 then .zero negative
    else .finite negative ⟨fraction, -1074, false⟩
  else
    .finite negative ⟨Nat.pow 2 52 + fraction, (scale : Int) - 1075, fraction == 0 && scale != 1⟩

/-! ## 2. The interval of a number -/

/-- A decimal, `digits * 10 ^ exponent`. -/
structure Scaled where
  digits : Nat
  exponent : Int

/-- The lower end of the interval, in units of `2 ^ (exponent - 2)`: half way to the next smaller
number. -/
def Magnitude.lower (m : Magnitude) : Nat :=
  4 * m.significand - (if m.closeBelow then 1 else 2)

/-- The upper end of the interval, in units of `2 ^ (exponent - 2)`: half way to the next larger
number. -/
def Magnitude.upper (m : Magnitude) : Nat :=
  4 * m.significand + 2

/-- Whether a decimal lies in the interval of `m`, and so is rounded to it. A tie goes to the
number with the even significand, hence the ends belong to the interval of such a number. Both
sides are multiplied by the powers with negative exponents to stay whole. -/
def Magnitude.contains (m : Magnitude) (d : Scaled) : Bool :=
  let point := d.digits * Nat.pow 10 d.exponent.toNat * Nat.pow 2 (2 - m.exponent).toNat
  let grain := Nat.pow 2 (m.exponent - 2).toNat * Nat.pow 10 (-d.exponent).toNat
  if m.significand % 2 = 0 then
    m.lower * grain ≤ point && point ≤ m.upper * grain
  else
    m.lower * grain < point && point < m.upper * grain

/-! ## 3. The first grid with a hit -/

/-- The decimal on the grid of `10 ^ exponent` that stands for `m`, if there is one. Of two
candidates the nearer one is taken, and at equal distance the larger one. -/
def Magnitude.onGrid? (m : Magnitude) (exponent : Int) : Option Scaled :=
  let top := m.significand * Nat.pow 2 m.exponent.toNat * Nat.pow 10 (-exponent).toNat
  let bottom := Nat.pow 2 (-m.exponent).toNat * Nat.pow 10 exponent.toNat
  let below : Scaled := ⟨top / bottom, exponent⟩
  let above : Scaled := ⟨top / bottom + 1, exponent⟩
  match m.contains below, m.contains above with
  | true, true => if 2 * top < (2 * below.digits + 1) * bottom then some below else some above
  | true, false => some below
  | false, true => some above
  | false, false => none

/-- The decimal that equals `m`. -/
def Magnitude.exact (m : Magnitude) : Scaled :=
  ⟨m.significand * Nat.pow 2 m.exponent.toNat * Nat.pow 5 (-m.exponent).toNat, min m.exponent 0⟩

/-- The hit on the coarsest grid among the `tries` grids from `10 ^ exponent` downwards, or the
exact decimal when none of them has one. -/
def Magnitude.firstHit (m : Magnitude) : (tries : Nat) → (exponent : Int) → Scaled
  | 0, _ => m.exact
  | tries + 1, exponent =>
    match m.onGrid? exponent with
    | some d => d
    | none => m.firstHit tries (exponent - 1)

/-- An exponent of ten above that of the leading digit of `m`: 0.30103 is just above the decimal
logarithm of two, and the two added make up for rounding down. -/
def Magnitude.coarsest (m : Magnitude) : Int :=
  ((m.significand.log2 : Int) + 1 + m.exponent) * 30103 / 100000 + 2

/-- The shortest decimal that stands for `m`. Seventeen digits always do, and the search starts at
most four grids above the first digit. -/
def Magnitude.shortest (m : Magnitude) : Scaled :=
  m.firstHit 24 m.coarsest

end Photoplot.Decimal
