import Photoplot.Proofs.Decimal.Order
import Photoplot.Proofs.Decimal.Rounding

/-!
The exact values of numbers.

A finite number is a rational, and `exact` is that rational: nothing is rounded. Arithmetic on the
values is the arithmetic of the rationals, so it says what a computation means before rounding.

**What is proved, and where the work is.**

* What has to be shown is that the values are in the order of the numbers. Comparing significands
  and exponents would come to many cases, and ranks bring it down to counting: from one rank to the
  next the value grows (`valueAt_lt_succ`), so it grows with the rank (`strictMono_sizeAt`).
* A rank is a scale and a fraction, and going on by one either adds one place to the fraction or
  goes over to the next scale. For the latter, a full fraction at one scale is worth as much as an
  empty one at the next (`valueAt_top`). The two least scales have one exponent and differ in the
  implicit bit, and it is this that makes the step between them like any other.
* The value of a canonical number is that of its rank (`sizeAt_sizeRank`), with a sign on either
  side (`exact_eq_ofRank`).

Main statement: `le_iff_exact`.
-/

set_option autoImplicit false

namespace Photoplot.Decimal

/-- The value of a finite number. What is no finite number has none, and is taken for zero. -/
def exact (x : Float) : ℚ :=
  match Binary64.ofBits x.toBits.toNat with
  | .finite negative size =>
    (if negative then -1 else 1) * (size.significand * 2 ^ size.exponent)
  | _ => 0

/-! ## 1. Values by rank -/

/-- The bit of the significand that is not among the 52 bits of the fraction. It is missing at the
least scale only. -/
def implicitBit (scale : ℕ) : ℕ :=
  if scale = 0 then 0 else 2 ^ 52

/-- The value with a scale and a fraction. The two least scales have the same exponent. -/
def valueAt (scale fraction : ℕ) : ℚ :=
  (implicitBit scale + fraction : ℕ) * 2 ^ ((max scale 1 : ℕ) - 1075 : ℤ)

/-- The value of the number with a rank, for a rank without a sign. -/
def sizeAt (n : ℕ) : ℚ :=
  valueAt (n / 2 ^ 52) (n % 2 ^ 52)

/-- Scales meet without a gap: a fraction that has run over is the first one of the next scale. -/
theorem valueAt_top (scale : ℕ) : valueAt scale (2 ^ 52) = valueAt (scale + 1) 0 := by
  rw [valueAt, valueAt, implicitBit, implicitBit, if_neg (Nat.succ_ne_zero scale)]
  by_cases hscale : scale = 0
  · simp [hscale]
  · have hexponent : ((max (scale + 1) 1 : ℕ) - 1075 : ℤ) = ((max scale 1 : ℕ) - 1075 : ℤ) + 1 := by
      omega
    rw [if_neg hscale, hexponent, zpow_add_one₀ (by norm_num)]
    push_cast
    ring

theorem sizeAt_of_le {scale fraction : ℕ} (h : fraction ≤ 2 ^ 52) :
    sizeAt (scale * 2 ^ 52 + fraction) = valueAt scale fraction := by
  rw [sizeAt]
  obtain hlt | rfl := Nat.lt_or_eq_of_le h
  · have hscale : (scale * 2 ^ 52 + fraction) / 2 ^ 52 = scale := by omega
    have hfraction : (scale * 2 ^ 52 + fraction) % 2 ^ 52 = fraction := by omega
    rw [hscale, hfraction]
  · have hscale : (scale * 2 ^ 52 + 2 ^ 52) / 2 ^ 52 = scale + 1 := by omega
    have hfraction : (scale * 2 ^ 52 + 2 ^ 52) % 2 ^ 52 = 0 := by omega
    rw [hscale, hfraction, valueAt_top]

theorem valueAt_lt_succ (scale fraction : ℕ) :
    valueAt scale fraction < valueAt scale (fraction + 1) := by
  rw [valueAt, valueAt]
  apply mul_lt_mul_of_pos_right _ (two_zpow_pos _)
  exact_mod_cast Nat.lt_succ_self _

/-- **Ranks without a sign.** The value grows with them. -/
theorem strictMono_sizeAt : StrictMono sizeAt := by
  apply strictMono_nat_of_lt_succ
  intro n
  have hfraction : n % 2 ^ 52 < 2 ^ 52 := Nat.mod_lt n (by norm_num)
  have hsplit : n / 2 ^ 52 * 2 ^ 52 + n % 2 ^ 52 = n := Nat.div_add_mod' n (2 ^ 52)
  calc sizeAt n = valueAt (n / 2 ^ 52) (n % 2 ^ 52) := rfl
    _ < valueAt (n / 2 ^ 52) (n % 2 ^ 52 + 1) := valueAt_lt_succ _ _
    _ = sizeAt (n / 2 ^ 52 * 2 ^ 52 + (n % 2 ^ 52 + 1)) := (sizeAt_of_le hfraction).symm
    _ = sizeAt (n + 1) := by rw [← Nat.add_assoc, hsplit]

theorem sizeAt_zero : sizeAt 0 = 0 := by
  simp [sizeAt, valueAt, implicitBit]

/-- The rank of a canonical number has its value. -/
theorem sizeAt_sizeRank {m : ℕ} {e : ℤ} (h : Canonical m e) :
    sizeAt (sizeRank m e) = m * 2 ^ e := by
  obtain ⟨hpos, hlt, hleast, hgreatest, hnormal⟩ := h
  rw [sizeRank, sizeAt_of_le (Nat.mod_lt m (by norm_num)).le, valueAt, implicitBit]
  by_cases hm : 2 ^ 52 ≤ m
  · have hsignificand : 2 ^ 52 + m % 2 ^ 52 = m := by omega
    have hexponent : ((max (e + 1075).toNat 1 : ℕ) - 1075 : ℤ) = e := by omega
    rw [if_pos hm, if_neg (by omega), hsignificand, hexponent]
  · have hexponent : ((max 0 1 : ℕ) - 1075 : ℤ) = e := by omega
    rw [if_neg hm, if_pos rfl, Nat.zero_add, Nat.mod_eq_of_lt (by omega), hexponent]

/-- The value of the number with a rank. -/
def ofRank (i : ℤ) : ℚ :=
  i.sign * sizeAt i.natAbs

theorem ofRank_neg (i : ℤ) : ofRank (-i) = -ofRank i := by
  rw [ofRank, ofRank, Int.sign_neg, Int.natAbs_neg]
  push_cast
  ring

theorem ofRank_natCast (n : ℕ) : ofRank n = sizeAt n := by
  obtain rfl | hn := n.eq_zero_or_pos
  · rw [sizeAt_zero, ofRank]
    simp
  · rw [ofRank, Int.sign_natCast_of_ne_zero hn.ne', Int.natAbs_natCast]
    simp

/-- The value grows with the rank, on both sides of zero alike. -/
theorem strictMono_ofRank : StrictMono ofRank := by
  apply strictMono_of_odd_strictMonoOn_nonneg ofRank_neg
  intro i hi j hj hij
  lift i to ℕ using hi
  lift j to ℕ using hj
  rw [ofRank_natCast, ofRank_natCast]
  exact strictMono_sizeAt (Int.ofNat_lt.1 hij)

/-! ## 2. Values and the order -/

theorem isNaN_of_isFinite {x : Float} (h : x.isFinite = true) : x.isNaN = false := by
  change x.toModel.unpack.isFinite = true at h
  change x.toModel.unpack.isNaN = false
  generalize x.toModel.unpack = u at h
  cases u with
  | notANumber => cases h
  | infinity | zero | finite => rfl

/-- The value of a finite number is that of its rank. -/
theorem exact_eq_ofRank {x : Float} (h : x.isFinite = true) : exact x = ofRank (rank x) := by
  cases hparts : Binary64.ofBits x.toBits.toNat with
  | notANumber =>
    rw [eq_missing hparts] at h
    exact absurd h (by decide)
  | infinite negative =>
    rw [eq_of_infinite hparts] at h
    exact absurd h (by cases negative <;> decide)
  | zero negative =>
    have hrank : rank x = 0 := by
      rw [eq_of_zero hparts]
      cases negative <;> rfl
    simp [exact, hparts, hrank, ofRank]
  | finite negative size =>
    rw [exact, hparts, rank_of_finite hparts]
    cases negative
    · simp [withSign, ofRank_natCast, sizeAt_sizeRank (canonical_of_ofBits hparts)]
    · simp [withSign, ofRank_neg, ofRank_natCast, sizeAt_sizeRank (canonical_of_ofBits hparts)]

/-- **The order of values.** Finite numbers are in the order of their exact values. -/
theorem le_iff_exact {x y : Float} (hx : x.isFinite = true) (hy : y.isFinite = true) :
    x ≤ y ↔ exact x ≤ exact y := by
  rw [exact_eq_ofRank hx, exact_eq_ofRank hy, strictMono_ofRank.le_iff_le]
  exact le_iff_rank (isNaN_of_isFinite hx) (isNaN_of_isFinite hy)

end Photoplot.Decimal
