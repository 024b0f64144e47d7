import Photoplot.Proofs.Decimal.Arithmetic
import Photoplot.Proofs.Geometry.Extent
import Photoplot.Proofs.Geometry.Points
import Photoplot.Script.DrillMark

/-!
How far numbers reach.

Raw coordinates are small, and so is what is added to draw a drill mark: `Near` says how small. Next
to the greatest numbers there is room for that, so a near point moved by an offset has finite
coordinates if and only if the offset has, and the whole of a drill mark has if its center has. The
ranges of the axes are another matter. Their ends are computed from the least and the greatest
coordinate, which may lie so far apart that the difference overflows: `Fits` is the condition that
it does not.

**What is proved, and where the work is.**

* A near number is far smaller than half of the last place of the greatest numbers, so adding it
  never leads out of the finite ones (`abs_add_lt_overflow`). That raw coordinates are near is a
  matter of the scales, none of which is more than one, and of the range of whole numbers of
  thirty-two bits (`near_scale_mul`).
* A drill mark has 24 finite points around its center and a row without a point; that all of them
  are finite if and only if the center is (`finite_drillMark_iff`) goes by the row list, with the
  circle as one case.
* Of a range, the length, the margin and the two ends are rounded one after the other.
  `isFinite_padded_iff` says when all of them are finite, and `padded_le` that the ends are the
  right way round then. For the latter no estimate of the rounding is needed: rounding does not
  carry a result past a number, and zero and the ends are numbers.
* Last comes a condition that is easier to check: a box around points of at most `2 ^ 1001` has
  ranges that fit (`Bounds.Encloses.fits`).
-/

set_option autoImplicit false

namespace Photoplot

open Decimal

/-! ## 1. Near numbers -/

namespace Decimal

/-- **Near.** Small enough to be added to any number. -/
structure Near (x : Float) : Prop where
  isFinite : x.isFinite = true
  small : |exact x| ≤ 2 ^ 31

theorem two_pow_lt_halfPlace : (2 : ℚ) ^ 31 < halfPlace := by
  have hpower : (2 : ℚ) ^ (31 : ℤ) < 2 ^ (970 : ℤ) :=
    zpow_lt_zpow_right₀ (by norm_num) (by norm_num)
  rw [two_zpow_eq_halfPlace (e := 970) 0 rfl, pow_zero, one_mul] at hpower
  exact_mod_cast hpower

/-- Up to half of the last place can be added to the greatest number. -/
theorem abs_add_lt_overflow {v : Float} (hv : v.isFinite = true) {p : ℚ} (hp : |p| ≤ 2 ^ 31) :
    |exact v + p| < overflow := by
  have hsum := abs_add_le (exact v) p
  have hgreatest := abs_exact_le hv
  have hplace := two_pow_lt_halfPlace
  rw [overflow]
  linarith

/-- **Moved by a near number.** A sum of it is finite exactly when the other summand is. -/
theorem Near.isFinite_add_iff {x : Float} (h : Near x) (v : Float) :
    (x + v).isFinite = true ↔ v.isFinite = true := by
  constructor
  · intro hsum
    exact (isFinite_of_add hsum).2
  · intro hv
    rw [(roundsTo_add h.isFinite hv).isFinite_iff, add_comm]
    exact abs_add_lt_overflow hv h.small

theorem Near.isFinite_add {x v : Float} (h : Near x) (hv : v.isFinite = true) :
    (v + x).isFinite = true := by
  rw [(roundsTo_add hv h.isFinite).isFinite_iff]
  exact abs_add_lt_overflow hv h.small

theorem Near.isFinite_sub {x v : Float} (h : Near x) (hv : v.isFinite = true) :
    (v - x).isFinite = true := by
  rw [(roundsTo_sub hv h.isFinite).isFinite_iff, sub_eq_add_neg]
  apply abs_add_lt_overflow hv
  rw [abs_neg]
  exact h.small

/-- **Modest.** Far enough below the limit for a range of an axis. -/
structure Modest (x : Float) : Prop where
  isFinite : x.isFinite = true
  small : |exact x| ≤ 2 ^ (1000 : ℤ)

/-- Powers of two are numbers, up to the limit. -/
theorem representable_two_zpow {e : ℤ} (hleast : -1022 ≤ e) (hgreatest : e ≤ 1023) :
    Representable (2 ^ e) := by
  have hc : Canonical (2 ^ 52) (e - 52) := by
    refine ⟨by norm_num, by norm_num, by omega, by omega, Or.inl le_rfl⟩
  have hvalue : (2 : ℚ) ^ e = 2 ^ 52 * 2 ^ (e - 52) := by
    rw [← zpow_natCast, ← zpow_add₀ (by norm_num)]
    congr 1
    push_cast
    omega
  refine ⟨_, Proper.finite .positive hc, ?_⟩
  rw [hvalue]
  exact_mod_cast rfl

/-- A near number and a modest one add up to twice the latter at most. -/
theorem Near.abs_exact_add_le {x v : Float} (h : Near x) (hv : Modest v) :
    |exact (x + v)| ≤ 2 ^ (1001 : ℤ) := by
  have hplace := two_pow_lt_halfPlace
  have hsum := abs_add_le (exact x) (exact v)
  have hx := h.small
  have hv' := hv.small
  rw [two_zpow_eq_halfPlace (e := 1000) 30 rfl] at hv'
  apply (roundsTo_add h.isFinite hv.isFinite).abs_exact_le
  · exact (h.isFinite_add_iff v).2 hv.isFinite
  · exact representable_two_zpow (by norm_num) (by norm_num)
  · rw [two_zpow_eq_halfPlace (e := 1001) 31 rfl]
    linarith

/-- What lies between minus one and one as a float does so as a rational. -/
theorem abs_exact_le_one {x : Float} (hx : x.isFinite = true) (hlow : Float.ofInt (-1) ≤ x)
    (hhigh : x ≤ Float.ofInt 1) : |exact x| ≤ 1 := by
  obtain ⟨hone, hexact⟩ := exact_ofInt (n := 1) (by decide)
  obtain ⟨hneg, hexact'⟩ := exact_ofInt (n := -1) (by decide)
  rw [le_iff_exact hneg hx, hexact'] at hlow
  rw [le_iff_exact hx hone, hexact] at hhigh
  push_cast at hlow hhigh
  exact abs_le.2 ⟨hlow, hhigh⟩

theorem near_of_le {x : Float} (hx : x.isFinite = true) (hlow : Float.ofInt (-1) ≤ x)
    (hhigh : x ≤ Float.ofInt 1) : Near x :=
  ⟨hx, (abs_exact_le_one hx hlow hhigh).trans (by norm_num)⟩

/-- A raw coordinate gives a near number, in any units. -/
theorem near_scale_mul (u : Units) {n : ℤ} (hn : n.natAbs ≤ 2 ^ 31) :
    Near (u.scale * Float.ofInt n) := by
  by_cases hzero : n = 0
  · rw [hzero]
    apply near_of_le <;> cases u <;> decide
  · have hfinite : u.scale.isFinite = true := by
      cases u <;> decide
    have hscale : |exact u.scale| ≤ 1 := by
      apply abs_exact_le_one hfinite <;> cases u <;> decide
    obtain ⟨hint, hexact⟩ := exact_ofInt (n := n) (by omega)
    have hrounds := roundsTo_mul hfinite hint u.awayFromZero_scale (awayFromZero_ofInt hzero)
      (by norm_num) (by norm_num)
    have hcast : |(n : ℚ)| ≤ 2 ^ 31 := by
      rw [← Int.cast_abs, Int.abs_eq_natAbs]
      exact_mod_cast hn
    have hproduct : |exact u.scale * exact (Float.ofInt n)| ≤ 2 ^ 31 := by
      rw [hexact, abs_mul]
      calc |exact u.scale| * |(n : ℚ)| ≤ 1 * 2 ^ 31 := by gcongr
        _ = 2 ^ 31 := one_mul _
    have hlimit : Representable (2 ^ 31) := by
      obtain ⟨htop, htop'⟩ := exact_ofInt (n := 2 ^ 31) (by decide)
      have := representable_exact htop
      rw [htop'] at this
      exact_mod_cast this
    have hsmall : |exact u.scale * exact (Float.ofInt n)| < overflow := by
      refine hproduct.trans_lt (two_pow_lt_halfPlace.trans_le ?_)
      rw [overflow]
      linarith [halfPlace_pos]
    have hproductFinite := hrounds.isFinite_iff.2 hsmall
    exact ⟨hproductFinite, hrounds.abs_exact_le hproductFinite hlimit hproduct⟩

end Decimal

/-! ## 2. Points and drill marks -/

/-- Both coordinates are near. -/
def Point.Near (p : Point) : Prop :=
  Decimal.Near p.x ∧ Decimal.Near p.y

theorem Point.near_zero : Point.zero.Near := by
  constructor <;> apply near_of_le <;> decide

theorem Units.near_pointAt (u : Units) {x y : Int} (hx : x.natAbs ≤ 2 ^ 31)
    (hy : y.natAbs ≤ 2 ^ 31) : (u.pointAt x y).Near :=
  ⟨near_scale_mul u hx, near_scale_mul u hy⟩

/-- **Offsets decide.** A near point stays finite under every finite offset, and under no other. -/
theorem Point.Near.finite_add_iff {p : Point} (h : p.Near) (v : Point) :
    (p + v).Finite ↔ v.Finite :=
  and_congr (h.1.isFinite_add_iff v.x) (h.2.isFinite_add_iff v.y)

/-- Both coordinates are modest. -/
def Point.Modest (p : Point) : Prop :=
  Decimal.Modest p.x ∧ Decimal.Modest p.y

/-- Neither coordinate lies beyond what a modest offset makes of a near one. -/
def Point.Small (p : Point) : Prop :=
  |exact p.x| ≤ 2 ^ (1001 : ℤ) ∧ |exact p.y| ≤ 2 ^ (1001 : ℤ)

theorem Point.Near.small_add {p v : Point} (h : p.Near) (hv : v.Modest) : (p + v).Small :=
  ⟨h.1.abs_exact_add_le hv.1, h.2.abs_exact_add_le hv.2⟩

/-- The row of a drill mark that breaks the line: the point that is not there stands between the
circle and the second stroke of the cross. -/
def breakRow : Nat := 22

/-- The rows of a drill mark without the one that breaks the line: two ends of a stroke, the circle,
and two more ends. -/
theorem drillMark_eraseIdx (c : Point) : (drillMark c).eraseIdx breakRow
    = [⟨c.x - 0.75, c.y⟩, ⟨c.x + 0.75, c.y⟩]
      ++ circleDirections.map (fun d => ⟨c.x + 0.5 * d.1, c.y + 0.5 * d.2⟩)
      ++ [⟨c.x, c.y - 0.75⟩, ⟨c.x, c.y + 0.75⟩] := rfl

theorem near_circleDirections : ∀ d ∈ circleDirections, Near (0.5 * d.1) ∧ Near (0.5 * d.2) := by
  have hbounds : ∀ d ∈ circleDirections,
      ((0.5 * d.1).isFinite = true ∧ Float.ofInt (-1) ≤ 0.5 * d.1 ∧ 0.5 * d.1 ≤ Float.ofInt 1)
        ∧ (0.5 * d.2).isFinite = true ∧ Float.ofInt (-1) ≤ 0.5 * d.2
        ∧ 0.5 * d.2 ≤ Float.ofInt 1 := by
    decide +kernel
  intro d hd
  obtain ⟨⟨hx, hx', hx''⟩, hy, hy', hy''⟩ := hbounds d hd
  exact ⟨near_of_le hx hx' hx'', near_of_le hy hy' hy''⟩

/-- **Drill marks.** But for the row that breaks the line, a drill mark is finite if and only if its
center is. -/
theorem finite_drillMark_iff (c : Point) :
    (∀ p ∈ (drillMark c).eraseIdx breakRow, p.Finite) ↔ c.Finite := by
  have htick : Near 0.75 := by
    apply near_of_le <;> decide
  rw [drillMark_eraseIdx]
  constructor
  · intro h
    obtain ⟨hx, hy⟩ := h ⟨c.x - 0.75, c.y⟩ List.mem_cons_self
    exact ⟨(isFinite_of_sub hx).1, hy⟩
  · rintro ⟨hx, hy⟩ p hp
    simp only [List.mem_append, List.mem_cons, List.not_mem_nil, or_false, List.mem_map] at hp
    obtain ((rfl | rfl) | ⟨d, hd, rfl⟩) | rfl | rfl := hp
    · exact ⟨htick.isFinite_sub hx, hy⟩
    · exact ⟨htick.isFinite_add hx, hy⟩
    · obtain ⟨hcos, hsin⟩ := near_circleDirections d hd
      exact ⟨hcos.isFinite_add hx, hsin.isFinite_add hy⟩
    · exact ⟨hx, htick.isFinite_sub hy⟩
    · exact ⟨hx, htick.isFinite_add hy⟩

/-! ## 3. Ranges of axes -/

/-- The margin on both sides of a range. -/
def margin (low high : Float) : Float := (high - low) / 40.0

/-- **Fits.** Neither the length of a range nor the range with its margins overflows. -/
structure Fits (low high : Float) : Prop where
  length : |exact high - exact low| < overflow
  below : |exact low - exact (margin low high)| < overflow
  above : |exact high + exact (margin low high)| < overflow

theorem exact_forty : exact 40.0 = 40 :=
  (exact_ofInt (n := 40) (by decide)).2

/-- The margin is a fortieth of the length, rounded. -/
theorem roundsTo_margin {low high : Float} (hlength : (high - low).isFinite = true) :
    RoundsTo (exact (high - low) / 40) (margin low high) := by
  have hforty : (40.0 : Float).toModel.unpack = .finite .positive (5 * 2 ^ 50) (-47) (by decide) :=
    rfl
  rw [← exact_forty]
  exact roundsTo_div hlength (by decide) hforty (by decide)

section Range

variable {low high : Float} (hlow : low.isFinite = true) (hhigh : high.isFinite = true)
include hlow hhigh

/-- The length is the difference of the ends, rounded. -/
theorem roundsTo_length : RoundsTo (exact high - exact low) (high - low) :=
  roundsTo_sub hhigh hlow

/-- The margin does not overflow if the length does not, and cannot be finite otherwise. -/
theorem isFinite_margin_iff :
    (margin low high).isFinite = true ↔ |exact high - exact low| < overflow := by
  rw [← (roundsTo_length hlow hhigh).isFinite_iff]
  constructor
  · exact isFinite_of_div
  · intro hlength
    rw [(roundsTo_margin hlength).isFinite_iff, abs_div, overflow]
    have hgreatest := abs_exact_le hlength
    have hplace := halfPlace_pos
    norm_num
    linarith

/-- A range that is widened has finite ends if and only if it fits. -/
theorem isFinite_padded_iff :
    ((Bounds.padded low high).low.isFinite = true ∧ (Bounds.padded low high).high.isFinite = true)
      ↔ Fits low high := by
  have hpadded : Bounds.padded low high = ⟨low - margin low high, high + margin low high⟩ := rfl
  rw [hpadded]
  constructor
  · rintro ⟨hbelow, habove⟩
    have hmargin := (isFinite_of_sub hbelow).2
    exact ⟨(isFinite_margin_iff hlow hhigh).1 hmargin,
      (roundsTo_sub hlow hmargin).isFinite_iff.1 hbelow,
      (roundsTo_add hhigh hmargin).isFinite_iff.1 habove⟩
  · rintro ⟨hlength, hbelow, habove⟩
    have hmargin := (isFinite_margin_iff hlow hhigh).2 hlength
    exact ⟨(roundsTo_sub hlow hmargin).isFinite_iff.2 hbelow,
      (roundsTo_add hhigh hmargin).isFinite_iff.2 habove⟩

/-- A range that is widened has its ends the right way round. -/
theorem padded_le (hle : low ≤ high) (hfits : Fits low high) :
    (Bounds.padded low high).low ≤ (Bounds.padded low high).high := by
  obtain ⟨hbelow, habove⟩ := (isFinite_padded_iff hlow hhigh).2 hfits
  have hlength := (roundsTo_length hlow hhigh).isFinite_iff.2 hfits.length
  have hmargin := (isFinite_margin_iff hlow hhigh).2 hfits.length
  rw [le_iff_exact hbelow habove]
  rw [le_iff_exact hlow hhigh] at hle
  have hzero : Representable 0 := ⟨.zero .positive, Proper.zero _, rfl⟩
  -- no rounding takes the length or the margin below zero
  have hlength' : 0 ≤ exact (high - low) := by
    apply ((roundsTo_length hlow hhigh).adjacent hlength).ge_of_ge 0 hzero
    linarith
  have hmargin' : 0 ≤ exact (margin low high) := by
    apply ((roundsTo_margin hlength).adjacent hmargin).ge_of_ge 0 hzero
    linarith
  -- and so the ends do not come closer to each other
  have hlow' : exact (low - margin low high) ≤ exact low := by
    apply ((roundsTo_sub hlow hmargin).adjacent hbelow).le_of_le _ (representable_exact hlow)
    linarith
  have hhigh' : exact high ≤ exact (high + margin low high) := by
    apply ((roundsTo_add hhigh hmargin).adjacent habove).ge_of_ge _ (representable_exact hhigh)
    linarith
  exact hlow'.trans (hle.trans hhigh')

/-- What stays far below the limit fits. -/
theorem fits_of_small (hsmall : |exact low| ≤ 2 ^ (1001 : ℤ))
    (hsmall' : |exact high| ≤ 2 ^ (1001 : ℤ)) : Fits low high := by
  have hplace := halfPlace_pos
  have hlimit := representable_two_zpow (e := 1002) (by norm_num) (by norm_num)
  rw [two_zpow_eq_halfPlace (e := 1002) 32 rfl] at hlimit
  rw [two_zpow_eq_halfPlace (e := 1001) 31 rfl] at hsmall hsmall'
  have hlength : |exact high - exact low| ≤ 2 ^ 32 * halfPlace := by
    linarith [abs_sub (exact high) (exact low)]
  have hlengthFinite : (high - low).isFinite = true := by
    rw [(roundsTo_length hlow hhigh).isFinite_iff, overflow]
    linarith
  have hlength' := (roundsTo_length hlow hhigh).abs_exact_le hlengthFinite hlimit hlength
  have hmarginFinite := (isFinite_margin_iff hlow hhigh).2
    ((roundsTo_length hlow hhigh).isFinite_iff.1 hlengthFinite)
  have hquotient : |exact (high - low) / 40| ≤ 2 ^ 32 * halfPlace := by
    rw [abs_div]
    norm_num
    linarith
  have hmargin := (roundsTo_margin hlengthFinite).abs_exact_le hmarginFinite hlimit hquotient
  refine ⟨(roundsTo_length hlow hhigh).isFinite_iff.1 hlengthFinite, ?_, ?_⟩
  · rw [overflow]
    linarith [abs_sub (exact low) (exact (margin low high))]
  · rw [overflow]
    linarith [abs_add_le (exact high) (exact (margin low high))]

end Range

namespace Bounds

/-- A box with finite ends, and those the right way round. -/
structure Ranged (b : Bounds) : Prop where
  minX : b.minX.isFinite = true
  maxX : b.maxX.isFinite = true
  minY : b.minY.isFinite = true
  maxY : b.maxY.isFinite = true
  x_le : b.minX ≤ b.maxX
  y_le : b.minY ≤ b.maxY

/-- A box around finite points has finite ends. -/
theorem Encloses.ranged {b : Bounds} {points : List Point} (h : b.Encloses points)
    (hfinite : ∀ p ∈ points, p.Finite) : b.Ranged where
  minX := finite_x hfinite b.minX h.minX.1
  maxX := finite_x hfinite b.maxX h.maxX.1
  minY := finite_y hfinite b.minY h.minY.1
  maxY := finite_y hfinite b.maxY h.maxY.1
  x_le := h.minX.2 h.maxX.1
  y_le := h.minY.2 h.maxY.1

/-- Both ranges of a box around small points fit. -/
theorem Encloses.fits {b : Bounds} {points : List Point} (h : b.Encloses points)
    (hfinite : ∀ p ∈ points, p.Finite) (hsmall : ∀ p ∈ points, p.Small) :
    Fits b.minX b.maxX ∧ Fits b.minY b.maxY := by
  have hranged := h.ranged hfinite
  have hx : ∀ x ∈ points.map Point.x, |exact x| ≤ 2 ^ (1001 : ℤ) := by
    intro x hx
    obtain ⟨p, hp, rfl⟩ := List.mem_map.1 hx
    exact (hsmall p hp).1
  have hy : ∀ y ∈ points.map Point.y, |exact y| ≤ 2 ^ (1001 : ℤ) := by
    intro y hy
    obtain ⟨p, hp, rfl⟩ := List.mem_map.1 hy
    exact (hsmall p hp).2
  exact ⟨fits_of_small hranged.minX hranged.maxX (hx _ h.minX.1) (hx _ h.maxX.1),
    fits_of_small hranged.minY hranged.maxY (hy _ h.minY.1) (hy _ h.maxY.1)⟩

end Bounds

end Photoplot
