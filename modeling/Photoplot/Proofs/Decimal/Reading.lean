import Photoplot.Decimal.Notation
import Photoplot.Proofs.Decimal.Rounding

/-!
Reading decimals rounds correctly.

A decimal in the interval of a binary64 number is read as that number. Small decimals take a fast
path, where both the digits and the power of ten are binary64 numbers themselves and one operation
rounds; all others are multiplied or divided exactly and rounded once.

**What is proved, and where the work is.**

* Off the fast path (`ofScientific_eq`), the power of ten is a whole number, and the decimal a
  product or a quotient of two whole numbers; the lemmas of `Rounding` take it from there. What
  remains is that the checks for very large and very small exponents are never met by a decimal in
  the interval of a number, and that takes estimates between powers of ten and powers of two.
* On the fast path, digits below `2 ^ 53` are a number (`unpack_toFloat`), and so are the powers of
  ten in the table. That is checked on the table (`isTenTo_table`), which is the one place where
  numbers are computed, and each entry is then known by its value and the range of its exponent
  alone.
* Reading also gives up on texts with too many digits before the point, or too many zeros behind it,
  before it computes anything. By the same kind of estimate, no decimal in the interval of a number
  is among these (`nearest_eq_ofCanonical`).

Main statement: `nearest_eq_ofCanonical`.
-/

set_option autoImplicit false

namespace Photoplot.Decimal

open Float.Model (Format UnpackedFloat)
open Float.Model.UnpackedFloat

/-! ## 1. Positive numbers -/

/-- The positive number of a canonical form. -/
def ofCanonical {m : Nat} {e : Int} (h : Canonical m e) : Float :=
  .ofModel (.pack (.finite .positive m e h.pos))

theorem unpack_ofCanonical {m : Nat} {e : Int} (h : Canonical m e) :
    (ofCanonical h).toModel.unpack = .finite .positive m e h.pos :=
  @unpack_pack false m e h

/-! ## 2. Decimals in the range of binary64 -/

/-- What lies in the interval of a number is more than a quarter of the least one. -/
theorem Rounds.gt {x : ℚ} {m : Nat} {e : Int} (hr : Rounds x m e) (hc : Canonical m e) :
    2 ^ (-1076 : Int) < x := by
  have he := two_zpow_pos e
  have hleast : (2 : ℚ) ^ (-1074 : Int) ≤ 2 ^ e := zpow_le_zpow_right₀ (by norm_num) hc.least
  have hm : (1 : ℚ) ≤ m := by
    exact_mod_cast hc.pos
  have hbelow := hr.below
  rw [le_div_iff₀ he] at hbelow
  have hquarter : (2 : ℚ) ^ (-1074 : Int) = 4 * 2 ^ (-1076 : Int) := by
    rw [show (-1074 : Int) = 2 + -1076 by rfl, zpow_add₀ (by norm_num)]
    norm_num
  have hpos := two_zpow_pos (-1076)
  split at hbelow <;> nlinarith

theorem two_zpow_le_ten_zpow {E : Int} (h : 0 ≤ E) : (2 : ℚ) ^ E ≤ 10 ^ E :=
  zpow_le_zpow_left₀ h (by norm_num) (by norm_num)

theorem ten_zpow_le_two_zpow {E : Int} (h : E ≤ 0) : (10 : ℚ) ^ E ≤ 2 ^ E := by
  have hinv := two_zpow_le_ten_zpow (E := -E) (by omega)
  rw [zpow_neg, zpow_neg] at hinv
  exact (inv_le_inv₀ (two_zpow_pos E) (zpow_pos (by norm_num) E)).1 hinv

theorem ten_zpow_pos (E : Int) : (0 : ℚ) < 10 ^ E :=
  zpow_pos (by norm_num) E

/-- **Off the fast path.** One exact operation, and one rounding. -/
theorem ofScientific_eq {D m : Nat} {E e : Int} (hD : 0 < D) (hr : Rounds (D * 10 ^ E) m e)
    (hc : Canonical m e) :
    UnpackedFloat.ofScientific Format.binary64 D E = .finite .positive m e hc.pos := by
  have hgreatest := hc.greatest
  have hten := ten_zpow_pos E
  have hD' : (1 : ℚ) ≤ D := by
    exact_mod_cast hD
  -- neither of the checks that keep the powers of ten small is ever met
  have hhigh : ¬E > 2 ^ Format.binary64.exponentBits := by
    simp only
    intro hE
    have hpower : (2 : ℚ) ^ E < 2 ^ (53 + e) :=
      calc (2 : ℚ) ^ E ≤ 10 ^ E := two_zpow_le_ten_zpow (by omega)
        _ ≤ D * 10 ^ E := by nlinarith
        _ < 2 ^ (53 + e) := hr.lt hc
    have := lt_of_two_zpow hpower
    omega
  have hlow : ¬E < -((2 ^ Format.binary64.exponentBits : Int) + D.log2) := by
    simp only
    intro hE
    have hlog : (D : ℚ) ≤ 2 ^ (D.log2 + 1) := by
      exact_mod_cast Nat.lt_log2_self.le
    have hpower : (2 : ℚ) ^ (-1076 : Int) < 2 ^ ((D.log2 + 1 : Nat) + E) :=
      calc (2 : ℚ) ^ (-1076 : Int) < D * 10 ^ E := hr.gt hc
        _ ≤ 2 ^ (D.log2 + 1) * 10 ^ E := mul_le_mul_of_nonneg_right hlog hten.le
        _ ≤ 2 ^ (D.log2 + 1) * 2 ^ E :=
          mul_le_mul_of_nonneg_left (ten_zpow_le_two_zpow (by omega)) (by positivity)
        _ = 2 ^ ((D.log2 + 1 : Nat) + E) := by rw [zpow_add₀ (by norm_num), zpow_natCast]
    have := lt_of_two_zpow hpower
    omega
  rw [UnpackedFloat.ofScientific, dif_neg hD.ne', if_neg hhigh, if_neg hlow]
  by_cases hE : 0 ≤ E
  · -- a product of whole numbers; the extra zeros leave room for 53 bits of it
    rw [if_pos hE]
    have hx : ((D <<< Format.binary64.mantissaBits : Nat) : ℚ)
        * 2 ^ (-(Format.binary64.mantissaBits : Int)) * ((10 ^ E.toNat : Nat) * 2 ^ (0 : Int))
        = D * 10 ^ E := by
      have hpower : ((10 ^ E.toNat : Nat) : ℚ) = 10 ^ E := by
        push_cast
        rw [← zpow_natCast (10 : ℚ), Int.toNat_of_nonneg hE]
      rw [hpower, Nat.shiftLeft_eq, zpow_neg, zpow_natCast, zpow_zero]
      push_cast
      field_simp
    refine mul_finite ?_ hc ?_
    · rw [hx]
      exact hr
    · rw [Nat.shiftLeft_eq, show Format.binary64.mantissaBits = 53 by rfl]
      have hpower : 1 ≤ 10 ^ E.toNat := Nat.one_le_pow _ _ (by decide)
      calc 2 ^ 52 ≤ 1 * 2 ^ 53 * 1 := by decide
        _ ≤ D * 2 ^ 53 * 10 ^ E.toNat := Nat.mul_le_mul (Nat.mul_le_mul_right _ hD) hpower
  · rw [if_neg hE]
    have hexponent : -((-E).toNat : Int) = E := by omega
    have hx : ((D : ℚ) * 2 ^ (0 : Int) / ((10 ^ (-E).toNat : Nat) * 2 ^ (0 : Int))) = D * 10 ^ E := by
      rw [zpow_zero, mul_one, mul_one, div_eq_mul_inv]
      push_cast
      rw [← zpow_natCast, ← zpow_neg, hexponent]
    refine div_finite ?_ hc (by omega)
    rw [hx]
    exact hr


/-! ## 3. The fast path -/

/-- A whole number of up to 53 bits, shifted to the left until it has all of them. -/
theorem canonical_ofNat {D : Nat} (hD : 0 < D) (hlt : D < 2 ^ 53) :
    Canonical (D * 2 ^ (52 - D.log2)) ((D.log2 : Int) - 52) := by
  have hlog := (Nat.log2_lt (by omega)).2 hlt
  have hlow : 2 ^ D.log2 ≤ D := Nat.log2_self_le hD.ne'
  have hhigh : D < 2 ^ (D.log2 + 1) := Nat.lt_log2_self
  have hpower : 0 < 2 ^ (52 - D.log2) := by positivity
  refine ⟨Nat.mul_pos hD hpower, ?_, by omega, by omega, Or.inl ?_⟩
  · calc D * 2 ^ (52 - D.log2) < 2 ^ (D.log2 + 1) * 2 ^ (52 - D.log2) :=
          Nat.mul_lt_mul_of_pos_right hhigh hpower
      _ = 2 ^ 53 := by rw [← Nat.pow_add]; congr 1; omega
  · calc 2 ^ 52 = 2 ^ D.log2 * 2 ^ (52 - D.log2) := by rw [← Nat.pow_add]; congr 1; omega
      _ ≤ D * 2 ^ (52 - D.log2) := Nat.mul_le_mul_right _ hlow

theorem value_ofNat {D : Nat} (hD : 0 < D) (hlt : D < 2 ^ 53) :
    ((D * 2 ^ (52 - D.log2) : Nat) : ℚ) * 2 ^ ((D.log2 : Int) - 52) = D := by
  have hlog := (Nat.log2_lt (by omega)).2 hlt
  have hzero : ((52 - D.log2 : Nat) : Int) + ((D.log2 : Int) - 52) = 0 := by omega
  push_cast
  rw [mul_assoc, ← zpow_natCast, ← zpow_add₀ (by norm_num), hzero, zpow_zero, mul_one]

/-- **Whole numbers are numbers.** Nothing is rounded in making one of them a float. -/
theorem unpack_toFloat {D : Nat} (hD : 0 < D) (hlt : D < 2 ^ 53) :
    D.toUInt64.toFloat.toModel.unpack
      = .finite .positive (D * 2 ^ (52 - D.log2)) (D.log2 - 52) (canonical_ofNat hD hlt).pos := by
  have hc := canonical_ofNat hD hlt
  have hlog := (Nat.log2_lt (by omega)).2 hlt
  have hnat : D.toUInt64.toNat = D := Nat.mod_eq_of_lt (by omega)
  have hcompare : compare (D : Int) 0 = .gt := by
    rw [Int.compare_eq_gt]
    omega
  have htarget : Format.binary64.targetExponent (Float.Model.totalExponent D 0)
      = (D.log2 : Int) - 52 := by
    show max ((D.log2 : Int) + 1 + 0 - 53) (-1074) = _
    omega
  have hround : UnpackedFloat.round Format.binary64 .positive D 0
      = .finite .positive (D * 2 ^ (52 - D.log2)) (D.log2 - 52) hc.pos := by
    have hamount : (0 - ((D.log2 : Int) - 52)).toNat = 52 - D.log2 := by omega
    have hexponent : (0 : Int) - (52 - D.log2 : Nat) = (D.log2 : Int) - 52 := by omega
    simp only [UnpackedFloat.round, htarget, decreaseExponent, hamount, hexponent, Nat.shiftLeft_eq]
    have hsame := shiftToTargetExponent_of_cut hc.cut
    exact roundWithAccuracy_of_shifts hsame hsame hc.pos
  show UnpackedFloat.unpack Format.binary64 (UnpackedFloat.pack Format.binary64
    (UnpackedFloat.normalize Format.binary64 D.toUInt64.toNat 0 .positive)) = _
  rw [hnat, UnpackedFloat.normalize, hcompare]
  show UnpackedFloat.unpack Format.binary64 (UnpackedFloat.pack Format.binary64
    (UnpackedFloat.round Format.binary64 .positive D 0)) = _
  rw [hround]
  exact @unpack_pack false _ _ hc

/-- Whether a number is a power of ten, at an exponent that a product or a quotient of two whole
numbers of its size cannot leave. -/
def Binary64.isTenTo (k : Nat) : Binary64 → Bool
  | .finite false size =>
    size.significand * 2 ^ size.exponent.toNat == 10 ^ k * 2 ^ (-size.exponent).toNat
      && -52 ≤ size.exponent && size.exponent ≤ 52
  | _ => false

/-- The powers of ten in the table are what they are meant to be. -/
theorem isTenTo_table : ∀ k : Fin Float.exactlyRepresentablePowersOfTen.size,
    (Binary64.ofBits Float.exactlyRepresentablePowersOfTen[k].toBits.toNat).isTenTo k = true := by
  decide


/-- What a power of ten looks like to the arithmetic. -/
theorem unpack_of_isTenTo {x : Float} {k : Nat}
    (h : (Binary64.ofBits x.toBits.toNat).isTenTo k = true) :
    ∃ (p : Nat) (q : Int) (hp : Canonical p q),
      x.toModel.unpack = .finite .positive p q hp.pos ∧ (p : ℚ) * 2 ^ q = 10 ^ k
        ∧ -52 ≤ q ∧ q ≤ 52 := by
  unfold Binary64.isTenTo at h
  split at h
  · rename_i size hparts
    simp only [Bool.and_eq_true, beq_iff_eq, decide_eq_true_eq] at h
    obtain ⟨⟨hvalue, hlow⟩, hhigh⟩ := h
    refine ⟨size.significand, size.exponent, canonical_of_ofBits hparts, unpack_of_ofBits hparts,
      ?_, hlow, hhigh⟩
    have hvalue' : (size.significand : ℚ) * 2 ^ size.exponent.toNat
        = 10 ^ k * 2 ^ (-size.exponent).toNat := by
      exact_mod_cast hvalue
    have hsplit : size.exponent = (size.exponent.toNat : Int) - (-size.exponent).toNat := by omega
    rw [hsplit, zpow_sub₀ (by norm_num), zpow_natCast, zpow_natCast, ← mul_div_assoc, hvalue']
    field_simp
  · cases h

/-- A product of two numbers is the number in whose interval the exact product lies. -/
theorem mul_eq_ofCanonical {x y : Float} {p₁ p₂ m : Nat} {q₁ q₂ e : Int} {h₁ : 0 < p₁} {h₂ : 0 < p₂}
    (hx : x.toModel.unpack = .finite .positive p₁ q₁ h₁)
    (hy : y.toModel.unpack = .finite .positive p₂ q₂ h₂)
    (hr : Rounds (p₁ * 2 ^ q₁ * (p₂ * 2 ^ q₂)) m e) (hc : Canonical m e)
    (hprecise : 2 ^ 52 ≤ p₁ * p₂) : x * y = ofCanonical hc := by
  show Float.ofModel (.pack (UnpackedFloat.mul Format.binary64 x.toModel.unpack y.toModel.unpack)) = _
  rw [hx, hy, mul_finite hr hc hprecise]
  rfl

theorem div_eq_ofCanonical {x y : Float} {p₁ p₂ m : Nat} {q₁ q₂ e : Int} {h₁ : 0 < p₁} {h₂ : 0 < p₂}
    (hx : x.toModel.unpack = .finite .positive p₁ q₁ h₁)
    (hy : y.toModel.unpack = .finite .positive p₂ q₂ h₂)
    (hr : Rounds (p₁ * 2 ^ q₁ / (p₂ * 2 ^ q₂)) m e) (hc : Canonical m e)
    (hleast : -1074 ≤ q₁ - q₂) : x / y = ofCanonical hc := by
  show Float.ofModel (.pack (UnpackedFloat.div Format.binary64 x.toModel.unpack y.toModel.unpack)) = _
  rw [hx, hy, div_finite hr hc hleast]
  rfl

/-- **Reading.** The number that is read is the one whose interval the decimal lies in, on the fast
path of small decimals and off it. -/
theorem ofScientific_eq_ofCanonical {D m : Nat} {E e : Int} (hD : 0 < D)
    (hr : Rounds (D * 10 ^ E) m e) (hc : Canonical m e) :
    Float.ofScientific D (E < 0) E.natAbs = ofCanonical hc := by
  rw [Float.ofScientific]
  split
  · rename_i hfast
    obtain ⟨hlt, hsmall⟩ := hfast
    have hlog := (Nat.log2_lt (by omega)).2 hlt
    have hnumber := canonical_ofNat hD hlt
    have hvalue := value_ofNat hD hlt
    obtain ⟨p, q, hp, htable, hten, hlow, hhigh⟩ :=
      unpack_of_isTenTo (isTenTo_table ⟨E.natAbs, Nat.lt_succ_of_le hsmall⟩)
    simp only at hten
    -- both operands are exact, so the one operation on them rounds the decimal itself
    by_cases hE : E < 0
    · rw [if_pos (decide_eq_true hE)]
      have hx : (D : ℚ) * 10 ^ E = D / 10 ^ E.natAbs := by
        rw [div_eq_mul_inv, ← zpow_natCast, ← zpow_neg]
        congr 2
        omega
      refine div_eq_ofCanonical (unpack_toFloat hD hlt) htable ?_ hc (by omega)
      rw [hvalue, hten, ← hx]
      exact hr
    · rw [if_neg fun h => hE (of_decide_eq_true h)]
      have hx : (D : ℚ) * 10 ^ E = D * 10 ^ E.natAbs := by
        rw [← zpow_natCast]
        congr 2
        omega
      refine mul_eq_ofCanonical (unpack_toFloat hD hlt) htable ?_ hc ?_
      · rw [hvalue, hten, ← hx]
        exact hr
      · calc 2 ^ 52 ≤ D * 2 ^ (52 - D.log2) := hnumber.normal.resolve_right (by omega)
          _ ≤ D * 2 ^ (52 - D.log2) * p := Nat.le_mul_of_pos_right _ hp.pos
  · have hE : (if decide (E < 0) = true then Int.negOfNat E.natAbs else Int.ofNat E.natAbs) = E := by
      split
      · rename_i hneg
        rw [Int.negOfNat_eq, Int.ofNat_eq_natCast,
          Int.ofNat_natAbs_of_nonpos (of_decide_eq_true hneg).le, neg_neg]
      · rename_i hneg
        exact Int.natAbs_of_nonneg (not_lt.1 fun h => hneg (decide_eq_true h))
    show Float.ofModel (.pack (UnpackedFloat.ofScientific Format.binary64 D
      (if decide (E < 0) = true then Int.negOfNat E.natAbs else Int.ofNat E.natAbs))) = _
    rw [hE, ofScientific_eq hD hr hc]
    rfl


/-- The text is never given up on for the count of its digits alone. -/
theorem nearest_eq_ofCanonical {D m : Nat} {E e : Int} (hD : 0 < D)
    (hr : Rounds (D * 10 ^ E) m e) (hc : Canonical m e) : nearest D E = ofCanonical hc := by
  have hten := ten_zpow_pos E
  have hgreatest := hc.greatest
  obtain ⟨n, hn⟩ : ∃ n, (Nat.toDigits 10 D).length = n + 1 :=
    ⟨_, (Nat.succ_pred_eq_of_pos Nat.length_toDigits_pos).symm⟩
  have hlow : (10 : ℚ) ^ n ≤ D := by
    rcases Nat.eq_zero_or_pos n with rfl | hpos
    · exact_mod_cast hD
    · have hlong := (Nat.length_toDigits_le_iff (n := D) (by decide : 1 < 10) hpos).not.1 (by omega)
      exact_mod_cast not_lt.1 hlong
  have hhigh : (D : ℚ) < 10 ^ (n + 1) := by
    exact_mod_cast (Nat.length_toDigits_le_iff (by decide) (Nat.succ_pos n)).1 hn.le
  -- beyond 310 digits before the point there is no number, and beyond 330 zeros behind it only zero
  have hlarge : ¬((n + 1 : Nat) : Int) + E > 310 := by
    intro h
    have hpower : (10 : ℚ) ^ (310 : Int) < 2 ^ (1024 : Int) :=
      calc (10 : ℚ) ^ (310 : Int) ≤ 10 ^ ((n : Int) + E) :=
            zpow_le_zpow_right₀ (by norm_num) (by omega)
        _ = 10 ^ n * 10 ^ E := by rw [zpow_add₀ (by norm_num), zpow_natCast]
        _ ≤ D * 10 ^ E := mul_le_mul_of_nonneg_right hlow hten.le
        _ < 2 ^ (53 + e) := hr.lt hc
        _ ≤ 2 ^ (1024 : Int) := zpow_le_zpow_right₀ (by norm_num) (by omega)
    have hnat : 10 ^ 310 < 2 ^ 1024 := by
      exact_mod_cast hpower
    exact absurd hnat (by decide +kernel)
  have hsmall : ¬((n + 1 : Nat) : Int) + E < -330 := by
    intro h
    have hpower : (2 : ℚ) ^ (-1076 : Int) < 10 ^ (-330 : Int) :=
      calc (2 : ℚ) ^ (-1076 : Int) < D * 10 ^ E := hr.gt hc
        _ ≤ 10 ^ (n + 1) * 10 ^ E := mul_le_mul_of_nonneg_right hhigh.le hten.le
        _ = 10 ^ ((n + 1 : Nat) + E) := by rw [zpow_add₀ (by norm_num), zpow_natCast]
        _ ≤ 10 ^ (-330 : Int) := zpow_le_zpow_right₀ (by norm_num) (by omega)
    rw [zpow_neg, zpow_neg, inv_lt_inv₀ (two_zpow_pos _) (ten_zpow_pos _)] at hpower
    have hnat : 10 ^ 330 < 2 ^ 1076 := by
      exact_mod_cast hpower
    exact absurd hnat (by decide +kernel)
  simp only [nearest, if_neg hD.ne', hn, if_neg hlarge, if_neg hsmall]
  exact ofScientific_eq_ofCanonical hD hr hc

end Photoplot.Decimal
