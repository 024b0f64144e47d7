import Photoplot.Proofs.Decimal.Exact
import Photoplot.Proofs.Decimal.Zeros

/-!
What the result of an operation is, for any operands.

Around every real there is a grid: the multiples of the last place that 53 bits leave. An operation
gives the point of the grid that is nearest to the exact result, a tie going to the even multiple,
and all finite numbers of that size are on the grid. Two things follow, and `RoundsTo` holds them
together in the next module: a result is finite if and only if the exact one stays below a fixed
limit, and rounding never carries a result past a number.

**What is proved, and where the work is.**

* `OnGrid` is stated with the rational alone and knows nothing of how rounding is done. That
  rounding finds the point is `exists_onGrid`, for a significand that may have been cut before, with
  what was cut off told by two bits. Rounding up may need one bit more than there is room for, and
  then the number is a power of two at the next exponent (`OnGrid.exists_cut`).
* Here the operands are not known to have a nearest number that is given in advance, as they have in
  `Rounding`, where a decimal comes with the number in whose interval it lies. So this is a
  statement about what comes out, and the other is one about what goes in.
* `Adjacent` is what is used of it later: no number lies between the exact result and the rounded
  one. A number of at least the size of the last place is a point of the grid; a smaller one lies
  below the part of the grid around the real (`OnGrid.adjacent_size`). With signs, it comes to two
  symmetric halves (`OnGrid.adjacent`).
-/

set_option autoImplicit false

namespace Photoplot.Decimal

open Float.Model (Format UnpackedFloat)
open Float.Model.UnpackedFloat

/-! ## 1. The grid around a real -/

/-- **The grid.** `k * 2 ^ t` is the multiple of `2 ^ t` that is nearest to `x`, the even one of two
that are equally near, and `2 ^ t` is the last place that 53 bits leave of `x`. -/
structure OnGrid (x : ℚ) (k : ℕ) (t : ℤ) : Prop where
  least : -1074 ≤ t
  dense : 2 ^ 52 ≤ x / 2 ^ t ∨ t = -1074
  room : x / 2 ^ t < 2 ^ 53
  below : (k : ℚ) - 1 / 2 ≤ x / 2 ^ t
  above : x / 2 ^ t ≤ k + 1 / 2
  odd : k % 2 = 1 → (k : ℚ) - 1 / 2 < x / 2 ^ t ∧ x / 2 ^ t < k + 1 / 2

/-- The rounded mantissa is the nearest whole number. -/
theorem Holds.rounded {em : ExtendedMantissa} {x : ℚ} (h : Holds em x) :
    (em.roundedMantissa : ℚ) - 1 / 2 ≤ x ∧ x ≤ em.roundedMantissa + 1 / 2
      ∧ (em.roundedMantissa % 2 = 1 →
        (em.roundedMantissa : ℚ) - 1 / 2 < x ∧ x < em.roundedMantissa + 1 / 2) := by
  obtain ⟨rest, hx, hnonneg, hhalf, hsticky⟩ := h
  obtain ⟨k, round, sticky⟩ := em
  dsimp only at hx hsticky
  cases round with
  | false =>
    -- less than half is left over, and the mantissa stays
    have hk : (⟨k, false, sticky⟩ : ExtendedMantissa).roundedMantissa = k := by
      cases sticky <;> rfl
    rw [hk]
    norm_num at hx
    exact ⟨by linarith, by linarith, fun _ => ⟨by linarith, by linarith⟩⟩
  | true =>
    norm_num at hx
    cases sticky with
    | true =>
      have hpos : 0 < rest := lt_of_le_of_ne hnonneg fun h => by simpa using hsticky.1 h.symm
      have hk : (⟨k, true, true⟩ : ExtendedMantissa).roundedMantissa = k + 1 := rfl
      rw [hk]
      push_cast
      exact ⟨by linarith, by linarith, fun _ => ⟨by linarith, by linarith⟩⟩
    | false =>
      -- exactly half is left over, and the mantissa becomes even
      have hrest : rest = 0 := hsticky.2 rfl
      have hk : (⟨k, true, false⟩ : ExtendedMantissa).roundedMantissa = k + k % 2 := rfl
      rw [hk]
      rcases Nat.mod_two_eq_zero_or_one k with hbit | hbit
      · rw [hbit]
        push_cast
        refine ⟨by linarith, by linarith, ?_⟩
        intro hodd
        omega
      · rw [hbit]
        push_cast
        refine ⟨by linarith, by linarith, ?_⟩
        intro hodd
        omega

namespace OnGrid

variable {x : ℚ} {k : ℕ} {t : ℤ}

/-- The greatest point may be a power of two that has one bit more. -/
theorem k_le (h : OnGrid x k t) : k ≤ 2 ^ 53 := by
  have hlt : (k : ℚ) < 2 ^ 53 + 1 := by
    linarith [h.below, h.room]
  have hlt' : k < 2 ^ 53 + 1 := by
    exact_mod_cast hlt
  omega

theorem le_k (h : OnGrid x k t) (ht : t ≠ -1074) : 2 ^ 52 ≤ k := by
  have hdense := h.dense.resolve_right ht
  have hlt : (2 : ℚ) ^ 52 < k + 1 := by
    linarith [h.above]
  have hlt' : 2 ^ 52 < k + 1 := by
    exact_mod_cast hlt
  omega

/-- A point of the grid as arithmetic holds it: a point at the upper end has one bit too many, and
is taken for a point of the next grid. -/
theorem exists_cut (h : OnGrid x k t) (hk : k ≠ 0) :
    ∃ (m : ℕ) (e : ℤ), Cut m e ∧ (m : ℚ) * 2 ^ e = k * 2 ^ t
      ∧ shiftToTargetExponent Format.binary64 k t .exact = (⟨m, false, false⟩, e) := by
  have hle := h.k_le
  have hge := h.le_k
  have hleast := h.least
  by_cases htop : k = 2 ^ 53
  · refine ⟨2 ^ 52, t + 1, ⟨by norm_num, by norm_num, by omega, Or.inl le_rfl⟩, ?_, ?_⟩
    · rw [htop, zpow_add_one₀ (by norm_num)]
      push_cast
      ring
    · have hshift := shiftToTargetExponent_of_overflow (e := t + 1) (by omega)
      rw [htop]
      rwa [Int.add_sub_cancel] at hshift
  · have hc : Cut k t := by
      refine ⟨Nat.pos_of_ne_zero hk, by omega, hleast, ?_⟩
      by_cases ht : t = -1074
      · exact Or.inr ht
      · exact Or.inl (hge ht)
    exact ⟨k, t, hc, rfl, shiftToTargetExponent_of_cut hc⟩

end OnGrid

/-- What rounding gives: the nearest point of the grid, or a zero. -/
inductive Rounded (s : Sign) (k : ℕ) (t : ℤ) : UnpackedFloat → Prop
  | zero (h : k = 0) : Rounded s k t (.zero s)
  | finite {m : ℕ} {e : ℤ} (h : Cut m e) (hvalue : (m : ℚ) * 2 ^ e = k * 2 ^ t) :
    Rounded s k t (.finite s m e h.pos)

/-- **Rounding finds the nearest point of the grid.** The number that is rounded may have been cut
before, to 53 bits or more. -/
theorem exists_onGrid (s : Sign) {x : ℚ} {M : ℕ} {E : ℤ} {accuracy : Accuracy}
    (h : Holds (ExtendedMantissa.ofMantissaAndAccuracy M accuracy) (x / 2 ^ E))
    (hleast : -1074 ≤ E) (hprecise : 2 ^ 52 ≤ M ∨ E = -1074) :
    ∃ (k : ℕ) (t : ℤ), OnGrid x k t
      ∧ Rounded s k t (roundWithAccuracy Format.binary64 s M E accuracy) := by
  have hbounds := h.bounds
  rw [mantissa_ofMantissaAndAccuracy] at hbounds
  have htarget : Format.binary64.targetExponent (Float.Model.totalExponent M E)
      = max (Float.Model.totalExponent M E - 53) (-1074) := rfl
  generalize ht : Format.binary64.targetExponent (Float.Model.totalExponent M E) = t at htarget
  have hexponent : Float.Model.totalExponent M E = (M.log2 : ℤ) + 1 + E := rfl
  have hE : E ≤ t := by
    rcases hprecise with hM | hE
    · have := (Nat.le_log2 (by omega)).2 hM
      omega
    · omega
  -- the first shift goes to the last place that is left
  obtain ⟨hem, hshifted⟩ := h.shiftToExponent hE
  have hfirst : shiftToTargetExponent Format.binary64 M E accuracy
      = ((shiftToExponent M E accuracy t).1, t) := by
    rw [shiftToTargetExponent, ht]
    exact Prod.ext rfl hshifted
  generalize (shiftToExponent M E accuracy t).1 = em at hem hfirst
  obtain ⟨hbelow, habove, hodd⟩ := hem.rounded
  have hgrid : OnGrid x em.roundedMantissa t := by
    refine ⟨by omega, ?_, ?_, hbelow, habove, hodd⟩
    · by_cases hbottom : t = -1074
      · exact Or.inr hbottom
      · left
        have hM : M ≠ 0 := by
          rintro rfl
          have hlog : Nat.log2 0 = 0 := rfl
          omega
        have hlow := (totalExponent_bounds hM hbounds).1
        rw [le_div_iff₀ (two_zpow_pos t), ← zpow_natCast, ← zpow_add₀ (by norm_num)]
        have hsum : ((52 : ℕ) : ℤ) + t = Float.Model.totalExponent M E - 1 := by
          push_cast
          omega
        rw [hsum]
        exact hlow
    · rw [div_lt_iff₀ (two_zpow_pos t), ← zpow_natCast, ← zpow_add₀ (by norm_num)]
      have hroom : x < 2 ^ Float.Model.totalExponent M E := by
        by_cases hM : M = 0
        · have hhigh := hbounds.2
          rw [div_lt_iff₀ (two_zpow_pos E), hM] at hhigh
          have hmore : (2 : ℚ) ^ E ≤ 2 ^ Float.Model.totalExponent M E := by
            apply zpow_le_zpow_right₀ (by norm_num)
            omega
          norm_num at hhigh
          linarith
        · exact (totalExponent_bounds hM hbounds).2
      refine hroom.trans_le (zpow_le_zpow_right₀ (by norm_num) ?_)
      push_cast
      omega
  refine ⟨em.roundedMantissa, t, hgrid, ?_⟩
  by_cases hzero : em.roundedMantissa = 0
  · have hresult : roundWithAccuracy Format.binary64 s M E accuracy = .zero s := by
      have hnothing : (shiftToTargetExponent Format.binary64 em.roundedMantissa t
          .exact).1.mantissa = 0 := by
        simp only [shiftToTargetExponent, shiftToExponent, mantissa_shiftRight,
          mantissa_ofMantissaAndAccuracy, hzero, Nat.zero_div]
      simp only [roundWithAccuracy, hfirst, dif_pos hnothing]
    rw [hresult]
    exact Rounded.zero hzero
  · obtain ⟨m, e, hc, hvalue, hsecond⟩ := hgrid.exists_cut hzero
    rw [roundWithAccuracy_of_shifts hfirst hsecond hc.pos]
    exact Rounded.finite hc hvalue

/-! ## 2. Values -/

/-- A rational with a sign. -/
def signedValue : Sign → ℚ → ℚ
  | .negative, x => -x
  | .positive, x => x

theorem abs_signedValue (s : Sign) {x : ℚ} (hx : 0 ≤ x) : |signedValue s x| = x := by
  cases s
  · exact (abs_neg x).trans (abs_of_nonneg hx)
  · exact abs_of_nonneg hx

/-- The value of a number as arithmetic sees it. -/
def value : UnpackedFloat → ℚ
  | .finite s m e _ => signedValue s (m * 2 ^ e)
  | _ => 0

/-- The finite numbers as arithmetic sees them. -/
inductive Proper : UnpackedFloat → Prop
  | zero (s : Sign) : Proper (.zero s)
  | finite (s : Sign) {m : ℕ} {e : ℤ} (h : Canonical m e) : Proper (.finite s m e h.pos)

/-- Both ways to take a number apart lead to one value. -/
theorem exact_eq_value (x : Float) : exact x = value x.toModel.unpack := by
  have hseen := seen x
  rw [exact]
  generalize Binary64.ofBits x.toBits.toNat = parts at hseen
  generalize x.toModel.unpack = u at hseen
  cases hseen with
  | notANumber | infinite | zero => rfl
  | finite negative hc => cases negative <;> simp [value, signOf, signedValue]

/-- What arithmetic sees of a finite number. -/
theorem proper_of_isFinite {x : Float} (h : x.isFinite = true) : Proper x.toModel.unpack := by
  have hseen := seen x
  change x.toModel.unpack.isFinite = true at h
  generalize Binary64.ofBits x.toBits.toNat = parts at hseen
  generalize x.toModel.unpack = u at hseen h
  cases hseen with
  | notANumber | infinite => cases h
  | zero negative => exact Proper.zero _
  | finite negative hc => exact Proper.finite _ hc

theorem Proper.isFinite {u : UnpackedFloat} (h : Proper u) : u.isFinite = true := by
  cases h <;> rfl

/-- Finite numbers are found again when they are packed. -/
theorem Proper.unpack_pack {u : UnpackedFloat} (h : Proper u) :
    (Float.Model.pack u).unpack = u := by
  cases h with
  | zero s => cases s <;> rfl
  | finite s hc =>
    obtain ⟨negative, rfl⟩ := exists_signOf s
    exact Decimal.unpack_pack hc

theorem Proper.neg {u : UnpackedFloat} (h : Proper u) :
    Proper (UnpackedFloat.neg u) ∧ value (UnpackedFloat.neg u) = -value u := by
  cases h with
  | zero s => exact ⟨Proper.zero (-s), neg_zero.symm⟩
  | finite s hc =>
    refine ⟨Proper.finite (-s) hc, ?_⟩
    cases s
    · exact (neg_neg _).symm
    · rfl

/-- The values of the finite numbers. -/
def Representable (v : ℚ) : Prop :=
  ∃ u, Proper u ∧ value u = v

theorem representable_exact {x : Float} (h : x.isFinite = true) : Representable (exact x) :=
  ⟨_, proper_of_isFinite h, (exact_eq_value x).symm⟩

theorem Representable.neg {v : ℚ} (h : Representable v) : Representable (-v) := by
  obtain ⟨u, hu, rfl⟩ := h
  exact ⟨_, hu.neg.1, hu.neg.2⟩

/-! ## 3. Next to each other -/

/-- **No number in between.** What lies on one side of the first does not lie on the other side of
the second. -/
structure Adjacent (q r : ℚ) : Prop where
  le_of_le : ∀ v, Representable v → q ≤ v → r ≤ v
  ge_of_ge : ∀ v, Representable v → v ≤ q → v ≤ r

theorem Adjacent.refl (q : ℚ) : Adjacent q q :=
  ⟨fun _ _ h => h, fun _ _ h => h⟩

/-- A sign turns both sides around. -/
theorem Adjacent.signedValue {x r : ℚ} (h : Adjacent x r) (s : Sign) :
    Adjacent (signedValue s x) (signedValue s r) := by
  cases s with
  | positive => exact h
  | negative =>
    constructor
    · intro v hv hle
      exact neg_le.1 (h.ge_of_ge (-v) hv.neg (neg_le.1 hle))
    · intro v hv hge
      exact le_neg.1 (h.le_of_le (-v) hv.neg (le_neg.1 hge))

namespace OnGrid

variable {x : ℚ} {k : ℕ} {t : ℤ}

/-- A number is a point of the grid, or it lies below the part of the grid around the real. -/
theorem adjacent_size (h : OnGrid x k t) {m : ℕ} {e : ℤ} (hc : Cut m e) :
    (x ≤ m * 2 ^ e → (k : ℚ) * 2 ^ t ≤ m * 2 ^ e)
      ∧ ((m : ℚ) * 2 ^ e ≤ x → (m : ℚ) * 2 ^ e ≤ k * 2 ^ t) := by
  have ht := two_zpow_pos t
  have hbelow := h.below
  have habove := h.above
  rcases le_or_gt t e with hte | hte
  · -- the number is a multiple of the last place
    obtain ⟨j, hj⟩ : ∃ j : ℕ, (m : ℚ) * 2 ^ e = j * 2 ^ t := by
      refine ⟨m * 2 ^ (e - t).toNat, ?_⟩
      have hsplit : e = ((e - t).toNat : ℤ) + t := by omega
      push_cast
      rw [mul_assoc, ← zpow_natCast, ← zpow_add₀ (by norm_num), ← hsplit]
    rw [hj]
    constructor
    · intro hle
      rw [← div_le_iff₀ ht] at hle
      have hlt : (k : ℚ) < j + 1 := by linarith
      have hkj : k ≤ j := by
        have : k < j + 1 := by exact_mod_cast hlt
        omega
      exact mul_le_mul_of_nonneg_right (by exact_mod_cast hkj) ht.le
    · intro hge
      rw [← le_div_iff₀ ht] at hge
      have hlt : (j : ℚ) < k + 1 := by linarith
      have hjk : j ≤ k := by
        have : j < k + 1 := by exact_mod_cast hlt
        omega
      exact mul_le_mul_of_nonneg_right (by exact_mod_cast hjk) ht.le
  · have hbottom : t ≠ -1074 := by
      have := hc.least
      omega
    have hsmall : (m : ℚ) * 2 ^ e < 2 ^ 52 * 2 ^ t := by
      have he : (2 : ℚ) ^ e ≤ 2 ^ (t - 1) := zpow_le_zpow_right₀ (by norm_num) (by omega)
      have hm : (m : ℚ) < 2 ^ 53 := by
        exact_mod_cast hc.lt
      have hhalf : (2 : ℚ) ^ t = 2 * 2 ^ (t - 1) := by
        rw [zpow_sub_one₀ (by norm_num)]
        ring
      have hpos := two_zpow_pos (t - 1)
      calc (m : ℚ) * 2 ^ e ≤ m * 2 ^ (t - 1) := by gcongr
        _ < 2 ^ 53 * 2 ^ (t - 1) := mul_lt_mul_of_pos_right hm hpos
        _ = 2 ^ 52 * 2 ^ t := by
          rw [hhalf]
          ring
    constructor
    · intro hle
      have hdense := h.dense.resolve_right hbottom
      rw [le_div_iff₀ ht] at hdense
      linarith
    · intro _
      have hk : (2 : ℚ) ^ 52 ≤ k := by
        exact_mod_cast h.le_k hbottom
      exact hsmall.le.trans (mul_le_mul_of_nonneg_right hk ht.le)

/-- **No number in between**, for a real that is not negative. A number that is negative or zero
lies below both. -/
theorem adjacent (h : OnGrid x k t) (hx : 0 ≤ x) : Adjacent x (k * 2 ^ t) := by
  have ht := two_zpow_pos t
  have hk : (0 : ℚ) ≤ k * 2 ^ t := by positivity
  have hzero : x ≤ 0 → (k : ℚ) * 2 ^ t ≤ 0 := by
    intro hle
    have hnone : x = 0 := le_antisymm hle hx
    have hlt : (k : ℚ) < 1 := by
      have hbelow := h.below
      rw [hnone, zero_div] at hbelow
      linarith
    have hk0 : k = 0 := by
      have : k < 1 := by exact_mod_cast hlt
      omega
    simp [hk0]
  constructor
  · rintro v ⟨u, hu, rfl⟩ hle
    cases hu with
    | zero s => exact hzero hle
    | @finite s m e hc =>
      have hsize : (0 : ℚ) < m * 2 ^ e := by
        have := hc.pos
        have := two_zpow_pos e
        positivity
      cases s with
      | positive => exact (h.adjacent_size hc.cut).1 hle
      | negative =>
        have hneg : value (.finite .negative m e hc.pos) = -(m * 2 ^ e) := rfl
        rw [hneg] at hle
        linarith
  · rintro v ⟨u, hu, rfl⟩ hge
    cases hu with
    | zero s => exact hk
    | @finite s m e hc =>
      have hsize : (0 : ℚ) < m * 2 ^ e := by
        have := hc.pos
        have := two_zpow_pos e
        positivity
      cases s with
      | positive => exact (h.adjacent_size hc.cut).2 hge
      | negative =>
        have hneg : value (.finite .negative m e hc.pos) = -(m * 2 ^ e) := rfl
        rw [hneg]
        linarith

end OnGrid

end Photoplot.Decimal
