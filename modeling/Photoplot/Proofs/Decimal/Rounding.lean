import Photoplot.Proofs.Decimal.Canonical

/-!
Correct rounding of binary64 arithmetic.

Products and quotients are first cut to a few more bits than the result has room for, and two bits
and a flag say what was cut off. `Holds` is what they say, as an invariant of the cutting, and
`Rounds` is the interval of the reals that belong to a number.

**What is proved, and where the work is.**

* The invariant is kept by each single shift (`Holds.shiftRightOne`), so by any number of them, and
  in the end it decides between the two neighbours, ties included (`Holds.roundedMantissa`). From
  then on nothing depends on how the bits were cut.
* The exponent at which a number is rounded is computed from the number that was cut, before
  rounding (`targetExponent_of_rounds`). It is that of the result, with one exception: a real just
  below a power of two has one bit less than the power it is rounded to. Then the rounded
  significand is too long by one bit, and the second shift takes that bit away, exactly
  (`shiftToTargetExponent_of_overflow`). These two cases make up the proof of the main statement.
* A product is exact. A quotient comes with a remainder, which tells whether it is exact, and by how
  much it misses (`Holds.quotient`); it is computed with enough bits for the exponent to be that of
  the exact quotient (`exists_divCore`).

Main statement: `roundWithAccuracy_eq`, whatever lies in the interval of a number is rounded to that
number.
-/

set_option autoImplicit false

namespace Photoplot.Decimal

open Float.Model (Format UnpackedFloat)
open Float.Model.UnpackedFloat

/-! ## 1. What the cut-off bits say -/

/-- **The rounding invariant.** What the mantissa and the two bits behind it say of the number that
they were cut from. -/
def Holds (em : ExtendedMantissa) (x : ℚ) : Prop :=
  ∃ rest : ℚ, x = em.mantissa + (if em.roundBit then 1 / 2 else 0) + rest
    ∧ 0 ≤ rest ∧ rest < 1 / 2 ∧ (rest = 0 ↔ em.stickyBit = false)

namespace Holds

/-- One bit is cut off: it becomes the round bit, and the round bit goes into the flag. -/
theorem shiftRightOne {em : ExtendedMantissa} {x : ℚ} (h : Holds em x) :
    Holds em.shiftRightOne (x / 2) := by
  obtain ⟨rest, hx, hnonneg, hhalf, hsticky⟩ := h
  have hsplit : (em.mantissa : ℚ) = 2 * (em.mantissa / 2 : Nat) + (em.mantissa % 2 : Nat) := by
    exact_mod_cast (Nat.div_add_mod em.mantissa 2).symm
  refine ⟨((if em.roundBit then 1 / 2 else 0) + rest) / 2, ?_, ?_, ?_, ?_⟩
  · rcases Nat.mod_two_eq_zero_or_one em.mantissa with hbit | hbit <;>
      · rw [hbit] at hsplit
        simp only [ExtendedMantissa.shiftRightOne, hbit]
        norm_num at *
        linarith
  · split <;> linarith
  · split <;> linarith
  · simp only [ExtendedMantissa.shiftRightOne, Bool.or_eq_false_iff, ← hsticky]
    cases em.roundBit
    · norm_num
    · norm_num
      linarith

theorem shiftRight {em : ExtendedMantissa} {x : ℚ} (h : Holds em x) (n : Nat) :
    Holds (em >>> n) (x / 2 ^ n) := by
  show Holds (n.repeat ExtendedMantissa.shiftRightOne em) _
  induction n with
  | zero => simpa [Nat.repeat] using h
  | succ n ih =>
    rw [Nat.repeat, pow_succ, ← div_div]
    exact ih.shiftRightOne

/-- Nothing is known of the number beyond its two ends but which half it lies in. -/
theorem bounds {em : ExtendedMantissa} {x : ℚ} (h : Holds em x) :
    em.mantissa ≤ x ∧ x < em.mantissa + 1 := by
  obtain ⟨rest, hx, hnonneg, hhalf, -⟩ := h
  split at hx <;> constructor <;> linarith

/-- **The invariant decides.** The mantissa is rounded to the whole number in whose interval the
number lies. -/
theorem roundedMantissa {em : ExtendedMantissa} {x : ℚ} (h : Holds em x) {m : Nat}
    (hbelow : m - 1 / 2 ≤ x) (habove : x ≤ m + 1 / 2)
    (hodd : m % 2 = 1 → m - 1 / 2 < x ∧ x < m + 1 / 2) : em.roundedMantissa = m := by
  obtain ⟨rest, hx, hnonneg, hhalf, hsticky⟩ := h
  obtain ⟨k, round, sticky⟩ := em
  dsimp only at hx hsticky
  cases round with
  | false =>
    -- less than half is left over, so the mantissa stays
    have hk : k = m := by
      norm_num at hx
      have h1 : (k : ℚ) < m + 1 := by linarith
      have h2 : (m : ℚ) < k + 1 := by linarith
      norm_cast at h1 h2
      omega
    cases sticky <;> exact hk
  | true =>
    cases sticky with
    | true =>
      -- more than half is left over, so it is rounded up
      have hpos : 0 < rest := lt_of_le_of_ne hnonneg fun h => by simpa using hsticky.1 h.symm
      have hk : k + 1 = m := by
        norm_num at hx
        have h1 : (k : ℚ) < m := by linarith
        have h2 : (m : ℚ) < k + 2 := by linarith
        norm_cast at h1 h2
        omega
      exact hk
    | false =>
      -- exactly half is left over, and the even one of the two neighbours is taken
      have hrest : rest = 0 := hsticky.2 rfl
      rw [hrest] at hx
      norm_num at hx
      have h1 : (k : ℚ) ≤ m := by linarith
      have h2 : (m : ℚ) ≤ k + 1 := by linarith
      norm_cast at h1 h2
      have heven : m % 2 = 0 := by
        by_contra hm
        obtain ⟨h3, h4⟩ := hodd (by omega)
        have h5 : (k : ℚ) < m := by linarith
        have h6 : (m : ℚ) < k + 1 := by linarith
        norm_cast at h5 h6
        omega
      show k + k % 2 = m
      omega

end Holds

/-! ## 2. The interval of a number -/

/-- **The interval of a number.** The reals that are rounded to `m * 2 ^ e`, a tie going to the even
significand. At a power of two the next smaller number is only half as far away. -/
structure Rounds (x : ℚ) (m : Nat) (e : Int) : Prop where
  below : m - (if m = 2 ^ 52 ∧ e ≠ -1074 then 1 / 4 else 1 / 2) ≤ x / 2 ^ e
  above : x / 2 ^ e ≤ m + 1 / 2
  odd : m % 2 = 1 → m - 1 / 2 < x / 2 ^ e ∧ x / 2 ^ e < m + 1 / 2

theorem two_zpow_pos (e : Int) : (0 : ℚ) < 2 ^ e :=
  zpow_pos (by norm_num) e

theorem lt_of_two_zpow {a b : Int} (h : (2 : ℚ) ^ a < 2 ^ b) : a < b :=
  (zpow_lt_zpow_iff_right₀ (by norm_num)).1 h

/-- The interval of a number has an upper limit by its exponent. -/
theorem Rounds.lt {x : ℚ} {m : Nat} {e : Int} (h : Rounds x m e) (hc : Canonical m e) :
    x < 2 ^ (53 + e) := by
  have he := two_zpow_pos e
  have hm : (m : ℚ) + 1 ≤ 2 ^ 53 := by
    exact_mod_cast hc.lt
  have habove := h.above
  rw [div_le_iff₀ he] at habove
  rw [zpow_add₀ (by norm_num), zpow_ofNat]
  nlinarith

/-- And a lower one, if there are 53 bits. -/
theorem Rounds.ge {x : ℚ} {m : Nat} {e : Int} (h : Rounds x m e) (hm : 2 ^ 52 ≤ m) :
    2 ^ (51 + e) ≤ x := by
  have he := two_zpow_pos e
  have hm' : (2 : ℚ) ^ 52 ≤ m := by
    exact_mod_cast hm
  have hbelow := h.below
  rw [le_div_iff₀ he] at hbelow
  rw [zpow_add₀ (by norm_num), zpow_ofNat]
  split at hbelow <;> nlinarith

/-- Where a number lies between the powers of two, read off the significand it was cut to. -/
theorem totalExponent_bounds {M : Nat} {E : Int} {x : ℚ} (hM : M ≠ 0)
    (hx : M ≤ x / 2 ^ E ∧ x / 2 ^ E < M + 1) :
    (2 : ℚ) ^ (Float.Model.totalExponent M E - 1) ≤ x ∧ x < 2 ^ Float.Model.totalExponent M E := by
  have hE := two_zpow_pos E
  obtain ⟨hlow, hhigh⟩ := hx
  rw [le_div_iff₀ hE] at hlow
  rw [div_lt_iff₀ hE] at hhigh
  have hlog : (2 : ℚ) ^ M.log2 ≤ M := by
    exact_mod_cast Nat.log2_self_le hM
  have hlog' : (M : ℚ) + 1 ≤ 2 ^ (M.log2 + 1) := by
    exact_mod_cast Nat.lt_log2_self
  have hexponent : Float.Model.totalExponent M E = ((M.log2 + 1 : Nat) : Int) + E := by
    simp [Float.Model.totalExponent]
  constructor
  · have : Float.Model.totalExponent M E - 1 = (M.log2 : Int) + E := by
      rw [hexponent]
      omega
    rw [this, zpow_add₀ (by norm_num), zpow_natCast]
    nlinarith
  · rw [hexponent, zpow_add₀ (by norm_num), zpow_natCast]
    nlinarith

/-- The exponent at which a number is rounded: that of its nearest canonical number, or one less
when it lies just below a power of two. -/
theorem targetExponent_of_rounds {x : ℚ} {m : Nat} {e : Int} (hr : Rounds x m e) (hc : Canonical m e)
    {M : Nat} {E : Int} (hx : M ≤ x / 2 ^ E ∧ x / 2 ^ E < M + 1) (hM : M = 0 → E = -1074) :
    Format.binary64.targetExponent (Float.Model.totalExponent M E) = e
      ∨ Format.binary64.targetExponent (Float.Model.totalExponent M E) = e - 1
        ∧ m = 2 ^ 52 ∧ x < 2 ^ (52 + e) := by
  have htarget : Format.binary64.targetExponent (Float.Model.totalExponent M E)
      = max (Float.Model.totalExponent M E - 53) (-1074) := rfl
  rw [htarget]
  have hlt := hr.lt hc
  by_cases hM0 : M = 0
  · -- nothing is left of the number but what lies behind the least exponent
    have hE := hM hM0
    subst hM0 hE
    have hleast : e = -1074 := by
      rcases hc.normal with hm | he
      · exfalso
        have hge := hr.ge hm
        have h1 : x < 2 ^ (-1074 : Int) := by
          have := hx.2
          rw [div_lt_iff₀ (two_zpow_pos _)] at this
          simpa using this
        have h2 := lt_of_two_zpow (hge.trans_lt h1)
        have := hc.least
        omega
      · exact he
    left
    rw [hleast]
    rfl
  · obtain ⟨hlow, hhigh⟩ := totalExponent_bounds hM0 hx
    have hupper := lt_of_two_zpow (hlow.trans_lt hlt)
    have hleast := hc.least
    by_cases he : e = -1074
    · left
      omega
    · have hm : 2 ^ 52 ≤ m := hc.normal.resolve_right he
      have hlower := lt_of_two_zpow ((hr.ge hm).trans_lt hhigh)
      by_cases htop : Float.Model.totalExponent M E = 53 + e
      · left
        omega
      · right
        have htotal : Float.Model.totalExponent M E = 52 + e := by omega
        rw [htotal] at hhigh
        refine ⟨by omega, ?_, hhigh⟩
        -- above the power of two the whole interval lies beyond it
        by_contra hne
        have hbelow := hr.below
        rw [if_neg (fun h => hne h.1), le_div_iff₀ (two_zpow_pos e)] at hbelow
        have hm' : (2 : ℚ) ^ 52 + 1 ≤ m := by
          exact_mod_cast (by omega : 2 ^ 52 + 1 ≤ m)
        rw [zpow_add₀ (by norm_num), zpow_ofNat] at hhigh
        have := two_zpow_pos e
        nlinarith


/-! ## 3. Rounding -/

/-- A number that has been cut is at its own exponent already. -/
theorem targetExponent_of_cut {m : Nat} {e : Int} (h : Cut m e) :
    Format.binary64.targetExponent (Float.Model.totalExponent m e) = e := by
  have htarget : Format.binary64.targetExponent (Float.Model.totalExponent m e)
      = max ((m.log2 : Int) + 1 + e - 53) (-1074) := rfl
  obtain ⟨hpos, hlt, hleast, hnormal⟩ := h
  have hlog := (Nat.log2_lt (by omega)).2 hlt
  rw [htarget]
  rcases hnormal with hm | he
  · have := (Nat.le_log2 (by omega)).2 hm
    omega
  · omega

/-- Cutting a significand down to a larger exponent keeps what is known of the number. -/
theorem Holds.shiftToExponent {M : Nat} {E : Int} {accuracy : Accuracy} {x : ℚ} {target : Int}
    (h : Holds (ExtendedMantissa.ofMantissaAndAccuracy M accuracy) (x / 2 ^ E)) (hE : E ≤ target) :
    Holds (shiftToExponent M E accuracy target).1 (x / 2 ^ target)
      ∧ (shiftToExponent M E accuracy target).2 = target := by
  have hamount : E + ((target - E).toNat : Int) = target := by omega
  refine ⟨?_, hamount⟩
  have hx : x / 2 ^ target = x / 2 ^ E / 2 ^ (target - E).toNat := by
    rw [div_div, ← zpow_natCast, ← zpow_add₀ (by norm_num), hamount]
  rw [hx]
  exact h.shiftRight _

theorem mantissa_ofMantissaAndAccuracy (M : Nat) (accuracy : Accuracy) :
    (ExtendedMantissa.ofMantissaAndAccuracy M accuracy).mantissa = M := by
  cases accuracy with
  | exact => rfl
  | inexact order => cases order <;> rfl

/-- A number that has been cut is not cut any further. -/
theorem shiftToTargetExponent_of_cut {m : Nat} {e : Int} (h : Cut m e) :
    shiftToTargetExponent Format.binary64 m e .exact = (⟨m, false, false⟩, e) := by
  rw [shiftToTargetExponent, targetExponent_of_cut h, shiftToExponent, Int.sub_self]
  simp [ExtendedMantissa.ofMantissaAndAccuracy]
  rfl

/-- A significand that has been rounded up to 54 bits gives its last bit away, which is zero. -/
theorem shiftToTargetExponent_of_overflow {e : Int} (he : -1074 < e) :
    shiftToTargetExponent Format.binary64 (2 ^ 53) (e - 1) .exact = (⟨2 ^ 52, false, false⟩, e) := by
  have htarget : Format.binary64.targetExponent (Float.Model.totalExponent (2 ^ 53) (e - 1)) = e := by
    show max (((2 ^ 53 : Nat).log2 : Int) + 1 + (e - 1) - 53) (-1074) = e
    rw [Nat.log2_two_pow]
    omega
  have hone : (e - (e - 1)).toNat = 1 := by omega
  rw [shiftToTargetExponent, htarget, shiftToExponent, hone]
  refine Prod.ext rfl ?_
  show e - 1 + ((1 : Nat) : Int) = e
  omega

/-- Rounding by its two shifts. -/
theorem roundWithAccuracy_of_shifts {s : Sign} {M m : Nat} {E e target : Int} {accuracy : Accuracy}
    {em : ExtendedMantissa}
    (hfirst : shiftToTargetExponent Format.binary64 M E accuracy = (em, target))
    (hsecond : shiftToTargetExponent Format.binary64 em.roundedMantissa target .exact
      = (⟨m, false, false⟩, e)) (hpos : 0 < m) :
    roundWithAccuracy Format.binary64 s M E accuracy = .finite s m e hpos := by
  simp only [roundWithAccuracy, hfirst, hsecond, dif_neg hpos.ne']

/-- **Correct rounding.** A number that was cut to at least 53 bits, or to the least exponent, is
rounded to the canonical number whose interval it lies in. -/
theorem roundWithAccuracy_eq {x : ℚ} {m : Nat} {e : Int} (hr : Rounds x m e) (hc : Canonical m e)
    (s : Sign) {M : Nat} {E : Int} {accuracy : Accuracy}
    (h : Holds (ExtendedMantissa.ofMantissaAndAccuracy M accuracy) (x / 2 ^ E))
    (hprecise : 2 ^ 52 ≤ M ∨ E = -1074) :
    roundWithAccuracy Format.binary64 s M E accuracy = .finite s m e hc.pos := by
  have hbounds := h.bounds
  rw [mantissa_ofMantissaAndAccuracy] at hbounds
  have htarget : E ≤ Format.binary64.targetExponent (Float.Model.totalExponent M E) := by
    show E ≤ max ((M.log2 : Int) + 1 + E - 53) (-1074)
    rcases hprecise with hM | hE
    · have := (Nat.le_log2 (by omega)).2 hM
      omega
    · omega
  obtain ⟨em, hfirst, hem⟩ : ∃ em, shiftToTargetExponent Format.binary64 M E accuracy
      = (em, Format.binary64.targetExponent (Float.Model.totalExponent M E))
      ∧ Holds em (x / 2 ^ Format.binary64.targetExponent (Float.Model.totalExponent M E)) := by
    obtain ⟨hshifted, hexponent⟩ := h.shiftToExponent htarget
    exact ⟨_, Prod.ext rfl hexponent, hshifted⟩
  rcases targetExponent_of_rounds hr hc hbounds (by omega) with he | ⟨he, hm, hx⟩
  · -- the exponent is that of the result, and the mantissa is rounded to its significand
    rw [he] at hfirst hem
    have hgap : (m : ℚ) - 1 / 2 ≤ x / 2 ^ e := by
      have := hr.below
      split at this <;> linarith
    refine roundWithAccuracy_of_shifts hfirst ?_ hc.pos
    rw [hem.roundedMantissa hgap hr.above hr.odd]
    exact shiftToTargetExponent_of_cut hc.cut
  · rw [he] at hfirst hem
    have hleast : -1074 < e := by
      have : Format.binary64.targetExponent (Float.Model.totalExponent M E) ≥ -1074 :=
        le_max_right _ _
      omega
    -- one bit more than the significand has, and all of them ones: rounding carries into the next
    have hhalf : x / 2 ^ (e - 1) = x / 2 ^ e * 2 := by
      rw [zpow_sub_one₀ (by norm_num)]
      field_simp
    have hbelow := hr.below
    rw [if_pos ⟨hm, hleast.ne'⟩, hm] at hbelow
    rw [zpow_add₀ (by norm_num), ← div_lt_iff₀ (two_zpow_pos e), zpow_ofNat] at hx
    have hrounded : em.roundedMantissa = 2 ^ 53 := by
      rw [hhalf] at hem
      apply hem.roundedMantissa
      · push_cast at hbelow ⊢
        linarith
      · push_cast
        linarith
      · intro hodd
        norm_num at hodd
    subst hm
    refine roundWithAccuracy_of_shifts hfirst ?_ hc.pos
    rw [hrounded]
    exact shiftToTargetExponent_of_overflow hleast


/-! ## 4. Products and quotients -/

theorem Holds.exact (M : Nat) : Holds (ExtendedMantissa.ofMantissaAndAccuracy M .exact) M :=
  ⟨0, by simp [ExtendedMantissa.ofMantissaAndAccuracy], le_refl 0, by norm_num, by
    simp [ExtendedMantissa.ofMantissaAndAccuracy]⟩

/-- The remainder says what is left of a quotient. -/
theorem Holds.quotient (a : Nat) {b : Nat} (hb : 0 < b) :
    Holds (ExtendedMantissa.ofMantissaAndAccuracy (a / b) (accuracyOfFraction (a % b) b))
      (a / b : ℚ) := by
  have hb' : (0 : ℚ) < b := by
    exact_mod_cast hb
  have hdiv : (a / b : ℚ) = (a / b : Nat) + (a % b : Nat) / b := by
    rw [div_eq_iff hb'.ne', add_mul, div_mul_cancel₀ _ hb'.ne']
    exact_mod_cast (Nat.div_add_mod' a b).symm
  have hlt : ((a % b : Nat) : ℚ) < b := by
    exact_mod_cast Nat.mod_lt a hb
  rw [hdiv]
  generalize a % b = r at *
  by_cases hr : r = 0
  · rw [hr]
    simpa [accuracyOfFraction] using Holds.exact (a / b)
  · have hr' : (0 : ℚ) < r := by
      exact_mod_cast Nat.pos_of_ne_zero hr
    rw [accuracyOfFraction, if_neg hr]
    -- what the remainder says is whether the fraction lies below, at or above one half
    rcases lt_trichotomy (2 * r) b with h | h | h
    · have h' : (2 * r : ℚ) < b := by
        exact_mod_cast h
      rw [Nat.compare_eq_lt.2 h]
      refine ⟨r / b, by simp [ExtendedMantissa.ofMantissaAndAccuracy],
        (div_pos hr' hb').le, ?_, ?_⟩
      · rw [div_lt_iff₀ hb']
        linarith
      · simp [ExtendedMantissa.ofMantissaAndAccuracy, hr, hb.ne']
    · have h' : (2 * r : ℚ) = b := by
        exact_mod_cast h
      rw [Nat.compare_eq_eq.2 h]
      have hhalf : (r / b : ℚ) = 1 / 2 := by
        rw [div_eq_div_iff hb'.ne' (by norm_num)]
        linarith
      rw [hhalf]
      exact ⟨0, by simp [ExtendedMantissa.ofMantissaAndAccuracy], le_refl 0, by norm_num,
        by simp [ExtendedMantissa.ofMantissaAndAccuracy]⟩
    · have h' : (b : ℚ) < 2 * r := by
        exact_mod_cast h
      rw [Nat.compare_eq_gt.2 h]
      refine ⟨r / b - 1 / 2, ?_, ?_, ?_, ?_⟩
      · simp [ExtendedMantissa.ofMantissaAndAccuracy]
      · rw [sub_nonneg, le_div_iff₀ hb']
        linarith
      · rw [sub_lt_iff_lt_add, div_lt_iff₀ hb']
        linarith
      · simp only [ExtendedMantissa.ofMantissaAndAccuracy, sub_eq_zero, Bool.true_eq_false, iff_false]
        rw [div_eq_div_iff hb'.ne' (by norm_num)]
        linarith

/-- **Products** round to the number in whose interval they lie. -/
theorem mul_finite {s₁ s₂ : Sign} {m₁ m₂ m : Nat} {e₁ e₂ e : Int} {h₁ : 0 < m₁} {h₂ : 0 < m₂}
    (hr : Rounds (m₁ * 2 ^ e₁ * (m₂ * 2 ^ e₂)) m e) (hc : Canonical m e)
    (hprecise : 2 ^ 52 ≤ m₁ * m₂) :
    UnpackedFloat.mul Format.binary64 (.finite s₁ m₁ e₁ h₁) (.finite s₂ m₂ e₂ h₂)
      = .finite (s₁ * s₂) m e hc.pos := by
  refine roundWithAccuracy_eq hr hc _ ?_ (Or.inl hprecise)
  have hx : (m₁ * 2 ^ e₁ * (m₂ * 2 ^ e₂) / 2 ^ (e₁ + e₂) : ℚ) = (m₁ * m₂ : Nat) := by
    rw [zpow_add₀ (by norm_num)]
    push_cast
    field_simp
  rw [hx]
  exact Holds.exact _

/-- What division hands on to be rounded: the dividend is shifted until the quotient has 53 bits. -/
theorem exists_divCore {m₁ m₂ : Nat} {e₁ e₂ : Int} (h₁ : 0 < m₁) (h₂ : 0 < m₂)
    (hleast : -1074 ≤ e₁ - e₂) :
    ∃ (M : Nat) (E : Int) (accuracy : Accuracy),
      divCore Format.binary64 m₁ e₁ m₂ e₂ = (M, E, accuracy)
        ∧ Holds (ExtendedMantissa.ofMantissaAndAccuracy M accuracy)
          (m₁ * 2 ^ e₁ / (m₂ * 2 ^ e₂) / 2 ^ E)
        ∧ -1074 ≤ E ∧ (2 ^ 52 ≤ M ∨ E = -1074) := by
  have htarget : Format.binary64.targetExponent
      (Float.Model.totalExponent m₁ e₁ - Float.Model.totalExponent m₂ e₂)
      = max ((m₁.log2 : Int) + 1 + e₁ - (m₂.log2 + 1 + e₂) - 53) (-1074) := rfl
  simp only [divCore, htarget]
  generalize hE : min (e₁ - e₂) _ = E
  have hshift : ((e₁ - e₂ - E).toNat : Int) = e₁ - e₂ - E := by omega
  have hx : (m₁ * 2 ^ e₁ / (m₂ * 2 ^ e₂) / 2 ^ E : ℚ)
      = (m₁ <<< (e₁ - e₂ - E).toNat : Nat) / m₂ := by
    rw [Nat.shiftLeft_eq]
    push_cast
    rw [← zpow_natCast, hshift, zpow_sub₀ (by norm_num), zpow_sub₀ (by norm_num)]
    field_simp
  refine ⟨_, _, _, rfl, ?_, by omega, ?_⟩
  · rw [hx]
    exact Holds.quotient _ h₂
  · by_cases hbottom : E = -1074
    · exact Or.inr hbottom
    · left
      rw [Nat.le_div_iff_mul_le h₂, Nat.shiftLeft_eq]
      have h1 : 2 ^ m₁.log2 ≤ m₁ := Nat.log2_self_le h₁.ne'
      have h2 : m₂ < 2 ^ (m₂.log2 + 1) := Nat.lt_log2_self
      calc 2 ^ 52 * m₂ ≤ 2 ^ 52 * 2 ^ (m₂.log2 + 1) := Nat.mul_le_mul_left _ h2.le
        _ = 2 ^ (52 + (m₂.log2 + 1)) := (Nat.pow_add ..).symm
        _ ≤ 2 ^ (m₁.log2 + (e₁ - e₂ - E).toNat) := Nat.pow_le_pow_right (by decide) (by omega)
        _ = 2 ^ m₁.log2 * 2 ^ (e₁ - e₂ - E).toNat := Nat.pow_add ..
        _ ≤ m₁ * 2 ^ (e₁ - e₂ - E).toNat := Nat.mul_le_mul_right _ h1

/-- **Quotients** round to the number in whose interval they lie. -/
theorem div_finite {s₁ s₂ : Sign} {m₁ m₂ m : Nat} {e₁ e₂ e : Int} {h₁ : 0 < m₁} {h₂ : 0 < m₂}
    (hr : Rounds (m₁ * 2 ^ e₁ / (m₂ * 2 ^ e₂)) m e) (hc : Canonical m e)
    (hleast : -1074 ≤ e₁ - e₂) :
    UnpackedFloat.div Format.binary64 (.finite s₁ m₁ e₁ h₁) (.finite s₂ m₂ e₂ h₂)
      = .finite (s₁ / s₂) m e hc.pos := by
  obtain ⟨M, E, accuracy, hcore, hholds, -, hprecise⟩ := exists_divCore h₁ h₂ hleast
  simp only [UnpackedFloat.div, hcore]
  exact roundWithAccuracy_eq hr hc _ hholds hprecise

end Photoplot.Decimal
