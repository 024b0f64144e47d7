import Photoplot.Proofs.Decimal.Parts
import Photoplot.Proofs.Decimal.Reading

/-!
Where the sign of a zero comes from.

A zero bears a sign, and a comparison does not see it. This file says which operations can bring a
negative zero about. Rounding can only if the exact result is tiny, which `AwayFromZero` rules out
for products; and a sum is a negative zero only if both of its summands are.

**What is proved, and where the work is.**

* Rounding never takes bits away from a significand that has 53 of them, and never goes below the
  least exponent. So what is rounded with a bit at the least exponent or above it is not rounded to
  zero, and its last place is worth no less than before (`roundWithAccuracy_cut`). This holds for
  whatever was cut off, so no interval is needed.
* Products: the last place of an exact product is worth the product of the last places. If that is
  one that binary64 has, the product does not come near zero (`AwayFromZero.mul`). Whole numbers are
  at least `2 ^ (-104)` away on either path of reading, and the scale of any units is a number with
  a known last place, so a raw coordinate is never scaled to a negative zero.
* Sums: an exact sum that is zero is a positive zero, unless both summands are negative zeros, and
  any other is rounded to something that is not zero (`Plain.add`). So a point without negative
  zeros has none when an offset is added to it, whatever the offset is (`add_ne_negative_zero`).
-/

set_option autoImplicit false

namespace Photoplot.Decimal

open Float.Model (Format UnpackedFloat)
open Float.Model.UnpackedFloat

/-! ## 1. Rounding keeps the significand -/

theorem mantissa_shiftRight (em : ExtendedMantissa) (n : Nat) :
    (em >>> n).mantissa = em.mantissa / 2 ^ n := by
  show (n.repeat ExtendedMantissa.shiftRightOne em).mantissa = _
  induction n with
  | zero => simp [Nat.repeat]
  | succ n ih =>
    rw [Nat.repeat, ExtendedMantissa.shiftRightOne, ih, Nat.pow_succ, Nat.div_div_eq_div_mul]

/-- Bits are dropped only where there are too many, so the highest one stays. -/
theorem cut_shiftToTargetExponent {M : Nat} {E : Int} (accuracy : Accuracy) (hM : 0 < M)
    (hleast : -1074 ≤ E) (hprecise : 2 ^ 52 ≤ M ∨ E = -1074) :
    Cut (shiftToTargetExponent Format.binary64 M E accuracy).1.mantissa
        (shiftToTargetExponent Format.binary64 M E accuracy).2
      ∧ E ≤ (shiftToTargetExponent Format.binary64 M E accuracy).2 := by
  have hlow : 2 ^ M.log2 ≤ M := Nat.log2_self_le hM.ne'
  have hhigh : M < 2 ^ (M.log2 + 1) := Nat.lt_log2_self
  have hlog : 2 ^ 52 ≤ M → 52 ≤ M.log2 := (Nat.le_log2 hM.ne').2
  have htarget : Format.binary64.targetExponent (Float.Model.totalExponent M E)
      = max ((M.log2 : Int) + 1 + E - 53) (-1074) := rfl
  simp only [shiftToTargetExponent, shiftToExponent, mantissa_shiftRight,
    mantissa_ofMantissaAndAccuracy, htarget]
  generalize hk : (max ((M.log2 : Int) + 1 + E - 53) (-1074) - E).toNat = k
  refine ⟨⟨?_, ?_, by omega, ?_⟩, by omega⟩
  · -- at most all bits but the highest are dropped
    have hkept : 2 ^ k ≤ M := (Nat.pow_le_pow_right (by decide) (by omega)).trans hlow
    exact Nat.div_pos hkept (by positivity)
  · rw [Nat.div_lt_iff_lt_mul (by positivity), ← Nat.pow_add]
    exact hhigh.trans_le (Nat.pow_le_pow_right (by decide) (by omega))
  · by_cases hbottom : E + k = -1074
    · exact Or.inr hbottom
    · left
      rw [Nat.le_div_iff_mul_le (by positivity), ← Nat.pow_add]
      exact (Nat.pow_le_pow_right (by decide) (by omega)).trans hlow

/-- Rounding does not make a mantissa smaller. -/
theorem roundedMantissa_ge (em : ExtendedMantissa) : em.mantissa ≤ em.roundedMantissa := by
  obtain ⟨m, round, sticky⟩ := em
  cases round <;> cases sticky
  · exact Nat.le_refl m
  · exact Nat.le_refl m
  · exact Nat.le_add_right m _
  · exact Nat.le_add_right m 1

/-- A number with a bit at the least exponent or above it is not rounded to zero. -/
theorem roundWithAccuracy_cut (s : Sign) {M : Nat} {E : Int} (accuracy : Accuracy) (hM : 0 < M)
    (hleast : -1074 ≤ E) (hprecise : 2 ^ 52 ≤ M ∨ E = -1074) :
    ∃ (m : Nat) (e : Int) (h : Cut m e),
      roundWithAccuracy Format.binary64 s M E accuracy = .finite s m e h.pos ∧ E ≤ e := by
  obtain ⟨hfirst, hle⟩ := cut_shiftToTargetExponent accuracy hM hleast hprecise
  have hrounded := roundedMantissa_ge (shiftToTargetExponent Format.binary64 M E accuracy).1
  -- rounding up may give the significand one bit more, which the second shift takes away again
  obtain ⟨hsecond, hle'⟩ := cut_shiftToTargetExponent .exact (hfirst.pos.trans_le hrounded)
    hfirst.least (hfirst.normal.imp_left hrounded.trans')
  refine ⟨_, _, hsecond, ?_, hle.trans hle'⟩
  simp only [roundWithAccuracy, dif_neg hsecond.pos.ne']

/-- A significand is shifted to the left until it has 53 bits, or down to the least exponent. -/
theorem exists_round (s : Sign) {M : Nat} {E : Int} (hM : 0 < M) (hleast : -1074 ≤ E) :
    ∃ k : Nat, UnpackedFloat.round Format.binary64 s M E
        = roundWithAccuracy Format.binary64 s (M * 2 ^ k) (E - k) .exact
      ∧ -1074 ≤ E - k ∧ (2 ^ 52 ≤ M * 2 ^ k ∨ E - k = -1074) := by
  have htarget : Format.binary64.targetExponent (Float.Model.totalExponent M E)
      = max ((M.log2 : Int) + 1 + E - 53) (-1074) := rfl
  simp only [UnpackedFloat.round, decreaseExponent, htarget, Nat.shiftLeft_eq]
  generalize hk : (E - max ((M.log2 : Int) + 1 + E - 53) (-1074)).toNat = k
  refine ⟨k, rfl, by omega, ?_⟩
  by_cases hbottom : E - k = -1074
  · exact Or.inr hbottom
  · left
    calc 2 ^ 52 ≤ 2 ^ (M.log2 + k) := Nat.pow_le_pow_right (by decide) (by omega)
      _ = 2 ^ M.log2 * 2 ^ k := Nat.pow_add ..
      _ ≤ M * 2 ^ k := Nat.mul_le_mul_right _ (Nat.log2_self_le hM.ne')

/-- What is rounded without being cut before is not rounded to zero. -/
theorem round_cut (s : Sign) {M : Nat} {E : Int} (hM : 0 < M) (hleast : -1074 ≤ E) :
    ∃ (m : Nat) (e : Int) (h : Cut m e), UnpackedFloat.round Format.binary64 s M E
      = .finite s m e h.pos := by
  obtain ⟨k, hround, hleast', hprecise⟩ := exists_round s hM hleast
  obtain ⟨m, e, h, hcut, -⟩ := roundWithAccuracy_cut s .exact (by positivity) hleast' hprecise
  exact ⟨m, e, h, hround.trans hcut⟩

/-! ## 2. What a result is read back as -/

theorem exists_signOf (s : Sign) : ∃ negative, s = signOf negative := by
  cases s
  · exact ⟨true, rfl⟩
  · exact ⟨false, rfl⟩

theorem unpack_pack_infinity (s : Sign) :
    (Float.Model.pack (.infinity s)).unpack = .infinity s := by
  cases s <;> rfl

/-- A significand that fits is kept, and one that is too large becomes an infinity. -/
theorem unpack_pack_cut (s : Sign) {m : Nat} {e : Int} (h : Cut m e) :
    (Float.Model.pack (.finite s m e h.pos)).unpack = .infinity s
      ∨ ∃ hc : Canonical m e,
          (Float.Model.pack (.finite s m e h.pos)).unpack = .finite s m e hc.pos := by
  obtain ⟨negative, rfl⟩ := exists_signOf s
  by_cases hgreatest : e ≤ 971
  · have hc : Canonical m e := ⟨h.pos, h.lt, h.least, hgreatest, h.normal⟩
    exact Or.inr ⟨hc, unpack_pack hc⟩
  · left
    have hscale : e + Format.binary64.exponentBias + Format.binary64.mantissaBitsWithoutImplicit
        = e + 1075 := by
      rw [Int.add_assoc]
      rfl
    have hlarge : 2 ^ Format.binary64.exponentBits ≤ (e + 1075).toNat + 1 := by
      simp only
      omega
    have hpack : UnpackedFloat.pack Format.binary64 (.finite (signOf negative) m e h.pos)
        = packedInfinity Format.binary64 (signOf negative) := by
      simp only [UnpackedFloat.pack, hscale, if_pos hlarge]
    show UnpackedFloat.unpack Format.binary64 (UnpackedFloat.pack Format.binary64 _) = _
    rw [hpack]
    exact unpack_pack_infinity _

/-! ## 3. Away from zero -/

/-- **Away from zero.** An infinity, or a number whose last place is worth `2 ^ least` or more. -/
def AwayFromZero (least : Int) (x : Float) : Prop :=
  (∃ s, x.toModel.unpack = .infinity s)
    ∨ ∃ (s : Sign) (m : Nat) (e : Int) (h : 0 < m),
        x.toModel.unpack = .finite s m e h ∧ least ≤ e

/-- Whether the last place of a number is worth `2 ^ least` or more. -/
def Binary64.reaches (least : Int) : Binary64 → Bool
  | .finite _ size => least ≤ size.exponent
  | _ => false

/-- For a given number it can be computed. -/
theorem awayFromZero_of_reaches {least : Int} {x : Float}
    (h : (Binary64.ofBits x.toBits.toNat).reaches least = true) : AwayFromZero least x := by
  unfold Binary64.reaches at h
  split at h
  · rename_i negative size hparts
    exact Or.inr ⟨_, _, _, _, unpack_of_ofBits hparts, of_decide_eq_true h⟩
  · cases h

theorem AwayFromZero.mono {least least' : Int} {x : Float} (h : AwayFromZero least x)
    (hle : least' ≤ least) : AwayFromZero least' x := by
  obtain hinfinite | ⟨s, m, e, hpos, hunpack, he⟩ := h
  · exact Or.inl hinfinite
  · exact Or.inr ⟨s, m, e, hpos, hunpack, hle.trans he⟩

theorem AwayFromZero.ne_negative_zero {least : Int} {x : Float} (h : AwayFromZero least x) :
    x ≠ -0.0 := by
  rintro rfl
  obtain ⟨s, h⟩ | ⟨s, m, e, hpos, h, -⟩ := h
  · cases h
  · cases h

/-- What is rounded to begin with does not come closer to zero. -/
theorem awayFromZero_of_round {x : Float} {s : Sign} {M : Nat} {E : Int} {accuracy : Accuracy}
    (hx : x.toModel = .pack (roundWithAccuracy Format.binary64 s M E accuracy)) (hM : 0 < M)
    (hleast : -1074 ≤ E) (hprecise : 2 ^ 52 ≤ M ∨ E = -1074) : AwayFromZero E x := by
  obtain ⟨m, e, h, hround, hle⟩ := roundWithAccuracy_cut s accuracy hM hleast hprecise
  rw [hround] at hx
  obtain hinfinite | ⟨hc, hfinite⟩ := unpack_pack_cut s h
  · exact Or.inl ⟨s, by rw [hx, hinfinite]⟩
  · exact Or.inr ⟨s, m, e, hc.pos, by rw [hx, hfinite], hle⟩

theorem AwayFromZero.neg {least : Int} {x : Float} (h : AwayFromZero least x) :
    AwayFromZero least (Float.neg x) := by
  obtain ⟨s, hunpack⟩ | ⟨s, m, e, hpos, hunpack, he⟩ := h
  · refine Or.inl ⟨-s, ?_⟩
    show (Float.Model.pack (UnpackedFloat.neg x.toModel.unpack)).unpack = _
    rw [hunpack, UnpackedFloat.neg, unpack_pack_infinity]
  · refine Or.inr ⟨-s, m, e, hpos, ?_, he⟩
    show (Float.Model.pack (UnpackedFloat.neg x.toModel.unpack)).unpack = _
    have hc := canonical_of_unpack hunpack
    rw [hunpack]
    obtain ⟨negative, hs⟩ := exists_signOf (-s)
    rw [UnpackedFloat.neg, hs]
    exact unpack_pack hc

/-- **Products.** Where the last places multiply to something that binary64 can hold, a product does
not come near zero. -/
theorem AwayFromZero.mul {least least' : Int} {x y : Float} (hx : AwayFromZero least x)
    (hy : AwayFromZero least' y) (hnormal : -1074 < least) (hsum : -1074 ≤ least + least') :
    AwayFromZero (least + least') (x * y) := by
  have hmul : (x * y).toModel
      = .pack (UnpackedFloat.mul Format.binary64 x.toModel.unpack y.toModel.unpack) := rfl
  obtain ⟨s, hx⟩ | ⟨s, m, e, hpos, hx, he⟩ := hx
  · obtain ⟨s', hy⟩ | ⟨s', m', e', hpos', hy, he'⟩ := hy
    · refine Or.inl ⟨s * s', ?_⟩
      rw [hmul, hx, hy, UnpackedFloat.mul, unpack_pack_infinity]
    · refine Or.inl ⟨s * s', ?_⟩
      rw [hmul, hx, hy, UnpackedFloat.mul, unpack_pack_infinity]
  · obtain ⟨s', hy⟩ | ⟨s', m', e', hpos', hy, he'⟩ := hy
    · refine Or.inl ⟨s * s', ?_⟩
      rw [hmul, hx, hy, UnpackedFloat.mul, unpack_pack_infinity]
    · have hlarge : 2 ^ 52 ≤ m := (canonical_of_unpack hx).normal.resolve_right (by omega)
      rw [hx, hy] at hmul
      have haway := awayFromZero_of_round hmul (Nat.mul_pos hpos hpos') (by omega)
        (Or.inl (hlarge.trans (Nat.le_mul_of_pos_right m hpos')))
      exact haway.mono (by omega)

/-! ## 4. Whole numbers -/

/-- A whole number is read on the fast path if it is small, and off it otherwise. Neither brings it
near zero. -/
theorem awayFromZero_ofNat {n : Nat} (hn : 0 < n) : AwayFromZero (-104) (Float.ofNat n) := by
  show AwayFromZero _ (Float.ofScientific n false 0)
  rw [Float.ofScientific]
  split
  · rename_i hfast
    -- the fast path multiplies by the power of ten that is one
    obtain ⟨p, q, hp, hone, -, hlow, -⟩ := unpack_of_isTenTo (isTenTo_table ⟨0, by decide⟩)
    have hnumber : AwayFromZero (-52) n.toUInt64.toFloat :=
      Or.inr ⟨_, _, _, _, unpack_toFloat hn hfast.1, by omega⟩
    exact hnumber.mul (Or.inr ⟨_, p, q, hp.pos, hone, hlow⟩) (by omega) (by omega)
  · -- the slow path multiplies exactly and rounds once
    have hx : (Float.ofModel (.pack (UnpackedFloat.ofScientific Format.binary64 n 0))).toModel
        = .pack (roundWithAccuracy Format.binary64 .positive (n <<< 53 * 1) (-53) .exact) := by
      have hhigh : ¬(0 : Int) > 2 ^ Format.binary64.exponentBits := by decide
      have hlow : ¬(0 : Int) < -((2 ^ Format.binary64.exponentBits : Int) + n.log2) := by
        simp only
        omega
      rw [UnpackedFloat.ofScientific, dif_neg hn.ne', if_neg hhigh, if_neg hlow,
        if_pos (Int.le_refl 0)]
      rfl
    have hlarge : 2 ^ 52 ≤ n <<< 53 * 1 := by
      rw [Nat.shiftLeft_eq]
      omega
    exact (awayFromZero_of_round hx (by omega) (by omega) (Or.inl hlarge)).mono (by omega)

theorem awayFromZero_ofInt {n : Int} (hn : n ≠ 0) : AwayFromZero (-104) (Float.ofInt n) := by
  cases n with
  | ofNat n => exact awayFromZero_ofNat (Nat.pos_of_ne_zero fun h => hn (by rw [h]; rfl))
  | negSucc n => exact (awayFromZero_ofNat n.succ_pos).neg

/-! ## 5. Sums -/

/-- What arithmetic sees of the numbers other than the negative zero. -/
inductive Plain : UnpackedFloat → Prop
  | notANumber : Plain .notANumber
  | infinity (s : Sign) : Plain (.infinity s)
  | zero : Plain (.zero .positive)
  | finite (s : Sign) {m : Nat} {e : Int} (h : Cut m e) : Plain (.finite s m e h.pos)

/-- Every number but the negative zero. -/
theorem plain_of_ne {x : Float} (hx : x ≠ -0.0) : Plain x.toModel.unpack := by
  have hnegative : x.toModel.unpack ≠ .zero .negative := fun h => hx (eq_of_unpack h)
  have hseen := seen x
  generalize x.toModel.unpack = u at hseen hnegative
  generalize Binary64.ofBits x.toBits.toNat = parts at hseen
  cases hseen with
  | notANumber => exact Plain.notANumber
  | infinite negative => exact Plain.infinity (signOf negative)
  | zero negative =>
    cases negative
    · exact Plain.zero
    · exact absurd rfl hnegative
  | finite negative hc =>
    exact Plain.finite (signOf negative) hc.cut

/-- It is not one after packing either, for what is too large becomes an infinity. -/
theorem Plain.unpack_pack_ne {u : UnpackedFloat} (h : Plain u) :
    (Float.Model.pack u).unpack ≠ .zero .negative := by
  cases h with
  | notANumber => nofun
  | infinity s =>
    rw [unpack_pack_infinity]
    nofun
  | zero => nofun
  | finite s h =>
    obtain hinfinite | ⟨hc, hfinite⟩ := unpack_pack_cut s h
    · rw [hinfinite]
      nofun
    · rw [hfinite]
      nofun

/-- A sum that is zero exactly is the positive zero, and any other is not rounded to zero. -/
theorem plain_normalize (M : Int) {E : Int} (hleast : -1074 ≤ E) :
    Plain (normalize Format.binary64 M E .positive) := by
  rw [UnpackedFloat.normalize]
  split
  · rename_i hneg
    have hM := Int.compare_eq_lt.1 hneg
    obtain ⟨m, e, h, hround⟩ := round_cut .negative (M := (-M).toNat) (by omega) hleast
    rw [hround]
    exact Plain.finite .negative h
  · exact Plain.zero
  · rename_i hpos
    have hM := Int.compare_eq_gt.1 hpos
    obtain ⟨m, e, h, hround⟩ := round_cut .positive (M := M.toNat) (by omega) hleast
    rw [hround]
    exact Plain.finite .positive h

/-- **Sums.** One plain summand is enough. -/
theorem Plain.add {a b : UnpackedFloat} (ha : Plain a) (hb : Plain b ∨ b = .zero .negative) :
    Plain (UnpackedFloat.add Format.binary64 a b) := by
  obtain hb | rfl := hb
  · cases ha with
    | notANumber => exact Plain.notANumber
    | infinity s =>
      cases hb with
      | notANumber => exact Plain.notANumber
      | infinity s' =>
        rw [UnpackedFloat.add]
        split
        · exact Plain.infinity s
        · exact Plain.notANumber
      | zero => exact Plain.infinity s
      | finite s' h' => exact Plain.infinity s
    | zero =>
      cases hb with
      | notANumber => exact Plain.notANumber
      | infinity s' => exact Plain.infinity s'
      | zero => exact Plain.zero
      | finite s' h' => exact Plain.finite s' h'
    | finite s h =>
      cases hb with
      | notANumber => exact Plain.notANumber
      | infinity s' => exact Plain.infinity s'
      | zero => exact Plain.finite s h
      | finite s' h' =>
        -- this is the one case in which something is rounded
        have hleast := h.least
        have hleast' := h'.least
        exact plain_normalize _ (by omega)
  · cases ha with
    | notANumber => exact Plain.notANumber
    | infinity s => exact Plain.infinity s
    | zero => exact Plain.zero
    | finite s h => exact Plain.finite s h

/-- **Sums.** A sum is the negative zero only if both of its summands are. -/
theorem add_ne_negative_zero {x : Float} (hx : x ≠ -0.0) (v : Float) : x + v ≠ -0.0 := by
  intro hsum
  have hv : Plain v.toModel.unpack ∨ v.toModel.unpack = .zero .negative := by
    by_cases hv : v = -0.0
    · right
      rw [hv]
      rfl
    · exact Or.inl (plain_of_ne hv)
  apply ((plain_of_ne hx).add hv).unpack_pack_ne
  show (x + v).toModel.unpack = _
  rw [hsum]
  rfl

end Photoplot.Decimal
