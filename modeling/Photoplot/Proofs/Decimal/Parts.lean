import Photoplot.Decimal.Notation
import Photoplot.Proofs.Decimal.Canonical

/-!
What a number is, by its parts.

The notation and the arithmetic both tell apart what is no number, infinities, zeros and the finite
numbers between them. `Seen` says that they agree on every bit pattern (`seen_unpack`): each of its
cases has the parts of both sides, with the same sign and, where there is one, the same canonical
form.

So a proof that has to look at a number looks at both sides at once: it generalizes the two and goes
by the cases of `Seen`. Statements about all numbers are proved in this way wherever they come up,
about order, rounding and zeros.

A number that is not finite is determined by its kind and its sign, and so is a zero. It is then one
of the few that have a name, which is what reading has to give for the words `NaN` and `inf`
(`eq_missing`, `eq_of_infinite`, `eq_of_zero`). For what is no number this takes that there is only
one bit pattern that stands for it.
-/

set_option autoImplicit false

namespace Photoplot.Decimal

open Float.Model (Format UnpackedFloat)
open Float.Model.UnpackedFloat

/-! ## 1. Both kinds of parts -/

/-- **Parts.** What arithmetic sees of a number, next to the parts that the notation sees. -/
inductive Seen : Binary64 → UnpackedFloat → Prop
  | notANumber : Seen .notANumber .notANumber
  | infinite (negative : Bool) : Seen (.infinite negative) (.infinity (signOf negative))
  | zero (negative : Bool) : Seen (.zero negative) (.zero (signOf negative))
  | finite (negative : Bool) {size : Magnitude} (h : Canonical size.significand size.exponent) :
    Seen (.finite negative size) (.finite (signOf negative) size.significand size.exponent h.pos)

/-- **Both sides agree on every bit pattern.** The exponent field tells three kinds apart, and the
fraction the rest. -/
theorem seen_unpack (b : BitVec 64) :
    Seen (Binary64.ofBits b.toNat) (UnpackedFloat.unpack Format.binary64 b) := by
  have hscale : ∀ e : BitVec 11,
      @unpackExponent Format.binary64 b = e ↔ b.toNat / 2 ^ 52 % 2 ^ 11 = e.toNat := by
    intro e
    rw [← BitVec.toNat_inj, toNat_unpackExponent]
  have hfraction : @unpackMantissa Format.binary64 b = 0#52 ↔ b.toNat % 2 ^ 52 = 0 := by
    rw [← BitVec.toNat_inj, toNat_unpackMantissa]
    rfl
  have hsign : Sign.ofBitVec (@unpackSign Format.binary64 b)
      = signOf (b.toNat / 2 ^ 63 % 2 == 1) := by
    rw [ofBitVec_eq_signOf, toNat_unpackSign]
  -- all exponent bits set, none set, or some of them
  by_cases htop : b.toNat / 2 ^ 52 % 2 ^ 11 = 2047
  · have hparts : Binary64.ofBits b.toNat = if b.toNat % 2 ^ 52 = 0
        then .infinite (b.toNat / 2 ^ 63 % 2 == 1) else .notANumber := if_pos htop
    simp only [hparts, UnpackedFloat.unpack, if_pos ((hscale (-1#11)).2 htop), hfraction, hsign]
    split
    · exact Seen.infinite _
    · exact Seen.notANumber
  · by_cases hzero : b.toNat / 2 ^ 52 % 2 ^ 11 = 0 ∧ b.toNat % 2 ^ 52 = 0
    · have hparts : Binary64.ofBits b.toNat = .zero (b.toNat / 2 ^ 63 % 2 == 1) := by
        simp only [Binary64.ofBits, Nat.pow_eq, if_neg htop, if_pos hzero.1, if_pos hzero.2]
      simp only [hparts, UnpackedFloat.unpack, if_neg (fun h => htop ((hscale (-1#11)).1 h)),
        if_pos ((hscale 0#11).2 hzero.1), dif_pos (hfraction.2 hzero.2), hsign]
      exact Seen.zero _
    · obtain ⟨negative, size, hparts⟩ :
          ∃ negative size, Binary64.ofBits b.toNat = .finite negative size := by
        simp only [Binary64.ofBits, Nat.pow_eq, if_neg htop]
        by_cases hbottom : b.toNat / 2 ^ 52 % 2 ^ 11 = 0
        · rw [if_pos hbottom, if_neg fun h => hzero ⟨hbottom, h⟩]
          exact ⟨_, _, rfl⟩
        · rw [if_neg hbottom]
          exact ⟨_, _, rfl⟩
      rw [unpack_of_ofBits hparts, hparts]
      exact Seen.finite negative (canonical_of_ofBits hparts)

theorem seen (x : Float) : Seen (Binary64.ofBits x.toBits.toNat) x.toModel.unpack :=
  seen_unpack x.toModel.toBits.toBitVec

/-- What arithmetic sees of a number is canonical. -/
theorem canonical_of_unpack {x : Float} {s : Sign} {m : Nat} {e : Int} {h : 0 < m}
    (hx : x.toModel.unpack = .finite s m e h) : Canonical m e := by
  have hseen := seen x
  rw [hx] at hseen
  generalize Binary64.ofBits x.toBits.toNat = parts at hseen
  cases hseen with
  | finite negative hc => exact hc

/-! ## 2. The numbers that have a name -/

/-- Nothing of a number is lost when it is unpacked. -/
theorem eq_of_unpack {x y : Float} (h : x.toModel.unpack = y.toModel.unpack) : x = y := by
  apply Float.toBits_inj.1
  apply UInt64.toBitVec_inj.1
  exact (unpack_inj_of_valid x.toModel.valid y.toModel.valid).1 h

/-- There is only one missing number. -/
theorem eq_missing {x : Float} (h : Binary64.ofBits x.toBits.toNat = .notANumber) :
    x = missing := by
  have hseen := seen x
  rw [h] at hseen
  apply eq_of_unpack
  generalize x.toModel.unpack = u at hseen
  cases hseen
  rfl

theorem eq_of_infinite {x : Float} {negative : Bool}
    (h : Binary64.ofBits x.toBits.toNat = .infinite negative) :
    x = if negative then -infinity else infinity := by
  have hseen := seen x
  rw [h] at hseen
  apply eq_of_unpack
  generalize x.toModel.unpack = u at hseen
  cases hseen
  cases negative <;> rfl

theorem eq_of_zero {x : Float} {negative : Bool}
    (h : Binary64.ofBits x.toBits.toNat = .zero negative) :
    x = if negative then -0.0 else 0.0 := by
  have hseen := seen x
  rw [h] at hseen
  apply eq_of_unpack
  generalize x.toModel.unpack = u at hseen
  cases hseen
  cases negative <;> rfl

end Photoplot.Decimal
