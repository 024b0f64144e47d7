import Mathlib
import Photoplot.Decimal.Shortest

/-!
Binary64 numbers taken apart and put together.

A binary64 number has one canonical form `m * 2 ^ e`: 53 significant bits, or fewer at the least
exponent. The decimal notation takes the bits of a number apart by itself, with `Binary64.ofBits`,
and arithmetic on `Float` is defined by packing and unpacking a number of its own kind. This file
relates the two: both see the same canonical form, and nothing is lost on the way to the bits and
back.

**What is proved, and where the work is.**

* What the notation sees in the bits of a finite number is canonical (`canonical_of_ofBits`), and
  where the number below is only half as far away is told by its significand and exponent
  (`closeBelow_of_ofBits`).
* Arithmetic works on bit vectors, and the notation on a whole number. Section 2 says what each of
  the three fields is as a number, by division and remainder, so that section 3 is arithmetic on
  naturals.
* Taking the same bits apart in both ways gives the same (`unpack_of_ofBits`), and a canonical
  number that is packed is found again in both ways (`ofBits_pack`, `unpack_pack`). A significand
  without its leading bit belongs to the exponent field zero; that is the one case that is
  different, and it is a case in each of the proofs.
-/

set_option autoImplicit false

namespace Photoplot.Decimal

open Float.Model (Format UnpackedFloat)
open Float.Model.UnpackedFloat

/-! ## 1. Canonical numbers -/

/-- **Canonical numbers.** `m * 2 ^ e` as binary64 holds it: with 53 significant bits, or with fewer
at the least exponent. -/
structure Canonical (m : Nat) (e : Int) : Prop where
  pos : 0 < m
  lt : m < 2 ^ 53
  least : -1074 ≤ e
  greatest : e ≤ 971
  normal : 2 ^ 52 ≤ m ∨ e = -1074

/-- What a significand and an exponent look like before they are packed: canonical, but for the
greatest exponent. -/
structure Cut (m : Nat) (e : Int) : Prop where
  pos : 0 < m
  lt : m < 2 ^ 53
  least : -1074 ≤ e
  normal : 2 ^ 52 ≤ m ∨ e = -1074

theorem Canonical.cut {m : Nat} {e : Int} (h : Canonical m e) : Cut m e :=
  ⟨h.pos, h.lt, h.least, h.normal⟩

/-- The two layouts of a finite nonzero number: without the implicit bit at the least exponent, with
it above. -/
theorem ofBits_eq_finite {bits : Nat} {negative : Bool} {size : Magnitude}
    (h : Binary64.ofBits bits = .finite negative size) :
    negative = (bits / 2 ^ 63 % 2 == 1) ∧ bits / 2 ^ 52 % 2 ^ 11 ≠ 2047 ∧
      ((bits / 2 ^ 52 % 2 ^ 11 = 0 ∧ bits % 2 ^ 52 ≠ 0 ∧ size = ⟨bits % 2 ^ 52, -1074, false⟩) ∨
        (bits / 2 ^ 52 % 2 ^ 11 ≠ 0 ∧
          size = ⟨2 ^ 52 + bits % 2 ^ 52, (bits / 2 ^ 52 % 2 ^ 11 : Nat) - 1075,
            bits % 2 ^ 52 == 0 && bits / 2 ^ 52 % 2 ^ 11 != 1⟩)) := by
  simp only [Binary64.ofBits, Nat.pow_eq] at h
  split at h
  · split at h <;> cases h
  · rename_i htop
    refine ⟨?_, htop, ?_⟩
    · split at h
      · split at h <;> cases h
        rfl
      · cases h
        rfl
    · split at h
      · rename_i hscale
        split at h
        · cases h
        · rename_i hfraction
          cases h
          exact Or.inl ⟨hscale, hfraction, rfl⟩
      · rename_i hscale
        cases h
        exact Or.inr ⟨hscale, rfl⟩

/-- **What the notation sees is canonical.** The exponent field bounds the exponent, and with it
comes the leading bit. -/
theorem canonical_of_ofBits {bits : Nat} {negative : Bool} {size : Magnitude}
    (h : Binary64.ofBits bits = .finite negative size) :
    Canonical size.significand size.exponent := by
  obtain ⟨-, htop, ⟨hscale, hfraction, rfl⟩ | ⟨hscale, rfl⟩⟩ := ofBits_eq_finite h
  · constructor <;> dsimp only <;> omega
  · constructor <;> dsimp only <;> omega

/-- The number below is half as far away at powers of two, unless the exponent is the least already.
-/
theorem closeBelow_of_ofBits {bits : Nat} {negative : Bool} {size : Magnitude}
    (h : Binary64.ofBits bits = .finite negative size) :
    size.closeBelow = true ↔ size.significand = 2 ^ 52 ∧ size.exponent ≠ -1074 := by
  obtain ⟨-, htop, ⟨hscale, hfraction, rfl⟩ | ⟨hscale, rfl⟩⟩ := ofBits_eq_finite h
  · simp
  · simp
    omega

/-! ## 2. The fields of a bit pattern -/

/-- The three fields stand next to each other. -/
theorem toNat_packComponents (s : Sign) (e : BitVec 11) (m : BitVec 52) :
    (packComponents Format.binary64 s e m).toNat
      = s.toBitVec.toNat * 2 ^ 63 + e.toNat * 2 ^ 52 + m.toNat := by
  have he := e.isLt
  have hm := m.isLt
  show (s.toBitVec ++ e ++ m).toNat = _
  rw [BitVec.toNat_append, ← Nat.shiftLeft_add_eq_or_of_lt hm, BitVec.toNat_append,
    ← Nat.shiftLeft_add_eq_or_of_lt he, Nat.shiftLeft_eq, Nat.shiftLeft_eq]
  omega

theorem toNat_unpackMantissa (b : BitVec 64) :
    (@unpackMantissa Format.binary64 b).toNat = b.toNat % 2 ^ 52 := by
  simp [unpackMantissa]

theorem toNat_unpackExponent (b : BitVec 64) :
    (@unpackExponent Format.binary64 b).toNat = b.toNat / 2 ^ 52 % 2 ^ 11 := by
  simp [unpackExponent, Nat.shiftRight_eq_div_pow]

theorem toNat_unpackSign (b : BitVec 64) :
    (@unpackSign Format.binary64 b).toNat = b.toNat / 2 ^ 63 % 2 := by
  simp [unpackSign, Nat.shiftRight_eq_div_pow]

/-- The sign of a number that is negative or not. -/
def signOf (negative : Bool) : Sign :=
  if negative then .negative else .positive

theorem toNat_toBitVec_signOf (negative : Bool) :
    (signOf negative).toBitVec.toNat = negative.toNat := by
  cases negative <;> rfl

theorem ofBitVec_eq_signOf (b : BitVec 1) : Sign.ofBitVec b = signOf (b.toNat == 1) := by
  have hbit : ∀ b : BitVec 1, b = 0#1 ∨ b = 1#1 := by decide
  rcases hbit b with rfl | rfl <;> rfl

/-! ## 3. Packing and unpacking -/

theorem finite_congr {s : Sign} {m m' : Nat} {e e' : Int} {h : 0 < m} {h' : 0 < m'} (hm : m = m')
    (he : e = e') : UnpackedFloat.finite s m e h = .finite s m' e' h' := by
  subst hm he
  rfl

/-- **Both see the same**, where the number is finite and not zero. -/
theorem unpack_of_ofBits {b : BitVec 64} {negative : Bool} {size : Magnitude}
    (h : Binary64.ofBits b.toNat = .finite negative size) :
    UnpackedFloat.unpack Format.binary64 b
      = .finite (signOf negative) size.significand size.exponent (canonical_of_ofBits h).pos := by
  have hF := toNat_unpackMantissa b
  have hE := toNat_unpackExponent b
  have hS : Sign.ofBitVec (@unpackSign Format.binary64 b)
      = signOf (b.toNat / 2 ^ 63 % 2 == 1) := by
    rw [ofBitVec_eq_signOf, toNat_unpackSign]
  obtain ⟨hneg, htop, hlayout⟩ := ofBits_eq_finite h
  have hfinite : @unpackExponent Format.binary64 b ≠ -1#11 := by
    intro hall
    rw [hall] at hE
    exact htop hE.symm
  have hbias : ((Format.binary64.exponentBias : Int) + Format.binary64.mantissaBitsWithoutImplicit)
      = 1075 := rfl
  subst hneg
  obtain ⟨hscale, hfraction, rfl⟩ | ⟨hscale, rfl⟩ := hlayout
  · -- without the implicit bit the fraction is all there is
    have hE0 : @unpackExponent Format.binary64 b = 0#11 := by
      rw [← BitVec.toNat_inj, hE, hscale]
      rfl
    have hF0 : @unpackMantissa Format.binary64 b ≠ 0#52 := by
      rw [Ne, ← BitVec.toNat_inj, hF]
      exact hfraction
    simp only [UnpackedFloat.unpack, if_neg hfinite, if_pos hE0, dif_neg hF0, hS]
    refine finite_congr hF ?_
    rw [hE, hscale, hbias]
    rfl
  · have hE0 : @unpackExponent Format.binary64 b ≠ 0#11 := by
      rw [Ne, ← BitVec.toNat_inj, hE]
      exact hscale
    simp only [UnpackedFloat.unpack, if_neg hfinite, if_neg hE0, hS]
    refine finite_congr ?_ ?_
    · rw [BitVec.toNat_append, ← Nat.shiftLeft_add_eq_or_of_lt (BitVec.isLt _), hF]
      rfl
    · rw [hE, hbias]

/-- The bits of a canonical number, as a whole number. -/
theorem toNat_pack {s : Sign} {m : Nat} {e : Int} (h : Canonical m e) :
    (UnpackedFloat.pack Format.binary64 (.finite s m e h.pos)).toNat
      = s.toBitVec.toNat * 2 ^ 63 + (if 2 ^ 52 ≤ m then (e + 1075).toNat else 0) * 2 ^ 52
        + m % 2 ^ 52 := by
  have hscale : e + Format.binary64.exponentBias + Format.binary64.mantissaBitsWithoutImplicit
      = e + 1075 := by
    rw [Int.add_assoc]
    rfl
  obtain ⟨hpos, hlt, hleast, hgreatest, hnormal⟩ := h
  have hfits : ¬2 ^ Format.binary64.exponentBits ≤ (e + 1075).toNat + 1 := by
    simp only
    omega
  simp only [UnpackedFloat.pack, hscale, if_neg hfits]
  -- whether the implicit bit is there is whether the significand has 53 bits
  by_cases hm : 2 ^ 52 ≤ m
  · have hlog : m.log2 + 1 = Format.binary64.mantissaBits := by
      have := (Nat.le_log2 (by omega)).2 hm
      have := (Nat.log2_lt (by omega)).2 hlt
      simp only [Format.mantissaBits]
      omega
    rw [if_pos hlog, if_pos hm, toNat_packComponents, BitVec.toNat_ofNat, BitVec.toNat_ofNat,
      Nat.mod_eq_of_lt (by omega : (e + 1075).toNat < 2 ^ 11)]
  · have hlog : m.log2 + 1 ≠ Format.binary64.mantissaBits := by
      have := (Nat.log2_lt (by omega)).2 (by omega : m < 2 ^ 52)
      simp only [Format.mantissaBits]
      omega
    rw [if_neg hlog, if_neg hm, toNat_packComponents, BitVec.toNat_ofNat, BitVec.toNat_ofNat]

/-- Taking the bits of a canonical number apart gives the number back. -/
theorem ofBits_pack {negative : Bool} {m : Nat} {e : Int} (h : Canonical m e) :
    ∃ closeBelow, Binary64.ofBits
        (UnpackedFloat.pack Format.binary64 (.finite (signOf negative) m e h.pos)).toNat
      = .finite negative ⟨m, e, closeBelow⟩ := by
  have hbits := @toNat_pack (signOf negative) m e h
  rw [toNat_toBitVec_signOf] at hbits
  obtain ⟨hpos, hlt, hleast, hgreatest, hnormal⟩ := h
  have hsign : ∀ n : Nat, n / 2 ^ 63 % 2 = negative.toNat → (n / 2 ^ 63 % 2 == 1) = negative := by
    intro n hn
    rw [hn]
    cases negative <;> rfl
  have hnegative : negative.toNat < 2 := Bool.toNat_lt negative
  -- the fields are read off the sum, so the pattern may be any number from here on
  generalize (UnpackedFloat.pack Format.binary64 _).toNat = bits at hbits ⊢
  rw [Binary64.ofBits]
  simp only [Nat.pow_eq]
  by_cases hm : 2 ^ 52 ≤ m
  · rw [if_pos hm] at hbits
    rw [hsign bits (by omega), if_neg (by omega), if_neg (by omega)]
    refine ⟨bits % 2 ^ 52 == 0 && bits / 2 ^ 52 % 2 ^ 11 != 1, ?_⟩
    congr 2 <;> omega
  · rw [if_neg hm] at hbits
    rw [hsign bits (by omega), if_neg (by omega), if_pos (by omega), if_neg (by omega)]
    refine ⟨false, ?_⟩
    congr 2 <;> omega

/-- Unpacking a canonical number that has been packed gives the number back. -/
theorem unpack_pack {negative : Bool} {m : Nat} {e : Int} (h : Canonical m e) :
    (Float.Model.pack (.finite (signOf negative) m e h.pos)).unpack
      = .finite (signOf negative) m e h.pos := by
  obtain ⟨closeBelow, hparts⟩ := @ofBits_pack negative m e h
  exact unpack_of_ofBits hparts

end Photoplot.Decimal
