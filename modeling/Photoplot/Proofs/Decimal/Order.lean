import Photoplot.Proofs.Decimal.Parts

/-!
The order of binary64 numbers.

Behind the sign, the bits of a number are a whole number that grows with it: the exponent stands
before the significand. So every number has a `rank`, and numbers are in the order of their ranks.
Ties are what make this worth saying: the two zeros have one rank, and only they do.

**What is proved, and where the work is.**

* Comparison is defined by cases on signs, exponents and significands. `Ranked` relates what it sees
  of a number to the rank, in three cases without the one that is no number, and `Ranked.compare_eq`
  says once that comparing is comparing ranks. All of `<`, `≤` and `==` are read off that.
* The case with work in it is that of two canonical numbers (`compare_sizeRank`): the one with the
  greater exponent has 53 bits and is the greater one, whatever the significands are.
* What is no number has no place in the order, is neither less than anything nor anything less than
  it (`not_lt_of_isNaN`), and there is one such number only (`eq_of_isNaN`).
* Equal ranks mean equal numbers, but for the zeros (`eq_of_rank_eq`). Where boxes are put together
  this decides whether the order of the points matters.
* Section 3 is about the infinities: they have the extreme ranks, and nothing else does.
-/

set_option autoImplicit false

namespace Photoplot.Decimal

open Float.Model (Format UnpackedFloat)
open Float.Model.UnpackedFloat

/-! ## 1. The rank of a number -/

/-- A whole number with a sign. -/
def withSign (negative : Bool) (n : Int) : Int :=
  if negative then -n else n

/-- The rank of a number among all numbers: its bits behind the sign, read as a whole number, with
the sign. -/
def rank (x : Float) : Int :=
  withSign (x.toBits.toNat / 2 ^ 63 % 2 == 1) (x.toBits.toNat % 2 ^ 63 : Nat)

/-- The rank of a canonical number without its sign. -/
def sizeRank (m : Nat) (e : Int) : Nat :=
  (if 2 ^ 52 ≤ m then (e + 1075).toNat else 0) * 2 ^ 52 + m % 2 ^ 52

/-- The rank of an infinity without its sign. -/
def topRank : Nat := 2047 * 2 ^ 52

theorem topRank_pos : 0 < topRank := by
  rw [topRank]
  omega

/-- The rank of a finite number other than zero: the implicit bit and the bias are added and taken
away again. -/
theorem rank_of_finite {x : Float} {negative : Bool} {size : Magnitude}
    (h : Binary64.ofBits x.toBits.toNat = .finite negative size) :
    rank x = withSign negative (sizeRank size.significand size.exponent) := by
  obtain ⟨rfl, htop, ⟨hscale, hfraction, rfl⟩ | ⟨hscale, rfl⟩⟩ := ofBits_eq_finite h
  · rw [rank, sizeRank]
    dsimp only
    rw [if_neg (by omega)]
    congr 2
    omega
  · rw [rank, sizeRank]
    dsimp only
    rw [if_pos (by omega)]
    congr 2
    omega

/-- What arithmetic sees of the numbers that are there, next to their ranks. -/
inductive Ranked : UnpackedFloat → Int → Prop
  | infinite (negative : Bool) :
    Ranked (.infinity (signOf negative)) (withSign negative topRank)
  | zero (negative : Bool) : Ranked (.zero (signOf negative)) 0
  | finite (negative : Bool) {m : Nat} {e : Int} (h : Canonical m e) :
    Ranked (.finite (signOf negative) m e h.pos) (withSign negative (sizeRank m e))

/-- Every number that is there has its rank. -/
theorem ranked {x : Float} (h : x.isNaN = false) : Ranked x.toModel.unpack (rank x) := by
  have hseen := seen x
  cases hparts : Binary64.ofBits x.toBits.toNat with
  | notANumber =>
    rw [eq_missing hparts] at h
    exact absurd h (by decide)
  | infinite negative =>
    rw [eq_of_infinite hparts]
    cases negative
    · exact Ranked.infinite false
    · exact Ranked.infinite true
  | zero negative =>
    rw [eq_of_zero hparts]
    cases negative
    · exact Ranked.zero false
    · exact Ranked.zero true
  | finite negative size =>
    rw [hparts] at hseen
    rw [rank_of_finite hparts]
    generalize x.toModel.unpack = u at hseen
    cases hseen with
    | finite _ hc => exact Ranked.finite negative hc

theorem sizeRank_pos {m : Nat} {e : Int} (h : Canonical m e) : 0 < sizeRank m e := by
  obtain ⟨hpos, hlt, hleast, hgreatest, hnormal⟩ := h
  rw [sizeRank]
  split <;> omega

theorem sizeRank_lt {m : Nat} {e : Int} (h : Canonical m e) : sizeRank m e < topRank := by
  obtain ⟨hpos, hlt, hleast, hgreatest, hnormal⟩ := h
  rw [sizeRank, topRank]
  split <;> omega

/-! ## 2. Comparing numbers -/

/-- Larger numbers have larger exponents, or else larger significands. -/
theorem compare_sizeRank {m m' : Nat} {e e' : Int} (h : Canonical m e) (h' : Canonical m' e') :
    (compare e e').then (compare m m') = compare (sizeRank m e) (sizeRank m' e') := by
  obtain ⟨hpos, hlt, hleast, hgreatest, hnormal⟩ := h
  obtain ⟨hpos', hlt', hleast', hgreatest', hnormal'⟩ := h'
  rw [sizeRank, sizeRank]
  -- a smaller exponent makes up for any significand, since significands have at most 53 bits
  rcases Int.lt_trichotomy e e' with he | he | he
  · rw [Int.compare_eq_lt.2 he, Ordering.lt_then, eq_comm, Nat.compare_eq_lt]
    split <;> split <;> omega
  · subst he
    rw [Int.compare_eq_eq.2 rfl, Ordering.eq_then]
    rcases Nat.lt_trichotomy m m' with hm | hm | hm
    · rw [Nat.compare_eq_lt.2 hm, eq_comm, Nat.compare_eq_lt]
      split <;> split <;> omega
    · rw [hm]
      simp
    · rw [Nat.compare_eq_gt.2 hm, eq_comm, Nat.compare_eq_gt]
      split <;> split <;> omega
  · rw [Int.compare_eq_gt.2 he, Ordering.gt_then, eq_comm, Nat.compare_eq_gt]
    split <;> split <;> omega

/-- Two finite numbers with signs: the signs decide, and then the sizes, one way round or the other.
-/
theorem compare_finite {negative negative' : Bool} {m m' : Nat} {e e' : Int} (h : Canonical m e)
    (h' : Canonical m' e') :
    UnpackedFloat.compare (.finite (signOf negative) m e h.pos)
        (.finite (signOf negative') m' e' h'.pos)
      = some (compare (withSign negative (sizeRank m e)) (withSign negative' (sizeRank m' e'))) := by
  have hpos := sizeRank_pos h
  have hpos' := sizeRank_pos h'
  have horder := compare_sizeRank h h'
  -- from here on only the order of the ranks and the signs count
  generalize sizeRank m e = r at *
  generalize sizeRank m' e' = r' at *
  have hcast : compare r r' = compare (r : Int) r' := by
    simp [compare, compareOfLessAndEq]
  have hswap : (compare (r : Int) r').swap = compare (-(r : Int)) (-(r' : Int)) := by
    rw [Int.compare_swap]
    simp [compare, compareOfLessAndEq, eq_comm]
  have hgt : compare (r : Int) (-(r' : Int)) = .gt := Int.compare_eq_gt.2 (by omega)
  have hlt : compare (-(r : Int)) (r' : Int) = .lt := Int.compare_eq_lt.2 (by omega)
  cases negative <;> cases negative' <;>
    simp only [signOf, withSign, UnpackedFloat.compare, horder, hcast, hswap, hgt, hlt, if_true,
      Bool.false_eq_true, if_false]

/-- **The order.** Numbers compare as their ranks do; the two zeros have the same rank. -/
theorem Ranked.compare_eq {a b : UnpackedFloat} {i j : Int} (ha : Ranked a i) (hb : Ranked b j) :
    a.compare b = some (compare i j) := by
  have hlt : ∀ {i j : Int}, i < j → some Ordering.lt = some (compare i j) := by
    intro i j h
    rw [Int.compare_eq_lt.2 h]
  have hgt : ∀ {i j : Int}, j < i → some Ordering.gt = some (compare i j) := by
    intro i j h
    rw [Int.compare_eq_gt.2 h]
  have htop := topRank_pos
  -- a rank with no sign lies between zero and the top; `omega` is kept from computing with it
  cases ha with
  | infinite negative =>
    cases hb with
    | infinite negative' => cases negative <;> cases negative' <;> rfl
    | zero negative' =>
      generalize topRank = top at *
      cases negative
      · exact hgt (by simp [withSign]; omega)
      · exact hlt (by simp [withSign]; omega)
    | finite negative' h' =>
      have hsize := sizeRank_lt h'
      generalize topRank = top at *
      generalize sizeRank _ _ = r at *
      cases negative
      · exact hgt (by cases negative' <;> simp [withSign] <;> omega)
      · exact hlt (by cases negative' <;> simp [withSign] <;> omega)
  | zero negative =>
    cases hb with
    | infinite negative' =>
      generalize topRank = top at *
      cases negative'
      · exact hlt (by simp [withSign]; omega)
      · exact hgt (by simp [withSign]; omega)
    | zero negative' => rfl
    | finite negative' h' =>
      have hpos := sizeRank_pos h'
      generalize sizeRank _ _ = r at *
      cases negative'
      · exact hlt (by simp [withSign]; omega)
      · exact hgt (by simp [withSign]; omega)
  | finite negative h =>
    have hpos := sizeRank_pos h
    have hsize := sizeRank_lt h
    cases hb with
    | infinite negative' =>
      generalize topRank = top at *
      generalize sizeRank _ _ = r at *
      cases negative'
      · exact hlt (by cases negative <;> simp [withSign] <;> omega)
      · exact hgt (by cases negative <;> simp [withSign] <;> omega)
    | zero negative' =>
      generalize sizeRank _ _ = r at *
      cases negative
      · exact hgt (by simp [withSign]; omega)
      · exact hlt (by simp [withSign]; omega)
    | finite negative' h' => exact compare_finite h h'

/-- **Less than.** -/
theorem lt_iff_rank {x y : Float} (hx : x.isNaN = false) (hy : y.isNaN = false) :
    x < y ↔ rank x < rank y := by
  show decide ((x.toModel.unpack.compare y.toModel.unpack == some .lt) = true) = true ↔ _
  rw [decide_eq_true_iff, (ranked hx).compare_eq (ranked hy), beq_iff_eq, Option.some.injEq,
    Int.compare_eq_lt]

/-- **Less than or equal.** -/
theorem le_iff_rank {x y : Float} (hx : x.isNaN = false) (hy : y.isNaN = false) :
    x ≤ y ↔ rank x ≤ rank y := by
  show decide ((x.toModel.unpack.compare y.toModel.unpack).any Ordering.isLE = true) = true ↔ _
  rw [decide_eq_true_iff, (ranked hx).compare_eq (ranked hy), Option.any_some, Int.isLE_compare]

/-- **Equal in a comparison**, which the two zeros are. -/
theorem beq_iff_rank {x y : Float} (hx : x.isNaN = false) (hy : y.isNaN = false) :
    (x == y) = true ↔ rank x = rank y := by
  show (x.toModel.unpack.compare y.toModel.unpack == some .eq) = true ↔ _
  rw [(ranked hx).compare_eq (ranked hy), beq_iff_eq, Option.some.injEq, Int.compare_eq_eq]

theorem beq_of_le_of_le {x y : Float} (hx : x.isNaN = false) (hy : y.isNaN = false) (h : x ≤ y)
    (h' : y ≤ x) : (x == y) = true := by
  rw [beq_iff_rank hx hy]
  exact Int.le_antisymm ((le_iff_rank hx hy).1 h) ((le_iff_rank hy hx).1 h')

/-- Reading bits leaves one of all that are no number. -/
theorem eq_of_isNaN {x y : Float} (hx : x.isNaN = true) (hy : y.isNaN = true) : x = y := by
  rw [Float.isNaN_eq_decide_eq_nan, decide_eq_true_iff] at hx hy
  rw [hx, hy]

/-- A missing number is not before any other. -/
theorem not_lt_of_isNaN {x y : Float} (hx : x.isNaN = true) : ¬x < y ∧ ¬y < x := by
  have hunpack : x.toModel.unpack = .notANumber := UnpackedFloat.isNaN_iff.1 hx
  constructor
  · show ¬decide (x.toModel.unpack.lt y.toModel.unpack = true) = true
    rw [hunpack, decide_eq_true_iff]
    simp [UnpackedFloat.lt, UnpackedFloat.compare]
  · show ¬decide (y.toModel.unpack.lt x.toModel.unpack = true) = true
    rw [hunpack, decide_eq_true_iff]
    cases y.toModel.unpack <;> simp [UnpackedFloat.lt, UnpackedFloat.compare]

/-- Numbers of equal rank are equal, but for the sign of a zero. -/
theorem eq_of_rank_eq {x y : Float} (hx : x ≠ -0.0) (hy : y ≠ -0.0) (h : rank x = rank y) :
    x = y := by
  have hbits : ∀ y z : Float, y.toBits.toNat = z.toBits.toNat → y = z := by
    intro y z hyz
    exact Float.toBits_inj.1 (UInt64.toNat_inj.1 hyz)
  -- the negative zero is the one number whose bits behind the sign do not tell it from another
  have hnegative : ∀ z : Float, z ≠ -0.0 → z.toBits.toNat ≠ 2 ^ 63 := by
    intro z hz heq
    exact hz (hbits z (-0.0) heq)
  have hx' := hnegative x hx
  have hy' := hnegative y hy
  have hxlt := x.toBits.toNat_lt
  have hylt := y.toBits.toNat_lt
  apply hbits
  rw [rank, rank, withSign, withSign] at h
  simp only [beq_iff_eq] at h
  split at h <;> split at h <;> omega

/-! ## 3. The ends of the order -/

theorem rank_infinity : rank infinity = topRank := rfl

theorem rank_negative_infinity : rank (-infinity) = -topRank := rfl

theorem Ranked.natAbs_le {a : UnpackedFloat} {i : Int} (h : Ranked a i) : i.natAbs ≤ topRank := by
  cases h with
  | infinite negative => cases negative <;> simp [withSign]
  | zero => exact Nat.zero_le _
  | finite negative h =>
    have hlt := sizeRank_lt h
    cases negative <;> simp [withSign] <;> omega

theorem rank_le_infinity {x : Float} (hx : x.isNaN = false) : rank x ≤ rank infinity := by
  have hle := (ranked hx).natAbs_le
  rw [rank_infinity]
  omega

theorem negative_infinity_le_rank {x : Float} (hx : x.isNaN = false) :
    rank (-infinity) ≤ rank x := by
  have hle := (ranked hx).natAbs_le
  rw [rank_negative_infinity]
  omega

/-- The rank is the number, but for zeros. -/
theorem eq_of_rank_ne_zero {x y : Float} (h : rank x = rank y) (hy : rank y ≠ 0) : x = y := by
  apply eq_of_rank_eq
  · rintro rfl
    exact hy (h.symm.trans rfl)
  · rintro rfl
    exact hy rfl
  · exact h

theorem eq_infinity_of_rank {x : Float} (h : rank x = rank infinity) : x = infinity := by
  have htop := topRank_pos
  apply eq_of_rank_ne_zero h
  rw [rank_infinity]
  omega

theorem eq_negative_infinity_of_rank {x : Float} (h : rank x = rank (-infinity)) :
    x = -infinity := by
  have htop := topRank_pos
  apply eq_of_rank_ne_zero h
  rw [rank_negative_infinity]
  omega

end Photoplot.Decimal
