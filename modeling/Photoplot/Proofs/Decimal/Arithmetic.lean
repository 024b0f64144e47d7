import Photoplot.Proofs.Decimal.Nearest

/-!
The operations on finite numbers, one statement for each.

`RoundsTo q z` says what there is to know of a number `z` that a rational `q` is rounded to: when it
is finite, and that no other number lies between the two. Sums and differences round their exact
values, and so do products and quotients as long as the last place of the result is one that
binary64 has. What is not finite never becomes finite again by adding or dividing.

**What is proved, and where the work is.**

* The first half of `RoundsTo` is about the upper end. Rounding has no limit of its own: it yields a
  point of a grid, and only packing turns a point that is too large into an infinity. So a result is
  finite if and only if the point of the grid stays below the top, and that is the case if and only
  if the rational does (`OnGrid.lt_top_iff`); the limit lies half a place below the top, where a tie
  would go up. `roundsTo_of_rounded` is where all of this comes together, and each operation is a
  use of it.
* Numbers of this size are never computed. All estimates are in multiples of `halfPlace`, which is
  half the last place of the greatest numbers, and their factors are small.
* A sum is exact before it is rounded, at the lesser of the two exponents, and so a difference is
  one as well. A product may have too many bits, and then needs a last place that is not below the
  least one: hence the conditions of `roundsTo_mul` and `roundsTo_div`, which are stated with
  `AwayFromZero`.
* Section 4 goes the other way: an operation on what is not finite gives nothing finite. For
  quotients this holds of the dividend alone, since a number divided by an infinity is zero.
-/

set_option autoImplicit false

namespace Photoplot.Decimal

open Float.Model (Format UnpackedFloat)
open Float.Model.UnpackedFloat

/-! ## 1. Rounding to a number -/

/-- Half of the last place that the greatest finite numbers have. Arithmetic is not to compute with
its digits. -/
@[irreducible]
def halfPlace : ℚ := 2 ^ (970 : ℤ)

/-- The least size that is rounded to an infinity: the greatest finite number and half of its last
place. -/
def overflow : ℚ := (2 ^ 54 - 1) * halfPlace

theorem halfPlace_pos : 0 < halfPlace := by
  unfold halfPlace
  exact two_zpow_pos 970

theorem two_zpow_eq_halfPlace {e : ℤ} (n : ℕ) (h : e = n + 970) :
    (2 : ℚ) ^ e = 2 ^ n * halfPlace := by
  rw [h, zpow_add₀ (by norm_num), zpow_natCast, halfPlace]

/-- **Rounding.** The number is finite if and only if the rational is not too large, and then
rounding has not gone past any number. -/
structure RoundsTo (q : ℚ) (z : Float) : Prop where
  isFinite_iff : z.isFinite = true ↔ |q| < overflow
  adjacent : z.isFinite = true → Adjacent q (exact z)

/-- Rounding keeps between two numbers of the same size and opposite signs. -/
theorem RoundsTo.abs_exact_le {q v : ℚ} {z : Float} (h : RoundsTo q z) (hz : z.isFinite = true)
    (hv : Representable v) (hq : |q| ≤ v) : |exact z| ≤ v := by
  obtain ⟨hge, hle⟩ := abs_le.1 hq
  exact abs_le.2 ⟨(h.adjacent hz).ge_of_ge (-v) hv.neg hge, (h.adjacent hz).le_of_le v hv hle⟩

/-- The last point of the topmost grid is the first one that is too large. The point before it is
odd, so not even a tie belongs to it. -/
theorem lt_top_iff_of_place {x place : ℚ} {k : ℕ} (hplace : 0 < place)
    (hbelow : (k - 1 / 2) * (2 * place) ≤ x) (habove : x ≤ (k + 1 / 2) * (2 * place))
    (hodd : k % 2 = 1 → x < (k + 1 / 2) * (2 * place)) :
    k * (2 * place) < 2 ^ 54 * place ↔ x < (2 ^ 54 - 1) * place := by
  constructor
  · intro hlt
    have hk : (k : ℚ) < 2 ^ 53 := by nlinarith
    have hk' : k < 2 ^ 53 := by
      exact_mod_cast hk
    obtain hlast | hearlier : k = 2 ^ 53 - 1 ∨ k + 1 ≤ 2 ^ 53 - 1 := by omega
    · have hless := hodd (by rw [hlast]; decide)
      have hcast : (k : ℚ) = 2 ^ 53 - 1 := by
        rw [hlast]
        norm_num
      rw [hcast] at hless
      linarith
    · have hcast : (k : ℚ) + 1 ≤ 2 ^ 53 - 1 := by
        have hcast' : ((k + 1 : ℕ) : ℚ) ≤ ((2 ^ 53 - 1 : ℕ) : ℚ) := by
          exact_mod_cast hearlier
        norm_num at hcast' ⊢
        linarith
      nlinarith
  · intro hlt
    nlinarith

/-- **The limit.** What is rounded reaches the top exactly when it is not below the limit. A tie at
the limit goes up, since the top is even. -/
theorem OnGrid.lt_top_iff {x : ℚ} {k : ℕ} {t : ℤ} (h : OnGrid x k t) :
    (k : ℚ) * 2 ^ t < 2 ^ 54 * halfPlace ↔ x < overflow := by
  have ht := two_zpow_pos t
  have hplace := halfPlace_pos
  rw [overflow]
  rcases lt_trichotomy t 971 with hless | rfl | hmore
  · -- all of the grid lies below the limit
    have hgrid : (2 : ℚ) ^ t ≤ halfPlace := by
      unfold halfPlace
      exact zpow_le_zpow_right₀ (by norm_num) (by omega)
    have hx := h.room
    rw [div_lt_iff₀ ht] at hx
    have hk : (k : ℚ) ≤ 2 ^ 53 := by
      exact_mod_cast h.k_le
    have hk' : (k : ℚ) * 2 ^ t ≤ 2 ^ 53 * 2 ^ t := by gcongr
    constructor <;> intro _ <;> linarith
  · have hgrid : (2 : ℚ) ^ (971 : ℤ) = 2 * halfPlace :=
      (two_zpow_eq_halfPlace 1 rfl).trans (by rw [pow_one])
    have hbelow := h.below
    have habove := h.above
    rw [le_div_iff₀ ht, hgrid] at hbelow
    rw [div_le_iff₀ ht, hgrid] at habove
    rw [hgrid]
    apply lt_top_iff_of_place hplace hbelow habove
    intro hodd
    have hless := (h.odd hodd).2
    rwa [div_lt_iff₀ ht, hgrid] at hless
  · -- all of the grid that is close to the real lies beyond the limit
    have hbottom : t ≠ -1074 := by omega
    have hgrid : 2 ^ 2 * halfPlace ≤ 2 ^ t := by
      rw [← two_zpow_eq_halfPlace (e := 972) 2 rfl]
      exact zpow_le_zpow_right₀ (by norm_num) (by omega)
    have hk : (2 : ℚ) ^ 52 ≤ k := by
      exact_mod_cast h.le_k hbottom
    have hk' : (2 : ℚ) ^ 52 * 2 ^ t ≤ k * 2 ^ t := by gcongr
    have hdense := h.dense.resolve_right hbottom
    rw [le_div_iff₀ ht] at hdense
    constructor <;> intro _ <;> linarith

/-- What a number is read back as decides whether it is finite, and what it is worth. -/
theorem isFinite_of_model {z : Float} {u v : UnpackedFloat} (hz : z.toModel = .pack u)
    (hv : (Float.Model.pack u).unpack = v) : z.isFinite = v.isFinite ∧ exact z = value v := by
  constructor
  · show z.toModel.unpack.isFinite = _
    rw [hz, hv]
  · rw [exact_eq_value, hz, hv]

/-- The greatest finite number. -/
theorem Proper.abs_value_le {u : UnpackedFloat} (h : Proper u) :
    |value u| ≤ (2 ^ 54 - 2) * halfPlace := by
  have hplace := halfPlace_pos
  cases h with
  | zero s =>
    have hvalue : value (.zero s) = 0 := rfl
    rw [hvalue, abs_zero]
    exact mul_nonneg (by norm_num) hplace.le
  | @finite s m e hc =>
    have he : (2 : ℚ) ^ e ≤ 2 ^ 1 * halfPlace := by
      rw [← two_zpow_eq_halfPlace (e := 971) 1 rfl]
      exact zpow_le_zpow_right₀ (by norm_num) hc.greatest
    have hm : (m : ℚ) ≤ 2 ^ 53 - 1 := by
      have : (m : ℚ) + 1 ≤ 2 ^ 53 := by
        exact_mod_cast hc.lt
      linarith
    have hpos := two_zpow_pos e
    have habs : |value (.finite s m e hc.pos)| = m * 2 ^ e := abs_signedValue s (by positivity)
    rw [habs]
    calc (m : ℚ) * 2 ^ e ≤ (2 ^ 53 - 1) * 2 ^ e := by gcongr
      _ ≤ (2 ^ 53 - 1) * (2 ^ 1 * halfPlace) := mul_le_mul_of_nonneg_left he (by norm_num)
      _ = (2 ^ 54 - 2) * halfPlace := by ring

theorem abs_exact_le {x : Float} (hx : x.isFinite = true) :
    |exact x| ≤ (2 ^ 54 - 2) * halfPlace := by
  rw [exact_eq_value]
  exact (proper_of_isFinite hx).abs_value_le

/-- A number that is packed as it is stands for its value. -/
theorem roundsTo_of_proper {z : Float} {u : UnpackedFloat} (hz : z.toModel = .pack u)
    (hu : Proper u) : RoundsTo (value u) z := by
  obtain ⟨hfinite, hexact⟩ := isFinite_of_model hz hu.unpack_pack
  have hsmall : |value u| < overflow := by
    rw [overflow]
    linarith [hu.abs_value_le, halfPlace_pos]
  constructor
  · rw [hfinite]
    exact iff_of_true hu.isFinite hsmall
  · intro _
    rw [hexact]
    exact Adjacent.refl _

/-- **What is rounded is packed.** A result of rounding stands for what was rounded. -/
theorem roundsTo_of_rounded {z : Float} {u : UnpackedFloat} (hz : z.toModel = .pack u) {s : Sign}
    {x : ℚ} {k : ℕ} {t : ℤ} (hx : 0 ≤ x) (hgrid : OnGrid x k t) (hu : Rounded s k t u) :
    RoundsTo (signedValue s x) z := by
  have hadjacent := (hgrid.adjacent hx).signedValue s
  have hlimit : |signedValue s x| < overflow ↔ (k : ℚ) * 2 ^ t < 2 ^ 54 * halfPlace := by
    rw [abs_signedValue s hx, hgrid.lt_top_iff]
  cases hu with
  | zero hk =>
    obtain ⟨hfinite, hexact⟩ := isFinite_of_model hz (Proper.zero s).unpack_pack
    have hvalue : value (.zero s) = signedValue s (k * 2 ^ t) := by
      rw [hk]
      cases s <;> simp [value, signedValue]
    rw [hvalue] at hexact
    rw [← hexact] at hadjacent
    refine ⟨?_, fun _ => hadjacent⟩
    rw [hfinite, hlimit, hk, Nat.cast_zero, zero_mul]
    apply iff_of_true rfl
    exact mul_pos (by norm_num) halfPlace_pos
  | @finite m e hc hvalue =>
    rw [← hvalue] at hadjacent hlimit
    have he := two_zpow_pos e
    obtain hinfinite | ⟨hcanonical, hkept⟩ := unpack_pack_cut s hc
    · obtain ⟨hfinite, -⟩ := isFinite_of_model hz hinfinite
      -- were it not too large, it would have been kept
      have hlarge : 972 ≤ e := by
        by_contra hsmall
        have hcanonical : Canonical m e := ⟨hc.pos, hc.lt, hc.least, by omega, hc.normal⟩
        have := (Proper.finite s hcanonical).unpack_pack
        rw [hinfinite] at this
        cases this
      have hm : (2 : ℚ) ^ 52 ≤ m := by
        exact_mod_cast hc.normal.resolve_right (by omega)
      have hgrid : 2 ^ 2 * halfPlace ≤ 2 ^ e := by
        rw [← two_zpow_eq_halfPlace (e := 972) 2 rfl]
        exact zpow_le_zpow_right₀ (by norm_num) hlarge
      have hge : 2 ^ 54 * halfPlace ≤ m * 2 ^ e := by
        calc 2 ^ 54 * halfPlace = 2 ^ 52 * (2 ^ 2 * halfPlace) := by ring
          _ ≤ 2 ^ 52 * 2 ^ e := by gcongr
          _ ≤ m * 2 ^ e := by gcongr
      have hnot : ¬z.isFinite = true := by
        rw [hfinite]
        exact Bool.false_ne_true
      refine ⟨iff_of_false hnot ?_, fun h => absurd h hnot⟩
      rw [hlimit]
      exact hge.not_gt
    · obtain ⟨hfinite, hexact⟩ := isFinite_of_model hz hkept
      rw [show signedValue s (m * 2 ^ e) = exact z from hexact.symm] at hadjacent
      refine ⟨?_, fun _ => hadjacent⟩
      rw [hfinite, hlimit]
      apply iff_of_true rfl
      have hm : (m : ℚ) < 2 ^ 53 := by
        exact_mod_cast hc.lt
      have hgrid : (2 : ℚ) ^ e ≤ 2 ^ 1 * halfPlace := by
        rw [← two_zpow_eq_halfPlace (e := 971) 1 rfl]
        exact zpow_le_zpow_right₀ (by norm_num) hcanonical.greatest
      calc (m : ℚ) * 2 ^ e < 2 ^ 53 * 2 ^ e := mul_lt_mul_of_pos_right hm he
        _ ≤ 2 ^ 53 * (2 ^ 1 * halfPlace) := by gcongr
        _ = 2 ^ 54 * halfPlace := by ring

/-! ## 2. Sums and differences -/

/-- Rounding a whole number times a power of two. -/
theorem rounded_round (s : Sign) {M : ℕ} {E : ℤ} (hM : 0 < M) (hleast : -1074 ≤ E) :
    ∃ (k : ℕ) (t : ℤ), OnGrid (M * 2 ^ E) k t
      ∧ Rounded s k t (UnpackedFloat.round Format.binary64 s M E) := by
  obtain ⟨j, hround, hleast', hprecise⟩ := exists_round s hM hleast
  -- shifting to the left loses nothing
  have hx : (M * 2 ^ E / 2 ^ (E - j) : ℚ) = (M * 2 ^ j : ℕ) := by
    rw [zpow_sub₀ (by norm_num), zpow_natCast]
    push_cast
    field_simp
  rw [hround]
  apply exists_onGrid s _ hleast' hprecise
  rw [hx]
  exact Holds.exact _

/-- The same with a sign, and for zero. -/
theorem roundsTo_of_normalize {z : Float} {M : ℤ} {E : ℤ}
    (hz : z.toModel = .pack (normalize Format.binary64 M E .positive)) (hleast : -1074 ≤ E) :
    RoundsTo (M * 2 ^ E) z := by
  have hE := two_zpow_pos E
  rcases Int.lt_trichotomy M 0 with hM | rfl | hM
  · rw [UnpackedFloat.normalize, Int.compare_eq_lt.2 hM] at hz
    obtain ⟨k, t, hgrid, hrounded⟩ := rounded_round .negative (M := (-M).toNat) (by omega) hleast
    have hvalue : (M * 2 ^ E : ℚ) = signedValue .negative ((-M).toNat * 2 ^ E) := by
      have hcast : (((-M).toNat : ℤ) : ℚ) = -M := by
        rw [Int.toNat_of_nonneg (by omega)]
        push_cast
        rfl
      rw [signedValue, ← Int.cast_natCast, hcast]
      ring
    rw [hvalue]
    exact roundsTo_of_rounded hz (by positivity) hgrid hrounded
  · rw [UnpackedFloat.normalize, Int.compare_eq_eq.2 rfl] at hz
    have hzero : ((0 : ℤ) * 2 ^ E : ℚ) = value (.zero .positive) := by
      rw [Int.cast_zero, zero_mul]
      rfl
    rw [hzero]
    exact roundsTo_of_proper hz (Proper.zero .positive)
  · rw [UnpackedFloat.normalize, Int.compare_eq_gt.2 hM] at hz
    obtain ⟨k, t, hgrid, hrounded⟩ := rounded_round .positive (M := M.toNat) (by omega) hleast
    have hvalue : (M * 2 ^ E : ℚ) = signedValue .positive (M.toNat * 2 ^ E) := by
      have hcast : ((M.toNat : ℤ) : ℚ) = M := by
        rw [Int.toNat_of_nonneg (by omega)]
      rw [signedValue, ← Int.cast_natCast, hcast]
    rw [hvalue]
    exact roundsTo_of_rounded hz (by positivity) hgrid hrounded

/-- A summand that is brought to the common exponent keeps its value. -/
theorem value_decreaseExponent (s : Sign) {m : ℕ} {e E : ℤ} (h : 0 < m) (hE : E ≤ e) :
    (s.apply (decreaseExponent m e E).1 : ℤ) * (2 : ℚ) ^ E = value (.finite s m e h) := by
  have hamount : ((e - E).toNat : ℤ) + E = e := by omega
  have hshift : ((decreaseExponent m e E).1 : ℚ) * 2 ^ E = m * 2 ^ e := by
    rw [decreaseExponent, Nat.shiftLeft_eq]
    push_cast
    rw [mul_assoc, ← zpow_natCast, ← zpow_add₀ (by norm_num), hamount]
  cases s with
  | negative =>
    show ((-((decreaseExponent m e E).1 : ℤ) : ℤ) : ℚ) * 2 ^ E = -(m * 2 ^ e)
    rw [← hshift]
    push_cast
    ring
  | positive =>
    show (((decreaseExponent m e E).1 : ℤ) : ℚ) * 2 ^ E = m * 2 ^ e
    rw [← hshift]
    push_cast
    rfl

theorem add_zeros (s s' : Sign) :
    ∃ s'', UnpackedFloat.add Format.binary64 (.zero s) (.zero s') = .zero s'' := by
  cases s <;> cases s' <;> exact ⟨_, rfl⟩

theorem add_zero_left {s s' : Sign} {m : ℕ} {e : ℤ} (h : 0 < m) :
    UnpackedFloat.add Format.binary64 (.zero s) (.finite s' m e h) = .finite s' m e h := rfl

theorem add_zero_right {s s' : Sign} {m : ℕ} {e : ℤ} (h : 0 < m) :
    UnpackedFloat.add Format.binary64 (.finite s m e h) (.zero s') = .finite s m e h := rfl

/-- **Sums as arithmetic sees them.** A zero leaves the other summand as it is. -/
theorem roundsTo_add_of_proper {a b : UnpackedFloat} (ha : Proper a) (hb : Proper b) {z : Float}
    (hz : z.toModel = .pack (UnpackedFloat.add Format.binary64 a b)) :
    RoundsTo (value a + value b) z := by
  have hzero : ∀ s, value (.zero s) = 0 := fun _ => rfl
  cases ha with
  | zero s =>
    cases hb with
    | zero s' =>
      obtain ⟨s'', hsum⟩ := add_zeros s s'
      rw [hsum] at hz
      rw [hzero s, zero_add, hzero s', ← hzero s'']
      exact roundsTo_of_proper hz (Proper.zero s'')
    | finite s' hc' =>
      rw [add_zero_left] at hz
      rw [hzero s, zero_add]
      exact roundsTo_of_proper hz (Proper.finite s' hc')
  | @finite s m e hc =>
    cases hb with
    | zero s' =>
      rw [add_zero_right] at hz
      rw [hzero s', add_zero]
      exact roundsTo_of_proper hz (Proper.finite s hc)
    | @finite s' m' e' hc' =>
      -- this is the one case in which something is rounded
      have hleast := hc.least
      have hleast' := hc'.least
      rw [← value_decreaseExponent s hc.pos (Int.min_le_left e e'),
        ← value_decreaseExponent s' hc'.pos (Int.min_le_right e e'), ← add_mul, ← Int.cast_add]
      rw [UnpackedFloat.add] at hz
      exact roundsTo_of_normalize hz (by omega)

/-- **Sums.** -/
theorem roundsTo_add {x y : Float} (hx : x.isFinite = true) (hy : y.isFinite = true) :
    RoundsTo (exact x + exact y) (x + y) := by
  rw [exact_eq_value, exact_eq_value]
  exact roundsTo_add_of_proper (proper_of_isFinite hx) (proper_of_isFinite hy) rfl

/-- Subtracting is adding the negative. -/
theorem sub_eq_add (a b : UnpackedFloat) :
    UnpackedFloat.sub Format.binary64 a b
      = UnpackedFloat.add Format.binary64 a (UnpackedFloat.neg b) := by
  cases a with
  | notANumber => rfl
  | infinity s => cases b <;> rfl
  | zero s => cases b <;> rfl
  | finite s m e h =>
    cases b with
    | notANumber | infinity | zero => rfl
    | finite s' m' e' h' =>
      have happly : ∀ (a : ℤ) (n : ℕ), a - s'.apply n = a + (-s').apply n := by
        intro a n
        cases s'
        · exact sub_neg_eq_add a _
        · exact sub_eq_add_neg a _
      rw [UnpackedFloat.sub, UnpackedFloat.neg, UnpackedFloat.add]
      simp only [happly]

/-- **Differences.** -/
theorem roundsTo_sub {x y : Float} (hx : x.isFinite = true) (hy : y.isFinite = true) :
    RoundsTo (exact x - exact y) (x - y) := by
  obtain ⟨hneg, hvalue⟩ := (proper_of_isFinite hy).neg
  rw [exact_eq_value, exact_eq_value, sub_eq_add_neg, ← hvalue]
  apply roundsTo_add_of_proper (proper_of_isFinite hx) hneg
  rw [← sub_eq_add]
  rfl

/-! ## 3. Products and quotients -/

/-- What the arithmetic sees of a number away from zero. -/
theorem AwayFromZero.unpack {least : ℤ} {x : Float} (h : AwayFromZero least x)
    (hx : x.isFinite = true) :
    ∃ (s : Sign) (m : ℕ) (e : ℤ) (hc : Canonical m e),
      x.toModel.unpack = .finite s m e hc.pos ∧ least ≤ e := by
  obtain ⟨s, hunpack⟩ | ⟨s, m, e, hpos, hunpack, he⟩ := h
  · have hfinite : x.toModel.unpack.isFinite = true := hx
    rw [hunpack] at hfinite
    cases hfinite
  · exact ⟨s, m, e, canonical_of_unpack hunpack, hunpack, he⟩

theorem signedValue_mul (s s' : Sign) (x y : ℚ) :
    signedValue s x * signedValue s' y = signedValue (s * s') (x * y) := by
  cases s <;> cases s' <;> simp [signedValue]

/-- **Products**, as long as their last places are. -/
theorem roundsTo_mul {x y : Float} (hx : x.isFinite = true) (hy : y.isFinite = true)
    {least least' : ℤ} (hx' : AwayFromZero least x) (hy' : AwayFromZero least' y)
    (hnormal : -1074 < least) (hsum : -1074 ≤ least + least') :
    RoundsTo (exact x * exact y) (x * y) := by
  obtain ⟨s, m, e, hc, hunpack, he⟩ := hx'.unpack hx
  obtain ⟨s', m', e', hc', hunpack', he'⟩ := hy'.unpack hy
  have hlarge : 2 ^ 52 ≤ m * m' :=
    (hc.normal.resolve_right (by omega)).trans (Nat.le_mul_of_pos_right m hc'.pos)
  have hproduct : (m * 2 ^ e * (m' * 2 ^ e') / 2 ^ (e + e') : ℚ) = (m * m' : ℕ) := by
    rw [zpow_add₀ (by norm_num)]
    push_cast
    field_simp
  have hholds := Holds.exact (m * m')
  rw [← hproduct] at hholds
  obtain ⟨k, t, hgrid, hrounded⟩ := exists_onGrid (s * s') hholds (by omega) (Or.inl hlarge)
  have hz : (x * y).toModel
      = .pack (UnpackedFloat.mul Format.binary64 x.toModel.unpack y.toModel.unpack) := rfl
  rw [hunpack, hunpack', UnpackedFloat.mul] at hz
  rw [exact_eq_value, exact_eq_value, hunpack, hunpack', value, value, signedValue_mul]
  exact roundsTo_of_rounded hz (by positivity) hgrid hrounded

theorem signedValue_div (s s' : Sign) (x y : ℚ) :
    signedValue s x / signedValue s' y = signedValue (s / s') (x / y) := by
  cases s <;> cases s'
  · exact neg_div_neg_eq x y
  · exact neg_div y x
  · exact div_neg x
  · rfl

/-- **Quotients** by a number that has no last place before the point. -/
theorem roundsTo_div {x y : Float} (hx : x.isFinite = true) {s' : Sign} {m' : ℕ} {e' : ℤ}
    (hpos' : 0 < m') (hy : y.toModel.unpack = .finite s' m' e' hpos') (he' : e' ≤ 0) :
    RoundsTo (exact x / exact y) (x / y) := by
  have hz : (x / y).toModel
      = .pack (UnpackedFloat.div Format.binary64 x.toModel.unpack y.toModel.unpack) := rfl
  have hproper := proper_of_isFinite hx
  rw [exact_eq_value, exact_eq_value, hy]
  rw [hy] at hz
  generalize x.toModel.unpack = u at hproper hz
  cases hproper with
  | zero s =>
    rw [UnpackedFloat.div] at hz
    have hvalue : value (.zero s) / value (.finite s' m' e' hpos') = value (.zero (s / s')) :=
      zero_div _
    rw [hvalue]
    exact roundsTo_of_proper hz (Proper.zero (s / s'))
  | @finite s m e hc =>
    have hleast := hc.least
    obtain ⟨M, E, accuracy, hcore, hholds, hleastE, hprecise⟩ :=
      exists_divCore hc.pos hpos' (show -1074 ≤ e - e' by omega)
    obtain ⟨k, t, hgrid, hrounded⟩ := exists_onGrid (s / s') hholds hleastE hprecise
    simp only [UnpackedFloat.div, hcore] at hz
    rw [value, value, signedValue_div]
    exact roundsTo_of_rounded hz (by positivity) hgrid hrounded

/-! ## 4. Finite results have finite operands -/

/-- What is not finite, as arithmetic sees it. -/
inductive Improper : UnpackedFloat → Prop
  | notANumber : Improper .notANumber
  | infinity (s : Sign) : Improper (.infinity s)

theorem improper_of_isFinite {x : Float} (h : x.isFinite = false) : Improper x.toModel.unpack := by
  have hseen := seen x
  change x.toModel.unpack.isFinite = false at h
  generalize Binary64.ofBits x.toBits.toNat = parts at hseen
  generalize x.toModel.unpack = u at hseen h
  cases hseen with
  | notANumber => exact Improper.notANumber
  | infinite negative => exact Improper.infinity _
  | zero | finite => cases h

theorem Improper.isFinite_eq_false {z : Float} {u : UnpackedFloat} (hu : Improper u)
    (hz : z.toModel = .pack u) : z.isFinite = false := by
  cases hu with
  | notANumber => exact (isFinite_of_model hz (v := .notANumber) rfl).1
  | infinity s => exact (isFinite_of_model hz (unpack_pack_infinity s)).1

theorem Improper.add {a b : UnpackedFloat} (h : Improper a ∨ Improper b) :
    Improper (UnpackedFloat.add Format.binary64 a b) := by
  -- infinities of opposite signs are the one pair that does not add up to an infinity
  have hinfinities : ∀ s s',
      Improper (UnpackedFloat.add Format.binary64 (.infinity s) (.infinity s')) := by
    intro s s'
    cases s <;> cases s' <;> constructor
  obtain h | h := h
  · cases h with
    | notANumber => exact Improper.notANumber
    | infinity s =>
      cases b with
      | notANumber => exact Improper.notANumber
      | infinity s' => exact hinfinities s s'
      | zero | finite => exact Improper.infinity s
  · cases h with
    | notANumber => cases a <;> exact Improper.notANumber
    | infinity s =>
      cases a with
      | notANumber => exact Improper.notANumber
      | infinity s' => exact hinfinities s' s
      | zero | finite => exact Improper.infinity s

theorem Improper.neg {a : UnpackedFloat} (h : Improper a) : Improper (UnpackedFloat.neg a) := by
  cases h with
  | notANumber => exact Improper.notANumber
  | infinity s => exact Improper.infinity (-s)

theorem Improper.sub {a b : UnpackedFloat} (h : Improper a ∨ Improper b) :
    Improper (UnpackedFloat.sub Format.binary64 a b) := by
  rw [sub_eq_add]
  exact Improper.add (h.imp_right Improper.neg)

theorem Improper.div {a : UnpackedFloat} (h : Improper a) (b : UnpackedFloat) :
    Improper (UnpackedFloat.div Format.binary64 a b) := by
  cases h with
  | notANumber => exact Improper.notANumber
  | infinity s => cases b <;> constructor

/-- **Sums that are finite.** -/
theorem isFinite_of_add {x y : Float} (h : (x + y).isFinite = true) :
    x.isFinite = true ∧ y.isFinite = true := by
  by_contra hnot
  rw [not_and_or, Bool.not_eq_true, Bool.not_eq_true] at hnot
  have himproper := Improper.add (hnot.imp improper_of_isFinite improper_of_isFinite)
  exact Bool.false_ne_true ((himproper.isFinite_eq_false (z := x + y) rfl).symm.trans h)

/-- **Differences that are finite.** -/
theorem isFinite_of_sub {x y : Float} (h : (x - y).isFinite = true) :
    x.isFinite = true ∧ y.isFinite = true := by
  by_contra hnot
  rw [not_and_or, Bool.not_eq_true, Bool.not_eq_true] at hnot
  have himproper := Improper.sub (hnot.imp improper_of_isFinite improper_of_isFinite)
  exact Bool.false_ne_true ((himproper.isFinite_eq_false (z := x - y) rfl).symm.trans h)

/-- **Quotients that are finite.** The divisor may well be an infinity. -/
theorem isFinite_of_div {x y : Float} (h : (x / y).isFinite = true) : x.isFinite = true := by
  by_contra hnot
  have himproper := (improper_of_isFinite (Bool.not_eq_true _ ▸ hnot)).div y.toModel.unpack
  exact Bool.false_ne_true ((himproper.isFinite_eq_false (z := x / y) rfl).symm.trans h)

/-! ## 5. Whole numbers -/

theorem rounds_self (m : ℕ) (e : ℤ) : Rounds (m * 2 ^ e) m e := by
  have hself : (m * 2 ^ e / 2 ^ e : ℚ) = m := mul_div_cancel_right₀ _ (two_zpow_pos e).ne'
  constructor
  · rw [hself]
    split <;> linarith
  · rw [hself]
    linarith
  · intro _
    rw [hself]
    constructor <;> linarith

/-- Whole numbers of up to 53 bits are exact. -/
theorem exact_ofNat {n : ℕ} (hn : n < 2 ^ 53) :
    (Float.ofNat n).isFinite = true ∧ exact (Float.ofNat n) = n := by
  obtain rfl | hpos := Nat.eq_zero_or_pos n
  · exact ⟨by decide, Nat.cast_zero.symm⟩
  · have hc := canonical_ofNat hpos hn
    have hvalue := value_ofNat hpos hn
    have hrounds : Rounds (n * 10 ^ (0 : ℤ)) (n * 2 ^ (52 - n.log2)) (n.log2 - 52) := by
      rw [zpow_zero, mul_one, ← hvalue]
      exact rounds_self _ _
    have hnat : Float.ofNat n = ofCanonical hc := ofScientific_eq_ofCanonical hpos hrounds hc
    rw [hnat, exact_eq_value, unpack_ofCanonical hc]
    refine ⟨?_, hvalue⟩
    show (ofCanonical hc).toModel.unpack.isFinite = true
    rw [unpack_ofCanonical hc]
    rfl

theorem exact_neg {x : Float} (hx : x.isFinite = true) :
    (Float.neg x).isFinite = true ∧ exact (Float.neg x) = -exact x := by
  obtain ⟨hneg, hvalue⟩ := (proper_of_isFinite hx).neg
  obtain ⟨hfinite, hexact⟩ := isFinite_of_model (z := Float.neg x) rfl hneg.unpack_pack
  rw [hfinite, hexact, hvalue, ← exact_eq_value]
  exact ⟨hneg.isFinite, rfl⟩

/-- Whole numbers of up to 53 bits are numbers, on either side of zero. -/
theorem exact_ofInt {n : ℤ} (hn : n.natAbs < 2 ^ 53) :
    (Float.ofInt n).isFinite = true ∧ exact (Float.ofInt n) = n := by
  cases n with
  | ofNat n => exact exact_ofNat hn
  | negSucc n =>
    obtain ⟨hfinite, hexact⟩ := exact_ofNat hn
    obtain ⟨hfinite', hexact'⟩ := exact_neg hfinite
    refine ⟨hfinite', hexact'.trans ?_⟩
    rw [hexact, Int.natAbs_negSucc, Int.cast_negSucc]

end Photoplot.Decimal
