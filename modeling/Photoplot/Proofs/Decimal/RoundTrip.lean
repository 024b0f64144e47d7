import Photoplot.Proofs.Decimal.Parts
import Photoplot.Proofs.Decimal.Reading

/-!
The text of a number reads back to the number.

Three facts meet here. The search for the shortest decimal never leaves the interval of the number;
the positional text says exactly the decimal that was found; and what lies in the interval is read
as the number. So numbers survive the way through a script.

**What is proved, and where the work is.**

* The interval (`Magnitude.contains_shortest`). That the decimal found is the shortest is not needed
  for anything and not proved. All that counts is that a decimal is only taken when it has passed
  the test, or is the exact value of the number, with which the search ends if nothing shorter was
  found. The test compares whole numbers; that it is the test for the interval is a matter of a
  common denominator (`Magnitude.contains_iff`).
* The text (`Scaled.positional_spells`). Digits are padded with zeros before or behind the point,
  and trailing zeros behind it are dropped, none of which changes the number that is spelled.
  `Spells` keeps the text, its two parts and the number together.
* Reading it back (`read?_signed`). Digits before the point, a point, and digits behind it are put
  together to one whole number and a power of ten, to which `Reading` applies.
* All of it together is `read?_render`, for every number there is, with the words for what is not
  finite and with the sign of a zero.

The last section says of what characters the text of a number is made, so that it can be told from
blanks around it, and that words occur exactly for what is not finite (`isFinite_iff_render`).
-/

set_option autoImplicit false

namespace Photoplot.Decimal

open Float.Model (Format UnpackedFloat)
open Float.Model.UnpackedFloat

/-! ## 1. The shortest decimal -/

/-- The number that a decimal is. -/
def Scaled.value (d : Scaled) : ℚ :=
  d.digits * 10 ^ d.exponent

namespace Magnitude

/-- The place of a decimal in the interval of `m`, in the units in which the ends are given. -/
def place (m : Magnitude) (d : Scaled) : ℚ :=
  4 * (d.value / 2 ^ m.exponent)

/-- The test with whole numbers is the test with fractions, both sides brought to one denominator.
-/
theorem contains_iff (m : Magnitude) (d : Scaled) :
    m.contains d = true ↔ if m.significand % 2 = 0 then m.lower ≤ m.place d ∧ m.place d ≤ m.upper
      else m.lower < m.place d ∧ m.place d < m.upper := by
  have hgrain : (0 : ℚ) < 2 ^ (m.exponent - 2).toNat * 10 ^ (-d.exponent).toNat := by positivity
  have hplace : m.place d * (2 ^ (m.exponent - 2).toNat * 10 ^ (-d.exponent).toNat)
      = d.digits * 10 ^ d.exponent.toNat * 2 ^ (2 - m.exponent).toNat := by
    have hten : (10 : ℚ) ^ d.exponent * 10 ^ (-d.exponent).toNat = 10 ^ d.exponent.toNat := by
      rw [← zpow_natCast, ← zpow_natCast, ← zpow_add₀ (by norm_num)]
      congr 1
      omega
    have htwo : (4 : ℚ) / 2 ^ m.exponent * 2 ^ (m.exponent - 2).toNat = 2 ^ (2 - m.exponent).toNat := by
      rw [show (4 : ℚ) = 2 ^ (2 : Int) by norm_num, ← zpow_sub₀ (by norm_num), ← zpow_natCast,
        ← zpow_natCast, ← zpow_add₀ (by norm_num)]
      congr 1
      omega
    rw [← hten, ← htwo, place, Scaled.value]
    ring
  rw [contains]
  simp only [Nat.pow_eq]
  rw [← eq_div_iff hgrain.ne'] at hplace
  rw [hplace, le_div_iff₀ hgrain, div_le_iff₀ hgrain, lt_div_iff₀ hgrain, div_lt_iff₀ hgrain]
  split
  · rw [Bool.and_eq_true, decide_eq_true_iff, decide_eq_true_iff]
    norm_cast
  · rw [Bool.and_eq_true, decide_eq_true_iff, decide_eq_true_iff]
    norm_cast

/-- The exact value of a number is a decimal. -/
theorem value_exact (m : Magnitude) : m.exact.value = m.significand * 2 ^ m.exponent := by
  rw [Scaled.value, exact]
  simp only [Nat.pow_eq]
  rcases le_or_gt 0 m.exponent with hsign | hsign
  · -- a whole number is its own decimal
    have hpower : (2 : ℚ) ^ m.exponent = 2 ^ m.exponent.toNat := by
      rw [← zpow_natCast, Int.toNat_of_nonneg hsign]
    rw [min_eq_right hsign, hpower, Int.toNat_of_nonpos (by omega : -m.exponent ≤ 0)]
    simp
  · -- halves are tenths of five
    have hpower : (2 : ℚ) ^ m.exponent = 5 ^ (-m.exponent).toNat * 10 ^ m.exponent := by
      rw [← zpow_natCast, Int.toNat_of_nonneg (by omega : 0 ≤ -m.exponent),
        show (10 : ℚ) = 5 * 2 by norm_num, mul_zpow, ← mul_assoc, ← zpow_add₀ (by norm_num)]
      simp
    rw [min_eq_left hsign.le, hpower, Int.toNat_of_nonpos hsign.le]
    push_cast
    ring

theorem contains_exact (m : Magnitude) (hpos : 0 < m.significand) : m.contains m.exact = true := by
  have hplace : m.place m.exact = (4 * m.significand : Nat) := by
    rw [place, value_exact, mul_div_cancel_right₀ _ (two_zpow_pos _).ne']
    push_cast
    rfl
  have hlower : m.lower < 4 * m.significand := by
    rw [lower]
    split <;> omega
  have hupper : 4 * m.significand < m.upper := by
    rw [upper]
    omega
  rw [contains_iff, hplace]
  norm_cast
  split
  · exact ⟨hlower.le, hupper.le⟩
  · exact ⟨hlower, hupper⟩

/-- What is taken from a grid has passed the test. -/
theorem contains_of_onGrid? {m : Magnitude} {exponent : Int} {d : Scaled}
    (h : m.onGrid? exponent = some d) : m.contains d = true := by
  simp only [onGrid?] at h
  split at h
  · rename_i hbelow habove
    split at h
    -- both neighbours are inside, and the nearer one is taken
    · cases h
      exact hbelow
    · cases h
      exact habove
  · rename_i hbelow _
    cases h
    exact hbelow
  · rename_i _ habove
    cases h
    exact habove
  · cases h

/-- Whatever grid the search begins at and however many it tries. -/
theorem contains_firstHit (m : Magnitude) (hpos : 0 < m.significand) (tries : Nat) (exponent : Int) :
    m.contains (m.firstHit tries exponent) = true := by
  induction tries generalizing exponent with
  | zero => exact m.contains_exact hpos
  | succ tries ih =>
    rw [firstHit]
    split
    · rename_i hhit
      exact contains_of_onGrid? hhit
    · exact ih _

/-- The search never leaves the interval, whether it finds a grid or gives up. -/
theorem contains_shortest (m : Magnitude) (hpos : 0 < m.significand) :
    m.contains m.shortest = true :=
  m.contains_firstHit hpos _ _

end Magnitude

/-- **The test is the interval of the number**, with the nearer end below powers of two. -/
theorem rounds_of_contains {bits : Nat} {negative : Bool} {size : Magnitude} {d : Scaled}
    (hparts : Binary64.ofBits bits = .finite negative size) (h : size.contains d = true) :
    Rounds d.value size.significand size.exponent := by
  have hpos := (canonical_of_ofBits hparts).pos
  have hclose := closeBelow_of_ofBits hparts
  rw [Magnitude.contains_iff] at h
  have hlower : (size.lower : ℚ)
      = 4 * (size.significand
        - (if size.significand = 2 ^ 52 ∧ size.exponent ≠ -1074 then 1 / 4 else 1 / 2)) := by
    rw [Magnitude.lower]
    by_cases hb : size.closeBelow = true
    · rw [if_pos hb, if_pos (hclose.1 hb), Nat.cast_sub (by omega)]
      push_cast
      ring
    · rw [if_neg hb, if_neg fun h => hb (hclose.2 h), Nat.cast_sub (by omega)]
      push_cast
      ring
  have hupper : (size.upper : ℚ) = 4 * (size.significand + 1 / 2) := by
    rw [Magnitude.upper]
    push_cast
    ring
  rw [hlower, hupper, Magnitude.place] at h
  split at h
  · rename_i heven
    exact ⟨by linarith, by linarith, by omega⟩
  · rename_i hodd
    -- a power of two is even, so the ends are equally far away here
    have hnot : ¬(size.significand = 2 ^ 52 ∧ size.exponent ≠ -1074) := by omega
    rw [if_neg hnot] at h
    refine ⟨?_, by linarith, fun _ => ⟨by linarith, by linarith⟩⟩
    rw [if_neg hnot]
    linarith


/-! ## 2. Positional text -/

/-- The text of some digits before the point and some behind it. -/
def numeral (whole : List Char) : List Char → List Char
  | [] => whole
  | c :: cs => whole ++ '.' :: c :: cs

theorem exists_withoutTrailingZeros (cs : List Char) :
    ∃ k, cs = withoutTrailingZeros cs ++ List.replicate k '0' := by
  refine ⟨(cs.reverse.takeWhile (· == '0')).length, ?_⟩
  have hzeros : cs.reverse.takeWhile (· == '0')
      = List.replicate (cs.reverse.takeWhile (· == '0')).length '0' := by
    refine List.eq_replicate_iff.2 ⟨rfl, fun c hc => ?_⟩
    simpa using List.all_eq_true.1 List.all_takeWhile c hc
  have hsplit := congrArg List.reverse
    (List.takeWhile_append_dropWhile (p := (· == '0')) (l := cs.reverse))
  rw [List.reverse_append, List.reverse_reverse, hzeros, List.reverse_replicate] at hsplit
  exact hsplit.symm

/-- A text that is digits with at least one of them before the point, and the number that these say.
-/
def Spells (text : List Char) (x : ℚ) : Prop :=
  ∃ whole fraction, text = numeral whole fraction ∧ whole ≠ []
    ∧ (∀ c ∈ whole ++ fraction, c.isDigit = true)
    ∧ (Nat.ofDigitChars 10 (whole ++ fraction) 0 : ℚ) * 10 ^ (-(fraction.length : Int)) = x

/-- Zeros behind the digits multiply. -/
theorem spells_zeros {digits : List Char} (hne : digits ≠ [])
    (hdigit : ∀ c ∈ digits, c.isDigit = true) (zeros : Nat) :
    Spells (digits ++ List.replicate zeros '0')
      (Nat.ofDigitChars 10 digits 0 * 10 ^ (zeros : Int)) := by
  refine ⟨digits ++ List.replicate zeros '0', [], rfl, by simp [hne], ?_, ?_⟩
  · intro c hc
    simp only [List.append_nil, List.mem_append, List.mem_replicate] at hc
    rcases hc with hc | ⟨-, rfl⟩
    · exact hdigit c hc
    · rfl
  · rw [List.append_nil, Nat.ofDigitChars_append, Nat.ofDigitChars_replicate_zero]
    push_cast
    simp [mul_comm]

/-- A point before the last digits divides, and zeros at the end can be left out then. -/
theorem spells_point {digits : List Char} {places : Nat} (hlength : places < digits.length)
    (hdigit : ∀ c ∈ digits, c.isDigit = true) :
    Spells (numeral (digits.take (digits.length - places))
        (withoutTrailingZeros (digits.drop (digits.length - places))))
      (Nat.ofDigitChars 10 digits 0 * 10 ^ (-(places : Int))) := by
  obtain ⟨zeros, hzeros⟩ := exists_withoutTrailingZeros (digits.drop (digits.length - places))
  generalize withoutTrailingZeros (digits.drop (digits.length - places)) = fraction at hzeros ⊢
  have hall : digits.take (digits.length - places) ++ fraction ++ List.replicate zeros '0'
      = digits := by
    rw [List.append_assoc, ← hzeros, List.take_append_drop]
  have hcount : fraction.length + zeros = places := by
    have := congrArg List.length hzeros
    rw [List.length_drop, List.length_append, List.length_replicate] at this
    omega
  refine ⟨_, fraction, rfl, ?_, ?_, ?_⟩
  · rw [← List.length_pos_iff, List.length_take]
    omega
  · intro c hc
    apply hdigit
    rw [← hall]
    exact List.mem_append_left _ hc
  · have hvalue : Nat.ofDigitChars 10 digits 0 = 10 ^ zeros
        * Nat.ofDigitChars 10 (digits.take (digits.length - places) ++ fraction) 0 := by
      conv_lhs => rw [← hall]
      rw [Nat.ofDigitChars_append, Nat.ofDigitChars_replicate_zero]
    rw [hvalue, ← hcount]
    push_cast
    rw [neg_add, zpow_add₀ (by norm_num), zpow_neg, zpow_neg, zpow_natCast, zpow_natCast]
    field_simp

/-- **Positional text.** It says the number that the decimal is. -/
theorem positional_spells (d : Scaled) : Spells d.positional d.value := by
  have hdigit : ∀ c ∈ Nat.toDigits 10 d.digits, c.isDigit = true := fun c hc =>
    Nat.isDigit_of_mem_toDigits (by decide) (by decide) hc
  have hne : Nat.toDigits 10 d.digits ≠ [] := Nat.toDigits_ne_nil
  rw [Scaled.value]
  by_cases hexp : 0 ≤ d.exponent
  · have hspells := spells_zeros hne hdigit d.exponent.toNat
    rw [Nat.ofDigitChars_ten_toDigits, Int.toNat_of_nonneg hexp] at hspells
    rw [Scaled.positional, if_pos hexp]
    exact hspells
  · obtain ⟨places, hplaces⟩ : ∃ places : Nat, d.exponent = -(places : Int) :=
      ⟨d.exponent.natAbs, by omega⟩
    have htoNat : (-d.exponent).toNat = places := by omega
    -- zeros before the digits, as many as it takes to have one before the point
    obtain ⟨padded, hpadded⟩ : ∃ padded, padded = List.replicate
        (places + 1 - (Nat.toDigits 10 d.digits).length) '0' ++ Nat.toDigits 10 d.digits := ⟨_, rfl⟩
    have hlength : places < padded.length := by
      rw [hpadded, List.length_append, List.length_replicate]
      omega
    have hpaddedDigit : ∀ c ∈ padded, c.isDigit = true := by
      intro c hc
      rw [hpadded, List.mem_append, List.mem_replicate] at hc
      rcases hc with ⟨-, rfl⟩ | hc
      · rfl
      · exact hdigit c hc
    have hvalue : Nat.ofDigitChars 10 padded 0 = d.digits := by
      rw [hpadded, Nat.ofDigitChars_append, Nat.ofDigitChars_replicate_zero, Nat.mul_zero,
        Nat.ofDigitChars_ten_toDigits]
    have hspells := spells_point hlength hpaddedDigit
    rw [hvalue, ← hplaces] at hspells
    have htext : d.positional = numeral (padded.take (padded.length - places))
        (withoutTrailingZeros (padded.drop (padded.length - places))) := by
      rw [Scaled.positional, if_neg hexp]
      simp only [htoNat, ← hpadded]
      cases withoutTrailingZeros (padded.drop (padded.length - places)) <;> rfl
    rw [htext]
    exact hspells

/-! ## 3. Reading it back -/

/-- Digits are taken up to the first character that is none. -/
theorem splitDigits_append {whole rest : List Char} (hwhole : ∀ c ∈ whole, c.isDigit = true)
    (hrest : ∀ c ∈ rest.head?, c.isDigit = false) : splitDigits (whole ++ rest) = (whole, rest) := by
  have hnone : rest.takeWhile Char.isDigit = [] ∧ rest.dropWhile Char.isDigit = rest := by
    cases rest with
    | nil => exact ⟨rfl, rfl⟩
    | cons c cs =>
      have hc := hrest c rfl
      exact ⟨by simp [hc], by simp [hc]⟩
  rw [splitDigits, List.takeWhile_append_of_pos hwhole, List.dropWhile_append_of_pos hwhole,
    hnone.1, hnone.2, List.append_nil]

/-- A numeral is read as one whole number and a power of ten. -/
theorem digits?_numeral {whole fraction : List Char} (hne : whole ≠ [])
    (hdigit : ∀ c ∈ whole ++ fraction, c.isDigit = true) :
    digits? (numeral whole fraction)
      = some (nearest (Nat.ofDigitChars 10 (whole ++ fraction) 0) (-(fraction.length : Int))) := by
  have hwhole : ∀ c ∈ whole, c.isDigit = true := fun c hc => hdigit c (List.mem_append_left _ hc)
  have hempty : whole.isEmpty = false := by simpa using hne
  cases fraction with
  | nil =>
    have hsplit := @splitDigits_append whole [] hwhole (by simp)
    rw [List.append_nil] at hsplit
    simp [digits?, numeral, hsplit, exponent?, hempty]
  | cons c cs =>
    have hsplit := @splitDigits_append whole ('.' :: c :: cs) hwhole (by simp)
    have hfraction : splitDigits (c :: cs) = (c :: cs, []) := by
      have := @splitDigits_append (c :: cs) []
        (fun d hd => hdigit d (List.mem_append_right _ hd)) (by simp)
      rwa [List.append_nil] at this
    simp [digits?, numeral, hsplit, hfraction, exponent?, hempty]

theorem numeral_cons (c : Char) (cs fraction : List Char) :
    numeral (c :: cs) fraction = c :: numeral cs fraction := by
  cases fraction <;> rfl

/-- Text that begins with a digit is no name. -/
theorem unsigned?_of_digit {c : Char} (hc : c.isDigit = true) (cs : List Char) :
    unsigned? (c :: cs) = digits? (c :: cs) := by
  have hlower : c.toLower = c := by
    have hrange : ¬(65 ≤ c.val ∧ c.val ≤ 90) := by
      simp only [Char.isDigit, Bool.and_eq_true, decide_eq_true_eq, ge_iff_le,
        UInt32.le_iff_toNat_le] at hc
      simp only [UInt32.le_iff_toNat_le]
      have h9 : ('9' : Char).val.toNat = 57 := rfl
      have h65 : (65 : UInt32).toNat = 65 := rfl
      omega
    simp only [Char.toLower]
    exact dif_neg hrange
  have hi : c ≠ 'i' := by
    rintro rfl
    cases hc
  have hn : c ≠ 'n' := by
    rintro rfl
    cases hc
  simp [unsigned?, hlower, hi, hn]

/-- Text that begins with a digit bears no sign, and one put before it is split off again. -/
theorem read?_signed {c : Char} (hc : c.isDigit = true) (cs : List Char) (negative : Bool) :
    read? (signed negative (c :: cs))
      = (digits? (c :: cs)).map fun x => if negative then -x else x := by
  rw [← unsigned?_of_digit hc]
  cases negative with
  | true => rfl
  | false =>
    have hsign : splitSign (c :: cs) = (false, c :: cs) := by
      unfold splitSign
      split
      · rename_i h
        cases h
        cases hc
      · rename_i h
        cases h
        cases hc
      · rfl
    rw [signed, read?, if_neg (by decide), hsign]

/-! ## 4. The round trip -/

/-- A finite number is its canonical form, with a sign. -/
theorem eq_of_finite {x : Float} {negative : Bool} {size : Magnitude}
    (h : Binary64.ofBits x.toBits.toNat = .finite negative size)
    (hc : Canonical size.significand size.exponent) :
    x = if negative then -ofCanonical hc else ofCanonical hc := by
  have hunpack : x.toModel.unpack = .finite (signOf negative) size.significand size.exponent hc.pos :=
    unpack_of_ofBits h
  apply eq_of_unpack
  rw [hunpack]
  cases negative with
  | false => exact (unpack_ofCanonical hc).symm
  | true =>
    show _ = (Float.Model.pack (ofCanonical hc).toModel.unpack.neg).unpack
    rw [unpack_ofCanonical]
    exact (@unpack_pack true _ _ hc).symm

/-- **The round trip.** The text of a number reads back to that number, whichever it is: the missing
number, an infinity or a zero with its sign. -/
theorem read?_render (x : Float) : read? (render x).toList = some x := by
  rw [render, String.toList_ofList]
  cases hparts : Binary64.ofBits x.toBits.toNat with
  | notANumber =>
    rw [eq_missing hparts]
    rfl
  | infinite negative =>
    rw [eq_of_infinite hparts]
    cases negative <;> rfl
  | zero negative =>
    rw [eq_of_zero hparts]
    cases negative <;> rfl
  | finite negative size =>
    have hc := canonical_of_ofBits hparts
    obtain ⟨whole, fraction, htext, hne, hdigit, hvalue⟩ := positional_spells size.shortest
    have hr := rounds_of_contains hparts (size.contains_shortest hc.pos)
    rw [← hvalue] at hr
    -- zero does not lie in the interval of a number other than zero
    have hD : 0 < Nat.ofDigitChars 10 (whole ++ fraction) 0 := by
      rw [Nat.pos_iff_ne_zero]
      intro hzero
      have hgt := hr.gt hc
      rw [hzero, Nat.cast_zero, zero_mul] at hgt
      exact absurd hgt (two_zpow_pos _).not_gt
    have hread := digits?_numeral hne hdigit
    obtain ⟨c, cs, rfl⟩ := List.exists_cons_of_ne_nil hne
    rw [numeral_cons] at htext hread
    show read? (signed negative size.shortest.positional) = some x
    rw [htext, read?_signed (hdigit c (by simp)), hread, nearest_eq_ofCanonical hD hr hc,
      Option.map_some, ← eq_of_finite hparts]

/-- The characters that the text of a number is made of. -/
def IsNumeric (c : Char) : Prop :=
  c.isAlphanum = true ∨ c = '-' ∨ c = '.'

instance (c : Char) : Decidable (IsNumeric c) :=
  inferInstanceAs (Decidable (_ ∨ _ ∨ _))

theorem isNumeric_of_all {cs : List Char} (h : cs.all Char.isAlphanum = true) :
    ∀ c ∈ cs, IsNumeric c :=
  fun c hc => Or.inl (List.all_eq_true.1 h c hc)

theorem isNumeric_of_isDigit {c : Char} (h : c.isDigit = true) : IsNumeric c := by
  left
  rw [Char.isAlphanum, h, Bool.or_true]

theorem isNumeric_of_mem_signed {negative : Bool} {text : List Char}
    (h : ∀ c ∈ text, IsNumeric c) : ∀ c ∈ signed negative text, IsNumeric c := by
  intro c hc
  cases negative with
  | true =>
    rcases List.mem_cons.1 hc with rfl | hc
    · exact Or.inr (Or.inl rfl)
    · exact h c hc
  | false => exact h c hc

/-- A decimal is written with digits and at most one point. -/
theorem isDigit_of_mem_positional (d : Scaled) :
    ∀ c ∈ d.positional, c.isDigit = true ∨ c = '.' := by
  intro c hc
  obtain ⟨whole, fraction, htext, -, hdigit, -⟩ := positional_spells d
  rw [htext] at hc
  cases fraction with
  | nil => exact Or.inl (hdigit c (by simpa [numeral] using hc))
  | cons first rest =>
    rcases List.mem_append.1 hc with hc | hc
    · exact Or.inl (hdigit c (List.mem_append_left _ hc))
    · rcases List.mem_cons.1 hc with rfl | hc
      · exact Or.inr rfl
      · exact Or.inl (hdigit c (List.mem_append_right _ hc))

/-- The text of a number has no blank in it and no line end. -/
theorem isNumeric_of_mem_render {x : Float} : ∀ c ∈ (render x).toList, IsNumeric c := by
  rw [render, String.toList_ofList]
  cases Binary64.ofBits x.toBits.toNat with
  | notANumber => exact isNumeric_of_all rfl
  | infinite negative => exact isNumeric_of_mem_signed (isNumeric_of_all rfl)
  | zero negative => exact isNumeric_of_mem_signed (isNumeric_of_all rfl)
  | finite negative size =>
    apply isNumeric_of_mem_signed
    intro c hc
    obtain hdigit | hpoint := isDigit_of_mem_positional size.shortest c hc
    · exact isNumeric_of_isDigit hdigit
    · exact Or.inr (Or.inr hpoint)

/-- **Numerals.** A number is finite if and only if its text is made of digits, a point and a minus
sign, and not of letters. -/
theorem isFinite_iff_render (x : Float) :
    x.isFinite = true ↔ ∀ c ∈ (render x).toList, c.isDigit = true ∨ c = '.' ∨ c = '-' := by
  have hseen := seen x
  rw [render, String.toList_ofList]
  show x.toModel.unpack.isFinite = true ↔ _
  generalize Binary64.ofBits x.toBits.toNat = parts at hseen
  generalize x.toModel.unpack = u at hseen
  cases hseen with
  | notANumber =>
    apply iff_of_false Bool.false_ne_true
    intro h
    exact absurd (h 'N' List.mem_cons_self) (by decide)
  | infinite negative =>
    apply iff_of_false Bool.false_ne_true
    intro h
    have hletter : 'i' ∈ (Binary64.infinite negative).text := by
      cases negative <;> simp [Binary64.text, signed]
    exact absurd (h 'i' hletter) (by decide)
  | zero negative =>
    apply iff_of_true rfl
    cases negative <;> simp [Binary64.text, signed]
  | @finite negative size hc =>
    apply iff_of_true rfl
    intro c hmem
    have hmem' : c = '-' ∨ c ∈ size.shortest.positional := by
      cases negative with
      | true => exact List.mem_cons.1 hmem
      | false => exact Or.inr hmem
    obtain hminus | hmem' := hmem'
    · exact Or.inr (Or.inr hminus)
    · exact (isDigit_of_mem_positional size.shortest c hmem').imp_right Or.inl

end Photoplot.Decimal
