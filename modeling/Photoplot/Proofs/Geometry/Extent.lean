import Photoplot.Proofs.Decimal.Exact
import Photoplot.Proofs.Geometry.Bounds

/-!
The extent of some points.

A box that starts out empty and grows point by point ends at the least and the greatest coordinates.
The first point takes the place of the infinities, so they are never left in the box, and such a box
is not empty. How the points come in makes no difference, but for the sign of a zero that is one of
the ends: boxes are the same when their ends compare as equal.

**What is proved, and where the work is.**

* The four ends are four folds that do not depend on each other (`growAll_eq`). They are the same
  fold with another way of picking and another coordinate, so what a fold ends at is proved for any
  way of picking one of two numbers by a key (`foldl_pick`), and then for a fold that starts at the
  last number of the order (`foldl_pick_last`).
* `Bounds.Encloses` says what that means in the order of floats, with `IsLeast` and `IsGreatest`,
  and `encloses_growAll` is the main statement. It needs finite points: a missing coordinate would
  be passed over.
* Section 2 goes from the order of floats to rationals. Every point lies in the ranges of its box
  when these are widened without rounding (`Encloses.shows`); nothing is said about the ranges that
  are computed, which are rounded.
* Boxes of the same points in another order have ends that compare as equal (`same_growAll`). That
  is all there is to say here; that they are the same ends if no coordinate is a negative zero is in
  `Geometry.Bounds`.
-/

set_option autoImplicit false

namespace Photoplot

open Decimal

/-- Both coordinates are there, and neither is an infinity. -/
def Point.Finite (p : Point) : Prop :=
  p.x.isFinite = true ∧ p.y.isFinite = true

instance (p : Point) : Decidable p.Finite :=
  inferInstanceAs (Decidable (_ ∧ _))

/-! ## 1. Picking one number among many -/

namespace Prefers

variable {pick : Float → Float → Float} {key : Float → Int} (h : Prefers pick key)
include h

/-- What is picked is one of the two, and neither has a smaller key. -/
theorem pick_of_two {a b : Float} (ha : a.isNaN = false) (hb : b.isNaN = false) :
    (pick a b = a ∨ pick a b = b) ∧ key (pick a b) ≤ key a ∧ key (pick a b) ≤ key b := by
  rcases Int.lt_or_le (key a) (key b) with hlt | hle
  · rw [h.first ha hb hlt]
    exact ⟨Or.inl rfl, le_rfl, hlt.le⟩
  · rw [h.second ha hb hle]
    exact ⟨Or.inr rfl, hle, le_rfl⟩

/-- Picking again and again gives one of the numbers, and none has a smaller key. -/
theorem foldl_pick {first : Float} {rest : List Float}
    (hthere : ∀ x ∈ first :: rest, x.isNaN = false) :
    rest.foldl pick first ∈ first :: rest
      ∧ ∀ x ∈ first :: rest, key (rest.foldl pick first) ≤ key x := by
  induction rest generalizing first with
  | nil =>
    refine ⟨List.mem_cons_self, ?_⟩
    intro x hx
    obtain rfl := List.mem_singleton.1 hx
    exact le_rfl
  | cons second rest ih =>
    have hfirst : first.isNaN = false := hthere first (by simp)
    have hsecond : second.isNaN = false := hthere second (by simp)
    obtain ⟨hone, hle, hle'⟩ := h.pick_of_two hfirst hsecond
    -- the rest goes on from the better one of the first two
    have hrest : ∀ x ∈ pick first second :: rest, x.isNaN = false := by
      intro x hx
      obtain rfl | hx := List.mem_cons.1 hx
      · exact h.isNaN_eq_false (Or.inl hfirst)
      · exact hthere x (by simp [hx])
    obtain ⟨hmem, hleast⟩ := ih hrest
    rw [List.foldl_cons]
    constructor
    · obtain hpicked | hlater := List.mem_cons.1 hmem
      · rw [hpicked]
        obtain hone | hone := hone <;> simp [hone]
      · simp [hlater]
    · intro x hx
      have hpicked := hleast (pick first second) List.mem_cons_self
      obtain rfl | rfl | hx : x = first ∨ x = second ∨ x ∈ rest := by simpa using hx
      · exact hpicked.trans hle
      · exact hpicked.trans hle'
      · exact hleast x (List.mem_cons_of_mem _ hx)

/-- A number that nothing comes behind gives way at once, so it is as if picking had started with
the first of the numbers. -/
theorem foldl_pick_last {last : Float} (hlast : last.isNaN = false)
    (hbehind : ∀ {x : Float}, x.isNaN = false → key x ≤ key last) {xs : List Float} (hne : xs ≠ [])
    (hthere : ∀ x ∈ xs, x.isNaN = false) :
    xs.foldl pick last ∈ xs ∧ ∀ x ∈ xs, key (xs.foldl pick last) ≤ key x := by
  cases xs with
  | nil => exact absurd rfl hne
  | cons first rest =>
    have hfirst : first.isNaN = false := hthere first List.mem_cons_self
    rw [List.foldl_cons, h.second hlast hfirst (hbehind hfirst)]
    exact h.foldl_pick hthere

end Prefers

/-- **The least of some numbers** is what the smaller ones end at. -/
theorem isLeast_foldl_smaller {xs : List Float} (hne : xs ≠ [])
    (hthere : ∀ x ∈ xs, x.isNaN = false) :
    IsLeast {x | x ∈ xs} (xs.foldl smaller infinity) := by
  obtain ⟨hmem, hleast⟩ :=
    prefers_smaller.foldl_pick_last (by decide) rank_le_infinity hne hthere
  refine ⟨hmem, ?_⟩
  intro x hx
  exact (le_iff_rank (hthere _ hmem) (hthere x hx)).2 (hleast x hx)

/-- **The greatest of some numbers.** -/
theorem isGreatest_foldl_larger {xs : List Float} (hne : xs ≠ [])
    (hthere : ∀ x ∈ xs, x.isNaN = false) :
    IsGreatest {x | x ∈ xs} (xs.foldl larger (-infinity)) := by
  have hbehind : ∀ {x : Float}, x.isNaN = false → -rank x ≤ -rank (-infinity) := by
    intro x hx
    exact neg_le_neg (negative_infinity_le_rank hx)
  obtain ⟨hmem, hleast⟩ := prefers_larger.foldl_pick_last (by decide) hbehind hne hthere
  refine ⟨hmem, ?_⟩
  intro x hx
  exact (le_iff_rank (hthere x hx) (hthere _ hmem)).2 (neg_le_neg_iff.1 (hleast x hx))

/-! ## 2. The least and the greatest of some numbers -/

/-- A stretch of an axis widened at both ends by a fortieth of its length, without rounding. -/
def widened (low high : ℚ) : Set ℚ :=
  Set.Icc (low - (high - low) / 40) (high + (high - low) / 40)

section Ends

variable {xs : List Float} {low high : Float} (hfinite : ∀ x ∈ xs, x.isFinite = true)
include hfinite

theorem not_lt_of_ends (hlow : IsLeast {x | x ∈ xs} low) (hhigh : IsGreatest {x | x ∈ xs} high) :
    ¬high < low := by
  have hlow' : low.isNaN = false := isNaN_of_isFinite (hfinite low hlow.1)
  have hhigh' : high.isNaN = false := isNaN_of_isFinite (hfinite high hhigh.1)
  rw [lt_iff_rank hhigh' hlow', not_lt, ← le_iff_rank hlow' hhigh']
  exact hlow.2 hhigh.1

/-- **The margin.** A range that is widened shows everything between its ends, the ends included. -/
theorem exact_mem_widened (hlow : IsLeast {x | x ∈ xs} low)
    (hhigh : IsGreatest {x | x ∈ xs} high) :
    ∀ x ∈ xs, exact x ∈ widened (exact low) (exact high) := by
  intro x hx
  have hle : exact low ≤ exact x :=
    (le_iff_exact (hfinite low hlow.1) (hfinite x hx)).1 (hlow.2 hx)
  have hle' : exact x ≤ exact high :=
    (le_iff_exact (hfinite x hx) (hfinite high hhigh.1)).1 (hhigh.2 hx)
  constructor <;> linarith

/-- The least number is determined but for the sign of a zero. -/
theorem beq_of_isLeast {xs' : List Float} {low' : Float} (hsame : ∀ x, x ∈ xs ↔ x ∈ xs')
    (h : IsLeast {x | x ∈ xs} low) (h' : IsLeast {x | x ∈ xs'} low') : (low == low') = true := by
  have hmem : low ∈ xs' := (hsame low).1 h.1
  have hmem' : low' ∈ xs := (hsame low').2 h'.1
  exact beq_of_le_of_le (isNaN_of_isFinite (hfinite low h.1))
    (isNaN_of_isFinite (hfinite low' hmem')) (h.2 hmem') (h'.2 hmem)

theorem beq_of_isGreatest {xs' : List Float} {high' : Float} (hsame : ∀ x, x ∈ xs ↔ x ∈ xs')
    (h : IsGreatest {x | x ∈ xs} high) (h' : IsGreatest {x | x ∈ xs'} high') :
    (high == high') = true := by
  have hmem : high ∈ xs' := (hsame high).1 h.1
  have hmem' : high' ∈ xs := (hsame high').2 h'.1
  exact beq_of_le_of_le (isNaN_of_isFinite (hfinite high h.1))
    (isNaN_of_isFinite (hfinite high' hmem')) (h'.2 hmem) (h.2 hmem')

end Ends

/-! ## 3. Boxes around points -/

namespace Bounds

/-- **Extent.** The ends of the box are the least and the greatest coordinates of the points. -/
structure Encloses (b : Bounds) (points : List Point) : Prop where
  minX : IsLeast {x | x ∈ points.map Point.x} b.minX
  maxX : IsGreatest {x | x ∈ points.map Point.x} b.maxX
  minY : IsLeast {y | y ∈ points.map Point.y} b.minY
  maxY : IsGreatest {y | y ∈ points.map Point.y} b.maxY

/-- A point lies in both ranges of a box, when they are widened without rounding. -/
def Shows (b : Bounds) (p : Point) : Prop :=
  exact p.x ∈ widened (exact b.minX) (exact b.maxX)
    ∧ exact p.y ∈ widened (exact b.minY) (exact b.maxY)

/-- The ends of two boxes compare as equal. They may differ in the sign of a zero. -/
structure Same (b c : Bounds) : Prop where
  minX : (b.minX == c.minX) = true
  maxX : (b.maxX == c.maxX) = true
  minY : (b.minY == c.minY) = true
  maxY : (b.maxY == c.maxY) = true

theorem same_empty : empty.Same empty := by
  constructor <;> decide

/-- **Four folds.** The ends of a box do not depend on each other. -/
theorem growAll_eq (b : Bounds) (points : List Point) :
    b.growAll points
      = ⟨(points.map Point.x).foldl smaller b.minX, (points.map Point.x).foldl larger b.maxX,
          (points.map Point.y).foldl smaller b.minY, (points.map Point.y).foldl larger b.maxY⟩ := by
  induction points generalizing b with
  | nil => rfl
  | cons p rest ih => exact ih (b.grow p)

variable {points : List Point} (hfinite : ∀ p ∈ points, p.Finite)
include hfinite

theorem finite_x : ∀ x ∈ points.map Point.x, x.isFinite = true := by
  intro x hx
  obtain ⟨p, hp, rfl⟩ := List.mem_map.1 hx
  exact (hfinite p hp).1

theorem finite_y : ∀ y ∈ points.map Point.y, y.isFinite = true := by
  intro y hy
  obtain ⟨p, hp, rfl⟩ := List.mem_map.1 hy
  exact (hfinite p hp).2

/-- **Growing from nothing.** The empty box grows to the extent of the points. -/
theorem encloses_growAll (hne : points ≠ []) : (empty.growAll points).Encloses points := by
  have hx : ∀ x ∈ points.map Point.x, x.isNaN = false := fun x h =>
    isNaN_of_isFinite (finite_x hfinite x h)
  have hy : ∀ y ∈ points.map Point.y, y.isNaN = false := fun y h =>
    isNaN_of_isFinite (finite_y hfinite y h)
  rw [growAll_eq]
  constructor
  · exact isLeast_foldl_smaller (by simpa using hne) hx
  · exact isGreatest_foldl_larger (by simpa using hne) hx
  · exact isLeast_foldl_smaller (by simpa using hne) hy
  · exact isGreatest_foldl_larger (by simpa using hne) hy

/-- A box around points has its ends the right way round. -/
theorem Encloses.isEmpty_eq_false {b : Bounds} (h : b.Encloses points) : b.isEmpty = false := by
  have hx := not_lt_of_ends (finite_x hfinite) h.minX h.maxX
  have hy := not_lt_of_ends (finite_y hfinite) h.minY h.maxY
  simp [isEmpty, hx, hy]

/-- A box shows every point that it encloses. -/
theorem Encloses.shows {b : Bounds} (h : b.Encloses points) {p : Point} (hp : p ∈ points) :
    b.Shows p :=
  ⟨exact_mem_widened (finite_x hfinite) h.minX h.maxX p.x (List.mem_map_of_mem hp),
    exact_mem_widened (finite_y hfinite) h.minY h.maxY p.y (List.mem_map_of_mem hp)⟩

/-- Boxes around the same points are the same. -/
theorem Encloses.same {b c : Bounds} {points' : List Point} (hb : b.Encloses points)
    (hc : c.Encloses points') (hperm : points.Perm points') : b.Same c := by
  have hx : ∀ x, x ∈ points.map Point.x ↔ x ∈ points'.map Point.x := fun _ =>
    (hperm.map Point.x).mem_iff
  have hy : ∀ y, y ∈ points.map Point.y ↔ y ∈ points'.map Point.y := fun _ =>
    (hperm.map Point.y).mem_iff
  constructor
  · exact beq_of_isLeast (finite_x hfinite) hx hb.minX hc.minX
  · exact beq_of_isGreatest (finite_x hfinite) hx hb.maxX hc.maxX
  · exact beq_of_isLeast (finite_y hfinite) hy hb.minY hc.minY
  · exact beq_of_isGreatest (finite_y hfinite) hy hb.maxY hc.maxY

/-- **Order does not matter**, with zeros of either sign. The box that grows by the same points in
another order is the same. -/
theorem same_growAll {points' : List Point} (hperm : points.Perm points') :
    (empty.growAll points).Same (empty.growAll points') := by
  obtain rfl | hne := eq_or_ne points []
  · obtain rfl := hperm.nil_eq
    exact same_empty
  · have hfinite' : ∀ p ∈ points', p.Finite := fun p hp => hfinite p (hperm.mem_iff.2 hp)
    have hne' : points' ≠ [] := fun h => hne (h ▸ hperm).eq_nil
    exact (encloses_growAll hfinite hne).same hfinite (encloses_growAll hfinite' hne') hperm

end Bounds

end Photoplot
