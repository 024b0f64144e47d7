import Photoplot.Geometry.Bounds
import Photoplot.Proofs.Decimal.Order
import Photoplot.Proofs.Geometry.Points

/-!
Bounding boxes that are put together.

Growing a box by a point and joining two boxes are the same operation on the four ends: the smaller
or the larger of two numbers, where a missing number gives way. The laws that follow are those of a
commutative monoid, with two provisos: a missing end is not restored by the empty box, and two zeros
of different sign do not commute. The first never occurs in a box that started out empty, and the
second is about the points.

**What is proved, and where the work is.**

* `Prefers` is what taking the smaller and taking the larger of two numbers have in common, by a
  key: the rank, or its negative. Everything in section 1 is proved of `Prefers`, once, by the cases
  of which numbers are missing and which key is smaller; no comparison of floats is looked at again.
* Of two numbers with one key the second is taken. That is no matter to associativity
  (`Prefers.assoc`), and it is all that commutativity depends on (`Prefers.comm`): numbers with one
  key have to be one number, which zeros of different sign are not.
* So what some points do to a box depends on the box around them alone (`Definite.growAll`), which
  is what joining scripts needs, and their order does not matter if they are plain (`growAll_perm`),
  which is what reordering inputs needs.
-/

set_option autoImplicit false

namespace Photoplot

open Decimal

/-! ## 1. The smaller and the larger of two numbers -/

/-- What taking the smaller or the larger of two numbers has in common: a missing number gives way,
and otherwise the first is taken only if its key is smaller. -/
structure Prefers (pick : Float → Float → Float) (key : Float → Int) : Prop where
  second_missing : ∀ {a b : Float}, b.isNaN = true → pick a b = a
  first_missing : ∀ {a b : Float}, a.isNaN = true → b.isNaN = false → pick a b = b
  first : ∀ {a b : Float}, a.isNaN = false → b.isNaN = false → key a < key b → pick a b = a
  second : ∀ {a b : Float}, a.isNaN = false → b.isNaN = false → key b ≤ key a → pick a b = b

/-- The smaller of two numbers goes by the rank. -/
theorem prefers_smaller : Prefers smaller rank where
  second_missing h := if_pos h
  first_missing ha hb := by
    rw [smaller, if_neg (ne_true_of_eq_false hb), if_neg (not_lt_of_isNaN ha).1]
  first ha hb h := by
    rw [smaller, if_neg (ne_true_of_eq_false hb), if_pos ((lt_iff_rank ha hb).2 h)]
  second ha hb h := by
    rw [smaller, if_neg (ne_true_of_eq_false hb), if_neg]
    rw [lt_iff_rank ha hb]
    omega

/-- The larger goes by the rank the other way round. -/
theorem prefers_larger : Prefers larger (fun x => -rank x) where
  second_missing h := if_pos h
  first_missing ha hb := by
    rw [larger, if_neg (ne_true_of_eq_false hb), if_neg (not_lt_of_isNaN ha).2]
  first ha hb h := by
    rw [larger, if_neg (ne_true_of_eq_false hb), if_pos]
    rw [lt_iff_rank hb ha]
    omega
  second ha hb h := by
    rw [larger, if_neg (ne_true_of_eq_false hb), if_neg]
    rw [lt_iff_rank hb ha]
    omega

namespace Prefers

variable {pick : Float → Float → Float} {key : Float → Int} (h : Prefers pick key)
include h

/-- What is there does not go missing. -/
theorem isNaN_eq_false {a b : Float} (hab : a.isNaN = false ∨ b.isNaN = false) :
    (pick a b).isNaN = false := by
  by_cases hb : b.isNaN = true
  · rw [h.second_missing hb]
    exact hab.resolve_right (ne_false_of_eq_true hb)
  rw [Bool.not_eq_true] at hb
  by_cases ha : a.isNaN = true
  · rw [h.first_missing ha hb]
    exact hb
  rw [Bool.not_eq_true] at ha
  rcases Int.lt_or_le (key a) (key b) with hlt | hle
  · rw [h.first ha hb hlt]
    exact ha
  · rw [h.second ha hb hle]
    exact hb

/-- **Associativity**, without any condition on the numbers. -/
theorem assoc (a b c : Float) : pick a (pick b c) = pick (pick a b) c := by
  by_cases hc : c.isNaN = true
  · rw [h.second_missing hc, h.second_missing hc]
  rw [Bool.not_eq_true] at hc
  by_cases hb : b.isNaN = true
  · rw [h.first_missing hb hc, h.second_missing hb]
  rw [Bool.not_eq_true] at hb
  by_cases ha : a.isNaN = true
  · rw [h.first_missing ha hb, h.first_missing ha (h.isNaN_eq_false (Or.inl hb))]
  rw [Bool.not_eq_true] at ha
  -- all three are there, and the keys decide
  rcases Int.lt_or_le (key b) (key c) with hbc | hbc
  · rw [h.first hb hc hbc]
    rcases Int.lt_or_le (key a) (key b) with hab | hab
    · rw [h.first ha hb hab, h.first ha hc (by omega)]
    · rw [h.second ha hb hab, h.first hb hc hbc]
  · rw [h.second hb hc hbc]
    rcases Int.lt_or_le (key a) (key b) with hab | hab
    · rw [h.first ha hb hab]
    · rw [h.second ha hb hab, h.second ha hc (by omega), h.second hb hc hbc]

/-- **Commutativity**, where the key tells numbers apart. -/
theorem comm {a b : Float} (hkey : key a = key b → a = b) : pick a b = pick b a := by
  by_cases ha : a.isNaN = true
  · by_cases hb : b.isNaN = true
    · rw [h.second_missing hb, h.second_missing ha, eq_of_isNaN ha hb]
    · rw [Bool.not_eq_true] at hb
      rw [h.first_missing ha hb, h.second_missing ha]
  rw [Bool.not_eq_true] at ha
  by_cases hb : b.isNaN = true
  · rw [h.second_missing hb, h.first_missing hb ha]
  rw [Bool.not_eq_true] at hb
  rcases Int.lt_trichotomy (key a) (key b) with hlt | heq | hgt
  · rw [h.first ha hb hlt, h.second hb ha (by omega)]
  · rw [hkey heq]
  · rw [h.second ha hb (by omega), h.first hb ha hgt]

/-- A number that nothing comes behind gives way to all others, itself included. -/
theorem right_identity {a last : Float} (ha : a.isNaN = false) (hlast : last.isNaN = false)
    (hle : key a ≤ key last) (hkey : key a = key last → a = last) : pick a last = a := by
  rcases Int.lt_or_eq_of_le hle with hlt | heq
  · exact h.first ha hlast hlt
  · rw [h.second ha hlast (by omega), hkey heq]

end Prefers

/-- Every number that is there is at most an infinity, so that gives way. -/
theorem smaller_infinity {a : Float} (ha : a.isNaN = false) : smaller a infinity = a :=
  prefers_smaller.right_identity ha (by decide) (rank_le_infinity ha) eq_infinity_of_rank

theorem larger_negative_infinity {a : Float} (ha : a.isNaN = false) :
    larger a (-infinity) = a := by
  apply prefers_larger.right_identity ha (by decide)
  · have hle := negative_infinity_le_rank ha
    omega
  · intro h
    exact eq_negative_infinity_of_rank (by omega)

/-! ## 2. Joining boxes -/

namespace Bounds

/-- The box around two boxes. -/
def join (b c : Bounds) : Bounds :=
  ⟨smaller b.minX c.minX, larger b.maxX c.maxX, smaller b.minY c.minY, larger b.maxY c.maxY⟩

/-- The box around one point. -/
def around (p : Point) : Bounds := ⟨p.x, p.x, p.y, p.y⟩

/-- Growing by a point is joining the box around it. -/
theorem grow_eq_join (b : Bounds) (p : Point) : b.grow p = b.join (around p) := rfl

theorem join_assoc (a b c : Bounds) : a.join (b.join c) = (a.join b).join c := by
  simp only [join, prefers_smaller.assoc, prefers_larger.assoc]

/-- No end is missing. -/
structure Definite (b : Bounds) : Prop where
  minX : b.minX.isNaN = false
  maxX : b.maxX.isNaN = false
  minY : b.minY.isNaN = false
  maxY : b.maxY.isNaN = false

theorem definite_empty : empty.Definite := by
  constructor <;> decide

theorem Definite.join {b : Bounds} (h : b.Definite) (c : Bounds) : (b.join c).Definite where
  minX := prefers_smaller.isNaN_eq_false (Or.inl h.minX)
  maxX := prefers_larger.isNaN_eq_false (Or.inl h.maxX)
  minY := prefers_smaller.isNaN_eq_false (Or.inl h.minY)
  maxY := prefers_larger.isNaN_eq_false (Or.inl h.maxY)

theorem Definite.join_empty {b : Bounds} (h : b.Definite) : b.join empty = b := by
  rw [Bounds.join, empty, smaller_infinity h.minX, larger_negative_infinity h.maxX,
    smaller_infinity h.minY, larger_negative_infinity h.maxY]

theorem growAll_singleton (b : Bounds) (p : Point) : b.growAll [p] = b.join (around p) := rfl

/-- **Growing is joining.** What some points do to a box depends on the box around them alone. -/
theorem Definite.growAll {b : Bounds} (h : b.Definite) (points : List Point) :
    b.growAll points = b.join (empty.growAll points) := by
  induction points using List.reverseRecOn with
  | nil => exact h.join_empty.symm
  | append_singleton points p ih =>
    rw [growAll_append, growAll_append, ih, growAll_singleton, growAll_singleton, join_assoc]

/-- Where no coordinate is a negative zero, points may be taken in either order. -/
theorem grow_comm (b : Bounds) {p q : Point} (hp : p.Plain) (hq : q.Plain) :
    (b.grow p).grow q = (b.grow q).grow p := by
  have hsmaller : ∀ {x y : Float}, x ≠ -0.0 → y ≠ -0.0 → smaller x y = smaller y x := by
    intro x y hx hy
    exact prefers_smaller.comm (eq_of_rank_eq hx hy)
  have hlarger : ∀ {x y : Float}, x ≠ -0.0 → y ≠ -0.0 → larger x y = larger y x := by
    intro x y hx hy
    apply prefers_larger.comm
    intro h
    exact eq_of_rank_eq hx hy (by omega)
  have hjoin : (around p).join (around q) = (around q).join (around p) := by
    simp only [join, around, hsmaller hp.1 hq.1, hlarger hp.1 hq.1, hsmaller hp.2 hq.2,
      hlarger hp.2 hq.2]
  rw [grow_eq_join, grow_eq_join, grow_eq_join, grow_eq_join, ← join_assoc, hjoin, join_assoc]

/-- **Order does not matter.** A box grows to the same box by the same points in any order. -/
theorem growAll_perm (b : Bounds) {points points' : List Point} (h : points.Perm points')
    (hplain : ∀ p ∈ points, p.Plain) : b.growAll points = b.growAll points' := by
  apply h.foldl_eq'
  intro p hp q hq b
  exact grow_comm b (hplain p hp) (hplain q hq)

end Bounds

end Photoplot
