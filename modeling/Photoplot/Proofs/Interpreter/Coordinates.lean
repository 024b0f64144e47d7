import Photoplot.Proofs.Geometry.Points
import Photoplot.Proofs.Interpreter.Course

/-!
Where the points of a drawing come from.

A state machine never computes with points: every one of them is the zero point or was given as raw
coordinates, in whatever units were in force. So what holds of all of these holds of every point
that is drawn.

**What is proved, and where the work is.**

* A property of points is an invariant of a state when it holds of its location, its origin and its
  open path (`State.Within`). Every change of a state keeps it, as long as it holds of the locations
  that moves give (`State.Within.react`).
* So it holds of all points of all drawings of a course (`State.follow_within`). The induction is
  that of `State.forall_follow`.
* The property that matters is to be no negative zero, `Point.Plain`. It is kept when an offset is
  added, because a sum is a negative zero only if both summands are; so no coordinate that reaches a
  plotter is one, whatever the offsets are (`Drawing.plain_of_follow`). `Conversion.Numbers` uses
  the same invariant for another property, the size of coordinates.
-/

set_option autoImplicit false

namespace Photoplot

/-! ## 1. Provenance -/

/-- A property of every point of a drawing. -/
def Drawing.All (P : Point → Prop) : Drawing → Prop
  | .path _ points => ∀ p ∈ points, P p
  | .drill center => P center

/-- The tool that makes a drawing, and whose offset moves it. -/
def Drawing.maker : Drawing → Tool
  | .path tool _ => tool
  | .drill _ => .drill

/-- A moved drawing is made by the same tool. -/
theorem Drawing.maker_shift (o : Offsets) (d : Drawing) : (d.shift o).maker = d.maker := by
  cases d <;> rfl

/-- What holds of a point once it is moved holds of the points of the drawing that is moved. -/
theorem Drawing.All.shift {P Q : Point → Prop} {d : Drawing} (h : d.All P) {o : Offsets}
    (hmoved : ∀ p, P p → Q (p + o.of d.maker)) : (d.shift o).All Q := by
  cases d with
  | drill center => exact hmoved center h
  | path tool points =>
    intro q hq
    obtain ⟨p, hp, rfl⟩ := List.mem_map.1 hq
    exact hmoved p (h p hp)

/-- Only a coordinate asks for a move. -/
theorem Instruction.coordinate_of_ofToken {token : Token} {x y : Int}
    (h : Instruction.ofToken token = .move x y) : token = .coordinate x y := by
  unfold Instruction.ofToken at h
  split at h
  · cases h
    rfl
  · split at h <;> cases h

namespace State

/-- A property of every point that a state remembers. -/
structure Within (P : Point → Prop) (s : State) : Prop where
  origin : P s.origin
  location : P s.location
  openPath : ∀ p ∈ s.openPath.toList, P p

variable {P : Point → Prop} {s : State}

/-- The initial state holds no point but zero. -/
theorem within_initial (hzero : P Point.zero) (units : Units) : (initial units).Within P :=
  ⟨hzero, hzero, by simp [initial]⟩

/-- Recording the location adds a point that was there before. -/
theorem Within.record (h : s.Within P) : s.record.Within P := by
  refine ⟨h.origin, h.location, ?_⟩
  intro p hp
  rw [State.record, Array.toList_push, List.mem_append, List.mem_singleton] at hp
  obtain hp | rfl := hp
  · exact h.openPath p hp
  · exact h.location

/-- A move brings in the location that it leads to, and no other point. -/
theorem Within.moveTo (h : s.Within P) {location : Point} (hlocation : P location) :
    (s.moveTo location).Within P := by
  have hmoved : { s with location := location }.Within P := ⟨h.origin, hlocation, h.openPath⟩
  rw [State.moveTo]
  split
  · exact hmoved.record
  · exact hmoved

/-- Where points are dropped none is added. -/
theorem Within.clearPath (h : s.Within P) : s.clearPath.Within P :=
  ⟨h.origin, h.location, by simp [State.clearPath]⟩

/-- **One instruction.** It remembers and draws only points that it gives itself or that the state
remembers. -/
theorem Within.react {instruction : Instruction}
    (hgiven : ∀ (u : Units) (x y : Int), instruction = .move x y → P (u.pointAt x y))
    (h : s.Within P) (token : Token) :
    (s.react token instruction).after.Within P
      ∧ ∀ d, (s.react token instruction).drawing = some d → d.All P := by
  have hnone : ∀ d : Drawing, none = some d → d.All P := by
    intro d hd
    cases hd
  cases instruction with
  | move x y => exact ⟨h.moveTo (hgiven s.units x y rfl), hnone⟩
  | toolUp =>
    -- the drawing is the path, and nothing of it is kept
    have hcleared := h.clearPath
    refine ⟨⟨hcleared.origin, hcleared.location, hcleared.openPath⟩, ?_⟩
    intro d hd
    simp only [State.react, openDrawing] at hd
    split at hd
    · cases hd
    · obtain rfl := Option.some.inj hd
      exact h.openPath
  | toolDown tool =>
    have hrecorded := h.record
    exact ⟨⟨hrecorded.origin, hrecorded.location, hrecorded.openPath⟩, hnone⟩
  | drill =>
    simp only [State.react]
    split
    · refine ⟨h, ?_⟩
      intro d hd
      obtain rfl := Option.some.inj hd
      exact h.location
    · exact ⟨h, hnone⟩
  | setOrigin => exact ⟨⟨h.location, h.location, h.openPath⟩, hnone⟩
  | goToOrigin => exact ⟨h.moveTo h.origin, hnone⟩
  | setUnits => exact ⟨⟨h.origin, h.location, h.openPath⟩, hnone⟩
  | setFileNumber => exact ⟨⟨h.origin, h.location, h.openPath⟩, hnone⟩
  | setPatternNumber => exact ⟨⟨h.origin, h.location, h.openPath⟩, hnone⟩
  | stop | resumeNormalSpeed | unsupported | unrecognized => exact ⟨h, hnone⟩

/-- **Any tokens.** Every drawing of a course consists of points that its tokens give. -/
theorem follow_within {tokens : List Token}
    (hgiven : ∀ (u : Units) (x y : Int), .coordinate x y ∈ tokens → P (u.pointAt x y))
    (h : s.Within P) : ∀ d ∈ (s.follow tokens).drawings, d.All P := by
  refine forall_follow (fun s token htoken hs => ?_) h
  apply hs.react
  intro u x y hmove
  rw [Instruction.coordinate_of_ofToken hmove] at htoken
  exact hgiven u x y htoken

end State

/-! ## 2. No negative zeros -/

/-- Every point that reaches a plotter is plain, whichever offset has moved it. -/
theorem Drawing.plain_of_follow {units : Units} {tokens : List Token} {offsets : Offsets}
    {d : Drawing} (hd : d ∈ ((State.initial units).follow tokens).drawings) :
    (d.shift offsets).All Point.Plain := by
  have hplain := State.follow_within (fun u x y _ => u.plain_pointAt x y)
    (State.within_initial Point.plain_zero units) d hd
  exact hplain.shift fun p hp => hp.add _

end Photoplot
