import Photoplot.Event

/-!
What draws.

An interpreter hands over paths and drill marks one at a time, and a plotter takes or refuses each.
`Recorder` is the plotter that keeps what it took; which calls it refuses is decided by their
number, so that every pattern of failures can be tried on it.

**What is decided here.** Everything about the interpreter is stated for an arbitrary instance of
`Plotter`, with no assumption about when it refuses: the writer of scripts refuses only paths
without points, and a recorder refuses whatever it is told to. An answer carries the events that the
plotter logs, because they stand between those of the interpreter and not behind them.

`Drawing.shift` is applied by the interpreter and not by the plotter. Theorems that speak of the
points of a call do not name it: they spell out the tool, the points plus the offset of that tool,
and the centre plus the drill offset (`Drawing.MovedBy` and `callAt` in `Proofs/Interpreter`).
-/

set_option autoImplicit false

namespace Photoplot

/-- One thing to draw. -/
inductive Drawing where
  | path (tool : Tool) (points : List Point)
  | drill (center : Point)
deriving DecidableEq

namespace Drawing

/-- The drawing moved by the offset of the tool that makes it. -/
def shift (o : Offsets) : Drawing → Drawing
  | path tool points => path tool (points.map (· + o.of tool))
  | drill center => drill (center + o.drill)

/-- What is logged before a drawing is handed over. -/
def announcement : Drawing → List Event
  | path .. => []
  | drill center => [.drilling center]

end Drawing

/-- The answer of a plotter to one drawing. -/
structure Answer (σ : Type) where
  /-- The plotter afterwards. -/
  after : σ
  events : List Event
  /-- Why the drawing was refused, unless it was taken. -/
  refusal : Option Fault

/-- Something that takes drawings. -/
class Plotter (σ : Type) where
  plot : σ → Drawing → Answer σ

/-- A plotter that keeps what it takes, and refuses the calls whose numbers it is told to refuse;
calls are counted from zero. -/
structure Recorder where
  /-- The drawings taken so far. -/
  taken : List Drawing
  /-- The count of the calls so far, refused ones included. -/
  calls : Nat
  refuses : Nat → Bool

namespace Recorder

/-- A recorder that refuses nothing. -/
def new : Recorder := ⟨[], 0, fun _ => false⟩

/-- Refuses the next call and no later one. -/
def refuseNext (r : Recorder) : Recorder :=
  { r with refuses := fun call => call == r.calls }

/-- Takes a drawing or refuses it. -/
def plot (r : Recorder) (d : Drawing) : Answer Recorder :=
  if r.refuses r.calls then
    ⟨{ r with calls := r.calls + 1 }, [], some .refused⟩
  else
    ⟨{ r with calls := r.calls + 1, taken := r.taken ++ [d] }, [], none⟩

instance : Plotter Recorder := ⟨plot⟩

end Recorder

end Photoplot
