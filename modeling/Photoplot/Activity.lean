import Photoplot.Event

/-!
What came of doing something step by step.

An activity works on a value, logs what it does and may end early with a fault. The value is kept
even then: a file that was written half way stays half written.
-/

set_option autoImplicit false

namespace Photoplot

/-- A value that has been worked on. -/
structure Activity (α : Type) where
  /-- The value as it is now. -/
  state : α
  events : List Event
  /-- Why the work ended early, unless it reached the end. -/
  fault : Option Fault

namespace Activity

variable {α : Type}

/-- Nothing has been done. -/
def start (a : α) : Activity α := ⟨a, [], none⟩

/-- Goes on unless there was a fault. -/
def andThen (first : Activity α) (more : α → Activity α) : Activity α :=
  match first.fault with
  | some _ => first
  | none =>
    let next := more first.state
    ⟨next.state, first.events ++ next.events, next.fault⟩

theorem andThen_of_fault {first : Activity α} {more : α → Activity α} {f : Fault}
    (h : first.fault = some f) : first.andThen more = first := by
  simp [andThen, h]

theorem andThen_of_no_fault {first : Activity α} (h : first.fault = none)
    (more : α → Activity α) :
    first.andThen more = ⟨(more first.state).state, first.events ++ (more first.state).events,
      (more first.state).fault⟩ := by
  simp [andThen, h]

theorem start_andThen (a : α) (more : α → Activity α) : (start a).andThen more = more a := by
  simp [andThen, start]

/-- Works through a list, one item after the other. -/
def forEach {β : Type} (work : β → α → Activity α) : List β → α → Activity α
  | [], a => start a
  | b :: bs, a => (work b a).andThen (forEach work bs)

end Activity

end Photoplot
