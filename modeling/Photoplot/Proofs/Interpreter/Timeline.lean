import Photoplot.Proofs.Interpreter.Course

/-!
What a command file draws, read off the positions of its instructions.

The state machine carries units, origin, location, tool and open path from one instruction to the
next. None of them needs to be carried: each is determined by where the last instruction of a kind
stands. This file says so position by position. `callAt` is the drawing that one instruction asks
for, in terms of the instructions before it alone, and `extent` is the count of the instructions
before the first stop or fault.

The positions of `program` are counted from zero, and "after `n`" means: once the first `n`
instructions are done. So what holds at or before position `i` is what holds after `i + 1`.

**What is proved, and where the work is.**

* Sections 1 to 4 are definitions. Units and tool look at the last instruction of their kind;
  location and origin look at each other, for an origin is a location and a way back to it is a
  location again. The recursion goes to smaller positions, so it has an end, but it does not compute
  by itself.
* Section 5 says what becomes of each of them when `n` grows by one, once for the instruction that
  sets it and once for all others. That is where the work is: the open path is a filtered range of
  positions, and it has to be shown to grow at its end (`openPathAfter_succ`) and to vanish at a
  raising (`firstDown_toolUp`).
* Section 6 compares the two views. `Tracks` says that a state is what the positions make of it, and
  `Tracks.step` that an instruction keeps it so and asks for the drawing of its position.
* Section 7 is the induction on the tokens. It says more than the result, as it has to begin at any
  position: what is left of the course are the drawings of the positions that are left
  (`follow_eq_timeline`).

Main statement: `drawings_eq_timeline`, an interpreter on an accepting plotter hands over these
drawings and nothing else.
-/

set_option autoImplicit false

namespace Photoplot

/-! ## 1. Kinds of instructions -/

namespace Instruction

def setsUnits : Instruction → Bool
  | setUnits _ => true
  | _ => false

def setsOrigin : Instruction → Bool
  | setOrigin => true
  | _ => false

/-- Whether the tool is brought to a location. -/
def places : Instruction → Bool
  | move .. | goToOrigin => true
  | _ => false

def raises : Instruction → Bool
  | toolUp => true
  | _ => false

def lowers : Instruction → Bool
  | toolDown _ => true
  | _ => false

/-- Whether a point is recorded while a path is open. -/
def records (instruction : Instruction) : Bool :=
  instruction.lowers || instruction.places

end Instruction

namespace Timeline

open Instruction

section Positions

variable (program : List Instruction)

/-- Whether an instruction of a kind stands at a position. -/
def isAt (kind : Instruction → Bool) (i : Nat) : Bool :=
  program[i]?.any kind

/-- The last position before `n` at which an instruction of a kind stands. -/
def lastBefore (kind : Instruction → Bool) : Nat → Option Nat
  | 0 => none
  | n + 1 => if isAt program kind n then some n else lastBefore kind n

/-- An instruction of the kind is the last one before the next position. -/
theorem lastBefore_succ_of_isAt {kind : Instruction → Bool} {n : Nat}
    (h : isAt program kind n = true) : lastBefore program kind (n + 1) = some n :=
  if_pos h

/-- Any other instruction leaves the last one of the kind where it was. -/
theorem lastBefore_succ_of_not {kind : Instruction → Bool} {n : Nat}
    (h : isAt program kind n = false) :
    lastBefore program kind (n + 1) = lastBefore program kind n := by
  simp [lastBefore, h]

/-- The position is the last one of its kind: it lies before `n`, an instruction of the kind stands
there, and none stands between the two. -/
theorem lastBefore_eq_some_iff {kind : Instruction → Bool} {n j : Nat} :
    lastBefore program kind n = some j ↔
      j < n ∧ isAt program kind j = true ∧ ∀ k, j < k → k < n → isAt program kind k = false := by
  induction n with
  | zero => simp [lastBefore]
  | succ n ih =>
    cases hn : isAt program kind n with
    | true =>
      -- `n` is of the kind, so it is the last one itself
      rw [lastBefore_succ_of_isAt program hn]
      constructor
      · intro h
        obtain rfl := Option.some.inj h
        exact ⟨Nat.lt_succ_self _, hn, fun k _ _ => by omega⟩
      · rintro ⟨hjn, -, hlast⟩
        rcases Nat.lt_or_ge j n with hlt | hge
        · rw [hlast n hlt (Nat.lt_succ_self n)] at hn
          cases hn
        · exact congrArg some (by omega)
    | false =>
      -- `n` does not count, and "none in between" is said of one position more
      rw [lastBefore_succ_of_not program hn, ih]
      constructor
      · rintro ⟨hjn, hj, hlast⟩
        refine ⟨by omega, hj, fun k hjk hkn => ?_⟩
        rcases Nat.lt_or_ge k n with hlt | hge
        · exact hlast k hjk hlt
        · obtain rfl : k = n := by omega
          exact hn
      · rintro ⟨hjn, hj, hlast⟩
        refine ⟨?_, hj, fun k hjk hkn => hlast k hjk (by omega)⟩
        rcases Nat.lt_or_ge j n with hlt | hge
        · exact hlt
        · obtain rfl : j = n := by omega
          rw [hj] at hn
          cases hn

/-- What comes before a position stands at a smaller one. -/
theorem lt_of_lastBefore {kind : Instruction → Bool} {n j : Nat}
    (h : lastBefore program kind n = some j) : j < n :=
  ((lastBefore_eq_some_iff program).1 h).1

/-! ## 2. Units, location and origin -/

variable (initial : Units)

/-- The units after `n`: those of the last change of units. -/
def unitsAfter (n : Nat) : Units :=
  match (lastBefore program setsUnits n).bind (program[·]?) with
  | some (.setUnits units) => units
  | _ => initial

/-- The location after `n`: where the last move leads, in the units in force there, or the origin in
force at the last return to it. That origin in turn is the location at the last setting of the
origin. -/
def locationAfter (n : Nat) : Point :=
  match _h : lastBefore program places n with
  | none => Point.zero
  | some j =>
    match program[j]? with
    | some (.move x y) => (unitsAfter program initial (j + 1)).pointAt x y
    | _ =>
      match _h' : lastBefore program setsOrigin j with
      | none => Point.zero
      | some k => locationAfter (k + 1)
termination_by n
decreasing_by
  have hj := lt_of_lastBefore program _h
  have hk := lt_of_lastBefore program _h'
  omega

/-- The origin after `n`: the location at the last setting of the origin. -/
def originAfter (n : Nat) : Point :=
  match lastBefore program setsOrigin n with
  | none => Point.zero
  | some k => locationAfter program initial (k + 1)

/-! ## 3. The open path -/

/-- Where the stretch without a raised tool begins: behind the last raising. -/
def stretchStart (n : Nat) : Nat :=
  match lastBefore program raises n with
  | none => 0
  | some k => k + 1

/-- The first lowering of a tool since the tool was last raised. -/
def firstDown (n : Nat) : Option Nat :=
  (List.range' (stretchStart program n) (n - stretchStart program n)).find? (isAt program lowers)

/-- The tool of the last lowering. -/
def toolAfter (n : Nat) : Tool :=
  match (lastBefore program lowers n).bind (program[·]?) with
  | some (.toolDown tool) => tool
  | _ => .idle

/-- The points that are open after `n`: the locations at every lowering, move and return to the
origin since the first lowering. -/
def openPathAfter (n : Nat) : List Point :=
  match firstDown program n with
  | none => []
  | some first =>
    ((List.range' first (n - first)).filter (isAt program records)).map fun j =>
      locationAfter program initial (j + 1)

/-! ## 4. The drawings -/

/-- Whether the data end at a position: at a stop code, at a feature that cannot be drawn, or at a
drill code while a path is open. -/
def endsAt (i : Nat) : Bool :=
  match program[i]? with
  | some .stop | some (.unsupported _) => true
  | some .drill => (firstDown program i).isSome
  | _ => false

/-- The count of the instructions before the first one at which the data end. -/
def extent : Nat :=
  ((List.range program.length).find? (endsAt program)).getD program.length

/-- The drawing that the instruction at a position asks for, moved by the offset of its tool: a
drill mark where the tool is, or what has been recorded since the tool went down. -/
def callAt (offsets : Offsets) (i : Nat) : Option Drawing :=
  match program[i]? with
  | some .drill => some (.drill (locationAfter program initial (i + 1) + offsets.drill))
  | some .toolUp =>
    (firstDown program i).map fun first =>
      let tool := toolAfter program i
      .path tool (((List.range' first (i - first)).filter (isAt program records)).map fun j =>
        locationAfter program initial (j + 1) + offsets.of tool)
  | _ => none

/-! ## 5. One instruction further

Each of the notions above changes with one more instruction as the state machine changes its state.
`program[n]? = some instruction` is the instruction that is done next. -/

variable {program initial} {n : Nat} {instruction : Instruction}

/-- Whether there is an instruction of a kind at a position is asked of the instruction there. -/
theorem isAt_of_getElem? (h : program[n]? = some instruction) (kind : Instruction → Bool) :
    isAt program kind n = kind instruction := by
  simp [isAt, h]

/-- One position further: the two cases above as one equation. -/
theorem lastBefore_succ (h : program[n]? = some instruction) (kind : Instruction → Bool) :
    lastBefore program kind (n + 1)
      = if kind instruction then some n else lastBefore program kind n := by
  rw [lastBefore, isAt_of_getElem? h]

/-- Behind a unit change these units are in force. -/
theorem unitsAfter_setUnits {units : Units} (h : program[n]? = some (.setUnits units)) :
    unitsAfter program initial (n + 1) = units := by
  simp [unitsAfter, lastBefore_succ h, setsUnits, h]

/-- All other instructions leave the units in force. -/
theorem unitsAfter_succ (h : program[n]? = some instruction) (hk : instruction.setsUnits = false) :
    unitsAfter program initial (n + 1) = unitsAfter program initial n := by
  simp [unitsAfter, lastBefore_succ h, hk]

/-- Where the last placing stands decides the location. -/
theorem locationAfter_eq (n : Nat) :
    locationAfter program initial n =
      match lastBefore program places n with
      | none => Point.zero
      | some j =>
        match program[j]? with
        | some (.move x y) => (unitsAfter program initial (j + 1)).pointAt x y
        | _ => originAfter program initial j := by
  rw [locationAfter]
  split <;> rename_i hlast
  · rw [hlast]
  · simp only [hlast]
    split
    · rfl
    · rw [originAfter]
      split <;> rename_i hset <;> rw [hset]

/-- Behind a move the location is the one it gives, in the units in force. -/
theorem locationAfter_move {x y : Int} (h : program[n]? = some (.move x y)) :
    locationAfter program initial (n + 1) = (unitsAfter program initial n).pointAt x y := by
  rw [locationAfter_eq, lastBefore_succ h, if_pos (by rfl)]
  simp only [h]
  rw [unitsAfter_succ h (by rfl)]

/-- Behind a way back the location is the origin in force. -/
theorem locationAfter_goToOrigin (h : program[n]? = some .goToOrigin) :
    locationAfter program initial (n + 1) = originAfter program initial n := by
  rw [locationAfter_eq, lastBefore_succ h, if_pos (by rfl)]
  simp only [h]

/-- All other instructions leave the location. -/
theorem locationAfter_succ (h : program[n]? = some instruction) (hk : instruction.places = false) :
    locationAfter program initial (n + 1) = locationAfter program initial n := by
  rw [locationAfter_eq, lastBefore_succ h, hk, if_neg (by simp), ← locationAfter_eq]

/-- An origin is set where the tool is. -/
theorem originAfter_setOrigin (h : program[n]? = some .setOrigin) :
    originAfter program initial (n + 1) = locationAfter program initial n := by
  rw [originAfter, lastBefore_succ h, if_pos (by rfl)]
  exact locationAfter_succ h rfl

/-- All other instructions leave the origin. -/
theorem originAfter_succ (h : program[n]? = some instruction) (hk : instruction.setsOrigin = false) :
    originAfter program initial (n + 1) = originAfter program initial n := by
  rw [originAfter, lastBefore_succ h, hk, if_neg (by simp), ← originAfter]

/-- Behind a lowering the tool is the one that was lowered. -/
theorem toolAfter_toolDown {tool : Tool} (h : program[n]? = some (.toolDown tool)) :
    toolAfter program (n + 1) = tool := by
  simp [toolAfter, lastBefore_succ h, lowers, h]

/-- All other instructions leave the tool of the path that is open. -/
theorem toolAfter_succ (h : program[n]? = some instruction) (hk : instruction.lowers = false) :
    toolAfter program (n + 1) = toolAfter program n := by
  simp [toolAfter, lastBefore_succ h, hk]

/-- The stretch since the last raising begins at or before the position. -/
theorem stretchStart_le (program : List Instruction) (n : Nat) : stretchStart program n ≤ n := by
  rw [stretchStart]
  split
  · exact Nat.zero_le n
  · rename_i k hk
    exact lt_of_lastBefore program hk

/-- Raising the tool ends the stretch, and no tool has been lowered since. -/
theorem firstDown_toolUp (h : program[n]? = some .toolUp) : firstDown program (n + 1) = none := by
  have hstart : stretchStart program (n + 1) = n + 1 := by
    rw [stretchStart, lastBefore_succ h, if_pos (by rfl)]
  simp [firstDown, hstart]

/-- Any other instruction goes on with the stretch, and lowers the first tool in it if none has been
lowered yet. -/
theorem firstDown_succ (h : program[n]? = some instruction) (hk : instruction.raises = false) :
    firstDown program (n + 1)
      = (firstDown program n).or (if instruction.lowers then some n else none) := by
  have hstart : stretchStart program (n + 1) = stretchStart program n := by
    rw [stretchStart, lastBefore_succ h, hk, if_neg (by simp), ← stretchStart]
  have hle := stretchStart_le program n
  have hlen : n + 1 - stretchStart program n = (n - stretchStart program n) + 1 := by omega
  have hend : stretchStart program n + (n - stretchStart program n) = n := by omega
  rw [firstDown, hstart, hlen, List.range'_1_concat, hend, List.find?_append, ← firstDown]
  rw [List.find?_singleton, isAt_of_getElem? h]

/-- The lowering that begins a path stands before the position. -/
theorem firstDown_lt {first : Nat} (h : firstDown program n = some first) : first < n := by
  have hmem := List.mem_of_find?_eq_some h
  have hle := stretchStart_le program n
  simp only [List.mem_range'_1] at hmem
  omega

/-- The position `n` is the next one behind a stretch that began before. -/
theorem filter_range'_succ {first : Nat} (hfirst : first ≤ n)
    (h : program[n]? = some instruction) :
    (List.range' first (n + 1 - first)).filter (isAt program records)
      = (List.range' first (n - first)).filter (isAt program records)
        ++ (if instruction.records then [n] else []) := by
  have hlen : n + 1 - first = (n - first) + 1 := by omega
  have hend : first + (n - first) = n := by omega
  rw [hlen, List.range'_1_concat, hend, List.filter_append, List.filter_cons, List.filter_nil,
    isAt_of_getElem? h]

/-- As long as the tool is not raised, every recording adds the location it leads to. -/
theorem openPathAfter_succ (h : program[n]? = some instruction) (hk : instruction.raises = false)
    (hopen : (firstDown program (n + 1)).isSome) :
    openPathAfter program initial (n + 1)
      = openPathAfter program initial n
        ++ (if instruction.records then [locationAfter program initial (n + 1)] else []) := by
  rw [firstDown_succ h hk] at hopen
  rw [openPathAfter, firstDown_succ h hk, openPathAfter]
  cases hd : firstDown program n with
  | some first =>
    -- the path was open before, and its beginning does not move
    have hlt := firstDown_lt hd
    simp only [Option.some_or]
    rw [filter_range'_succ (by omega) h, List.map_append]
    split <;> rfl
  | none =>
    -- the path begins here, so the one position in it is `n` itself
    rw [hd, Option.none_or] at hopen
    have hl : instruction.lowers = true := by
      cases hl : instruction.lowers with
      | true => rfl
      | false => simp [hl] at hopen
    have hr : instruction.records = true := by simp [records, hl]
    simp only [hl, Option.none_or, if_true]
    rw [filter_range'_succ (Nat.le_refl n) h]
    simp [hr]

/-- A path that was begun holds the point at which it was begun. -/
theorem openPathAfter_eq_nil_iff :
    openPathAfter program initial n = [] ↔ firstDown program n = none := by
  rw [openPathAfter]
  cases hd : firstDown program n with
  | none => simp
  | some first =>
    -- the lowering that begins the path is a recording, so its own position is never missing
    have hlt := firstDown_lt hd
    have hdown : isAt program lowers first = true := List.find?_some hd
    have hrec : isAt program records first = true := by
      rw [isAt, Option.any_eq_true] at hdown ⊢
      obtain ⟨instruction, hat, hl⟩ := hdown
      exact ⟨instruction, hat, by simp [records, hl]⟩
    have hmem : first ∈ (List.range' first (n - first)).filter (isAt program records) := by
      rw [List.mem_filter, List.mem_range'_1]
      exact ⟨⟨Nat.le_refl first, by omega⟩, hrec⟩
    simp [List.ne_nil_of_mem hmem]

/-- A raised tool hands over the path that is open, if there is one. -/
theorem callAt_toolUp (offsets : Offsets) (h : program[n]? = some .toolUp) :
    callAt program initial offsets n =
      if openPathAfter program initial n = [] then none
      else some ((Drawing.path (toolAfter program n) (openPathAfter program initial n)).shift
        offsets) := by
  simp only [callAt, h]
  cases hd : firstDown program n with
  | none => simp [openPathAfter_eq_nil_iff.2 hd]
  | some first =>
    have hne : openPathAfter program initial n ≠ [] := by
      rw [Ne, openPathAfter_eq_nil_iff, hd]
      simp
    rw [if_neg hne]
    simp [openPathAfter, hd, Drawing.shift]

/-! ## 6. The state machine keeps up with the positions -/

/-- **The invariant.** After `n` instructions each part of the state is what the positions say. -/
structure Tracks (program : List Instruction) (initial : Units) (n : Nat) (s : State) : Prop where
  units : s.units = unitsAfter program initial n
  location : s.location = locationAfter program initial n
  origin : s.origin = originAfter program initial n
  openPath : s.openPath.toList = openPathAfter program initial n
  isDown : s.isDown = (firstDown program n).isSome
  tool : s.tool = if (firstDown program n).isSome then toolAfter program n else .idle

/-- Before the first instruction nothing is set on either side. -/
theorem tracks_initial (program : List Instruction) (initial : Units) :
    Tracks program initial 0 (State.initial initial) := by
  refine ⟨rfl, ?_, rfl, rfl, rfl, rfl⟩
  rw [locationAfter_eq]
  rfl

/-- An instruction that neither lowers nor raises leaves the beginning of the path where it is. -/
theorem firstDown_keep (h : program[n]? = some instruction) (hr : instruction.raises = false)
    (hl : instruction.lowers = false) : firstDown program (n + 1) = firstDown program n := by
  rw [firstDown_succ h hr, hl, if_neg (by simp), Option.or_none]

/-- Without a recording the open path stays as it is. -/
theorem openPathAfter_keep (h : program[n]? = some instruction) (hr : instruction.raises = false)
    (hrec : instruction.records = false) :
    openPathAfter program initial (n + 1) = openPathAfter program initial n := by
  have hl : instruction.lowers = false := (Bool.or_eq_false_iff.1 hrec).1
  have hkeep := firstDown_keep h hr hl
  cases hd : firstDown program n with
  | none =>
    rw [openPathAfter_eq_nil_iff.2 hd, openPathAfter_eq_nil_iff.2 (hkeep.trans hd)]
  | some first =>
    rw [openPathAfter_succ h hr (by simp [hkeep, hd]), hrec]
    simp

/-- A placement brings the tool to the new location and records it if a path is open. -/
theorem Tracks.moveTo {s : State} (hs : Tracks program initial n s)
    (h : program[n]? = some instruction) (hp : instruction.places = true) :
    Tracks program initial (n + 1) (s.moveTo (locationAfter program initial (n + 1))) := by
  have hr : instruction.raises = false := by cases instruction <;> first | rfl | cases hp
  have hl : instruction.lowers = false := by cases instruction <;> first | rfl | cases hp
  have hu : instruction.setsUnits = false := by cases instruction <;> first | rfl | cases hp
  have ho : instruction.setsOrigin = false := by cases instruction <;> first | rfl | cases hp
  have hrec : instruction.records = true := by rw [records, hp, Bool.or_true]
  have hdown := firstDown_keep h hr hl
  have hunits := hs.units.trans (unitsAfter_succ h hu).symm
  have horigin := hs.origin.trans (originAfter_succ h ho).symm
  have htool := hs.tool
  rw [← hdown, ← toolAfter_succ h hl] at htool
  have hisDown := hs.isDown
  rw [← hdown] at hisDown
  by_cases hopen : (firstDown program (n + 1)).isSome = true
  · -- the tool is down, so the new location is recorded
    have hpath : openPathAfter program initial (n + 1)
        = openPathAfter program initial n ++ [locationAfter program initial (n + 1)] := by
      rw [openPathAfter_succ h hr hopen, if_pos hrec]
    have hmoved : s.moveTo (locationAfter program initial (n + 1))
        = ({ s with location := locationAfter program initial (n + 1) } : State).record := by
      simp [State.moveTo, hisDown, hopen]
    rw [hmoved]
    refine ⟨hunits, rfl, horigin, ?_, hisDown, htool⟩
    rw [hpath, ← hs.openPath]
    simp [State.record]
  · -- the tool is up, so nothing was open before and nothing is open now
    have hmoved : s.moveTo (locationAfter program initial (n + 1))
        = { s with location := locationAfter program initial (n + 1) } := by
      simp [State.moveTo, hisDown, hopen]
    rw [hmoved]
    refine ⟨hunits, rfl, horigin, ?_, hisDown, htool⟩
    rw [Bool.not_eq_true, Option.isSome_eq_false_iff, Option.isNone_iff_eq_none] at hopen
    rw [openPathAfter_eq_nil_iff.2 hopen]
    rw [hdown] at hopen
    exact hs.openPath.trans (openPathAfter_eq_nil_iff.2 hopen)

/-- A lowering begins the path, or goes on with it under another tool. -/
theorem Tracks.lower {s : State} {tool : Tool} (hs : Tracks program initial n s)
    (h : program[n]? = some (.toolDown tool)) :
    Tracks program initial (n + 1) (s.lower tool) := by
  have hopen : (firstDown program (n + 1)).isSome = true := by
    rw [firstDown_succ h rfl, if_pos (by rfl)]
    simp
  have hplace : locationAfter program initial (n + 1) = locationAfter program initial n :=
    locationAfter_succ h rfl
  refine ⟨?_, ?_, ?_, ?_, ?_, ?_⟩
  · exact hs.units.trans (unitsAfter_succ h rfl).symm
  · exact hs.location.trans hplace.symm
  · exact hs.origin.trans (originAfter_succ h rfl).symm
  · rw [openPathAfter_succ h rfl hopen, if_pos (by rfl), hplace, ← hs.openPath, ← hs.location]
    simp [State.lower, State.record]
  · rw [hopen]
    rfl
  · rw [hopen, if_pos rfl, toolAfter_toolDown h]
    rfl

/-- A raising empties the path. -/
theorem Tracks.raise {s : State} (hs : Tracks program initial n s)
    (h : program[n]? = some .toolUp) :
    Tracks program initial (n + 1) s.clearPath.raise := by
  have hnone := firstDown_toolUp h
  refine ⟨?_, ?_, ?_, ?_, ?_, ?_⟩
  · exact hs.units.trans (unitsAfter_succ h rfl).symm
  · exact hs.location.trans (locationAfter_succ h rfl).symm
  · exact hs.origin.trans (originAfter_succ h rfl).symm
  · rw [openPathAfter_eq_nil_iff.2 hnone]
    rfl
  · rw [hnone]
    rfl
  · rw [hnone]
    rfl

/-- An instruction of none of the other kinds leaves path and location as they are. -/
theorem Tracks.keep {s s' : State} (hs : Tracks program initial n s)
    (h : program[n]? = some instruction) (hr : instruction.raises = false)
    (hrec : instruction.records = false) (hunits : s'.units = unitsAfter program initial (n + 1))
    (horigin : s'.origin = originAfter program initial (n + 1))
    (hsame : s'.location = s.location ∧ s'.openPath = s.openPath ∧ s'.isDown = s.isDown
      ∧ s'.tool = s.tool) :
    Tracks program initial (n + 1) s' := by
  obtain ⟨hl, hp⟩ := Bool.or_eq_false_iff.1 hrec
  obtain ⟨hlocation, hpath, hdown, htool⟩ := hsame
  refine ⟨hunits, ?_, horigin, ?_, ?_, ?_⟩
  · rw [hlocation, locationAfter_succ h hp, hs.location]
  · rw [hpath, openPathAfter_keep h hr hrec, hs.openPath]
  · rw [hdown, firstDown_keep h hr hl, hs.isDown]
  · rw [htool, firstDown_keep h hr hl, toolAfter_succ h hl, hs.tool]

/-- The path is empty exactly when no tool has been lowered. -/
theorem Tracks.openPath_isEmpty {s : State} (hs : Tracks program initial n s) :
    s.openPath.isEmpty = (firstDown program n).isNone := by
  rw [← Array.isEmpty_toList, hs.openPath, Bool.eq_iff_iff, List.isEmpty_iff,
    openPathAfter_eq_nil_iff, Option.isNone_iff_eq_none]

/-- **The step law.** An instruction that does not end the data goes on, asks for the drawing of its
position, and keeps the invariant. -/
theorem Tracks.step {s : State} (hs : Tracks program initial n s) (token : Token)
    (offsets : Offsets) (h : program[n]? = some instruction) (hgo : endsAt program n = false) :
    (s.react token instruction).outcome = .ok .proceed
      ∧ (s.react token instruction).drawing.map (Drawing.shift offsets)
        = callAt program initial offsets n
      ∧ Tracks program initial (n + 1) (s.react token instruction).after := by
  cases instruction with
  | move x y =>
    refine ⟨rfl, by simp [callAt, h, State.react, Reaction.change], ?_⟩
    have hplaced := hs.moveTo h rfl
    rw [locationAfter_move h, ← hs.units] at hplaced
    exact hplaced
  | goToOrigin =>
    refine ⟨rfl, by simp [callAt, h, State.react, Reaction.change], ?_⟩
    have hplaced := hs.moveTo h rfl
    rw [locationAfter_goToOrigin h, ← hs.origin] at hplaced
    exact hplaced
  | stop => simp [endsAt, h] at hgo
  | unsupported feature => simp [endsAt, h] at hgo
  | toolUp =>
    refine ⟨rfl, ?_, hs.raise h⟩
    rw [callAt_toolUp offsets h]
    simp only [State.react, State.openDrawing, hs.openPath_isEmpty, openPathAfter_eq_nil_iff,
      Option.isNone_iff_eq_none]
    -- whether there is a path is the same question to the state and to the positions
    by_cases hd : firstDown program n = none
    · simp [hd]
    · have htool : s.tool = toolAfter program n := by
        rw [hs.tool, if_pos (Option.isSome_iff_ne_none.2 hd)]
      simp [hd, hs.openPath, htool]
  | toolDown tool =>
    exact ⟨rfl, by simp [callAt, h, State.react, Reaction.change], hs.lower h⟩
  | drill =>
    -- with a path open the data would end here
    have hd : firstDown program n = none := by simpa [endsAt, h] using hgo
    have hempty : s.openPath.isEmpty = true := by rw [hs.openPath_isEmpty, hd]; rfl
    have hplace : locationAfter program initial (n + 1) = locationAfter program initial n :=
      locationAfter_succ h rfl
    rw [State.react, if_pos hempty]
    refine ⟨rfl, ?_, ?_⟩
    · simp [callAt, h, Drawing.shift, hs.location, hplace]
    · exact hs.keep h rfl rfl (hs.units.trans (unitsAfter_succ h rfl).symm)
        (hs.origin.trans (originAfter_succ h rfl).symm) ⟨rfl, rfl, rfl, rfl⟩
  | setOrigin =>
    refine ⟨rfl, by simp [callAt, h, State.react, Reaction.change], ?_⟩
    exact hs.keep h rfl rfl (hs.units.trans (unitsAfter_succ h rfl).symm)
      (hs.location.trans (originAfter_setOrigin h).symm) ⟨rfl, rfl, rfl, rfl⟩
  | setUnits units =>
    refine ⟨rfl, by simp [callAt, h, State.react, Reaction.change], ?_⟩
    exact hs.keep h rfl rfl (unitsAfter_setUnits h).symm
      (hs.origin.trans (originAfter_succ h rfl).symm) ⟨rfl, rfl, rfl, rfl⟩
  | _ =>
    refine ⟨rfl, by simp [callAt, h, State.react, Reaction.change], ?_⟩
    exact hs.keep h rfl rfl (hs.units.trans (unitsAfter_succ h rfl).symm)
      (hs.origin.trans (originAfter_succ h rfl).symm) ⟨rfl, rfl, rfl, rfl⟩

/-- An instruction at which the data end does not go on and asks for no drawing. -/
theorem Tracks.ending {s : State} (hs : Tracks program initial n s) (token : Token)
    (h : program[n]? = some instruction) (hend : endsAt program n = true) :
    (s.react token instruction).outcome ≠ .ok .proceed
      ∧ (s.react token instruction).drawing = none := by
  cases instruction with
  | stop => simp [State.react, Reaction.finish]
  | unsupported feature => simp [State.react, Reaction.finish]
  | drill =>
    have hd : (firstDown program n).isSome = true := by simpa [endsAt, h] using hend
    have hne : s.openPath.isEmpty = false := by
      rw [hs.openPath_isEmpty, Option.isNone_eq_false_iff]
      exact hd
    simp [State.react, hne, Reaction.finish]
  | _ => simp [endsAt, h] at hend

/-! ## 7. The whole course -/

/-- The first ending position is the extent. -/
theorem extent_of_endsAt (hn : n < program.length) (hend : endsAt program n = true)
    (hbefore : ∀ i < n, endsAt program i = false) : extent program = n := by
  have hfind : (List.range program.length).find? (endsAt program) = some n := by
    rw [List.find?_range_eq_some]
    exact ⟨hend, List.mem_range.2 hn, fun i hi => by simp [hbefore i hi]⟩
  rw [extent, hfind, Option.getD_some]

/-- Where no position ends the data, all of them are in the extent. -/
theorem extent_of_no_endsAt (hbefore : ∀ i < program.length, endsAt program i = false) :
    extent program = program.length := by
  have hfind : (List.range program.length).find? (endsAt program) = none := by
    rw [List.find?_eq_none]
    intro i hi
    simp [hbefore i (List.mem_range.1 hi)]
  rw [extent, hfind, Option.getD_none]

/-- The positions that have been passed are not past the end. -/
theorem le_extent (hn : n ≤ program.length) (hbefore : ∀ i < n, endsAt program i = false) :
    n ≤ extent program := by
  rw [extent]
  cases hfind : (List.range program.length).find? (endsAt program) with
  | none => exact hn
  | some i =>
    refine Nat.le_of_not_lt fun hlt => ?_
    have hend := List.find?_some hfind
    rw [hbefore i hlt] at hend
    cases hend

/-- The token that is read next is the instruction at the next position. -/
theorem getElem?_of_drop {tokens rest : List Token} {token : Token}
    (hprogram : program = tokens.map Instruction.ofToken) (hrest : tokens.drop n = token :: rest) :
    program[n]? = some (Instruction.ofToken token) ∧ tokens.drop (n + 1) = rest := by
  have hlt : n < tokens.length := by
    refine Nat.lt_of_not_le fun hle => ?_
    rw [List.drop_eq_nil_iff.2 hle] at hrest
    cases hrest
  rw [List.drop_eq_getElem_cons hlt] at hrest
  obtain ⟨htoken, hrest⟩ := List.cons_eq_cons.1 hrest
  refine ⟨?_, hrest⟩
  rw [hprogram, List.getElem?_map, List.getElem?_eq_getElem hlt, htoken]
  rfl

/-- What is left of the course after `n` instructions are the drawings of the positions from `n` on.
The induction is on the tokens that are left; the invariant says that the state knows no more of
those before than their positions do. -/
theorem follow_eq_timeline (tokens : List Token) (offsets : Offsets)
    (hprogram : program = tokens.map Instruction.ofToken) (rest : List Token) (n : Nat)
    (s : State) (hs : Tracks program initial n s) (hrest : tokens.drop n = rest)
    (hn : n ≤ program.length) (hbefore : ∀ i < n, endsAt program i = false) :
    (s.follow rest).drawings.map (Drawing.shift offsets)
        = (List.range' n (extent program - n)).filterMap (callAt program initial offsets)
      ∧ ((s.follow rest).outcome = .ok .proceed ↔ extent program = program.length) := by
  induction rest generalizing n s with
  | nil =>
    -- every position has been passed, and the data have not ended at any
    have hlen : program.length = n := by
      have := List.drop_eq_nil_iff.1 hrest
      rw [hprogram, List.length_map] at hn ⊢
      omega
    have hall : extent program = n := by
      rw [extent_of_no_endsAt (by rwa [hlen]), hlen]
    rw [hall, hlen, Nat.sub_self]
    simp [State.follow]
  | cons token rest ih =>
    obtain ⟨hat, hrest⟩ := getElem?_of_drop hprogram hrest
    have hlt' : n < program.length := (List.getElem?_eq_some_iff.1 hat).1
    cases hend : endsAt program n with
    | true =>
      -- the data end here, and no position is left
      obtain ⟨hout, hnone⟩ := hs.ending token hat hend
      have hextent := extent_of_endsAt hlt' hend hbefore
      rw [State.follow_cons_of_end rest hout, hextent, Nat.sub_self]
      refine ⟨by simp [hnone], ?_⟩
      constructor
      · intro hgo
        exact absurd hgo hout
      · intro heq
        omega
    | false =>
      -- the first drawing is that of position `n`, and the others are those of the rest
      obtain ⟨hout, hcall, hnext⟩ := hs.step token offsets hat hend
      have hbefore' : ∀ i < n + 1, endsAt program i = false := by
        intro i hi
        rcases Nat.lt_succ_iff_lt_or_eq.1 hi with hi | rfl
        · exact hbefore i hi
        · exact hend
      have hle := le_extent hlt' hbefore'
      obtain ⟨ihdrawings, ihout⟩ := ih (n + 1) _ hnext hrest hlt' hbefore'
      rw [State.follow_cons_of_proceed rest hout]
      refine ⟨?_, ihout⟩
      have hrange : extent program - n = (extent program - (n + 1)) + 1 := by omega
      rw [hrange, List.range'_succ, List.filterMap_cons, ← hcall]
      show List.map _ (_ ++ _) = _
      rw [List.map_append, ihdrawings]
      cases (s.react token (Instruction.ofToken token)).drawing <;> rfl

end Positions

/-- **What a command file draws.** An interpreter that starts on an accepting plotter hands over the
drawings of the positions before the first stop or fault, in their order, and nothing else; it comes
to the end of the data exactly when there is no such position. -/
theorem drawings_eq_timeline {σ : Type} [Plotter σ] {plotter : σ}
    (accepting : Plotter.Accepting plotter) (units : Units) (offsets : Offsets)
    (tokens : List Token) :
    let run := (Interpreter.new plotter units offsets).runTokens tokens
    let program := tokens.map Instruction.ofToken
    run.drawings = (List.range (extent program)).filterMap (callAt program units offsets)
      ∧ run.after.plotter = Plotter.afterAll plotter run.drawings
      ∧ (run.outcome = .ok .proceed ↔ extent program = program.length) := by
  intro run program
  have hsees : (Interpreter.new plotter units offsets).Sees run
      ((State.initial units).follow tokens) :=
    Interpreter.runTokens_of_accepting accepting tokens
  obtain ⟨hdrawings, hout⟩ := follow_eq_timeline tokens offsets rfl tokens 0 _
    (tracks_initial program units) rfl (Nat.zero_le _) (fun i hi => absurd hi (Nat.not_lt_zero i))
  refine ⟨?_, hsees.plotter, ?_⟩
  · rw [hsees.drawings, List.range_eq_range']
    exact hdrawings
  · rw [hsees.outcome]
    exact hout

/-- The tokens of a file that changes its units and its tool while a path is open, goes back to an
origin set before, and has more to say behind its stop code. -/
def sampleTokens : List Token :=
  [.coordinate 100 100, .command 'G' (some 4), .command 'D' (some 1), .command 'G' (some 70),
    .coordinate 300 50, .command 'B' none, .command 'M' (some 70), .command 'A' none,
    .command 'R' none, .command 'M' (some 0), .command 'R' none]

/-- A recorder gets one path of four points, all of them under the tool lowered last and moved by
the offset of that tool, and one drill mark at the origin, moved by the offset of the drill. -/
theorem drawings_of_sampleTokens :
    let offsets : Offsets := ⟨⟨8.0, 16.0⟩, ⟨0.5, -0.25⟩, ⟨-3.0, 4.0⟩⟩
    Plotter.Accepting Recorder.new
      ∧ ((Interpreter.new Recorder.new .hundredthsOfInch offsets).runTokens sampleTokens).drawings
        = [.path .cut [⟨1.5, 0.75⟩, ⟨0.8, -0.2⟩, ⟨0.8, -0.2⟩, ⟨1.5, 0.75⟩],
          .drill ⟨-2.0, 5.0⟩] := by
  intro offsets
  have haccepting : Plotter.Accepting Recorder.new := Recorder.accepting fun _ => rfl
  refine ⟨haccepting, (drawings_eq_timeline haccepting _ _ _).1.trans ?_⟩
  -- the locations are found one after the other, because `locationAfter` does not compute
  let place := locationAfter (sampleTokens.map ofToken) .hundredthsOfInch
  have h1 : place 1 = Units.hundredthsOfInch.pointAt 100 100 := locationAfter_move rfl
  have h2 : place 2 = place 1 := locationAfter_succ rfl rfl
  have h3 : place 3 = place 2 := locationAfter_succ rfl rfl
  have h5 : place 5 = Units.thousandthsOfInch.pointAt 300 50 := locationAfter_move rfl
  have h6 : place 6 = place 5 := locationAfter_succ rfl rfl
  have h7 : place 7 = place 2 := locationAfter_goToOrigin rfl
  have h8 : place 8 = place 7 := locationAfter_succ rfl rfl
  have h9 : place 9 = place 8 := locationAfter_succ rfl rfl
  calc (List.range (extent (sampleTokens.map ofToken))).filterMap
        (callAt (sampleTokens.map ofToken) .hundredthsOfInch offsets)
      = [.path .cut [place 3 + offsets.cut, place 5 + offsets.cut, place 6 + offsets.cut,
            place 7 + offsets.cut],
          .drill (place 9 + offsets.drill)] := rfl
    _ = [.path .cut
            [Units.hundredthsOfInch.pointAt 100 100 + offsets.cut,
              Units.thousandthsOfInch.pointAt 300 50 + offsets.cut,
              Units.thousandthsOfInch.pointAt 300 50 + offsets.cut,
              Units.hundredthsOfInch.pointAt 100 100 + offsets.cut],
          .drill (Units.hundredthsOfInch.pointAt 100 100 + offsets.drill)] := by
      rw [h9, h8, h7, h6, h5, h3, h2, h1]
    _ = _ := by decide +kernel

end Timeline

end Photoplot
