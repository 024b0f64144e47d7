import Photoplot.Proofs.Command.Spelling
import Photoplot.Proofs.Conversion.Inputs
import Photoplot.Proofs.Script.Numbers

/-!
The numbers of a converted input.

A command file cannot bring in a number that is not finite: its coordinates are whole numbers of
thirty-two bits. Only the offsets can, for their texts are read as they are, and nobody looks what
numbers come of them. So whether the script of an input is sound is decided by the offsets of the
tools that draw, and by how far apart they draw.

**What is proved, and where the work is.**

* All coordinates of a text are near (`near_of_mem_course`): tokens are in range because that is how
  they are spelled, a given coordinate is as near as its units make it, and every drawing consists
  of given coordinates. So a drawing is moved to finite points by a finite offset and by no other
  (`Drawing.finite_shift_iff`).
* `Tame` is a condition on settings and text alone, with the box of what is drawn but no writer in
  it. That it decides whether the script is sound is then a matter of what a writer has written
  (`sound_of_wrote`), once it is known that an interpreter hands over nothing that a writer refuses
  (`shown_eq`).
* Offsets of up to `2 ^ 1000` inches are tame on every input (`tame_of_modest`). This is where there
  is something to estimate: the sum of a near and a modest number, and the span of two such sums,
  with the margins.
* `unsound_of_offsets` shows both ways to fail, for offsets that are accepted as they are: one that
  is not a number, which even takes the trailer away, and two that are finite and too far apart.

Main statement: `sound_iff_tame`.
-/

set_option autoImplicit false

namespace Photoplot

open Decimal

/-- A visible drawing of near points is moved to finite points by a finite offset, and by no other.
-/
theorem Drawing.finite_shift_iff {d : Drawing} (hnear : d.All Point.Near) (hvisible : d.Visible)
    (o : Offsets) : (d.shift o).All Point.Finite ↔ (o.of d.maker).Finite := by
  cases d with
  | drill center => exact Point.Near.finite_add_iff hnear o.drill
  | path tool points =>
    constructor
    · intro h
      obtain ⟨p, hp⟩ := List.exists_mem_of_ne_nil points hvisible
      exact ((hnear p hp).finite_add_iff _).1 (h _ (List.mem_map_of_mem hp))
    · intro h
      exact hnear.shift fun p hp => (hp.finite_add_iff _).2 h

namespace Conversion

open Script

section Numbers

variable {settings : Settings} {text : String}

/-- All coordinates of a command file are near. -/
theorem near_of_mem_course : ∀ d ∈ (course settings text).drawings, d.All Point.Near := by
  refine State.follow_within ?_ (State.within_initial Point.near_zero settings.units)
  intro u x y hgiven
  rw [← tokens_eq_filterMap] at hgiven
  cases writable_of_mem_tokens hgiven with
  | coordinate hx hy =>
    unfold Token.InRange at hx hy
    exact u.near_pointAt (by omega) (by omega)

/-- An interpreter hands over nothing that a writer refuses. -/
theorem shown_eq : shown settings text
    = (course settings text).drawings.map (Drawing.shift settings.offsets) := by
  rw [shown, calls, List.filterMap_map, ← List.filterMap_eq_map]
  apply List.filterMap_congr
  intro d hd
  have hvisible := (Drawing.visible_shift settings.offsets d).2
    (State.follow_visible _ _ d hd)
  exact if_pos hvisible

theorem visible_of_mem_shown : ∀ d ∈ shown settings text, d.Visible := by
  intro d hd
  obtain ⟨call, -, hcall⟩ := List.mem_filterMap.1 hd
  exact Call.visible_of_visible? hcall

/-- What is shown has finite points exactly when the offsets of its tools are finite. -/
theorem finite_shown_iff : (∀ d ∈ shown settings text, d.All Point.Finite)
    ↔ ∀ d ∈ shown settings text, (settings.offsets.of d.maker).Finite := by
  rw [shown_eq, List.forall_mem_map, List.forall_mem_map]
  apply forall₂_congr
  intro d hd
  rw [Drawing.maker_shift]
  exact Drawing.finite_shift_iff (near_of_mem_course d hd) (State.follow_visible _ _ d hd) _

/-- **Tame.** What it takes for the script of an input to be sound: whatever draws has a finite
offset, and what the paths span on either axis does not overflow, margins included. -/
structure Tame (settings : Settings) (text : String) : Prop where
  offsets : ∀ d ∈ shown settings text, (settings.offsets.of d.maker).Finite
  ranges : HasPath (shown settings text) →
    let box := Bounds.empty.growAll (inkedPoints (shown settings text))
    Fits box.minX box.maxX ∧ Fits box.minY box.maxY

/-- A writer that has written what is shown has a sound script exactly when the settings are tame.
-/
theorem sound_of_wrote {w : Writer} (h : Writer.new.Wrote (shown settings text) w) :
    Sound (shown settings text) w ↔ Tame settings text := by
  rw [Writer.sound_iff h visible_of_mem_shown, finite_shown_iff, h.bounds_of_new]
  exact ⟨fun ⟨hoffsets, hranges⟩ => ⟨hoffsets, hranges⟩,
    fun ⟨hoffsets, hranges⟩ => ⟨hoffsets, hranges⟩⟩

/-- Offsets far below the limit are tame, whatever the input is. -/
theorem tame_of_modest (h : ∀ tool, (settings.offsets.of tool).Modest) : Tame settings text := by
  have hoffsets : ∀ d ∈ shown settings text, (settings.offsets.of d.maker).Finite :=
    fun d _ => ⟨(h d.maker).1.isFinite, (h d.maker).2.isFinite⟩
  have hsmall : ∀ d ∈ shown settings text, d.All Point.Small := by
    rw [shown_eq, List.forall_mem_map]
    intro d hd
    exact (near_of_mem_course d hd).shift fun p hp => hp.small_add (h d.maker)
  have hfinite := forall_mem_inkedPoints (finite_shown_iff.2 hoffsets)
  refine ⟨hoffsets, ?_⟩
  intro hpath
  exact (Bounds.encloses_growAll hfinite (inkedPoints_ne_nil visible_of_mem_shown hpath)).fits
    hfinite (forall_mem_inkedPoints hsmall)

end Numbers

/-- **Sound scripts.** When the conversion of an input succeeds, what is written are the blocks of
its waves and of the trailer, and these are sound if and only if the settings are tame on the input.
All numbers of a sound script but those that break the line of a drill mark are written with digits,
a point and a minus sign. Offsets of up to `2 ^ 1000` inches are tame on every input. -/
theorem sound_iff_tame (settings : Settings) (name text : String)
    (hfault : (ofText name text settings Writer.new).fault = none) :
    let script := ofText name text settings Writer.new
    let blocks := script.state.blocks.toList ++ script.state.trailer
    scriptText script = render blocks
      ∧ (Sound (shown settings text) script.state ↔ Tame settings text)
      ∧ (Sound (shown settings text) script.state →
        ∀ block ∈ blocks, ∀ x ∈ block.reals (isDrilled (shown settings text)),
          ∀ c ∈ (Decimal.render x).toList, c.isDigit = true ∨ c = '.' ∨ c = '-')
      ∧ ((∀ tool, (settings.offsets.of tool).Modest) →
        Sound (shown settings text) script.state) := by
  intro script blocks
  have hwrote := ofText_wrote name text settings Writer.latched_new
  refine ⟨?_, sound_of_wrote hwrote, fun hsound => clean_iff_render.1 hsound.clean, ?_⟩
  · rw [scriptText, hfault]
    rfl
  · intro hmodest
    exact (sound_of_wrote hwrote).2 (tame_of_modest hmodest)

theorem modest_of_le {x : Float} (hx : x.isFinite = true) (hlow : Float.ofInt (-1) ≤ x)
    (hhigh : x ≤ Float.ofInt 1) : Modest x :=
  ⟨hx, (abs_exact_le_one hx hlow hhigh).trans (one_le_zpow₀ one_le_two (by norm_num))⟩

/-- With offsets of less than an inch, given as text for each of the tools, the script of a path and
a drill mark is sound. -/
theorem sound_iff_tame_sample :
    let preferences : Preferences :=
      ⟨none, some "0.5,-0.25", some " 1 , .75", some "-1,1e-3", none⟩
    ∃ settings, Settings.resolve preferences Preferences.none = .ok settings
      ∧ settings.offsets = ⟨⟨0.5, -0.25⟩, ⟨1.0, 0.75⟩, ⟨-1.0, 0.001⟩⟩
      ∧ (ofText "plate" "D1X100Y100D2RM0" settings Writer.new).fault = none
      ∧ Sound (shown settings "D1X100Y100D2RM0")
        (ofText "plate" "D1X100Y100D2RM0" settings Writer.new).state := by
  intro preferences
  let settings : Settings :=
    ⟨.standard, ⟨⟨0.5, -0.25⟩, ⟨1.0, 0.75⟩, ⟨-1.0, 0.001⟩⟩, false⟩
  have hfault : (ofText "plate" "D1X100Y100D2RM0" settings Writer.new).fault = none := by
    decide +kernel
  obtain ⟨-, -, -, hsound⟩ := sound_iff_tame settings "plate" "D1X100Y100D2RM0" hfault
  refine ⟨settings, rfl, rfl, hfault, hsound ?_⟩
  intro tool
  cases tool <;> constructor <;> apply modest_of_le <;> decide +kernel

/-- What a user prefers who gives offsets for marking and cutting. -/
def offsetPreferences (mark cut : String) : Preferences :=
  ⟨none, some mark, some cut, none, none⟩

/-- A path of the marker, and one of the marker with one of the knife. -/
def markedText : String := "D1X100Y100D2M0"

@[inherit_doc markedText]
def cutText : String := "D1X100Y100D2BX0Y0AM0"

/-- **Offsets that are accepted.** An offset that is not a number leaves a path without a trailer,
and two offsets that are finite but too far apart make a range that is not. -/
theorem unsound_of_offsets :
    (∃ settings, Settings.resolve (offsetPreferences "nan,0" "0,0") Preferences.none = .ok settings
        ∧ (ofText "plate" markedText settings Writer.new).fault = none
        ∧ HasPath (shown settings markedText)
        ∧ (ofText "plate" markedText settings Writer.new).state.trailer = []
        ∧ ¬Sound (shown settings markedText) (ofText "plate" markedText settings Writer.new).state)
      ∧ ∃ settings,
        Settings.resolve (offsetPreferences "1e308,0" "-1e308,0") Preferences.none = .ok settings
          ∧ (∀ tool, (settings.offsets.of tool).Finite)
          ∧ (ofText "plate" cutText settings Writer.new).fault = none
          ∧ ¬Sound (shown settings cutText) (ofText "plate" cutText settings Writer.new).state := by
  constructor
  · refine ⟨⟨.standard, ⟨⟨missing, 0.0⟩, Point.zero, Point.zero⟩, false⟩, rfl, ?_, ?_, ?_, ?_⟩
    · decide +kernel
    · decide +kernel
    · exact if_pos (by decide +kernel)
    · intro hsound
      exact absurd hsound.clean (by decide +kernel)
  · have hresolve : Settings.resolve (offsetPreferences "1e308,0" "-1e308,0") Preferences.none
        = .ok ⟨.standard, ⟨⟨1e308, 0.0⟩, ⟨-1e308, 0.0⟩, Point.zero⟩, false⟩ := rfl
    refine ⟨_, hresolve, ?_, ?_, ?_⟩
    · intro tool
      cases tool <;> decide +kernel
    · decide +kernel
    · intro hsound
      exact absurd hsound.clean (by decide +kernel)

end Conversion

end Photoplot
