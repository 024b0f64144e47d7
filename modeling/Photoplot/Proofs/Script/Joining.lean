import Photoplot.Proofs.Geometry.Bounds
import Photoplot.Proofs.Script.Waves

/-!
Scripts put together.

A joint script is made of the waves of its parts: `joined` puts them one behind the other, and
`Block.renumber` says what becomes of a block that moves behind so many other waves. It is renamed,
and the directives of a first wave are left out when it is no longer the first. Both speak of blocks
of finished parts and not of calls, so they say how a joint script could be made from the scripts of
its inputs alone.

**What is proved, and where the work is.**

* Moving the blocks of a wave behind other waves gives the blocks of the wave with the greater
  number (`renumber_waveBlocks`). The tables are renamed one by one; the directives of a first wave
  vanish, because they are written for the number one and for no other.
* So the joined blocks of some parts are the blocks of all their drawings in a row
  (`joined_eq_body`), by induction on the parts, with the count of the waves so far going along.
* The box around everything joins the boxes around the parts (`foldl_join_bounds`). That boxes are
  joined where a writer would grow one is the matter of `Geometry.Bounds`.

Main statement: `joins_of_wrote`, a writer that has taken the drawings of all the parts has written
just that.
-/

set_option autoImplicit false

namespace Photoplot.Script

/-! ## 1. Renumbering waves -/

/-- The name of a table whose wave moves behind some more waves. -/
def TableName.renumber (earlier : Nat) : TableName → TableName
  | wave index => wave (index + earlier)
  | size index => size (index + earlier)
  | color index => color (index + earlier)
  | other => other

/-- A block of a wave that moves behind some more waves. Directives belong to the first wave of a
script, so they stay only if there are none. -/
def Block.renumber (earlier : Nat) : Block → Option Block
  | title => some title
  | table t => some (table { t with name := t.name.renumber earlier })
  | directive d => if earlier = 0 then some (directive d) else none

/-- The tables of a wave are those of the later wave, once they are renamed. -/
theorem renumber_waveTables (earlier wave : Nat) (d : Drawing) :
    (waveTables wave d).filterMap (Block.renumber earlier) = waveTables (wave + earlier) d := by
  cases d <;> rfl

/-- The blocks of an attachment are directives, all of them. -/
theorem exists_directive {wave : Nat} {d : Drawing} :
    ∀ b ∈ openingDirectives wave d, ∃ directive, b = .directive directive := by
  have hattachment : ∀ sized, ∀ b ∈ attachment wave sized, ∃ directive, b = .directive directive := by
    intro sized
    cases sized <;> simp [attachment]
  have hnote : ∀ start stop, ∀ b ∈ firstPathNote start stop, ∃ directive, b = .directive directive := by
    simp [firstPathNote]
  cases d with
  | path tool points =>
    rw [openingDirectives]
    split
    · intro b hb
      obtain hb | hb := List.mem_append.1 hb
      · exact hattachment true b hb
      · exact hnote _ _ b hb
    · intro b hb
      cases hb
  | drill center => exact hattachment false

/-- The directives of a first wave stay if it is still the first one. -/
theorem renumber_openingDirectives (earlier wave : Nat) (d : Drawing) :
    (openingDirectives wave d).filterMap (Block.renumber earlier)
      = if earlier = 0 then openingDirectives wave d else [] := by
  have hrenumber : ∀ b ∈ openingDirectives wave d,
      b.renumber earlier = if earlier = 0 then some b else none := by
    intro b hb
    obtain ⟨directive, rfl⟩ := exists_directive b hb
    rfl
  rw [List.filterMap_congr hrenumber]
  by_cases h : earlier = 0
  · simp only [if_pos h, List.filterMap_some]
  · simp only [if_neg h, List.filterMap_none]

/-- A wave that moves behind others is written as the wave that it becomes there. -/
theorem renumber_waveBlocks (earlier wave : Nat) (d : Drawing) :
    (waveBlocks (wave + 1) d).filterMap (Block.renumber earlier)
      = waveBlocks (wave + 1 + earlier) d := by
  rw [waveBlocks, waveBlocks, List.filterMap_append, renumber_waveTables]
  congr 1
  -- being wave one behind others is being wave one, and behind no others
  by_cases hwave : wave + 1 = 1
  · rw [if_pos hwave, renumber_openingDirectives]
    by_cases hearlier : earlier = 0
    · rw [if_pos hearlier, if_pos (by omega), hearlier, Nat.add_zero]
    · rw [if_neg hearlier, if_neg (by omega)]
  · rw [if_neg hwave, if_neg (by omega), List.filterMap_nil]

/-- **Renumbering.** The waves of some drawings behind more waves are those behind fewer waves,
renumbered. -/
theorem renumber_body (earlier before : Nat) (drawings : List Drawing) :
    (body before drawings).filterMap (Block.renumber earlier) = body (before + earlier) drawings := by
  induction drawings generalizing before with
  | nil => rfl
  | cons d rest ih =>
    rw [body, body, List.filterMap_append, renumber_waveBlocks, ih, Nat.add_right_comm]

/-! ## 2. Joint scripts -/

/-- The blocks that a writer has written since the preamble. -/
def Writer.waveSection (w : Writer) : List Block :=
  w.blocks.toList.drop preamble.length

/-- The waves of some scripts one behind the other, with so many other waves before them. -/
def joined (earlier : Nat) : List Writer → List Block
  | [] => []
  | w :: rest =>
    w.waveSection.filterMap (Block.renumber earlier) ++ joined (earlier + w.waves) rest

/-- **Joint scripts.** Behind the preamble stand the waves of the parts and nothing else, and the
box around everything joins the boxes around the parts. -/
structure Joins (parts : List Writer) (whole : Writer) : Prop where
  blocks : whole.blocks.toList = preamble ++ joined 0 parts
  waves : whole.waves = (parts.map Writer.waves).sum
  bounds : whole.bounds = (parts.map Writer.bounds).foldl Bounds.join Bounds.empty

theorem Writer.Wrote.waveSection_of_new {w : Writer} {drawings : List Drawing}
    (h : Writer.new.Wrote drawings w) : w.waveSection = body 0 drawings := by
  rw [waveSection, h.blocks_of_new, List.drop_left]

/-- A script is its preamble and its waves. -/
theorem Writer.Wrote.blocks_eq_waveSection {w : Writer} {drawings : List Drawing}
    (h : Writer.new.Wrote drawings w) : w.blocks.toList = preamble ++ w.waveSection := by
  rw [h.waveSection_of_new, h.blocks_of_new]

section Parts

variable {ι : Type} {inputs : List ι} {shown : ι → List Drawing} {part : ι → Writer}

/-- **Joined waves.** The waves of the parts, each moved behind those of the parts before it, are
the waves of all drawings in a row. -/
theorem joined_eq_body (hparts : ∀ i ∈ inputs, Writer.new.Wrote (shown i) (part i)) (earlier : Nat) :
    joined earlier (inputs.map part) = body earlier (inputs.flatMap shown) := by
  induction inputs generalizing earlier with
  | nil => rfl
  | cons i rest ih =>
    have hfirst := hparts i List.mem_cons_self
    rw [List.map_cons, List.flatMap_cons, joined, hfirst.waveSection_of_new, renumber_body,
      Nat.zero_add, body_append, hfirst.waves_of_new,
      ih fun j hj => hparts j (List.mem_cons_of_mem i hj)]

/-- The parts have as many waves together as there are drawings. -/
theorem sum_waves (hparts : ∀ i ∈ inputs, Writer.new.Wrote (shown i) (part i)) :
    ((inputs.map part).map Writer.waves).sum = (inputs.flatMap shown).length := by
  induction inputs with
  | nil => rfl
  | cons i rest ih =>
    rw [List.map_cons, List.map_cons, List.sum_cons, List.flatMap_cons, List.length_append,
      (hparts i List.mem_cons_self).waves_of_new, ih fun j hj => hparts j (List.mem_cons_of_mem i hj)]

/-- Box by box and point by point is the same. -/
theorem foldl_join_bounds (hparts : ∀ i ∈ inputs, Writer.new.Wrote (shown i) (part i)) {b : Bounds}
    (hb : b.Definite) :
    ((inputs.map part).map Writer.bounds).foldl Bounds.join b
      = b.growAll (inkedPoints (inputs.flatMap shown)) := by
  induction inputs generalizing b with
  | nil => rfl
  | cons i rest ih =>
    -- the box stays definite, so growing it is joining at every part
    have hbox : b.join (part i).bounds = b.growAll (inkedPoints (shown i)) := by
      rw [(hparts i List.mem_cons_self).bounds, hb.growAll]
      rfl
    rw [List.map_cons, List.map_cons, List.foldl_cons,
      ih (fun j hj => hparts j (List.mem_cons_of_mem i hj)) (hb.join _), hbox, List.flatMap_cons,
      inkedPoints_append, Bounds.growAll_append]

/-- What a writer has written that took the drawings of all the parts. -/
theorem joins_of_wrote (hparts : ∀ i ∈ inputs, Writer.new.Wrote (shown i) (part i)) {whole : Writer}
    (hwhole : Writer.new.Wrote (inputs.flatMap shown) whole) : Joins (inputs.map part) whole where
  blocks := by
    rw [joined_eq_body hparts]
    exact hwhole.blocks
  waves := by
    rw [sum_waves hparts, hwhole.waves_of_new]
  bounds := by
    rw [foldl_join_bounds hparts Bounds.definite_empty]
    exact hwhole.bounds

end Parts

end Photoplot.Script
