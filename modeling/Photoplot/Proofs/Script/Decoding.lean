import Photoplot.Proofs.Script.Tables

/-!
Reading drawings back from the text of a script.

`decode` knows nothing of the writer: it takes the tables that it finds in the text and puts the
drawings together again by the names of the tables. A wave whose next table holds sizes is a path,
and its tool is found by the row of the palette that its first point has. Any other wave is a drill
mark. The shape of a hole is undone by its vertical tick, which stands on the horizontal place of
the center, and its horizontal tick, which stands on the vertical one.

**What is proved, and where the work is.**

* The pieces of a drawing are read back from the cells of its tables (section 2): a tool from its
  colour, as no two tools have the same; a path from its points, as a number is read back from its
  text exactly; the center of a drill mark from two of its rows, which hold its coordinates as they
  are and not a sum of them.
* The decoder takes the tables of one wave off and goes on with the rest (`drawings?_waveTables`),
  and by induction on the drawings it takes off all waves (`drawings?_body`). Tables before and
  behind the waves are passed over, for their names do not begin like those of waves.
* That the tables are found in the text is the matter of `Tables`, and that the text is made of
  these blocks that of `Waves`.

Main statement: `script_decodes`, the text after any calls is well formed, and what is read from it
is what was taken, with the trailer and without it.
-/

set_option autoImplicit false

namespace Photoplot.Script

/-! ## 1. The decoder -/

/-- The tool that draws in a colour. -/
def toolOf? (color : List Char) : Option Tool :=
  [Tool.idle, .mark, .cut, .drill].find? fun tool => (toString tool.colorRow).toList = color

def pointOf? : List (List Char) → Option Point
  | [x, y] => do
    let x ← Decimal.read? x
    let y ← Decimal.read? y
    pure ⟨x, y⟩
  | _ => none

/-- The path with these points, in the colour of its first point. -/
def pathOf? (points colors : List (List (List Char))) : Option Drawing := do
  let points ← points.mapM pointOf?
  let color ← colors.head?.bind List.head?
  let tool ← toolOf? color
  pure (.path tool points)

/-- The hole with this mark. -/
def drillOf? (points : List (List (List Char))) : Option Drawing := do
  let points ← points.mapM pointOf?
  let horizontal ← points[0]?
  let vertical ← points[23]?
  pure (.drill ⟨vertical.x, horizontal.y⟩)

namespace Found

/-- Whether the name of a table begins with a word. -/
def isA (kind : String) (found : Found) : Bool :=
  kind.toList.isPrefixOf found.name

/-- Puts drawings together from the tables of their waves. A wave with sizes is a path; tables of
other kinds are passed over. -/
def drawings? : List Found → Option (List Drawing)
  | [] => some []
  | wave :: rest =>
    if wave.isA "wave" then
      match rest with
      | [] => none
      | second :: rest =>
        if second.isA "size" then
          match rest with
          | [] => none
          | color :: rest => do
            let d ← pathOf? wave.cells color.cells
            let further ← drawings? rest
            pure (d :: further)
        else do
          let d ← drillOf? wave.cells
          let further ← drawings? rest
          pure (d :: further)
    else drawings? rest

end Found

/-- The drawings that a script shows. -/
def decode (text : String) : Option (List Drawing) :=
  Found.drawings? (collect none (Text.splitAt '\n' text.toList))

/-! ## 2. Putting the drawings together -/

/-- No two tools draw in the same row of the palette. -/
theorem toolOf?_colorRow (tool : Tool) : toolOf? (toString tool.colorRow).toList = some tool := by
  cases tool <;> decide

/-- The cells of a table of points. -/
def pointCells (points : List Point) : List (List (List Char)) :=
  points.map fun p => [(Decimal.render p.x).toList, (Decimal.render p.y).toList]

/-- Points are read back from their cells exactly as they were. -/
theorem mapM_pointCells (points : List Point) : (pointCells points).mapM pointOf? = some points := by
  induction points with
  | nil => rfl
  | cons p points ih =>
    rw [pointCells] at ih ⊢
    simp only [List.map_cons, List.mapM_cons, ih, pointOf?, Decimal.read?_render]
    rfl

/-- A table whose name begins with a word is of that kind. -/
theorem isA_append (kind suffix : String) (cells : List (List (List Char))) :
    (Found.mk (kind ++ suffix).toList cells).isA kind = true := by
  rw [Found.isA, List.isPrefixOf_iff_prefix, String.toList_append]
  exact List.prefix_append _ _

/-- A path is read back from its points and the colours of its points. -/
theorem pathOf?_cells (tool : Tool) {points : List Point} (h : points ≠ []) :
    pathOf? (pointCells points)
        ((List.replicate points.length tool.colorRow).map fun n => [(toString n).toList])
      = some (.path tool points) := by
  obtain ⟨p, rest, rfl⟩ := List.exists_cons_of_ne_nil h
  simp only [pathOf?, mapM_pointCells, List.length_cons, List.replicate_succ, List.map_cons,
    List.head?_cons, Option.bind_eq_bind, Option.bind_some, toolOf?_colorRow]
  rfl

/-- The center of a hole is where its ticks cross. -/
theorem drillOf?_cells (center : Point) :
    drillOf? (pointCells (drillMark center)) = some (.drill center) := by
  rw [drillOf?, mapM_pointCells]
  rfl

/-- The first wave brings no further tables with it. -/
theorem found?_openingDirectives (wave : Nat) (d : Drawing) :
    (openingDirectives wave d).filterMap Block.found? = [] := by
  cases d with
  | path tool points =>
    rw [openingDirectives]
    split <;> rfl
  | drill center => rfl

theorem found_ofPoints (name : TableName) (points : List Point) :
    (Table.ofPoints name points).found = ⟨name.text.toList, pointCells points⟩ := by
  simp [Table.found, Table.ofPoints, pointCells, Cell.text]

theorem found_ofColumn (name : TableName) (numbers : List Nat) :
    (Table.ofColumn name numbers).found
      = ⟨name.text.toList, numbers.map fun n => [(toString n).toList]⟩ := by
  simp [Table.found, Table.ofColumn, Cell.text]

/-- The points of a wave are told by the name of their table. -/
theorem isA_wave (wave : Nat) (cells : List (List (List Char))) :
    (Found.mk (TableName.wave wave).text.toList cells).isA "wave" = true :=
  isA_append _ _ _

theorem isA_size (wave : Nat) (cells : List (List (List Char))) :
    (Found.mk (TableName.size wave).text.toList cells).isA "size" = true :=
  isA_append _ _ _

theorem isA_size_color (wave : Nat) (cells : List (List (List Char))) :
    (Found.mk (TableName.color wave).text.toList cells).isA "size" = false := by
  rw [Found.isA, TableName.text, String.toList_append]
  rfl

/-- **One wave.** Its tables are put together to the drawing that it came from. -/
theorem drawings?_waveTables {d : Drawing} (hd : d.Visible) (wave : Nat) (rest : List Found) :
    Found.drawings? ((waveTables wave d).filterMap Block.found? ++ rest)
      = (Found.drawings? rest).map (d :: ·) := by
  cases d with
  | path tool points =>
    have hfound : (waveTables wave (.path tool points)).filterMap Block.found?
        = [(Table.ofPoints (.wave wave) points).found,
          (Table.ofColumn (.size wave) (markerSizes points.length)).found,
          (Table.ofColumn (.color wave) (List.replicate points.length tool.colorRow)).found] :=
      rfl
    rw [hfound, found_ofPoints, found_ofColumn, found_ofColumn]
    simp only [List.cons_append, List.nil_append, Found.drawings?, isA_wave, isA_size, if_true,
      pathOf?_cells tool hd]
    cases Found.drawings? rest <;> rfl
  | drill center =>
    -- the second table is no table of sizes, and that is what makes it a hole
    have hfound : (waveTables wave (.drill center)).filterMap Block.found?
        = [(Table.ofPoints (.wave wave) (drillMark center)).found,
          (Table.ofColumn (.color wave)
            (List.replicate (drillMark center).length Tool.drill.colorRow)).found] :=
      rfl
    rw [hfound, found_ofPoints, found_ofColumn]
    rw [List.cons_append, List.cons_append, List.nil_append, Found.drawings?.eq_def]
    simp only [isA_wave, isA_size_color, if_true, Bool.false_eq_true, if_false, drillOf?_cells]
    cases Found.drawings? rest <;> rfl

/-- **All waves.** The drawings come back in their order. -/
theorem drawings?_body {drawings : List Drawing} (hd : ∀ d ∈ drawings, d.Visible) (before : Nat)
    (rest : List Found) :
    Found.drawings? ((body before drawings).filterMap Block.found? ++ rest)
      = (Found.drawings? rest).map (drawings ++ ·) := by
  induction drawings generalizing before with
  | nil =>
    show Found.drawings? rest = _
    cases Found.drawings? rest <;> rfl
  | cons d drawings ih =>
    -- what is written once stands behind the tables of the first wave, and holds no table itself
    have hopening : (if before + 1 = 1 then openingDirectives (before + 1) d else []).filterMap
        Block.found? = [] := by
      split
      · exact found?_openingDirectives _ d
      · rfl
    rw [body, waveBlocks, List.filterMap_append, List.filterMap_append, hopening, List.append_nil,
      List.append_assoc, drawings?_waveTables (hd d List.mem_cons_self),
      ih (fun d hd' => hd d (List.mem_cons_of_mem _ hd')) (before + 1), Option.map_map]
    rfl

/-- Tables that are no waves are passed over. -/
theorem drawings?_of_not_wave {others : List Found} (h : ∀ found ∈ others, found.isA "wave" = false)
    (rest : List Found) : Found.drawings? (others ++ rest) = Found.drawings? rest := by
  induction others with
  | nil => rfl
  | cons found others ih =>
    have hnot : ¬found.isA "wave" = true := by simp [h found List.mem_cons_self]
    rw [List.cons_append, Found.drawings?.eq_def]
    simp only [if_neg hnot]
    exact ih fun f hf => h f (List.mem_cons_of_mem _ hf)

/-! ## 3. Any script -/

/-- **Decoding.** Whatever stands around them, as long as it holds no waves of its own, the drawings
are read back from the text. -/
theorem decode_render {before after : List Block} {drawings : List Drawing}
    (hd : ∀ d ∈ drawings, d.Visible)
    (hbefore : ∀ found ∈ before.filterMap Block.found?, found.isA "wave" = false)
    (hafter : ∀ found ∈ after.filterMap Block.found?, found.isA "wave" = false) :
    decode (render (before ++ body 0 drawings ++ after)) = some drawings := by
  have hrest : Found.drawings? (after.filterMap Block.found?) = some [] := by
    have := drawings?_of_not_wave hafter []
    rw [List.append_nil] at this
    exact this
  rw [decode, collect_render, List.filterMap_append, List.filterMap_append, List.append_assoc,
    drawings?_of_not_wave hbefore, drawings?_body hd, hrest, Option.map_some, List.append_nil]

/-- No table of the preamble looks like a wave. -/
theorem found_preamble : ∀ found ∈ preamble.filterMap Block.found?, found.isA "wave" = false := by
  decide

/-- No table of the trailer does. -/
theorem found_trailer (w : Writer) :
    ∀ found ∈ w.trailer.filterMap Block.found?, found.isA "wave" = false := by
  rw [Writer.trailer]
  split
  · decide
  · intro found hfound
    have hone : found = (Table.ofColumn .graphFirstWave w.graphStarts).found :=
      List.mem_singleton.1 hfound
    have hname : "wave".toList.isPrefixOf TableName.graphFirstWave.text.toList = false := by decide
    rw [hone, found_ofColumn]
    exact hname

/-- **The script of any calls.** Everything visible is taken, in order. The text is the preamble,
the lines of one numbered wave for each drawing, and the trailer once the script is finished; every
sheet holds as much as it declares, and the drawings are read back from the text. -/
theorem script_decodes (calls : List Call) :
    let w := Writer.new.performAll calls
    let drawings := Writer.new.taken calls
    drawings = calls.filterMap Call.visible?
      ∧ w.waves = drawings.length
      ∧ (∀ d ∈ drawings, ∀ wave, ∀ s ∈ sheets wave d, s.Sound)
      ∧ w.text = render preamble
        ++ unlines ((drawings.zipIdx 1).flatMap fun (d, wave) => waveLines wave d)
      ∧ w.finishedText = w.text ++ render w.trailer
      ∧ decode w.text = some drawings
      ∧ decode w.finishedText = some drawings := by
  have hwrote := Writer.performAll_wrote Writer.latched_new calls
  have htaken := Writer.taken_eq Writer.new calls
  have hvisible : ∀ d ∈ calls.filterMap Call.visible?, d.Visible := by
    intro d hd
    obtain ⟨call, -, hcall⟩ := List.mem_filterMap.1 hd
    exact Call.visible_of_visible? hcall
  have hblocks := hwrote.blocks_of_new
  intro w drawings
  have hdrawings : drawings = calls.filterMap Call.visible? := htaken
  have htext : w.text = render (preamble ++ body 0 drawings) := by
    rw [Writer.text, hdrawings]
    exact congrArg render hblocks
  have hfinished : w.finishedText = render (preamble ++ body 0 drawings ++ w.trailer) := by
    rw [Writer.finishedText, hdrawings]
    exact congrArg (fun blocks => render (blocks ++ w.trailer)) hblocks
  rw [← hdrawings] at hvisible
  -- the unfinished text is decoded as the text with an empty trailer
  refine ⟨hdrawings, ?_, fun d hd wave => sheets_sound (hvisible d hd) wave, ?_, ?_, ?_, ?_⟩
  · rw [hdrawings]
    exact hwrote.waves_of_new
  · rw [htext, render_append, render_body hvisible]
  · rw [hfinished, htext, render_append]
  · have := @decode_render preamble [] drawings hvisible found_preamble (by simp)
    rwa [List.append_nil, ← htext] at this
  · rw [hfinished]
    exact decode_render hvisible found_preamble (found_trailer w)

end Photoplot.Script
