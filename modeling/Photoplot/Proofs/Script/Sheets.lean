import Photoplot.Proofs.Script.Waves

/-!
The text of a wave.

A table of a script declares its size in its first line, and the rows follow by themselves. `Sheet`
keeps the two apart: the counts that are declared, and the cells that are there. `sheets` says which
sheets a drawing becomes as the wave with a number, with the counts spelled out: as many rows as
there are points, or twenty-five for a drill mark. `Sheet.Sound` says that such counts are the true
ones.

**What is proved, and where the work is.**

* The sheets of a visible drawing are sound (`sheets_sound`). The marker sizes are the one column
  whose length is not that of a list at hand: five, eights, three, and a path of one point has only
  the five (`markerSizes_eq`).
* The tables that are written for a drawing have the lines of its sheets (`lines_waveTables`), and
  the waves of a script are spelled as its sheets say, with the opening directives between the first
  and the second (`render_body`). That is by induction on the drawings, from any number on.

The other modules on scripts take from here how a text is made of lines (`unlines`,
`render_append`).
-/

set_option autoImplicit false

namespace Photoplot.Script

/-! ## 1. Sheets -/

/-- A table as it stands in a script. -/
structure Sheet where
  name : String
  /-- The declared count of the rows. -/
  height : Nat
  /-- The declared count of the columns. A single column is not declared. -/
  width : Nat
  cells : List (List String)

namespace Sheet

/-- The size that the first line declares. -/
def size (s : Sheet) : String :=
  if s.width = 1 then "(" ++ toString s.height ++ ")"
  else "(" ++ toString s.height ++ "," ++ toString s.width ++ ")"

def lines (s : Sheet) : List String :=
  ["WAVES/O/N=" ++ s.size ++ " " ++ s.name, "BEGIN"]
    ++ s.cells.map (fun row => String.join (row.map ("\t" ++ ·))) ++ ["END"]

/-- **Soundness.** A sheet holds as many rows and columns as it declares. -/
def Sound (s : Sheet) : Prop :=
  s.cells.length = s.height ∧ ∀ row ∈ s.cells, row.length = s.width

/-- A sheet of points: two columns. -/
def ofPoints (name : String) (height : Nat) (points : List Point) : Sheet :=
  ⟨name, height, 2, points.map fun p => [Decimal.render p.x, Decimal.render p.y]⟩

/-- A sheet of whole numbers: one column. -/
def ofNumbers (name : String) (height : Nat) (numbers : List Nat) : Sheet :=
  ⟨name, height, 1, numbers.map fun n => [toString n]⟩

/-- A sheet of points is sound if it declares as many rows as it has points. -/
theorem sound_ofPoints {name : String} {height : Nat} {points : List Point}
    (h : points.length = height) : (ofPoints name height points).Sound := by
  refine ⟨by rw [ofPoints, List.length_map, h], ?_⟩
  intro row hrow
  obtain ⟨p, -, rfl⟩ := List.mem_map.1 hrow
  rfl

/-- A sheet of numbers is sound if it declares as many rows as it has numbers. -/
theorem sound_ofNumbers {name : String} {height : Nat} {numbers : List Nat}
    (h : numbers.length = height) : (ofNumbers name height numbers).Sound := by
  refine ⟨by rw [ofNumbers, List.length_map, h], ?_⟩
  intro row hrow
  obtain ⟨n, -, rfl⟩ := List.mem_map.1 hrow
  rfl

theorem lines_ofPoints (name : TableName) (points : List Point) :
    (Table.ofPoints name points).lines = (ofPoints name.text points.length points).lines := by
  simp [Table.lines, Table.ofPoints, Table.shape, Table.rowLine, Cell.text, lines, ofPoints, size]

theorem lines_ofNumbers (name : TableName) (numbers : List Nat) :
    (Table.ofColumn name numbers).lines = (ofNumbers name.text numbers.length numbers).lines := by
  simp [Table.lines, Table.ofColumn, Table.shape, Table.rowLine, Cell.text, lines, ofNumbers, size]

end Sheet

/-! ## 2. The sheets of a drawing -/

/-- The marker sizes of a path with `k` points: five at the start, three at the end, and eights
between them. A path of one point has only a start. -/
def sizeProfile (k : Nat) : List Nat :=
  if k = 1 then [5] else 5 :: (List.replicate (k - 2) 8 ++ [3])

/-- There is a marker size for each point. -/
theorem length_sizeProfile {k : Nat} (h : 0 < k) : (sizeProfile k).length = k := by
  rw [sizeProfile]
  split
  · rename_i hone
    rw [hone]
    rfl
  · simp
    omega

/-- The marker sizes that are written are those of the profile. -/
theorem markerSizes_eq {k : Nat} (h : 0 < k) : markerSizes k = sizeProfile k := by
  match k, h with
  | 1, _ => rfl
  | inner + 2, _ => rfl

/-- The sheets of the wave with a number. -/
def sheets (wave : Nat) : Drawing → List Sheet
  | .path tool points =>
    let k := points.length
    [.ofPoints ("wave" ++ toString wave) k points,
      .ofNumbers ("size" ++ toString wave) k (sizeProfile k),
      .ofNumbers ("color" ++ toString wave) k (List.replicate k tool.colorRow)]
  | .drill center =>
    [.ofPoints ("wave" ++ toString wave) 25 (drillMark center),
      .ofNumbers ("color" ++ toString wave) 25 (List.replicate 25 Tool.drill.colorRow)]

/-- A drill mark has twenty-five rows: two for either tick, twenty for the circle, and the break. -/
theorem length_drillMark (center : Point) : (drillMark center).length = 25 := rfl

/-- **Sound sheets.** What the sheets of a visible drawing declare is what they hold. -/
theorem sheets_sound {d : Drawing} (hd : d.Visible) (wave : Nat) :
    ∀ s ∈ sheets wave d, s.Sound := by
  cases d with
  | path tool points =>
    have hpos : 0 < points.length := List.length_pos_iff.2 hd
    simp only [sheets, List.mem_cons, List.not_mem_nil, or_false]
    rintro s (rfl | rfl | rfl)
    · exact Sheet.sound_ofPoints rfl
    · exact Sheet.sound_ofNumbers (length_sizeProfile hpos)
    · exact Sheet.sound_ofNumbers List.length_replicate
  | drill center =>
    simp only [sheets, List.mem_cons, List.not_mem_nil, or_false]
    rintro s (rfl | rfl)
    · exact Sheet.sound_ofPoints (length_drillMark center)
    · exact Sheet.sound_ofNumbers List.length_replicate

/-- The tables of a drawing are written as its sheets. -/
theorem lines_waveTables {d : Drawing} (hd : d.Visible) (wave : Nat) :
    (waveTables wave d).flatMap Block.lines = (sheets wave d).flatMap Sheet.lines := by
  cases d with
  | path tool points =>
    have hpos : 0 < points.length := List.length_pos_iff.2 hd
    simp only [waveTables, pathTables, sheets, List.flatMap_cons, List.flatMap_nil, Block.lines,
      Sheet.lines_ofPoints, Sheet.lines_ofNumbers, markerSizes_eq hpos, length_sizeProfile hpos,
      List.length_replicate]
    rfl
  | drill center =>
    simp only [waveTables, drillTables, sheets, List.flatMap_cons, List.flatMap_nil, Block.lines,
      Sheet.lines_ofPoints, Sheet.lines_ofNumbers, List.length_replicate, length_drillMark]
    rfl

/-! ## 3. The text of some drawings -/

/-- Lines as they stand in a file. -/
def unlines (lines : List String) : String :=
  String.join (lines.map (· ++ "\n"))

theorem unlines_append (first second : List String) :
    unlines (first ++ second) = unlines first ++ unlines second := by
  rw [unlines, unlines, unlines, List.map_append, String.join_append]

/-- The text of some blocks is made of their lines. -/
theorem render_eq_unlines (blocks : List Block) :
    render blocks = unlines (blocks.flatMap Block.lines) :=
  rfl

theorem render_append (first second : List Block) :
    render (first ++ second) = render first ++ render second := by
  rw [render_eq_unlines, List.flatMap_append, unlines_append]
  rfl

/-- The lines of the wave with a number. Behind the sheets of the first wave stand the directives
that are written once. -/
def waveLines (wave : Nat) (d : Drawing) : List String :=
  (sheets wave d).flatMap Sheet.lines
    ++ if wave = 1 then (openingDirectives wave d).flatMap Block.lines else []

/-- All that is written for a wave: its sheets, and the opening directives if it is the first. -/
theorem lines_waveBlocks {d : Drawing} (hd : d.Visible) (wave : Nat) :
    (waveBlocks wave d).flatMap Block.lines = waveLines wave d := by
  rw [waveBlocks, waveLines, List.flatMap_append, lines_waveTables hd]
  split <;> rfl

/-- **The text of the waves.** They are numbered without a gap. -/
theorem render_body {drawings : List Drawing} (hd : ∀ d ∈ drawings, d.Visible) (before : Nat) :
    render (body before drawings)
      = unlines ((drawings.zipIdx (before + 1)).flatMap fun (d, wave) => waveLines wave d) := by
  induction drawings generalizing before with
  | nil => rfl
  | cons d rest ih =>
    rw [body, render_append, ih (fun d hd' => hd d (List.mem_cons_of_mem _ hd')),
      render_eq_unlines, lines_waveBlocks (hd d List.mem_cons_self), ← unlines_append]
    rfl

end Photoplot.Script
