import Photoplot.Proofs.Decimal.RoundTrip
import Photoplot.Proofs.Script.Sheets
import Photoplot.Text.Split

/-!
Finding the tables in the text of a script.

`collect` reads a text line by line and knows only how a table begins and ends: by a line with a
name in it, a line `BEGIN`, and a line `END`. What stands between the last two are rows, and a row
is split at its tabs.

**What is proved, and where the work is.**

* A text that was made of lines is split into these lines again (`splitAt_unlines`), and a row into
  its cells (`lineCells_rowLine`), as long as no line has a line feed in it and no cell a tab. So
  section 3 goes through everything that can be written: numbers, names, directives, whole blocks
  (`oneLine_block`). Nothing there is deep, but nothing may be left out.
* A table is found as it was written (`collect_table`): its first line holds its name behind the
  only blank, and no row is taken for its end, since a row is empty or begins with a tab
  (`rowLine_ne`).
* Other blocks are passed over, because no directive begins like the first line of a table
  (`headerName?_of_directive`).

Main statement: `collect_render`, the tables that are found in the text of some blocks are the
tables among them, in order.
-/

set_option autoImplicit false

namespace Photoplot.Script

/-! ## 1. Reading tables -/

/-- A table found in a text: its name and its cells. -/
structure Found where
  name : List Char
  cells : List (List (List Char))

/-- The cells of a line, each behind a tab. -/
def lineCells (line : List Char) : List (List Char) :=
  (Text.splitAt '\t' line).tail

/-- The name that the first line of a table gives it. -/
def headerName? (line : List Char) : Option (List Char) :=
  if "WAVES/O/N=".toList.isPrefixOf line then some (line.dropWhile (· ≠ ' ')).tail else none

/-- Collects the tables of some lines, with the table that is being read. -/
def collect : Option Found → List (List Char) → List Found
  | _, [] => []
  | none, line :: rest => collect ((headerName? line).map fun name => ⟨name, []⟩) rest
  | some found, line :: rest =>
    if line = "BEGIN".toList then collect (some found) rest
    else if line = "END".toList then found :: collect none rest
    else collect (some { found with cells := found.cells ++ [lineCells line] }) rest

/-! ## 2. Lines and cells -/

/-- A text without a separator is its only part. -/
theorem splitAt_of_not_mem {separator : Char} {cs : List Char} (h : separator ∉ cs) :
    Text.splitAt separator cs = [cs] := by
  induction cs with
  | nil => rfl
  | cons c cs ih =>
    have hc : c ≠ separator := fun heq => h (heq ▸ List.mem_cons_self)
    rw [Text.splitAt, if_neg hc, ih fun hmem => h (List.mem_cons_of_mem _ hmem)]

/-- The first part ends at the first separator. -/
theorem splitAt_append {separator : Char} {cs : List Char} (h : separator ∉ cs) (rest : List Char) :
    Text.splitAt separator (cs ++ separator :: rest) = cs :: Text.splitAt separator rest := by
  induction cs with
  | nil =>
    rw [List.nil_append, Text.splitAt, if_pos rfl]
  | cons c cs ih =>
    have hc : c ≠ separator := fun heq => h (heq ▸ List.mem_cons_self)
    rw [List.cons_append, Text.splitAt, if_neg hc,
      ih fun hmem => h (List.mem_cons_of_mem _ hmem)]

/-- Lines without a line feed of their own are found again. -/
theorem splitAt_unlines {lines : List String} (h : ∀ line ∈ lines, '\n' ∉ line.toList) :
    Text.splitAt '\n' (unlines lines).toList = lines.map String.toList ++ [[]] := by
  induction lines with
  | nil => rfl
  | cons line rest ih =>
    have htext : (unlines (line :: rest)).toList
        = line.toList ++ '\n' :: (unlines rest).toList := by
      simp [unlines, String.toList_join]
    rw [htext, splitAt_append (h line List.mem_cons_self),
      ih fun l hl => h l (List.mem_cons_of_mem _ hl)]
    rfl

/-- A row is written cell by cell, with a tab before each. -/
theorem toList_rowLine_cons (cell : Cell) (row : List Cell) :
    (Table.rowLine (cell :: row)).toList
      = '\t' :: (cell.text.toList ++ (Table.rowLine row).toList) := by
  simp [Table.rowLine, String.toList_join]

/-- Cells without a tab of their own are found again. -/
theorem lineCells_rowLine {row : List Cell} (h : ∀ cell ∈ row, '\t' ∉ cell.text.toList) :
    lineCells (Table.rowLine row).toList = row.map fun cell => cell.text.toList := by
  -- a tab ends the piece before it, so the induction is for a row behind any such piece
  have hsplit : ∀ (row : List Cell) (before : List Char), '\t' ∉ before →
      (∀ cell ∈ row, '\t' ∉ cell.text.toList) →
      Text.splitAt '\t' (before ++ (Table.rowLine row).toList)
        = before :: row.map fun cell => cell.text.toList := by
    intro row
    induction row with
    | nil =>
      intro before hbefore _
      simpa [Table.rowLine] using splitAt_of_not_mem hbefore
    | cons cell row ih =>
      intro before hbefore hrow
      rw [toList_rowLine_cons, splitAt_append hbefore, ih _ (hrow cell List.mem_cons_self)
        fun c hc => hrow c (List.mem_cons_of_mem _ hc)]
      rfl
  have := hsplit row [] List.not_mem_nil h
  rw [List.nil_append] at this
  rw [lineCells, this]
  rfl

/-! ## 3. What stands in a line -/

theorem isDigit_of_mem_toString {n : Nat} {c : Char} (h : c ∈ (toString n).toList) :
    c.isDigit = true := by
  rw [Nat.toString_eq_ofList_toDigits, String.toList_ofList] at h
  exact Nat.isDigit_of_mem_toDigits (by decide) (by decide) h

/-- A cell holds nothing but a number. -/
theorem isNumeric_of_mem_cell {cell : Cell} : ∀ c ∈ cell.text.toList, Decimal.IsNumeric c := by
  intro c hc
  cases cell with
  | whole n => exact Decimal.isNumeric_of_isDigit (isDigit_of_mem_toString hc)
  | real x => exact Decimal.isNumeric_of_mem_render c hc

theorem tab_not_mem_cell (cell : Cell) : '\t' ∉ cell.text.toList :=
  fun h => absurd (isNumeric_of_mem_cell _ h) (by decide)

theorem newline_not_mem_cell (cell : Cell) : '\n' ∉ cell.text.toList :=
  fun h => absurd (isNumeric_of_mem_cell _ h) (by decide)

/-- Text without a line feed. -/
def OneLine (text : String) : Prop :=
  '\n' ∉ text.toList

/-- Whether a literal text is one line can be looked up. -/
theorem oneLine_ofList {cs : List Char} (h : cs.all (· != '\n') = true) :
    OneLine (String.ofList cs) := by
  intro hmem
  rw [String.toList_ofList] at hmem
  exact absurd (List.all_eq_true.1 h _ hmem) (by decide)

theorem oneLine_append (a b : String) : OneLine (a ++ b) ↔ OneLine a ∧ OneLine b := by
  simp [OneLine, not_or]

theorem oneLine_toString (n : Nat) : OneLine (toString n) :=
  newline_not_mem_cell (.whole n)

theorem oneLine_render (x : Float) : OneLine (Decimal.render x) :=
  newline_not_mem_cell (.real x)

/-- The name of a table is one line. -/
theorem oneLine_name (name : TableName) : OneLine name.text := by
  cases name with
  | wave | size | color =>
    rw [TableName.text, oneLine_append]
    exact ⟨oneLine_ofList rfl, oneLine_toString _⟩
  | plotColors | markerColors | graphFirstWave => exact oneLine_ofList rfl

theorem oneLine_axis (axis : Axis) : OneLine axis.name ∧ OneLine axis.label := by
  cases axis <;> exact ⟨oneLine_ofList rfl, oneLine_ofList rfl⟩

theorem oneLine_step (s : Step) : OneLine s.text := by
  unfold Step.text
  cases s <;>
    · simp only [placed, marked, braced, graphName, String.intercalate_cons_cons,
        String.intercalate_singleton, oneLine_append, oneLine_toString, and_true, true_and]
      and_intros <;> exact oneLine_ofList rfl

theorem oneLine_readout (r : Readout) : OneLine r.text := by
  unfold Readout.text
  cases r <;>
    · simp only [placed, marked, braced, graphName, String.intercalate_cons_cons,
        String.intercalate_singleton, oneLine_append, oneLine_toString, and_true, true_and]
      and_intros <;> exact oneLine_ofList rfl

/-- No directive takes more than a line, because nothing that it is put together from does. -/
theorem oneLine_directive (d : Directive) : OneLine d.text := by
  cases d with
  | stepButton s => exact oneLine_step s
  | readout r => exact oneLine_readout r
  | _ =>
    -- the strings are spelled out first, so that only literal text is left to look at
    unfold Directive.text
    simp only [braced, marked, graphName, Point.render, String.intercalate_cons_cons,
      String.intercalate_singleton, oneLine_append, oneLine_toString, oneLine_render, oneLine_name,
      oneLine_axis, and_true, true_and]
    and_intros <;> exact oneLine_ofList rfl

/-- The declared size of a table is one line. -/
theorem oneLine_shape (t : Table) : OneLine t.shape := by
  rw [Table.shape]
  split
  · rw [oneLine_append, oneLine_append]
    exact ⟨⟨oneLine_ofList rfl, oneLine_toString _⟩, oneLine_ofList rfl⟩
  · simp only [oneLine_append, oneLine_toString, and_true]
    and_intros <;> exact oneLine_ofList rfl

/-- So is every row of it. -/
theorem oneLine_rowLine (row : List Cell) : OneLine (Table.rowLine row) := by
  intro h
  rw [Table.rowLine, String.toList_join, List.mem_flatMap] at h
  obtain ⟨text, htext, hmem⟩ := h
  obtain ⟨cell, -, rfl⟩ := List.mem_map.1 htext
  rw [String.toList_append, List.mem_append] at hmem
  rcases hmem with hmem | hmem
  · exact absurd hmem (by decide)
  · exact newline_not_mem_cell cell hmem

/-- Every line that is written is one line in the text. -/
theorem oneLine_block (b : Block) : ∀ line ∈ b.lines, OneLine line := by
  intro line hline
  cases b with
  | title =>
    obtain rfl := List.mem_singleton.1 hline
    exact oneLine_ofList rfl
  | directive d =>
    obtain rfl := List.mem_singleton.1 hline
    rw [oneLine_append]
    exact ⟨oneLine_ofList rfl, oneLine_directive d⟩
  | table t =>
    rw [Block.lines, Table.lines, List.mem_append, List.mem_append] at hline
    rcases hline with (hline | hline) | hline
    · simp only [List.mem_cons, List.not_mem_nil, or_false] at hline
      rcases hline with rfl | rfl
      · simp only [oneLine_append, oneLine_shape, oneLine_name, and_true]
        and_intros <;> exact oneLine_ofList rfl
      · exact oneLine_ofList rfl
    · obtain ⟨row, -, rfl⟩ := List.mem_map.1 hline
      exact oneLine_rowLine row
    · obtain rfl := List.mem_singleton.1 hline
      exact oneLine_ofList rfl

/-! ## 4. Collecting the tables -/

/-- A table as it is found in a text. -/
def Table.found (t : Table) : Found :=
  ⟨t.name.text.toList, t.rows.map fun row => row.map fun cell => cell.text.toList⟩

/-- What is found of a block. -/
def Block.found? : Block → Option Found
  | title => none
  | table t => some t.found
  | directive _ => none

/-- The declared size has no blank in it, so the blank before the name is the first one. -/
theorem blank_not_mem_shape (t : Table) : ' ' ∉ t.shape.toList := by
  have hdigits : ∀ n : Nat, ' ' ∉ (toString n).toList := fun n h =>
    absurd (isDigit_of_mem_toString h) (by decide)
  rw [Table.shape]
  split <;> simp only [String.toList_append, List.mem_append, not_or, hdigits, not_false_iff,
    and_true] <;> decide

/-- The name of a table is found in its first line. -/
theorem headerName?_of_header (t : Table) :
    headerName? ("WAVES/O/N=" ++ t.shape ++ " " ++ t.name.text).toList
      = some t.name.text.toList := by
  have hline : ("WAVES/O/N=" ++ t.shape ++ " " ++ t.name.text).toList
      = ("WAVES/O/N=".toList ++ t.shape.toList) ++ ' ' :: t.name.text.toList := by
    simp only [String.toList_append, List.append_assoc]
    rfl
  have hprefix : "WAVES/O/N=".toList.isPrefixOf
      (("WAVES/O/N=".toList ++ t.shape.toList) ++ ' ' :: t.name.text.toList) = true := by
    rw [List.isPrefixOf_iff_prefix, List.append_assoc]
    exact List.prefix_append _ _
  have hblank : ∀ c ∈ "WAVES/O/N=".toList ++ t.shape.toList, decide (c ≠ ' ') = true := by
    intro c hc
    rw [decide_eq_true_iff]
    rintro rfl
    rcases List.mem_append.1 hc with hc | hc
    · exact absurd hc (by decide)
    · exact blank_not_mem_shape t hc
  rw [hline, headerName?, if_pos hprefix, List.dropWhile_append_of_pos hblank]
  rfl

/-- A row never reads like the line that ends a table: it is empty or begins with a tab. -/
theorem rowLine_ne (row : List Cell) :
    (Table.rowLine row).toList ≠ "BEGIN".toList ∧ (Table.rowLine row).toList ≠ "END".toList := by
  cases row with
  | nil => decide
  | cons cell row =>
    rw [toList_rowLine_cons]
    constructor
    · intro h
      cases (List.cons.inj h).1
    · intro h
      cases (List.cons.inj h).1

/-- Inside a table every line up to `END` is taken for a row. -/
theorem collect_rows (name : List Char) (cells : List (List (List Char))) (rows : List (List Cell))
    (rest : List (List Char)) :
    collect (some ⟨name, cells⟩) (rows.map (fun row => (Table.rowLine row).toList)
        ++ "END".toList :: rest)
      = ⟨name, cells ++ rows.map fun row => row.map fun cell => cell.text.toList⟩
        :: collect none rest := by
  induction rows generalizing cells with
  | nil =>
    rw [List.map_nil, List.map_nil, List.append_nil, List.nil_append, collect, if_neg (by decide),
      if_pos rfl]
  | cons row rows ih =>
    -- neither of the two words, so the line is a row
    obtain ⟨hbegin, hend⟩ := rowLine_ne row
    rw [List.map_cons, List.cons_append, collect, if_neg hbegin, if_neg hend,
      lineCells_rowLine fun cell _ => tab_not_mem_cell cell, ih, List.append_assoc]
    rfl

/-- A table is found as it was written, and the search goes on behind it. -/
theorem collect_table (t : Table) (rest : List (List Char)) :
    collect none (t.lines.map String.toList ++ rest) = t.found :: collect none rest := by
  have hlines : t.lines.map String.toList ++ rest
      = ("WAVES/O/N=" ++ t.shape ++ " " ++ t.name.text).toList :: "BEGIN".toList
        :: (t.rows.map (fun row => (Table.rowLine row).toList) ++ "END".toList :: rest) := by
    simp [Table.lines]
  rw [hlines, collect, headerName?_of_header, Option.map_some, collect, if_pos rfl, collect_rows]
  rfl

/-- No directive is taken for the first line of a table. -/
theorem headerName?_of_directive (d : Directive) : headerName? ("X " ++ d.text).toList = none := by
  rw [String.toList_append]
  rfl

/-- **Collecting.** The tables are found as they were written, and nothing else is. -/
theorem collect_blocks (blocks : List Block) (rest : List (List Char)) :
    collect none ((blocks.flatMap Block.lines).map String.toList ++ rest)
      = blocks.filterMap Block.found? ++ collect none rest := by
  induction blocks with
  | nil => rfl
  | cons b blocks ih =>
    rw [List.flatMap_cons, List.map_append, List.append_assoc]
    cases b with
    -- lines outside a table are passed over, unless a table begins with them
    | title => exact ih
    | directive d =>
      show collect none (("X " ++ d.text).toList :: _) = _
      rw [collect, headerName?_of_directive]
      exact ih
    | table t =>
      rw [Block.lines, collect_table, ih]
      rfl

/-- **Tables.** What is found in the text of some blocks are the tables among them. -/
theorem collect_render (blocks : List Block) :
    collect none (Text.splitAt '\n' (render blocks).toList) = blocks.filterMap Block.found? := by
  have hlines : ∀ line ∈ blocks.flatMap Block.lines, OneLine line := by
    intro line hline
    obtain ⟨b, -, hb⟩ := List.mem_flatMap.1 hline
    exact oneLine_block b line hb
  rw [render_eq_unlines, splitAt_unlines hlines, collect_blocks]
  exact List.append_nil _

end Photoplot.Script
