import Photoplot.Proofs.Decimal.RoundTrip
import Photoplot.Proofs.Geometry.Reach
import Photoplot.Proofs.Script.Trailer

/-!
The numbers of a script.

The tables of the waves hold the coordinates of what is drawn, the note on the first path repeats
some of them, and the ranges of the axes are computed from all paths. Each drill mark has one row
that stands for no point, and nowhere else is a number to be missing. A script is sound when all its
other numbers are finite, which is to say that they are spelled without letters
(`clean_iff_render`), and when a path comes with ranges whose ends are the right way round.

**What is proved, and where the work is.**

* The numbers of a block are collected by `Block.reals`, which leaves the row out that breaks the
  line of a drill mark. Which waves are drill marks is looked up in the list of the drawings, so the
  numbers of the blocks have to be compared with this list wave by wave (`clean_body_iff`).
* The rows of a wave are finite if and only if the points of its drawing are
  (`clean_waveTables_iff`). For a path there is nothing to do; for a drill mark the points of the
  circle and the ticks lie so close to the center that they are finite if and only if it is.
* The ranges are finite if and only if their ends do not overflow when they are padded
  (`clean_trailer_iff` and the lemmas on `Fits` in `Geometry.Reach`). This is asked only if there is
  a path, because otherwise there is no trailer.

Main statement: `Writer.sound_iff`, a script is sound if and only if the points of its drawings are
finite and the lengths of its ranges fit.
-/

set_option autoImplicit false

namespace Photoplot

/-- Whether a drawing is a drill mark. -/
def Drawing.isDrill : Drawing → Bool
  | path .. => false
  | drill _ => true

namespace Script

/-! ## 1. Numbers of blocks -/

/-- The real number in a cell, if there is one. -/
def Cell.real? : Cell → Option Float
  | whole _ => none
  | real x => some x

/-- The rows of a table, without the row that breaks the line of a drill mark. -/
def Table.unbrokenRows (drilled : Nat → Bool) (t : Table) : List (List Cell) :=
  match t.name with
  | .wave index => if drilled index then t.rows.eraseIdx breakRow else t.rows
  | _ => t.rows

/-- The real numbers of a directive. -/
def Directive.reals : Directive → List Float
  | firstStart p => [p.x, p.y]
  | firstEnd p => [p.x, p.y]
  | firstPathBox start stop => [start.x, start.y, stop.x, stop.y]
  | axisRange _ span => [span.low, span.high]
  | _ => []

/-- The real numbers of a block, but for the breaks of the waves that are drill marks. -/
def Block.reals (drilled : Nat → Bool) : Block → List Float
  | title => []
  | table t => (t.unbrokenRows drilled).flatten.filterMap Cell.real?
  | directive d => d.reals

/-- Which waves of a script are drill marks. -/
def isDrilled (drawings : List Drawing) (wave : Nat) : Bool :=
  (drawings[wave - 1]?).any Drawing.isDrill

/-- All real numbers of some blocks are finite. -/
def Clean (drilled : Nat → Bool) (blocks : List Block) : Prop :=
  ∀ block ∈ blocks, ∀ x ∈ block.reals drilled, x.isFinite = true

instance (drilled : Nat → Bool) (blocks : List Block) : Decidable (Clean drilled blocks) :=
  inferInstanceAs (Decidable (∀ block ∈ blocks, ∀ x ∈ block.reals drilled, x.isFinite = true))

/-- Numbers are finite if and only if their texts are numerals, that is if no letter of an `inf` or
a `NaN` is written. -/
theorem clean_iff_render {drilled : Nat → Bool} {blocks : List Block} :
    Clean drilled blocks ↔ ∀ block ∈ blocks, ∀ x ∈ block.reals drilled,
      ∀ c ∈ (Decimal.render x).toList, c.isDigit = true ∨ c = '.' ∨ c = '-' := by
  simp only [Clean, Decimal.isFinite_iff_render]

/-- There is a path if not all drawings are drill marks. -/
theorem hasPath_iff {drawings : List Drawing} :
    HasPath drawings ↔ ∃ d ∈ drawings, d.isDrill = false := by
  constructor
  · rintro ⟨tool, points, hmem⟩
    exact ⟨_, hmem, rfl⟩
  · rintro ⟨d, hmem, hpath⟩
    cases d with
    | path tool points => exact ⟨tool, points, hmem⟩
    | drill center => cases hpath

instance (drawings : List Drawing) : Decidable (HasPath drawings) :=
  decidable_of_iff' _ hasPath_iff

/-- **Sound scripts.** Every number is finite, but for the breaks of drill marks, and if there is a
path both axes have a range with its ends the right way round. -/
structure Sound (drawings : List Drawing) (w : Writer) : Prop where
  clean : Clean (isDrilled drawings) (w.blocks.toList ++ w.trailer)
  framed : HasPath drawings → ∀ axis, ∃ span,
    .directive (.axisRange axis span) ∈ w.trailer ∧ span.low ≤ span.high

section Blocks

variable {drilled : Nat → Bool}

theorem clean_append {first second : List Block} :
    Clean drilled (first ++ second) ↔ Clean drilled first ∧ Clean drilled second :=
  List.forall_mem_append

theorem clean_cons {block : Block} {rest : List Block} :
    Clean drilled (block :: rest)
      ↔ (∀ x ∈ block.reals drilled, x.isFinite = true) ∧ Clean drilled rest :=
  List.forall_mem_cons

theorem clean_nil : Clean drilled [] := nofun

/-- A table of whole numbers has no other numbers in it. -/
theorem reals_of_whole {t : Table} (h : ∀ row ∈ t.rows, ∀ cell ∈ row, cell.real? = none) :
    (Block.table t).reals drilled = [] := by
  have hrows : ∀ row ∈ t.unbrokenRows drilled, row ∈ t.rows := by
    intro row hrow
    unfold Table.unbrokenRows at hrow
    split at hrow
    · split at hrow
      · exact List.mem_of_mem_eraseIdx hrow
      · exact hrow
    · exact hrow
  apply List.filterMap_eq_nil_iff.2
  intro cell hcell
  obtain ⟨row, hrow, hcell⟩ := List.mem_flatten.1 hcell
  exact h row (hrows row hrow) cell hcell

/-- In particular a column of sizes or colours has none. -/
theorem reals_ofColumn (name : TableName) (values : List Nat) :
    (Block.table (.ofColumn name values)).reals drilled = [] := by
  apply reals_of_whole
  intro row hrow cell hcell
  obtain ⟨n, -, rfl⟩ := List.mem_map.1 hrow
  rw [List.mem_singleton.1 hcell]
  rfl

/-- The numbers in a table of points are the coordinates of the points, without the one that breaks
the line of a drill mark. -/
theorem reals_ofPoints (wave : Nat) (points : List Point) :
    (Block.table (.ofPoints (.wave wave) points)).reals drilled
      = (if drilled wave then points.eraseIdx breakRow else points).flatMap fun p => [p.x, p.y] := by
  have hreals : ∀ points : List Point,
      (points.map fun p => [Cell.real p.x, .real p.y]).flatten.filterMap Cell.real?
        = points.flatMap fun p => [p.x, p.y] := by
    intro points
    induction points with
    | nil => rfl
    | cons p rest ih =>
      rw [List.map_cons, List.flatten_cons, List.filterMap_append, ih]
      rfl
  show (Table.unbrokenRows drilled (.ofPoints (.wave wave) points)).flatten.filterMap Cell.real? = _
  rw [← hreals]
  simp only [Table.unbrokenRows, Table.ofPoints]
  split
  · rw [List.eraseIdx_map]
  · rfl

/-- A point is finite when its two coordinates are. -/
theorem finite_iff_coordinates (points : List Point) :
    (∀ x ∈ points.flatMap fun p => [p.x, p.y], x.isFinite = true) ↔ ∀ p ∈ points, p.Finite := by
  simp only [List.mem_flatMap, List.mem_cons, List.not_mem_nil, or_false]
  constructor
  · intro h p hp
    exact ⟨h p.x ⟨p, hp, Or.inl rfl⟩, h p.y ⟨p, hp, Or.inr rfl⟩⟩
  · rintro h x ⟨p, hp, rfl | rfl⟩
    · exact (h p hp).1
    · exact (h p hp).2

/-! ## 2. Waves -/

/-- The tables of a wave are clean if and only if the points of the drawing are finite. -/
theorem clean_waveTables_iff {wave : Nat} {d : Drawing} (h : drilled wave = d.isDrill) :
    Clean drilled (waveTables wave d) ↔ d.All Point.Finite := by
  cases d with
  | path tool points =>
    have hpoints : (if drilled wave then points.eraseIdx breakRow else points) = points := by
      rw [h]
      rfl
    rw [waveTables, pathTables, clean_cons, clean_cons, clean_cons, reals_ofPoints, reals_ofColumn,
      reals_ofColumn, hpoints, finite_iff_coordinates]
    simp [clean_nil, Drawing.All]
  | drill center =>
    have hpoints : (if drilled wave then (drillMark center).eraseIdx breakRow else drillMark center)
        = (drillMark center).eraseIdx breakRow := by
      rw [h]
      rfl
    rw [waveTables, drillTables, clean_cons, clean_cons, reals_ofPoints, reals_ofColumn, hpoints,
      finite_iff_coordinates, finite_drillMark_iff]
    simp [clean_nil, Drawing.All]

/-- The note on the first path says nothing that is not in its wave. -/
theorem clean_openingDirectives {wave : Nat} {d : Drawing} (h : d.All Point.Finite) :
    Clean drilled (openingDirectives wave d) := by
  have hattachment : ∀ sized, Clean drilled (attachment wave sized) := by
    intro sized
    cases sized <;> simp [attachment, Clean, Block.reals, Directive.reals]
  cases d with
  | drill center => exact hattachment false
  | path tool points =>
    rw [openingDirectives]
    split
    · rename_i start stop hstart hstop
      have hstart' := h start (List.mem_of_head? hstart)
      have hstop' := h stop (List.mem_of_getLast? hstop)
      refine clean_append.2 ⟨hattachment true, ?_⟩
      simp [firstPathNote, Clean, Block.reals, Directive.reals, hstart'.1, hstart'.2, hstop'.1,
        hstop'.2]
    · exact clean_nil

/-- What else is written for a wave makes no difference. -/
theorem clean_waveBlocks_iff {wave : Nat} {d : Drawing} (h : drilled wave = d.isDrill) :
    Clean drilled (waveBlocks wave d) ↔ d.All Point.Finite := by
  rw [waveBlocks, clean_append, clean_waveTables_iff h, and_iff_left_iff_imp]
  intro hfinite
  split
  · exact clean_openingDirectives hfinite
  · exact clean_nil

/-- **The waves** of a script are finite if and only if the points of its drawings are. -/
theorem clean_body_iff {before : Nat} {drawings : List Drawing}
    (h : ∀ i d, drawings[i]? = some d → drilled (before + i + 1) = d.isDrill) :
    Clean drilled (body before drawings) ↔ ∀ d ∈ drawings, d.All Point.Finite := by
  induction drawings generalizing before with
  | nil => exact iff_of_true clean_nil nofun
  | cons d rest ih =>
    have hrest : ∀ i d', rest[i]? = some d' → drilled (before + 1 + i + 1) = d'.isDrill := by
      intro i d' hd'
      rw [Nat.add_right_comm before 1 i]
      exact h (i + 1) d' hd'
    rw [body, clean_append, clean_waveBlocks_iff (h 0 d rfl), ih hrest, List.forall_mem_cons]

/-- The wave of a drawing is looked up by its place in the list. -/
theorem isDrilled_succ {drawings : List Drawing} {i : Nat} {d : Drawing}
    (h : drawings[i]? = some d) : isDrilled drawings (0 + i + 1) = d.isDrill := by
  rw [isDrilled, Nat.add_sub_cancel, Nat.zero_add, h]
  rfl

/-- The preamble holds no numbers but whole ones. -/
theorem clean_preamble : Clean drilled preamble := by
  have hnone : ∀ block ∈ preamble, block.reals drilled = [] := by
    simp [preamble, Block.reals, Directive.reals, Table.unbrokenRows, Table.ofRows, Cell.real?]
  intro block hblock x hx
  rw [hnone block hblock] at hx
  cases hx

end Blocks

/-! ## 3. Sound scripts -/

namespace Writer

variable {w : Writer} {drawings : List Drawing}

/-- Without its trailer a script is clean if and only if all points of its drawings are finite. -/
theorem clean_blocks_iff (h : new.Wrote drawings w) :
    Clean (isDrilled drawings) w.blocks.toList ↔ ∀ d ∈ drawings, d.All Point.Finite := by
  rw [h.blocks_of_new, clean_append, clean_body_iff fun _ _ hd => isDrilled_succ hd]
  exact and_iff_right clean_preamble

/-- Without a path there is no trailer. -/
theorem trailer_of_not_hasPath (h : new.Wrote drawings w) (hnone : ¬HasPath drawings) :
    w.trailer = [] := by
  have hbounds : w.bounds = Bounds.empty := by
    rw [h.bounds, inkedPoints_eq_nil hnone]
    rfl
  rw [trailer, hbounds]
  exact if_pos (by decide)

/-- A trailer is clean if and only if its ranges have finite ends. -/
theorem clean_trailer_iff {drilled : Nat → Bool} (hbounds : w.bounds.isEmpty = false) :
    Clean drilled w.trailer
      ↔ (w.bounds.horizontal.low.isFinite = true ∧ w.bounds.horizontal.high.isFinite = true)
        ∧ w.bounds.vertical.low.isFinite = true ∧ w.bounds.vertical.high.isFinite = true := by
  have hcontrols : Clean drilled [.directive .controlBar, .directive (.stepButton .previous),
      .directive (.stepButton .next), .directive (.readout .graphNumber),
      .directive (.readout .waveNumber), .directive (.readout .waveTotal),
      .directive .markerToggle] := by
    simp [Clean, Block.reals, Directive.reals]
  rw [trailer, if_neg (ne_true_of_eq_false hbounds), clean_cons, clean_cons, clean_cons, clean_cons,
    reals_ofColumn]
  simp [Block.reals, Directive.reals, hcontrols]

/-- **Soundness.** A script is sound if and only if all points of its drawings are finite and the
ranges of its axes fit. -/
theorem sound_iff (h : new.Wrote drawings w) (hvisible : ∀ d ∈ drawings, d.Visible) :
    Sound drawings w ↔ (∀ d ∈ drawings, d.All Point.Finite)
      ∧ (HasPath drawings → Fits w.bounds.minX w.bounds.maxX ∧ Fits w.bounds.minY w.bounds.maxY) := by
  -- where there is a path and all points are finite, the box has ends for the trailer to show
  have hranges : (∀ d ∈ drawings, d.All Point.Finite) → HasPath drawings →
      w.bounds.Ranged ∧ w.bounds.isEmpty = false := by
    intro hfinite hpath
    have hpoints := forall_mem_inkedPoints hfinite
    have hextent := Bounds.encloses_growAll hpoints (inkedPoints_ne_nil hvisible hpath)
    rw [← h.bounds_of_new] at hextent
    exact ⟨hextent.ranged hpoints, hextent.isEmpty_eq_false hpoints⟩
  constructor
  · intro hsound
    obtain ⟨hblocks, htrailer⟩ := clean_append.1 hsound.clean
    have hfinite := (clean_blocks_iff h).1 hblocks
    refine ⟨hfinite, ?_⟩
    intro hpath
    obtain ⟨hranged, hempty⟩ := hranges hfinite hpath
    obtain ⟨hx, hy⟩ := (clean_trailer_iff hempty).1 htrailer
    exact ⟨(isFinite_padded_iff hranged.minX hranged.maxX).1 hx,
      (isFinite_padded_iff hranged.minY hranged.maxY).1 hy⟩
  · rintro ⟨hfinite, hfits⟩
    constructor
    · refine clean_append.2 ⟨(clean_blocks_iff h).2 hfinite, ?_⟩
      by_cases hpath : HasPath drawings
      · obtain ⟨hranged, hempty⟩ := hranges hfinite hpath
        obtain ⟨hx, hy⟩ := hfits hpath
        exact (clean_trailer_iff hempty).2 ⟨(isFinite_padded_iff hranged.minX hranged.maxX).2 hx,
          (isFinite_padded_iff hranged.minY hranged.maxY).2 hy⟩
      · rw [trailer_of_not_hasPath h hpath]
        exact clean_nil
    · intro hpath axis
      obtain ⟨hranged, hempty⟩ := hranges hfinite hpath
      obtain ⟨hx, hy⟩ := hfits hpath
      rw [trailer, if_neg (ne_true_of_eq_false hempty)]
      cases axis with
      | bottom =>
        exact ⟨w.bounds.horizontal, by simp, padded_le hranged.minX hranged.maxX hranged.x_le hx⟩
      | left =>
        exact ⟨w.bounds.vertical, by simp, padded_le hranged.minY hranged.maxY hranged.y_le hy⟩

end Writer

end Script

end Photoplot
