import Photoplot.Proofs.Script.Tables
import Photoplot.Proofs.Script.Trailer

/-!
The directives that put a script on the graph.

Only the first wave is put on the graph, and only if it is a path its ends are shown. `openingLines`
spells the lines for that, from the drawing alone, and `attaches` tells such a line by its first
words. Neither of them looks at the writer, so a text can be held against them.

**What is proved, and where the work is.**

* The directives of a first wave are written as the opening lines say (section 1). The literal parts
  of a directive are compared by evaluation, and the numbers in it are kept out of that.
* Whether a line attaches anything is decided by the block that it comes from (`attaches_lines`).
  All kinds of directives are gone through here, and a row of a table is told apart by the tab it
  begins with. From there on the blocks are looked at and not their text: all blocks of a script but
  the directives of its first wave are quiet.
* A directive names tables that are declared before it (`MentionsDeclared`). Quiet blocks name none,
  so this is a matter of the first wave, whose tables stand right before its directives, and of the
  palette, which stands in the preamble.
* A script that has taken something begins with the preamble and its first wave, and everything
  behind that is quiet (`blocks_of_taken_cons`). The text of such a script is split into lines at
  the end (section 4), with and without a trailer.

Main statement: `Writer.graph_attached_once`. Whatever is asked of a writer, the opening lines stand
behind the tables of its first wave and nowhere else, and there are none as long as nothing was
taken. No directive names a table that is not declared before it.
-/

set_option autoImplicit false

namespace Photoplot.Script

/-! ## 1. The lines of a first wave -/

/-- The lines that put wave 1 on the graph. Where it has marker sizes they are named too. -/
def attachmentLines (sized : Bool) : List String :=
  ["X AppendToGraph/W=GerberPlot wave1[][1] vs wave1[][0]",
   "X ModifyGraph/W=GerberPlot mode=4, marker=19, lsize=1",
   "X ModifyGraph/W=GerberPlot zColor(wave1)=\x7bcolor1,0,4,ctableRGB,0,plotColors\x7d"]
    ++ (if sized then ["X ModifyGraph/W=GerberPlot zmrkSize(wave1)=\x7bsize1,0,8,1,8\x7d"] else [])
    ++ ["X ModifyGraph/W=GerberPlot width=\x7bPlan,1,bottom,left\x7d",
        "X Label/W=GerberPlot bottom \"x (inches)\"",
        "X Label/W=GerberPlot left \"y (inches)\""]

/-- The lines that show where a path starts and where it ends. -/
def noteLines (start stop : Point) : List String :=
  ["X Variable/G firstStartX=" ++ Decimal.render start.x ++ ", firstStartY="
      ++ Decimal.render start.y,
   "X Variable/G firstEndX=" ++ Decimal.render stop.x ++ ", firstEndY=" ++ Decimal.render stop.y,
   "X TextBox/W=GerberPlot/C/N=firstPath/A=LT \"Start " ++ start.render ++ " End " ++ stop.render
      ++ "\""]

/-- The lines that a drawing brings if it is the first one. -/
def openingLines : Drawing → List String
  | .path _ points =>
    match points.head?, points.getLast? with
    | some start, some stop => attachmentLines true ++ noteLines start stop
    | _, _ => []
  | .drill _ => attachmentLines false

/-- The directives that put a wave on the graph, as lines; they differ by what is said of its marker
sizes. -/
theorem lines_attachment (sized : Bool) :
    (attachment 1 sized).flatMap Block.lines = attachmentLines sized := by
  cases sized <;> decide +kernel

/-- A directive with two numbers in it, as a line. -/
theorem line_of_command {command line : String} (h : line = "X " ++ command)
    (first mark second : String) :
    "X " ++ (command ++ first ++ mark ++ second) = line ++ first ++ mark ++ second := by
  rw [h]
  simp only [String.append_assoc]

/-- The line that keeps the start of the first path. -/
theorem text_firstStart (p : Point) :
    "X " ++ (Directive.firstStart p).text
      = "X Variable/G firstStartX=" ++ Decimal.render p.x ++ ", firstStartY="
        ++ Decimal.render p.y :=
  line_of_command (by decide) _ _ _

/-- The line that keeps its end. -/
theorem text_firstEnd (p : Point) :
    "X " ++ (Directive.firstEnd p).text
      = "X Variable/G firstEndX=" ++ Decimal.render p.x ++ ", firstEndY="
        ++ Decimal.render p.y :=
  line_of_command (by decide) _ _ _

/-- The line that writes both of them on the graph. -/
theorem text_firstPathBox (start stop : Point) :
    "X " ++ (Directive.firstPathBox start stop).text
      = "X TextBox/W=GerberPlot/C/N=firstPath/A=LT \"Start " ++ start.render ++ " End "
        ++ stop.render ++ "\"" := by
  have htext : (Directive.firstPathBox start stop).text
      = "TextBox/W=" ++ graphName ++ "/C/N=firstPath/A=LT "
        ++ marked ("Start " ++ start.render ++ " End " ++ stop.render) := rfl
  have hcommand : "X TextBox/W=GerberPlot/C/N=firstPath/A=LT \"Start "
      = "X " ++ ("TextBox/W=" ++ (graphName ++ ("/C/N=firstPath/A=LT " ++ ("\"" ++ "Start ")))) := by
    decide +kernel
  rw [htext, hcommand, marked]
  simp only [String.append_assoc]

/-- The three directives about the ends of a path, as lines. -/
theorem lines_firstPathNote (start stop : Point) :
    (firstPathNote start stop).flatMap Block.lines = noteLines start stop := by
  rw [noteLines, ← text_firstStart, ← text_firstEnd, ← text_firstPathBox]
  rfl

/-- **Opening lines.** The directives of the first wave are written as the lines that its drawing
brings. A path without points would bring none. -/
theorem lines_openingDirectives (d : Drawing) :
    (openingDirectives 1 d).flatMap Block.lines = openingLines d := by
  cases d with
  | drill center => exact lines_attachment false
  | path tool points =>
    cases hstart : points.head? with
    | none => simp [openingDirectives, openingLines, hstart]
    | some start =>
      cases hstop : points.getLast? with
      | none => simp [openingDirectives, openingLines, hstart, hstop]
      | some stop =>
        simp only [openingDirectives, openingLines, hstart, hstop, List.flatMap_append,
          lines_attachment, lines_firstPathNote]

/-! ## 2. Telling these lines from all others -/

/-- The first words of the lines that put a wave on the graph or show the ends of a path. -/
def attachingWords : List String :=
  ["X AppendToGraph", "X ModifyGraph", "X Label", "X Variable/G first", "X TextBox"]

/-- Whether a line puts something on the graph, or shows the ends of a path on it. -/
def attaches (line : String) : Bool :=
  attachingWords.any fun word => word.toList.isPrefixOf line.toList

/-- Whether a block is written as one of these lines. -/
def Block.attaches : Block → Bool
  | directive (.append _) | directive .lineStyle | directive (.colorBy _) | directive (.sizeBy _)
  | directive .equalScale | directive (.axisLabel _) => true
  | directive (.firstStart _) | directive (.firstEnd _) | directive (.firstPathBox ..) => true
  | _ => false

/-- A directive attaches something if and only if its constructor says so. -/
theorem attaches_directive (d : Directive) :
    attaches ("X " ++ d.text) = (Block.directive d).attaches := by
  -- the first words are literal text in every directive, and that is all there is to compare
  cases d with
  | stepButton step =>
    unfold Directive.text Step.text attaches
    simp only [String.toList_append]
    cases step <;> rfl
  | readout counter =>
    unfold Directive.text Readout.text attaches
    simp only [String.toList_append]
    cases counter <;> rfl
  | _ =>
    unfold Directive.text attaches
    simp only [String.toList_append]
    rfl

/-- A row is empty or begins with a tab. -/
theorem attaches_rowLine (row : List Cell) : attaches (Table.rowLine row) = false := by
  cases row with
  | nil => decide
  | cons cell row =>
    rw [attaches, toList_rowLine_cons]
    rfl

/-- The lines of a block are told alike, and as its constructor says. -/
theorem attaches_lines (b : Block) : ∀ line ∈ b.lines, attaches line = b.attaches := by
  intro line hline
  cases b with
  | title =>
    obtain rfl := List.mem_singleton.1 hline
    decide
  | directive d =>
    obtain rfl := List.mem_singleton.1 hline
    exact attaches_directive d
  | table t =>
    rw [Block.lines, Table.lines, List.mem_append, List.mem_append] at hline
    rcases hline with (hline | hline) | hline
    · simp only [List.mem_cons, List.not_mem_nil, or_false] at hline
      rcases hline with rfl | rfl
      · rw [attaches]
        simp only [String.toList_append]
        rfl
      · rfl
    · obtain ⟨row, -, rfl⟩ := List.mem_map.1 hline
      exact attaches_rowLine row
    · obtain rfl := List.mem_singleton.1 hline
      rfl

/-- What holds of all blocks in this respect holds of all their lines. -/
theorem attaches_flatMap {blocks : List Block} {b : Bool}
    (h : ∀ block ∈ blocks, block.attaches = b) :
    ∀ line ∈ blocks.flatMap Block.lines, attaches line = b := by
  intro line hline
  obtain ⟨block, hblock, hmem⟩ := List.mem_flatMap.1 hline
  rw [attaches_lines block line hmem, h block hblock]

/-- A block that leaves the graph alone. -/
def Block.Quiet (b : Block) : Prop :=
  b.attaches = false

/-- The preamble leaves the graph alone: it opens the window and declares the palette. -/
theorem quiet_preamble : ∀ b ∈ preamble, b.Quiet := by
  unfold Block.Quiet
  decide

/-- So do the tables of a wave. -/
theorem quiet_waveTables (wave : Nat) (d : Drawing) : ∀ b ∈ waveTables wave d, b.Quiet := by
  intro b hb
  cases d with
  | path tool points =>
    simp only [waveTables, pathTables, List.mem_cons, List.not_mem_nil, or_false] at hb
    rcases hb with rfl | rfl | rfl <;> rfl
  | drill center =>
    simp only [waveTables, drillTables, List.mem_cons, List.not_mem_nil, or_false] at hb
    rcases hb with rfl | rfl <;> rfl

/-- Behind the first wave the directives are not written again. -/
theorem quiet_body {before : Nat} (hbefore : 0 < before) (drawings : List Drawing) :
    ∀ b ∈ body before drawings, b.Quiet := by
  induction drawings generalizing before with
  | nil => simp [body]
  | cons d rest ih =>
    have hlater : before + 1 ≠ 1 := by omega
    intro b hb
    rw [body, waveBlocks, if_neg hlater, List.append_nil, List.mem_append] at hb
    rcases hb with hb | hb
    · exact quiet_waveTables _ d b hb
    · exact ih (Nat.succ_pos before) b hb

/-- The trailer sets ranges and adds controls, but attaches nothing. -/
theorem quiet_trailer (w : Writer) : ∀ b ∈ w.trailer, b.Quiet := by
  rw [Writer.trailer]
  split
  · simp
  · simp [Block.Quiet, Block.attaches]

/-- All directives of a first wave attach something. -/
theorem attaches_openingDirectives (d : Drawing) :
    ∀ b ∈ openingDirectives 1 d, b.attaches = true := by
  cases d with
  | drill center =>
    rw [openingDirectives]
    decide
  | path tool points =>
    rw [openingDirectives]
    split
    · simp [attachment, firstPathNote, Block.attaches]
    · simp

/-! ## 3. Tables that a directive names -/

/-- The tables that a directive names. -/
def Directive.mentions : Directive → List TableName
  | append wave => [.wave wave]
  | colorBy wave => [.wave wave, .color wave, .plotColors]
  | sizeBy wave => [.wave wave, .size wave]
  | _ => []

/-- There is a table with a name among some blocks. -/
def HasTable (blocks : List Block) (name : TableName) : Prop :=
  ∃ t : Table, .table t ∈ blocks ∧ t.name = name

/-- No directive names a table before it is declared. -/
def MentionsDeclared (script : List Block) : Prop :=
  ∀ before d after, script = before ++ .directive d :: after →
    ∀ name ∈ d.mentions, HasTable before name

/-- A table that is there stays there when blocks are added behind it. -/
theorem HasTable.append {blocks : List Block} {name : TableName} (h : HasTable blocks name)
    (more : List Block) : HasTable (blocks ++ more) name := by
  obtain ⟨t, ht, hname⟩ := h
  exact ⟨t, List.mem_append_left _ ht, hname⟩

/-- Nor does it matter what stands before it. -/
theorem HasTable.prepend {blocks : List Block} {name : TableName} (h : HasTable blocks name)
    (more : List Block) : HasTable (more ++ blocks) name := by
  obtain ⟨t, ht, hname⟩ := h
  exact ⟨t, List.mem_append_right _ ht, hname⟩

/-- A script can go on with directives that name tables declared so far. -/
theorem mentionsDeclared_append {first second : List Block} (h : MentionsDeclared first)
    (hsecond : ∀ d, .directive d ∈ second → ∀ name ∈ d.mentions, HasTable first name) :
    MentionsDeclared (first ++ second) := by
  intro before d after hsplit name hname
  obtain ⟨more, rfl, rfl⟩ | ⟨tail, rfl, htail⟩ := List.append_eq_append_iff.1 hsplit
  · -- the directive stands in the second part
    exact (hsecond d (by simp) name hname).append more
  · cases tail with
    | nil =>
      have hmem : .directive d ∈ second := by
        rw [List.nil_append] at htail
        rw [← htail]
        exact List.mem_cons_self
      simpa using hsecond d hmem name hname
    | cons b tail =>
      obtain ⟨rfl, -⟩ := List.cons.inj htail
      exact h before d tail rfl name hname

/-- A quiet directive names no table. -/
theorem Block.Quiet.mentions_eq_nil {d : Directive} (h : (Block.directive d).Quiet) :
    d.mentions = [] := by
  cases d with
  | append | colorBy | sizeBy => cases h
  | _ => rfl

/-- So a script can go on with anything quiet. -/
theorem mentionsDeclared_append_of_quiet {first second : List Block} (h : MentionsDeclared first)
    (hsecond : ∀ b ∈ second, b.Quiet) : MentionsDeclared (first ++ second) := by
  refine mentionsDeclared_append h fun d hd name hname => ?_
  rw [(hsecond _ hd).mentions_eq_nil] at hname
  cases hname

/-- The preamble names no table at all. -/
theorem mentionsDeclared_preamble : MentionsDeclared preamble := by
  have hempty : MentionsDeclared [] := by
    intro before d after hsplit
    simp at hsplit
  exact mentionsDeclared_append_of_quiet hempty quiet_preamble

/-- A wave is put on the graph by its points and its colours, and by its sizes where it has any. -/
theorem mem_attachment {wave : Nat} {sized : Bool} {d : Directive}
    (hd : .directive d ∈ attachment wave sized) :
    d = .append wave ∨ d = .colorBy wave ∨ (d = .sizeBy wave ∧ sized = true) ∨ d.mentions = [] := by
  cases sized with
  | false =>
    simp only [attachment, Bool.false_eq_true, ↓reduceIte, List.append_nil, List.cons_append,
      List.nil_append, List.mem_cons, List.not_mem_nil, Block.directive.injEq, or_false] at hd
    rcases hd with rfl | rfl | rfl | rfl | rfl | rfl <;> simp [Directive.mentions]
  | true =>
    simp only [attachment, ↓reduceIte, List.cons_append, List.nil_append, List.mem_cons,
      List.not_mem_nil, Block.directive.injEq, or_false] at hd
    rcases hd with rfl | rfl | rfl | rfl | rfl | rfl | rfl <;> simp [Directive.mentions]

/-- What puts a wave on the graph names the tables of the wave and the palette, and the sizes only
where it is told that there are some. -/
theorem hasTable_of_mem_attachment {blocks : List Block} {wave : Nat} {sized : Bool}
    (hwave : HasTable blocks (.wave wave)) (hcolor : HasTable blocks (.color wave))
    (hcolors : HasTable blocks .plotColors)
    (hsize : sized = true → HasTable blocks (.size wave)) {d : Directive}
    (hd : .directive d ∈ attachment wave sized) : ∀ name ∈ d.mentions, HasTable blocks name := by
  obtain rfl | rfl | ⟨rfl, hsized⟩ | hnone := mem_attachment hd
  · simpa [Directive.mentions] using hwave
  · simpa [Directive.mentions] using ⟨hwave, hcolor, hcolors⟩
  · simpa [Directive.mentions] using ⟨hwave, hsize hsized⟩
  · simp [hnone]

/-- The ends of a path are written out, and no table is named for them. -/
theorem mentions_firstPathNote {start stop : Point} {d : Directive}
    (hd : .directive d ∈ firstPathNote start stop) : d.mentions = [] := by
  simp only [firstPathNote, List.mem_cons, List.not_mem_nil, Block.directive.injEq, or_false] at hd
  rcases hd with rfl | rfl | rfl <;> rfl

/-- Every drawing declares the points of its wave. -/
theorem hasTable_wave (wave : Nat) (d : Drawing) : HasTable (waveTables wave d) (.wave wave) := by
  cases d <;> exact ⟨_, List.mem_of_getElem? (i := 0) rfl, rfl⟩

/-- Every drawing declares the colours of its wave. -/
theorem hasTable_color (wave : Nat) (d : Drawing) : HasTable (waveTables wave d) (.color wave) := by
  cases d with
  | path tool points => exact ⟨_, List.mem_of_getElem? (i := 2) rfl, rfl⟩
  | drill center => exact ⟨_, List.mem_of_getElem? (i := 1) rfl, rfl⟩

/-- A path declares the marker sizes of its wave; a drill mark has none. -/
theorem hasTable_size (wave : Nat) (tool : Tool) (points : List Point) :
    HasTable (waveTables wave (.path tool points)) (.size wave) :=
  ⟨_, List.mem_of_getElem? (i := 1) rfl, rfl⟩

/-- The palette is declared in the preamble. -/
theorem hasTable_plotColors : HasTable preamble .plotColors :=
  ⟨_, List.mem_of_getElem? (i := 2) rfl, rfl⟩

/-- The directives of a first wave name its own tables, and the size table only if there is one. -/
theorem mentionsDeclared_firstWave (d : Drawing) :
    MentionsDeclared (preamble ++ waveTables 1 d ++ openingDirectives 1 d) := by
  have hwave := (hasTable_wave 1 d).prepend preamble
  have hcolor := (hasTable_color 1 d).prepend preamble
  have hcolors := hasTable_plotColors.append (waveTables 1 d)
  refine mentionsDeclared_append
    (mentionsDeclared_append_of_quiet mentionsDeclared_preamble (quiet_waveTables 1 d)) ?_
  intro directive hd
  -- a drill mark has no sizes, and its attachment does not ask for any
  cases d with
  | drill center =>
    exact hasTable_of_mem_attachment hwave hcolor hcolors (fun h => Bool.noConfusion h) hd
  | path tool points =>
    have hsize := (hasTable_size 1 tool points).prepend preamble
    rw [openingDirectives] at hd
    split at hd
    · rcases List.mem_append.1 hd with hd | hd
      · exact hasTable_of_mem_attachment hwave hcolor hcolors (fun _ => hsize) hd
      · simp [mentions_firstPathNote hd]
    · cases hd

/-! ## 4. The lines of a script -/

/-- A text with its lines. -/
def HasLines (text : String) (lines : List String) : Prop :=
  text = unlines lines ∧ ∀ line ∈ lines, OneLine line

/-- The text of some blocks has the lines of these blocks. -/
theorem hasLines_render (blocks : List Block) :
    HasLines (render blocks) (blocks.flatMap Block.lines) := by
  refine ⟨render_eq_unlines blocks, ?_⟩
  intro line hline
  obtain ⟨b, -, hb⟩ := List.mem_flatMap.1 hline
  exact oneLine_block b line hb

/-- Nothing in a text puts anything on the graph. -/
def Unattached (text : String) : Prop :=
  ∃ lines, HasLines text lines ∧ ∀ line ∈ lines, attaches line = false

/-- **Once.** The opening lines of a drawing stand right behind the tables of wave 1, which are its
own, and no other line of the text is of their kind. -/
structure AttachedOnce (text : String) (first : Drawing) (before after : List String) : Prop where
  lines : HasLines text
    (before ++ (sheets 1 first).flatMap Sheet.lines ++ openingLines first ++ after)
  here : ∀ line ∈ openingLines first, attaches line = true
  nowhereElse : ∀ line ∈ before ++ (sheets 1 first).flatMap Sheet.lines ++ after,
    attaches line = false

/-- Where all blocks are quiet nothing is attached. -/
theorem unattached_render {blocks : List Block} (h : ∀ b ∈ blocks, b.Quiet) :
    Unattached (render blocks) :=
  ⟨_, hasLines_render blocks, attaches_flatMap h⟩

/-- Where all blocks are quiet but those of the first wave, everything is attached there. -/
theorem attachedOnce_render {first : Drawing} (hvisible : first.Visible) {later : List Block}
    (hlater : ∀ b ∈ later, b.Quiet) :
    AttachedOnce (render (preamble ++ waveBlocks 1 first ++ later)) first
      (preamble.flatMap Block.lines) (later.flatMap Block.lines) := by
  constructor
  · rw [← lines_waveTables hvisible, ← lines_openingDirectives, ← List.flatMap_append,
      ← List.flatMap_append, ← List.flatMap_append, List.append_assoc preamble]
    exact hasLines_render _
  · rw [← lines_openingDirectives]
    exact attaches_flatMap (attaches_openingDirectives first)
  · rw [← lines_waveTables hvisible, ← List.flatMap_append, ← List.flatMap_append]
    apply attaches_flatMap
    intro b hb
    rw [List.mem_append, List.mem_append] at hb
    rcases hb with (hb | hb) | hb
    · exact quiet_preamble b hb
    · exact quiet_waveTables 1 first b hb
    · exact hlater b hb

/-! ## 5. Any calls -/

namespace Writer

/-- What is written after the preamble and the first wave. -/
theorem blocks_of_taken_cons {calls : List Call} {first : Drawing} {rest : List Drawing}
    (h : new.taken calls = first :: rest) :
    (new.performAll calls).blocks.toList = preamble ++ waveBlocks 1 first ++ body 1 rest := by
  rw [(performAll_new_wrote calls).blocks_of_new, h, body, List.append_assoc]

/-- As long as nothing was taken a script is its preamble. -/
theorem blocks_of_taken_nil {calls : List Call} (h : new.taken calls = []) :
    (new.performAll calls).blocks.toList = preamble := by
  rw [(performAll_new_wrote calls).blocks_of_new, h, body, List.append_nil]

/-- A text of a writer is what it has written, with or without the trailer. -/
theorem exists_ending {w : Writer} {text : String} (h : text = w.text ∨ text = w.finishedText) :
    ∃ ending, (∀ b ∈ ending, b.Quiet) ∧ text = render (w.blocks.toList ++ ending) := by
  rcases h with rfl | rfl
  · exact ⟨[], by simp, by rw [List.append_nil, Writer.text]⟩
  · exact ⟨w.trailer, quiet_trailer w, rfl⟩

/-- In no script does a directive name a table that is not declared before it. -/
theorem mentionsDeclared_script (calls : List Call) :
    MentionsDeclared ((new.performAll calls).blocks.toList ++ (new.performAll calls).trailer) := by
  refine mentionsDeclared_append_of_quiet ?_ (quiet_trailer _)
  cases h : new.taken calls with
  | nil =>
    rw [blocks_of_taken_nil h]
    exact mentionsDeclared_preamble
  | cons first rest =>
    rw [blocks_of_taken_cons h, waveBlocks, if_pos rfl, ← List.append_assoc]
    exact mentionsDeclared_append_of_quiet (mentionsDeclared_firstWave first)
      (quiet_body Nat.one_pos rest)

/-- **The attachment.** Whatever is asked of a writer, it has put a wave on the graph if and only if
there is one, and no directive names a table before it is declared. As long as no drawing was taken,
nothing in the text puts anything on the graph. Otherwise the first drawing that was taken is wave
1, and its opening lines stand once in the text, right behind its tables. All this is so before the
script is finished and after. -/
theorem graph_attached_once (calls : List Call) :
    let w := new.performAll calls
    w.Latched
      ∧ MentionsDeclared (w.blocks.toList ++ w.trailer)
      ∧ ∀ text, text = w.text ∨ text = w.finishedText →
        (new.taken calls = [] → Unattached text)
          ∧ ∀ first rest, new.taken calls = first :: rest →
            ∃ before after, AttachedOnce text first before after := by
  intro w
  refine ⟨(performAll_new_wrote calls).latched, mentionsDeclared_script calls, ?_⟩
  intro text htext
  obtain ⟨ending, hquiet, rfl⟩ := exists_ending htext
  constructor
  · intro hnone
    rw [blocks_of_taken_nil hnone]
    refine unattached_render fun b hb => ?_
    exact (List.mem_append.1 hb).elim (quiet_preamble b) (hquiet b)
  · intro first rest htaken
    -- behind the first wave come the other waves and the ending, and both are quiet
    have hvisible : first.Visible := visible_of_mem_taken first (htaken ▸ List.mem_cons_self)
    rw [blocks_of_taken_cons htaken, List.append_assoc]
    refine ⟨_, _, attachedOnce_render hvisible fun b hb => ?_⟩
    exact (List.mem_append.1 hb).elim (quiet_body Nat.one_pos rest b) (hquiet b)

/-- Calls that show nothing: a path that is refused, and another graph. -/
def idleCalls : List Call :=
  [.draw (.path .cut []), .beginGraph]

/-- A path of a single point, and a drill mark behind it. -/
def shortCalls : List Call :=
  [.draw (.path .mark [⟨4.0, 1.5⟩]), .draw (.drill ⟨0.5, 0.5⟩)]

/-- The one path starts and ends at its point. Without it the graph stays as it is. -/
theorem attached_shortCalls :
    Unattached (new.performAll idleCalls).finishedText
      ∧ new.taken (idleCalls ++ shortCalls)
        = [.path .mark [⟨4.0, 1.5⟩], .drill ⟨0.5, 0.5⟩]
      ∧ (∃ before after, AttachedOnce (new.performAll (idleCalls ++ shortCalls)).finishedText
        (.path .mark [⟨4.0, 1.5⟩]) before after)
      ∧ openingLines (.path .mark [⟨4.0, 1.5⟩]) = attachmentLines true
        ++ ["X Variable/G firstStartX=4, firstStartY=1.5", "X Variable/G firstEndX=4, firstEndY=1.5",
          "X TextBox/W=GerberPlot/C/N=firstPath/A=LT \"Start (4,1.5) End (4,1.5)\""] := by
  have htaken : new.taken (idleCalls ++ shortCalls)
      = [.path .mark [⟨4.0, 1.5⟩], .drill ⟨0.5, 0.5⟩] := rfl
  obtain ⟨-, -, hidle⟩ := graph_attached_once idleCalls
  obtain ⟨-, -, hshort⟩ := graph_attached_once (idleCalls ++ shortCalls)
  refine ⟨(hidle _ (.inr rfl)).1 rfl, htaken, (hshort _ (.inr rfl)).2 _ _ htaken, ?_⟩
  decide +kernel

end Writer

end Photoplot.Script
