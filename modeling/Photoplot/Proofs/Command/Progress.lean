import Photoplot.Progress
import Photoplot.Proofs.Command.Grammar
import Photoplot.Proofs.Interpreter.Course

/-!
How a scanner gets on.

A text divides into lexemes with gaps between them, and a scanner always stands behind some of these
pieces: at the beginning, or where the last lexeme seen ends. That is the invariant,
`Scanner.Stands`; it names the pieces that have been seen, and everything else about a scanner
follows from them.

**What is proved, and where the work is.**

* One search brings a scanner behind the next piece (`Stands.lexeme?`). One call makes as many
  searches as there are lexemes out of range in its way, and one more (`Stands.next`): the induction
  is along the recursion of the call itself, and each round adds a piece.
* Where a scanner stands the text can be split, and its offset is the size of the first part
  (`Stands.split`). So the offset is a boundary between characters, however many bytes these have,
  and lies within the text (`Stands.isValid`).
* Every lexeme has a byte at least, so a call goes on by as many bytes as it sees lexemes
  (`Stands.offset_next`). This one inequality is why offsets never fall, why they grow with every
  token, and why the searches of a call are bounded.
* After a call without a token nothing is found any more, so nothing ever changes again
  (`Scanner.afterCalls_of_none`). What is still to be read is what a scanner of the rest would read
  (`Scanner.readings_eq_rest`), since readings follow the pieces and not the offset.

Main statement: `scanner_gets_on`, for every text and any number of calls. Its last part is about
runs: the pulls that a run asks for are the first few of those of the scanner, and the run is the
same as if it had been given them all (`Interpreter.pulled_prefix`).
-/

set_option autoImplicit false

namespace Photoplot

/-! ## 1. Sizes -/

/-- The size that is counted is the size of the text in bytes. -/
theorem byteSize_eq_utf8ByteSize (cs : List Char) :
    byteSize cs = (String.ofList cs).utf8ByteSize := by
  induction cs with
  | nil => rfl
  | cons c cs ih =>
    have hcons : String.ofList (c :: cs) = String.singleton c ++ String.ofList cs := by
      rw [String.singleton_eq_ofList, ← String.ofList_append]
      rfl
    rw [hcons, String.utf8ByteSize_append, String.utf8ByteSize_singleton, ← ih]
    rfl

theorem byteSize_append (first second : List Char) :
    byteSize (first ++ second) = byteSize first + byteSize second := by
  simp only [byteSize_eq_utf8ByteSize, String.ofList_append, String.utf8ByteSize_append]

/-- Every character has a byte at least. -/
theorem length_le_byteSize (cs : List Char) : cs.length ≤ byteSize cs := by
  induction cs with
  | nil => exact Nat.le_refl 0
  | cons c cs ih =>
    have hsize : byteSize (c :: cs) = c.utf8Size + byteSize cs := rfl
    have hpos := c.utf8Size_pos
    rw [hsize, List.length_cons]
    omega

/-- The text of some pieces. -/
def textOf (pieces : List (List Char × Lexeme)) : List Char :=
  pieces.flatMap fun piece => piece.1 ++ piece.2.text

theorem textOf_append (first second : List (List Char × Lexeme)) :
    textOf (first ++ second) = textOf first ++ textOf second :=
  List.flatMap_append

theorem textOf_cons (gap : List Char) (m : Lexeme) (pieces : List (List Char × Lexeme)) :
    textOf ((gap, m) :: pieces) = gap ++ m.text ++ textOf pieces :=
  List.flatMap_cons

/-- A piece has a byte at least, for its lexeme is not empty. -/
theorem length_le_byteSize_textOf (pieces : List (List Char × Lexeme)) :
    pieces.length ≤ byteSize (textOf pieces) := by
  refine Nat.le_trans ?_ (length_le_byteSize _)
  induction pieces with
  | nil => exact Nat.zero_le _
  | cons piece pieces ih =>
    obtain ⟨gap, m⟩ := piece
    have hpos := List.length_pos_iff.2 m.text_ne_nil
    rw [textOf_cons, List.length_cons, List.length_append, List.length_append]
    omega

/-- A divided text is the text of its pieces and the gap behind them. -/
theorem Divides.eq_textOf {cs last : List Char} {pieces : List (List Char × Lexeme)}
    (h : Divides cs pieces last) : cs = textOf pieces ++ last := by
  induction h with
  | last => rfl
  | @piece gap rest last m pieces _ _ _ ih =>
    rw [textOf_cons, List.append_assoc (gap ++ m.text), ← ih]

/-! ## 2. One search -/

namespace Scanner

/-- A scanner that stands behind the first pieces of a text. -/
structure Stands (pieces : List (List Char × Lexeme)) (last : List Char)
    (found : List (List Char × Lexeme)) (s : Scanner) : Prop where
  later : ∃ later, pieces = found ++ later ∧ Divides s.rest later last
  offset : s.offset = byteSize (textOf found)

variable {pieces found : List (List Char × Lexeme)} {last : List Char} {s : Scanner}

/-- At the beginning a scanner stands behind none of the pieces. -/
theorem stands_ofText {text : String} (h : Divides text.toList pieces last) :
    Stands pieces last [] (ofText text) :=
  ⟨⟨pieces, rfl, h⟩, rfl⟩

/-- **One search.** A search from behind some pieces finds the next one and leads behind it. If
there is none, nothing is found. -/
theorem Stands.lexeme? (h : Stands pieces last found s) :
    (s.lexeme? = none ∧ found = pieces)
      ∨ ∃ gap m t, s.lexeme? = some (m, t) ∧ Stands pieces last (found ++ [(gap, m)]) t := by
  obtain ⟨⟨later, hpieces, hdivides⟩, hoffset⟩ := h
  obtain ⟨rest, offset⟩ := s
  cases hdivides with
  | last hgap =>
    refine .inl ⟨?_, by rw [hpieces, List.append_nil]⟩
    simp only [Scanner.lexeme?, findLexeme?_gap hgap]
  | @piece gap rest _ m later hgap hmatch hrest =>
    refine .inr ⟨gap, m, ⟨rest, offset + byteSize gap + byteSize m.text⟩, ?_, ?_, ?_⟩
    · exact lexeme?_piece hgap hmatch offset
    · exact ⟨later, by rw [hpieces, List.append_assoc]; rfl, hrest⟩
    · have hpiece : textOf [(gap, m)] = gap ++ m.text := by
        rw [textOf_cons]
        exact List.append_nil _
      rw [textOf_append, hpiece, byteSize_append, byteSize_append, ← hoffset]
      exact Nat.add_assoc _ _ _

/-- Where nothing is found all pieces have been seen. -/
theorem Stands.of_none (h : Stands pieces last found s) (hnone : s.lexeme? = none) :
    found = pieces := by
  obtain ⟨-, hall⟩ | ⟨gap, m, t, hsome, -⟩ := h.lexeme?
  · exact hall
  · rw [hnone] at hsome
    cases hsome

/-- What is found is the lexeme of the next piece, and the scanner stands behind it. -/
theorem Stands.of_some {m : Lexeme} {after : Scanner} (h : Stands pieces last found s)
    (hm : s.lexeme? = some (m, after)) :
    ∃ gap, Stands pieces last (found ++ [(gap, m)]) after := by
  obtain ⟨hnone, -⟩ | ⟨gap, m', t, hsome, ht⟩ := h.lexeme?
  · rw [hnone] at hm
    cases hm
  · rw [hm] at hsome
    cases hsome
    exact ⟨gap, ht⟩

/-- **Where a scanner stands.** The text is what stands before it and what is left, and its offset
is the size of the former. -/
theorem Stands.split {text : String} (h : Stands pieces last found s)
    (hdivides : Divides text.toList pieces last) :
    text = String.ofList (textOf found) ++ String.ofList s.rest
      ∧ s.offset = (String.ofList (textOf found)).utf8ByteSize := by
  obtain ⟨⟨later, rfl, hlater⟩, hoffset⟩ := h
  refine ⟨?_, hoffset.trans (byteSize_eq_utf8ByteSize _)⟩
  rw [← String.ofList_append, hlater.eq_textOf, ← List.append_assoc, ← textOf_append,
    ← hdivides.eq_textOf, String.ofList_toList]

/-- A scanner stands at a boundary between characters, and not behind the end. -/
theorem Stands.isValid {text : String} (h : Stands pieces last found s)
    (hdivides : Divides text.toList pieces last) :
    (⟨s.offset⟩ : String.Pos.Raw).IsValid text ∧ s.offset ≤ text.utf8ByteSize := by
  obtain ⟨htext, hoffset⟩ := h.split hdivides
  constructor
  · rw [String.Pos.Raw.isValid_iff_exists_append]
    exact ⟨_, _, htext, by rw [hoffset]; rfl⟩
  · rw [hoffset, htext, String.utf8ByteSize_append]
    exact Nat.le_add_right _ _

/-! ## 3. One call -/

/-- **One call.** It sees some more pieces, brings up their readings and leads behind them; and when
it finds no token, these are all that there are. -/
theorem Stands.next (h : Stands pieces last found s) :
    ∃ more, s.next.readings = more.map (fun piece => piece.2.reading)
      ∧ Stands pieces last (found ++ more) s.next.after
      ∧ (s.next.token = none → found ++ more = pieces) := by
  fun_induction Scanner.next s generalizing found with
  | case1 s hnone =>
    rw [← List.append_nil found] at h
    exact ⟨[], rfl, h, fun _ => h.of_none hnone⟩
  | case2 s m after hm token htoken =>
    obtain ⟨gap, hafter⟩ := h.of_some hm
    refine ⟨[(gap, m)], ?_, hafter, fun hend => absurd hend (Option.some_ne_none token)⟩
    simp [Pull.readings, Lexeme.reading, htoken]
  | case3 s m after hm htoken pull =>
    rename_i ih
    obtain ⟨gap, hbehind⟩ := h.of_some hm
    obtain ⟨more, hreadings, hafter, hall⟩ := ih hbehind
    rw [List.append_assoc] at hafter hall
    refine ⟨(gap, m) :: more, ?_, hafter, hall⟩
    have hfirst : m.reading = .outOfRange m := by simp [Lexeme.reading, htoken]
    rw [List.map_cons, ← hreadings, hfirst]
    rfl

/-- The scanners from which a call searches for a lexeme, one for each round: when a lexeme is
passed over, another search begins behind it. -/
def searches (s : Scanner) : List Scanner :=
  match _found : s.lexeme? with
  | none => [s]
  | some (m, after) =>
    match m.token? with
    | some _ => [s]
    | none => s :: after.searches
termination_by s.rest.length
decreasing_by exact length_lt_of_lexeme? _found

/-- A call that finds nothing has searched once. -/
theorem searches_of_none (h : s.lexeme? = none) : s.searches = [s] := by
  rw [searches]
  split
  · rfl
  · rename_i hsome
    rw [h] at hsome
    cases hsome

/-- A call goes on to search behind a lexeme only if that denotes no token. -/
theorem searches_of_some {m : Lexeme} {after : Scanner} (h : s.lexeme? = some (m, after)) :
    s.searches = match m.token? with
      | some _ => [s]
      | none => s :: after.searches := by
  rw [searches]
  split
  · rename_i hnone
    rw [h] at hnone
    cases hnone
  · rename_i hsome
    rw [h] at hsome
    cases hsome
    rfl

/-- Every search of a call begins behind some of the pieces. -/
theorem Stands.searches (h : Stands pieces last found s) :
    ∀ t ∈ s.searches, ∃ more, Stands pieces last (found ++ more) t := by
  have hself : ∃ more, Stands pieces last (found ++ more) s := ⟨[], by rwa [List.append_nil]⟩
  fun_induction Scanner.searches s generalizing found with
  | case1 s _ =>
    rintro t ht
    obtain rfl := List.mem_singleton.1 ht
    exact hself
  | case2 s m after _ _ _ =>
    rintro t ht
    obtain rfl := List.mem_singleton.1 ht
    exact hself
  | case3 s m after hm _ ih =>
    rintro t ht
    rcases List.mem_cons.1 ht with rfl | ht
    · exact hself
    · obtain ⟨gap, hnext⟩ := h.of_some hm
      obtain ⟨more, hmore⟩ := ih hnext ⟨[], by rwa [List.append_nil]⟩ t ht
      exact ⟨(gap, m) :: more, by rwa [List.append_assoc] at hmore⟩

/-- A call searches once for each lexeme that it sees, and once more if it comes to the end. -/
theorem length_searches (s : Scanner) : s.searches.length ≤ s.next.readings.length + 1 := by
  fun_induction Scanner.next s with
  | case1 s hnone => exact Nat.le_of_eq (congrArg List.length (searches_of_none hnone))
  | case2 s m after hm token htoken =>
    rw [searches_of_some hm, htoken]
    exact Nat.le_add_left 1 _
  | case3 s m after hm htoken pull ih =>
    rw [searches_of_some hm, htoken]
    exact Nat.succ_le_succ ih

/-- **Bytes.** A call goes on by a byte at least for each lexeme that it sees. -/
theorem Stands.offset_next (h : Stands pieces last found s) :
    s.offset + s.next.readings.length ≤ s.next.after.offset := by
  obtain ⟨more, hreadings, hafter, -⟩ := h.next
  rw [h.offset, hafter.offset, hreadings, List.length_map, textOf_append, byteSize_append]
  exact Nat.add_le_add_left (length_le_byteSize_textOf more) _

/-- A call that yields a token has seen its lexeme. -/
theorem length_readings_pos (h : s.next.token.isSome) : 0 < s.next.readings.length := by
  obtain ⟨token, htoken⟩ := Option.isSome_iff_exists.1 h
  simp [Pull.readings, htoken]

/-- **The end.** Behind a call that yields no token there is no lexeme. -/
theorem lexeme?_after_none (h : s.next.token = none) : s.next.after.lexeme? = none := by
  fun_induction Scanner.next s with
  | case1 s hnone => exact hnone
  | case2 s m after hm token htoken => cases h
  | case3 s m after hm htoken pull ih => exact ih h

/-! ## 4. Any number of calls -/

/-- The scanner after some calls. -/
def afterCalls (s : Scanner) : Nat → Scanner
  | 0 => s
  | n + 1 => (s.afterCalls n).next.after

/-- What some calls have brought up. -/
def seen (s : Scanner) : Nat → List Reading
  | 0 => []
  | n + 1 => s.seen n ++ (s.afterCalls n).next.readings

/-- **Any number of calls.** They see some pieces, bring up their readings and lead behind them. -/
theorem Stands.afterCalls (h : Stands pieces last [] s) (n : Nat) :
    ∃ found, s.seen n = found.map (fun piece => piece.2.reading)
      ∧ Stands pieces last found (s.afterCalls n) := by
  induction n with
  | zero => exact ⟨[], rfl, h⟩
  | succ n ih =>
    obtain ⟨found, hseen, hstands⟩ := ih
    obtain ⟨more, hreadings, hafter, -⟩ := hstands.next
    exact ⟨found ++ more, by rw [seen, hseen, hreadings, List.map_append], hafter⟩

/-- **Behind the end.** All calls behind one that yields no token do nothing. -/
theorem afterCalls_of_none (s : Scanner) {n m : Nat} (h : (s.afterCalls n).next.token = none)
    (hm : n < m) :
    s.afterCalls m = (s.afterCalls n).next.after
      ∧ (s.afterCalls m).next = ⟨[], none, s.afterCalls m⟩ := by
  have hend := next_of_none (lexeme?_after_none h)
  suffices hsame : s.afterCalls m = (s.afterCalls n).next.after by
    refine ⟨hsame, ?_⟩
    rw [hsame]
    exact hend
  induction m with
  | zero => exact absurd hm (Nat.not_lt_zero n)
  | succ m ih =>
    rcases Nat.lt_succ_iff_lt_or_eq.1 hm with hlt | rfl
    · rw [Scanner.afterCalls, ih hlt, hend]
    · rfl

/-- What is still to be read is what a scanner at the beginning of the rest would read. -/
theorem readings_eq_rest (s : Scanner) :
    s.readings = Photoplot.readings (String.ofList s.rest) := by
  obtain ⟨pieces, last, hdivides⟩ := exists_divides s.rest
  have hhere := hdivides.readings s.offset
  have hanew := hdivides.readings 0
  rw [Photoplot.readings, Scanner.ofText, String.toList_ofList, hanew]
  exact hhere

/-- **Pulls.** Every pull of a scanner leads behind some of the pieces, and not back. -/
theorem Stands.pulls (h : Stands pieces last found s) :
    (s.pulls.map fun pull => pull.after.offset).Pairwise (· ≤ ·)
      ∧ ∀ pull ∈ s.pulls, s.offset ≤ pull.after.offset
        ∧ ∃ found', Stands pieces last found' pull.after := by
  fun_induction Scanner.pulls s generalizing found with
  | case1 s hmore ih =>
    obtain ⟨more, -, hafter, -⟩ := h.next
    have hnext : s.offset ≤ s.next.after.offset := Nat.le_trans (Nat.le_add_right _ _) h.offset_next
    obtain ⟨hsorted, hlater⟩ := ih hafter
    constructor
    · rw [List.map_cons, List.pairwise_cons]
      refine ⟨?_, hsorted⟩
      simp only [List.mem_map, forall_exists_index, and_imp]
      rintro offset pull hpull rfl
      exact (hlater pull hpull).1
    · intro pull hpull
      rcases List.mem_cons.1 hpull with rfl | hpull
      · exact ⟨hnext, _, hafter⟩
      · obtain ⟨hoffset, hstands⟩ := hlater pull hpull
        exact ⟨Nat.le_trans hnext hoffset, hstands⟩
  | case2 s hend =>
    obtain ⟨more, -, hafter, -⟩ := h.next
    refine ⟨List.pairwise_singleton _ _, fun pull hpull => ?_⟩
    obtain rfl := List.mem_singleton.1 hpull
    exact ⟨Nat.le_trans (Nat.le_add_right _ _) h.offset_next, _, hafter⟩

end Scanner

/-! ## 5. The pulls of a run -/

namespace Interpreter

variable {σ : Type} [Plotter σ]

/-- The pulls that a run asks for: it stops asking when it comes to its end. -/
def pulled (i : Interpreter σ) : List Pull → List Pull
  | [] => []
  | pull :: rest =>
    match (i.run pull.readings).outcome with
    | .ok .proceed => pull :: (i.run pull.readings).after.pulled rest
    | _ => [pull]

/-- The first pulls are those that are asked for, and their readings are all that the run depends
on. -/
theorem pulled_prefix (i : Interpreter σ) (pulls : List Pull) :
    i.pulled pulls <+: pulls
      ∧ i.run ((i.pulled pulls).flatMap Pull.readings) = i.run (pulls.flatMap Pull.readings) := by
  induction pulls generalizing i with
  | nil => exact ⟨List.prefix_rfl, rfl⟩
  | cons pull rest ih =>
    rw [pulled, List.flatMap_cons, run_append]
    split
    · rename_i hflow
      obtain ⟨hfront, hrun⟩ := ih (i.run pull.readings).after
      refine ⟨List.prefix_cons_inj pull |>.2 hfront, ?_⟩
      rw [List.flatMap_cons, run_append, Run.andThen_of_proceed hflow, Run.andThen_of_proceed hflow,
        hrun]
    · rename_i hend
      refine ⟨⟨rest, rfl⟩, ?_⟩
      rw [List.flatMap_singleton, Run.andThen_of_end hend]

end Interpreter

/-- **Progress.** However often the scanner of a text is called, it stands behind the first few
pieces of the text, with their readings brought up: at the beginning or where the last lexeme seen
ends, passed over or not. It stands at a boundary between characters and not behind the end, and so
does every search that the next call makes; these are no more than the bytes that it passes, and
one. A call never goes back, and goes on if it yields a token; behind one that yields none, calls do
nothing. What is still to be read is what the rest of the text brings up on its own. So a run, which
calls until it comes to its end, hears of offsets that never fall and never exceed the size of the
text. -/
theorem scanner_gets_on (text : String) :
    let start := Scanner.ofText text
    start.offset = 0
      ∧ (∃ pieces last, Divides text.toList pieces last
        ∧ ∀ n,
          let s := start.afterCalls n
          (∃ found later, pieces = found ++ later
              ∧ start.seen n = found.map (fun piece => piece.2.reading)
              ∧ text = String.ofList (textOf found) ++ String.ofList s.rest
              ∧ s.offset = (String.ofList (textOf found)).utf8ByteSize)
            ∧ (∀ t ∈ s :: s.searches,
              (⟨t.offset⟩ : String.Pos.Raw).IsValid text ∧ t.offset ≤ text.utf8ByteSize)
            ∧ s.offset + s.searches.length ≤ s.next.after.offset + 1
            ∧ s.offset ≤ s.next.after.offset
            ∧ (s.next.token.isSome → s.offset < s.next.after.offset)
            ∧ (s.next.token = none → ∀ m, n < m →
              (start.afterCalls m).next.token = none
                ∧ (start.afterCalls m).offset = s.next.after.offset)
            ∧ s.readings = readings (String.ofList s.rest)
            ∧ s.tokens = tokens (String.ofList s.rest))
      ∧ ∀ {σ : Type} [Plotter σ] (i : Interpreter σ),
        let pulled := i.pulled start.pulls
        let reported := pulled.map fun pull => pull.after.offset
        i.run (pulled.flatMap Pull.readings) = i.runText text
          ∧ reported <+: reportedOffsets text
          ∧ reported.Pairwise (· ≤ ·)
          ∧ ∀ offset ∈ reported, offset ≤ text.utf8ByteSize := by
  intro start
  obtain ⟨pieces, last, hdivides⟩ := exists_divides text.toList
  have hstart : start.Stands pieces last [] := Scanner.stands_ofText hdivides
  refine ⟨rfl, ⟨pieces, last, hdivides, fun n => ?_⟩, fun i => ?_⟩
  · obtain ⟨found, hseen, hstands⟩ := hstart.afterCalls n
    obtain ⟨htext, hoffset⟩ := hstands.split hdivides
    have hbytes := hstands.offset_next
    have hsearches := Scanner.length_searches (start.afterCalls n)
    refine ⟨?_, ?_, by omega, by omega, ?_, ?_, ?_, ?_⟩
    · obtain ⟨later, hlater, -⟩ := hstands.later
      exact ⟨found, later, hlater, hseen, htext, hoffset⟩
    · intro t ht
      rcases List.mem_cons.1 ht with rfl | ht
      · exact hstands.isValid hdivides
      · obtain ⟨more, hmore⟩ := hstands.searches t ht
        exact hmore.isValid hdivides
    · intro htoken
      have hpos := Scanner.length_readings_pos htoken
      omega
    · intro hnone m hm
      obtain ⟨hsame, hnext⟩ := start.afterCalls_of_none hnone hm
      exact ⟨congrArg Pull.token hnext, congrArg Scanner.offset hsame⟩
    · exact Scanner.readings_eq_rest _
    · rw [tokens, Scanner.tokens_eq_filterMap, Scanner.tokens_eq_filterMap,
        Scanner.readings_eq_rest]
      rfl
  · obtain ⟨hfront, hrun⟩ := i.pulled_prefix start.pulls
    obtain ⟨hsorted, hpulls⟩ := hstart.pulls
    refine ⟨hrun, hfront.map _, hsorted.sublist (hfront.map _).sublist, ?_⟩
    simp only [List.mem_map, forall_exists_index, and_imp]
    rintro offset pull hpull rfl
    obtain ⟨-, found, hstands⟩ := hpulls pull (hfront.subset hpull)
    exact (hstands.isValid hdivides).2

/-- A stop code between characters of two bytes, and behind it a number out of range: the first call
yields the stop code, the second one passes the number over and yields nothing, and so do all
others. -/
theorem scanner_gets_on_sample :
    let start := Scanner.ofText "é M0 Q99999999999 ü"
    start.next.token = some (.command 'M' (some 0))
      ∧ start.offset < start.next.after.offset
      ∧ (start.afterCalls 1).next.token = none
      ∧ ∀ m, 1 < m → (start.afterCalls m).next.token = none ∧ (start.afterCalls m).offset = 18 := by
  intro start
  let second : Scanner := ⟨" Q99999999999 ü".toList, 5⟩
  let third : Scanner := ⟨" ü".toList, 18⟩
  have hstop : start.lexeme? = some (.command 'M' ['0'], second) := rfl
  have hlarge : second.lexeme? = some (.command 'Q' "99999999999".toList, third) := rfl
  have hend : third.lexeme? = none := rfl
  have hfirst : start.next = ⟨[], some (.command 'M' (some 0)), second⟩ :=
    (Scanner.next_of_some hstop).trans rfl
  have hsecond : second.next = ⟨[.command 'Q' "99999999999".toList], none, third⟩ := by
    rw [Scanner.next_of_some hlarge, Scanner.next_of_none hend]
    rfl
  have hone : start.afterCalls 1 = second := congrArg Pull.after hfirst
  have hnone : (start.afterCalls 1).next.token = none := by rw [hone, hsecond]
  obtain ⟨-, ⟨pieces, last, -, hcalls⟩, -⟩ := scanner_gets_on "é M0 Q99999999999 ü"
  obtain ⟨-, -, -, -, hforward, -⟩ := hcalls 0
  obtain ⟨-, -, -, -, -, hbehind, -⟩ := hcalls 1
  refine ⟨by rw [hfirst], hforward ?_, hnone, fun m hm => ?_⟩
  · exact congrArg (fun pull => pull.token.isSome) hfirst
  · obtain ⟨htoken, hoffset⟩ := hbehind hnone m hm
    refine ⟨htoken, hoffset.trans ?_⟩
    show (start.afterCalls 1).next.after.offset = 18
    rw [hone, hsecond]

end Photoplot
