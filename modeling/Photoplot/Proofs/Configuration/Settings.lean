import Photoplot.Configuration.Settings

/-!
What settings a conversion has.

There are two sources, the command line and a configuration file. Of either only what counts is
looked at: the units if one of them chooses units, and three texts of offsets, each from the command
line, else from the file, else `0,0`. These are the checks of a configuration, in this order. The
settings are found when all of them pass, and otherwise the first one that does not names the fault.

**What is proved, and where the work is.**

* What an offset text has to look like is said apart from the code that reads it, in
  `Point.WrittenAs`: there is a comma, and the parts before and behind the first one are numbers
  with blanks around them. The code trims both ends by two passes over the characters, and that this
  leaves the one core of a text is the work of section 1 (`Text.trim_eq_iff`); splitting at the
  first comma is an induction (`splitComma?_eq_some_iff`).
* A check is one of two kinds, units or the text of an offset, and either kind has a lemma that it
  passes when the code finds a value, and one for the fault that it raises. An offset that nobody
  gives is read as the text `0,0` would be (`chooseOffset_eq`), so the third source is no case of
  its own.
* The first fault is an inductive predicate on the list of checks, and `firstFault_bind` is the one
  lemma that links it to the code: a step that is a check, and then the others. The four checks are
  four uses of it.
* A file that differs where the command line says something already comes to the same, right or
  wrong. The flag for details is the exception to the order of the sources: either of them can ask
  for details, and neither can forbid them (`tells_iff`).

Main statement: `Settings.resolve_by_checks`.
-/

set_option autoImplicit false

namespace Photoplot

/-- Two steps have a result when the first one has one, and with it the second one. -/
theorem bind_eq_ok_iff {ε α β : Type} {first : Except ε α} {more : α → Except ε β} {b : β} :
    first >>= more = .ok b ↔ ∃ a, first = .ok a ∧ more a = .ok b := by
  constructor
  · intro h
    cases first with
    | error cause => cases h
    | ok a => exact ⟨a, rfl, h⟩
  · rintro ⟨a, rfl, h⟩
    exact h

/-! ## 1. Blanks at the ends -/

namespace Text

/-- The core of a text: what remains without the blanks at its two ends. -/
structure IsCore (cs core : List Char) : Prop where
  split : ∃ before after, cs = before ++ core ++ after
    ∧ (∀ c ∈ before, isBlank c = true) ∧ ∀ c ∈ after, isBlank c = true
  first : ∀ c ∈ core.head?, isBlank c = false
  last : ∀ c ∈ core.getLast?, isBlank c = false

/-- Blanks are dropped up to the first character that is none. -/
theorem dropWhile_blanks {before rest : List Char} (hbefore : ∀ c ∈ before, isBlank c = true)
    (hrest : ∀ c ∈ rest.head?, isBlank c = false) : (before ++ rest).dropWhile isBlank = rest := by
  rw [List.dropWhile_append_of_pos hbefore]
  cases rest with
  | nil => rfl
  | cons c rest =>
    have hc : isBlank c = false := hrest c rfl
    simp [hc]

theorem head?_dropWhile_blanks (cs : List Char) :
    ∀ c ∈ (cs.dropWhile isBlank).head?, isBlank c = false := by
  intro c hc
  have hnot := List.head?_dropWhile_not isBlank cs
  rw [Option.mem_def.1 hc] at hnot
  exact hnot

/-- Trimming leaves a core. -/
theorem isCore_trim (cs : List Char) : IsCore cs (trim cs) := by
  have hleft := List.takeWhile_append_dropWhile (p := isBlank) (l := cs)
  have hfirst := head?_dropWhile_blanks cs
  have htrim : trim cs = ((cs.dropWhile isBlank).reverse.dropWhile isBlank).reverse := rfl
  generalize cs.dropWhile isBlank = rest at hleft hfirst htrim
  have hright : trim cs ++ (rest.reverse.takeWhile isBlank).reverse = rest := by
    rw [htrim, ← List.reverse_append, List.takeWhile_append_dropWhile, List.reverse_reverse]
  constructor
  · refine ⟨cs.takeWhile isBlank, (rest.reverse.takeWhile isBlank).reverse, ?_,
      List.all_eq_true.1 List.all_takeWhile, ?_⟩
    · rw [List.append_assoc, hright, hleft]
    · intro c hc
      exact List.all_eq_true.1 List.all_takeWhile c (List.mem_reverse.1 hc)
  · intro c hc
    apply hfirst
    rw [← hright, List.head?_append, Option.mem_def.1 hc]
    rfl
  · rw [htrim, List.getLast?_reverse]
    exact head?_dropWhile_blanks _

/-- A text has one core, and trimming finds it. -/
theorem trim_eq_iff {cs core : List Char} : trim cs = core ↔ IsCore cs core := by
  constructor
  · rintro rfl
    exact isCore_trim cs
  · rintro ⟨⟨before, after, rfl, hbefore, hafter⟩, hfirst, hlast⟩
    cases core with
    | nil =>
      -- nothing but blanks, so all of them are dropped from the left
      have hblank : ∀ c ∈ before ++ [] ++ after, isBlank c = true := by
        intro c hc
        rw [List.append_nil] at hc
        exact (List.mem_append.1 hc).elim (hbefore c) (hafter c)
      have hleft : (before ++ [] ++ after ++ []).dropWhile isBlank = [] :=
        dropWhile_blanks hblank nofun
      rw [List.append_nil] at hleft
      rw [trim, hleft]
      rfl
    | cons c core =>
      have hblank : ∀ d ∈ after.reverse, isBlank d = true :=
        fun d hd => hafter d (List.mem_reverse.1 hd)
      have hfirst' : ∀ d ∈ (c :: core ++ after).head?, isBlank d = false := hfirst
      have hlast' : ∀ d ∈ (c :: core).reverse.head?, isBlank d = false := by
        rw [List.head?_reverse]
        exact hlast
      rw [trim, List.append_assoc, dropWhile_blanks hbefore hfirst', List.reverse_append,
        dropWhile_blanks hblank hlast', List.reverse_reverse]

end Text

/-! ## 2. The texts of offsets -/

namespace Point

/-- The first comma is the one with none before it. -/
theorem splitComma?_eq_some_iff {cs xs ys : List Char} :
    splitComma? cs = some (xs, ys) ↔ cs = xs ++ ',' :: ys ∧ ',' ∉ xs := by
  induction cs generalizing xs with
  | nil => simp [splitComma?]
  | cons c cs ih =>
    rw [splitComma?]
    by_cases hc : c = ','
    · rw [if_pos hc, hc]
      cases xs with
      | nil => simp
      | cons x xs =>
        simp only [Option.some.injEq, Prod.mk.injEq, List.cons_append, List.cons.injEq,
          List.mem_cons, not_or]
        constructor
        · rintro ⟨hnil, -⟩
          cases hnil
        · rintro ⟨⟨hx, -⟩, hne, -⟩
          exact absurd hx hne
    · rw [if_neg hc, Option.map_eq_some_iff]
      constructor
      · rintro ⟨⟨xs', ys'⟩, hparts, hxs⟩
        obtain ⟨rfl, rfl⟩ := Prod.mk.inj hxs
        obtain ⟨hcs, hcomma⟩ := ih.1 hparts
        exact ⟨congrArg (c :: ·) hcs, by simp [hcomma, Ne.symm hc]⟩
      · rintro ⟨hcs, hcomma⟩
        cases xs with
        | nil => exact absurd (List.cons_eq_cons.1 hcs).1 hc
        | cons x xs =>
          obtain ⟨rfl, hrest⟩ := List.cons_eq_cons.1 hcs
          exact ⟨(xs, ys), ih.2 ⟨hrest, fun h => hcomma (List.mem_cons_of_mem _ h)⟩, rfl⟩

/-- **Offset texts.** A text stands for a point when it has a comma and the parts before and behind
the first one are, up to blanks around them, the texts of its coordinates. -/
def WrittenAs (p : Point) (text : String) : Prop :=
  ∃ xs ys x y, text.toList = xs ++ ',' :: ys ∧ ',' ∉ xs ∧ Text.IsCore xs x ∧ Text.IsCore ys y
    ∧ Decimal.read? x = some p.x ∧ Decimal.read? y = some p.y

/-- **Reading offsets.** A text is read as a point when it is written as that point. -/
theorem read?_eq_some_iff {text : String} {p : Point} : read? text = some p ↔ p.WrittenAs text := by
  simp only [read?, Option.bind_eq_bind, Option.bind_eq_some_iff, Option.pure_def,
    Option.some.injEq]
  constructor
  · rintro ⟨⟨xs, ys⟩, hparts, x, hx, y, hy, rfl⟩
    obtain ⟨htext, hcomma⟩ := splitComma?_eq_some_iff.1 hparts
    exact ⟨xs, ys, _, _, htext, hcomma, Text.trim_eq_iff.1 rfl, Text.trim_eq_iff.1 rfl, hx, hy⟩
  · rintro ⟨xs, ys, x, y, htext, hcomma, hxs, hys, hx, hy⟩
    obtain rfl := Text.trim_eq_iff.2 hxs
    obtain rfl := Text.trim_eq_iff.2 hys
    exact ⟨(xs, ys), splitComma?_eq_some_iff.2 ⟨htext, hcomma⟩, p.x, hx, p.y, hy, rfl⟩

end Point

/-! ## 3. Settings by their checks -/

/-- The units that a selector from one to three chooses. -/
inductive Units.SelectedBy : Units → Int → Prop
  | one : SelectedBy .tenthsOfMillimeter 1
  | two : SelectedBy .hundredthsOfInch 2
  | three : SelectedBy .thousandthsOfInch 3

/-- No other number chooses units. -/
theorem Units.ofSelector?_eq_some_iff {n : Int} {u : Units} :
    ofSelector? n = some u ↔ u.SelectedBy n := by
  constructor
  · intro h
    unfold ofSelector? at h
    split at h
    · rename_i hn
      obtain rfl := Option.some.inj h
      exact hn ▸ .one
    · split at h
      · rename_i hn
        obtain rfl := Option.some.inj h
        exact hn ▸ .two
      · split at h
        · rename_i hn
          obtain rfl := Option.some.inj h
          exact hn ▸ .three
        · cases h
  · rintro (_ | _ | _) <;> rfl

namespace Settings

/-- Units as they are chosen, hundredths of inches if nothing chooses. -/
inductive UnitsFor : Option Int → Units → Prop
  | standard : UnitsFor none .hundredthsOfInch
  | selected {u : Units} {n : Int} (h : u.SelectedBy n) : UnitsFor (some n) u

/-- One thing that is looked at before there are settings: the selector of the units, if any, or the
text of an offset. -/
inductive Check where
  | units (selector : Option Int)
  | offset (text : String)

namespace Check

/-- A check that finds nothing wrong. -/
inductive Passes : Check → Prop
  | units {u : Units} {selector : Option Int} (h : UnitsFor selector u) : Passes (.units selector)
  | offset {p : Point} {text : String} (h : p.WrittenAs text) : Passes (.offset text)

/-- A check that finds something wrong, and the fault that says so: it names the number or the whole
text. -/
inductive Raises : Check → Fault → Prop
  | units {n : Int} (h : ∀ u : Units, ¬ u.SelectedBy n) : Raises (.units (some n)) (.invalidUnits n)
  | offset {text : String} (h : ∀ p : Point, ¬ p.WrittenAs text) :
      Raises (.offset text) (.invalidOffset text)

end Check

/-- **The first fault.** All checks before the one that raises it pass. -/
inductive FirstFault : List Check → Fault → Prop
  | here {check : Check} {fault : Fault} (h : check.Raises fault) (rest : List Check) :
      FirstFault (check :: rest) fault
  | further {check : Check} {rest : List Check} {fault : Fault} (hpasses : check.Passes)
      (h : FirstFault rest fault) : FirstFault (check :: rest) fault

/-- The text of an offset that counts: that of the command line, else that of the file, else the one
for no offset at all. -/
def offsetText (commandLine file : Option String) : String :=
  (commandLine.or file).getD "0,0"

/-- What is looked at, in order. -/
def checks (commandLine file : Preferences) : List Check :=
  [.units (commandLine.units.or file.units),
    .offset (offsetText commandLine.markOffset file.markOffset),
    .offset (offsetText commandLine.cutOffset file.cutOffset),
    .offset (offsetText commandLine.drillOffset file.drillOffset)]

/-- The settings that two sources amount to. -/
structure Settles (commandLine file : Preferences) (s : Settings) : Prop where
  units : UnitsFor (commandLine.units.or file.units) s.units
  mark : s.offsets.mark.WrittenAs (offsetText commandLine.markOffset file.markOffset)
  cut : s.offsets.cut.WrittenAs (offsetText commandLine.cutOffset file.cutOffset)
  drill : s.offsets.drill.WrittenAs (offsetText commandLine.drillOffset file.drillOffset)
  verbose : s.verbose = true ↔ commandLine.verbose = some true ∨ file.verbose = some true

/-- Two files that say the same wherever the command line leaves it to them. -/
structure SameUncovered (commandLine file file' : Preferences) : Prop where
  units : commandLine.units = none → file'.units = file.units
  mark : commandLine.markOffset = none → file'.markOffset = file.markOffset
  cut : commandLine.cutOffset = none → file'.cutOffset = file.cutOffset
  drill : commandLine.drillOffset = none → file'.drillOffset = file.drillOffset
  verbose : commandLine.verbose ≠ some true → file'.verbose = file.verbose

theorem chooseUnits_eq_ok_iff {selector : Option Int} {u : Units} :
    chooseUnits selector = .ok u ↔ UnitsFor selector u := by
  cases selector with
  | none =>
    constructor
    · intro h
      cases h
      exact .standard
    · rintro ⟨⟩
      rfl
  | some n =>
    rw [chooseUnits]
    constructor
    · intro h
      split at h
      · rename_i u' hu
        cases h
        exact .selected (Units.ofSelector?_eq_some_iff.1 hu)
      · cases h
    · rintro ⟨⟩
      rename_i h
      rw [Units.ofSelector?_eq_some_iff.2 h]

/-- Without a text there is no offset, as with the text for none. -/
theorem chooseOffset_eq (commandLine file : Option String) :
    chooseOffset (commandLine.or file) =
      match Point.read? (offsetText commandLine file) with
      | some offset => .ok offset
      | none => .error (.invalidOffset (offsetText commandLine file)) := by
  rw [offsetText]
  cases commandLine.or file with
  | none => rfl
  | some text => rfl

theorem chooseOffset_eq_ok_iff {commandLine file : Option String} {p : Point} :
    chooseOffset (commandLine.or file) = .ok p ↔ p.WrittenAs (offsetText commandLine file) := by
  rw [chooseOffset_eq, ← Point.read?_eq_some_iff]
  cases Point.read? (offsetText commandLine file) with
  | none => simp
  | some offset => simp

/-- The units are found when their check passes. -/
theorem exists_chooseUnits_iff {selector : Option Int} :
    (∃ u, chooseUnits selector = .ok u) ↔ (Check.units selector).Passes := by
  constructor
  · rintro ⟨u, hu⟩
    exact .units (chooseUnits_eq_ok_iff.1 hu)
  · rintro ⟨⟩
    rename_i h
    exact ⟨_, chooseUnits_eq_ok_iff.2 h⟩

theorem exists_chooseOffset_iff {commandLine file : Option String} :
    (∃ p, chooseOffset (commandLine.or file) = .ok p)
      ↔ (Check.offset (offsetText commandLine file)).Passes := by
  constructor
  · rintro ⟨p, hp⟩
    exact .offset (chooseOffset_eq_ok_iff.1 hp)
  · rintro ⟨⟩
    rename_i h
    exact ⟨_, chooseOffset_eq_ok_iff.2 h⟩

/-- The units are faulty when their check raises the fault. -/
theorem chooseUnits_eq_error_iff {selector : Option Int} {fault : Fault} :
    chooseUnits selector = .error fault ↔ (Check.units selector).Raises fault := by
  cases selector with
  | none =>
    constructor <;> nofun
  | some n =>
    cases hn : Units.ofSelector? n with
    | some u =>
      have hu := Units.ofSelector?_eq_some_iff.1 hn
      simp only [chooseUnits, hn]
      constructor
      · nofun
      · rintro ⟨⟩
        rename_i h
        exact absurd hu (h u)
    | none =>
      have hbad : ∀ u : Units, ¬ u.SelectedBy n := by
        intro u hu
        rw [Units.ofSelector?_eq_some_iff.2 hu] at hn
        cases hn
      simp only [chooseUnits, hn]
      constructor
      · rintro ⟨⟩
        exact .units hbad
      · rintro ⟨⟩
        rfl

/-- An offset is faulty when its check raises the fault, which holds the text that counts. -/
theorem chooseOffset_eq_error_iff {commandLine file : Option String} {fault : Fault} :
    chooseOffset (commandLine.or file) = .error fault
      ↔ (Check.offset (offsetText commandLine file)).Raises fault := by
  rw [chooseOffset_eq]
  generalize offsetText commandLine file = text
  cases htext : Point.read? text with
  | some p =>
    have hp := Point.read?_eq_some_iff.1 htext
    constructor
    · nofun
    · rintro ⟨⟩
      rename_i h
      exact absurd hp (h p)
  | none =>
    have hbad : ∀ p : Point, ¬ p.WrittenAs text := by
      intro p hp
      rw [Point.read?_eq_some_iff.2 hp] at htext
      cases htext
    constructor
    · rintro ⟨⟩
      exact .offset hbad
    · rintro ⟨⟩
      rfl

/-! ## 4. All checks in a row -/

/-- **One check, then the others.** A step that is a check makes the faults of what follows faults
of the whole, if it passes. -/
theorem firstFault_bind {α β : Type} {first : Except Fault α} {more : α → Except Fault β}
    {check : Check} {rest : List Check} (hpasses : (∃ a, first = .ok a) ↔ check.Passes)
    (hraises : ∀ {fault : Fault}, first = .error fault ↔ check.Raises fault)
    (hmore : ∀ a fault, more a = .error fault ↔ FirstFault rest fault) (fault : Fault) :
    first >>= more = .error fault ↔ FirstFault (check :: rest) fault := by
  constructor
  · intro h
    cases hfirst : first with
    | error cause =>
      rw [hfirst] at h
      cases h
      exact .here (hraises.1 hfirst) rest
    | ok a =>
      rw [hfirst] at h
      exact .further (hpasses.1 ⟨a, hfirst⟩) ((hmore a fault).1 h)
  · intro h
    cases h with
    | here h =>
      rw [hraises.2 h]
      rfl
    | further hcheck h =>
      obtain ⟨a, ha⟩ := hpasses.2 hcheck
      rw [ha]
      exact (hmore a fault).2 h

/-- **Faults.** Four checks, one after the other. -/
theorem resolve_eq_error_iff (commandLine file : Preferences) (fault : Fault) :
    resolve commandLine file = .error fault ↔ FirstFault (checks commandLine file) fault := by
  refine firstFault_bind exists_chooseUnits_iff chooseUnits_eq_error_iff (fun units => ?_) fault
  refine firstFault_bind exists_chooseOffset_iff chooseOffset_eq_error_iff fun mark => ?_
  refine firstFault_bind exists_chooseOffset_iff chooseOffset_eq_error_iff fun cut => ?_
  refine firstFault_bind exists_chooseOffset_iff chooseOffset_eq_error_iff fun drill fault => ?_
  constructor <;> nofun

/-- Details are told when either source asks for them. -/
theorem tells_iff {commandLine file : Option Bool} :
    (commandLine.getD false || file.getD false) = true
      ↔ commandLine = some true ∨ file = some true := by
  cases commandLine <;> cases file <;> simp

/-- **Settings.** What is found is what the two sources amount to. -/
theorem resolve_eq_ok_iff (commandLine file : Preferences) (s : Settings) :
    resolve commandLine file = .ok s ↔ Settles commandLine file s := by
  simp only [resolve, bind_eq_ok_iff, chooseUnits_eq_ok_iff, chooseOffset_eq_ok_iff]
  constructor
  · rintro ⟨units, hunits, mark, hmark, cut, hcut, drill, hdrill, hs⟩
    cases hs
    exact ⟨hunits, hmark, hcut, hdrill, tells_iff⟩
  · rintro ⟨hunits, hmark, hcut, hdrill, hverbose⟩
    obtain ⟨units, ⟨mark, cut, drill⟩, verbose⟩ := s
    refine ⟨units, hunits, mark, hmark, cut, hcut, drill, hdrill, ?_⟩
    have hsame : (commandLine.verbose.getD false || file.verbose.getD false) = verbose := by
      rw [Bool.eq_iff_iff, hverbose]
      exact tells_iff
    rw [hsame]
    rfl

/-- What counts of two values of which the first one goes first. -/
theorem or_congr_of_uncovered {α : Type} {commandLine file file' : Option α}
    (h : commandLine = none → file' = file) : commandLine.or file' = commandLine.or file := by
  cases commandLine with
  | none => exact congrArg (Option.or none) (h rfl)
  | some value => rfl

/-- **Settings.** There are settings exactly when all checks pass, and then they are the ones that
the two sources amount to; otherwise the fault is that of the first check that does not pass. What
the command line covers is not looked at: a file that differs there alone comes to the same, right
or wrong. -/
theorem resolve_by_checks (commandLine file : Preferences) :
    (∀ s, resolve commandLine file = .ok s ↔ Settles commandLine file s)
      ∧ ((∃ s, resolve commandLine file = .ok s)
        ↔ ∀ check ∈ checks commandLine file, check.Passes)
      ∧ (∀ fault, resolve commandLine file = .error fault
        ↔ FirstFault (checks commandLine file) fault)
      ∧ ∀ file', SameUncovered commandLine file file' →
        resolve commandLine file' = resolve commandLine file := by
  refine ⟨resolve_eq_ok_iff commandLine file, ?_, resolve_eq_error_iff commandLine file, ?_⟩
  · simp only [resolve_eq_ok_iff, checks, List.mem_cons, List.not_mem_nil, or_false,
      forall_eq_or_imp, forall_eq]
    constructor
    · rintro ⟨s, hs⟩
      exact ⟨.units hs.units, .offset hs.mark, .offset hs.cut, .offset hs.drill⟩
    · rintro ⟨⟨hunits⟩, _ | ⟨hmark⟩, _ | ⟨hcut⟩, _ | ⟨hdrill⟩⟩
      exact ⟨⟨_, ⟨_, _, _⟩, commandLine.verbose.getD false || file.verbose.getD false⟩, hunits,
        hmark, hcut, hdrill, tells_iff⟩
  · rintro file' ⟨hunits, hmark, hcut, hdrill, hverbose⟩
    have hor : (commandLine.verbose.getD false || file'.verbose.getD false)
        = (commandLine.verbose.getD false || file.verbose.getD false) := by
      by_cases hon : commandLine.verbose = some true
      · simp [hon]
      · rw [hverbose hon]
    simp only [resolve, or_congr_of_uncovered hunits, or_congr_of_uncovered hmark,
      or_congr_of_uncovered hcut, or_congr_of_uncovered hdrill, hor]

/-- Thousandths of inches and a mark offset on the command line, and a file that would choose other
units and holds no mark offset that can be read. -/
theorem resolve_by_checks_samples :
    let commandLine : Preferences := ⟨some 3, some " 0.5 ,-1", none, none, some true⟩
    let file : Preferences := ⟨some 7, some "1;2", some "2,2", none, none⟩
    let tidy : Preferences := ⟨none, none, some "2,2", none, some true⟩
    let faulty : Preferences := ⟨none, some "1;2", some "3", none, none⟩
    SameUncovered commandLine file tidy
      ∧ resolve commandLine tidy = resolve commandLine file
      ∧ resolve commandLine file
        = .ok ⟨.thousandthsOfInch, ⟨⟨0.5, -1.0⟩, ⟨2.0, 2.0⟩, Point.zero⟩, true⟩
      ∧ FirstFault (checks .none faulty) (.invalidOffset "1;2")
      ∧ ¬ ∀ check ∈ checks .none faulty, check.Passes := by
  intro commandLine file tidy faulty
  have hsame : SameUncovered commandLine file tidy :=
    ⟨nofun, nofun, fun _ => rfl, fun _ => rfl, fun hquiet => absurd rfl hquiet⟩
  obtain ⟨-, -, -, hcovered⟩ := resolve_by_checks commandLine file
  obtain ⟨-, hpasses, hfirst, -⟩ := resolve_by_checks .none faulty
  have hfault : resolve .none faulty = .error (.invalidOffset "1;2") := rfl
  refine ⟨hsame, hcovered tidy hsame, rfl, (hfirst _).1 hfault, ?_⟩
  rw [← hpasses, hfault]
  rintro ⟨s, hs⟩
  cases hs

end Settings

end Photoplot
