import Photoplot.CommandLine.Arguments

/-!
The order of options on a command line.

A command line is put together from pieces: options with the value behind them, options without one,
and inputs. It is read by taking the options out of it one after the other, each from whatever list
is left by then, and a value is only what happens to stand behind a name. That this takes the pieces
apart again, in whatever order they stand, rests on two things: nothing but an option name is
spelled like one, and no option is given twice.

**What is proved, and where the work is.**

* `Tidy` says which lines are meant, on the pieces and not on the arguments. It is decidable, and
  closed under dropping pieces (`Tidy.sublist`) and under any order of them (`Tidy.perm`).
* Reading goes by arguments, so the work is in getting back from an argument to its piece. In a tidy
  line a name among the arguments is the name of a piece (`Tidy.mem_spelling`), and of the names of
  a choice at most one stands in the line (`Tidy.present?`), with the one piece that makes the
  choice to the left and right of which there is no other (`Tidy.split`).
* From that, one step: taking an option finds its piece, and leaves the arguments of a line without
  it (`takeValue_spelling`, `takeFlag_spelling`), which is tidy again (`Tidy.without`). The seven
  steps of `Tidy.ofArguments` are then one step applied seven times, and section 4 says that taking
  one choice changes nothing about the others.
* What is read is written down as a function of the pieces (`requestOf`), faults included, and that
  depends on their order only where it concerns the inputs (`Tidy.requestOf_perm`).

Main statement: `ofArguments_of_tidy`. A value may begin like an option, as negative offsets do; an
input may not, for whatever is left over and begins so is an option that does not exist.
-/

set_option autoImplicit false

namespace Photoplot.Arguments

/-! ## 1. Lines -/

/-- What can be chosen on a command line. -/
inductive Choice where
  | units
  | markOffset
  | cutOffset
  | drillOffset
  | verbose
  | configuration
  | output
deriving DecidableEq

/-- All that can be chosen. -/
def Choice.all : List Choice :=
  [units, markOffset, cutOffset, drillOffset, verbose, configuration, output]

theorem Choice.mem_all (choice : Choice) : choice ∈ all := by
  cases choice <;> decide

/-- The names of the option that makes a choice. -/
def Choice.names : Choice → List String
  | units => ["-u", "--units"]
  | markOffset => ["-m", "--markoffset"]
  | cutOffset => ["-c", "--cutoffset"]
  | drillOffset => ["-d", "--drilloffset"]
  | verbose => ["-v", "--verbose"]
  | configuration => ["--config"]
  | output => ["--output"]

/-- The names of the option that asks for help. -/
def helpNames : List String := ["-h", "--help"]

/-- Whether a text is the name of an option. -/
def IsOptionName (text : String) : Prop :=
  text ∈ helpNames ∨ ∃ choice : Choice, text ∈ choice.names

instance (text : String) : Decidable (IsOptionName text) :=
  decidable_of_iff (text ∈ helpNames ∨ ∃ choice ∈ Choice.all, text ∈ choice.names)
    (or_congr_right
      ⟨fun ⟨choice, _, h⟩ => ⟨choice, h⟩, fun ⟨choice, h⟩ => ⟨choice, choice.mem_all, h⟩⟩)

/-- No two options share a name. -/
theorem Choice.eq_of_mem_names {choice choice' : Choice} :
    ∀ name ∈ choice.names, name ∈ choice'.names → choice' = choice := by
  cases choice <;> cases choice' <;> decide

theorem Choice.not_mem_helpNames {choice : Choice} : ∀ name ∈ choice.names, name ∉ helpNames := by
  cases choice <;> decide

/-- A piece of a command line: an option with its value, an option that has none, or an input. -/
inductive Piece where
  | valued (choice : Choice) (name value : String)
  | flag (name : String)
  | input (text : String)
deriving DecidableEq

namespace Piece

/-- The arguments that the piece consists of. -/
def spelling : Piece → List String
  | valued _ name value => [name, value]
  | flag name => [name]
  | input text => [text]

/-- The name of the option, if the piece is one. -/
def name? : Piece → Option String
  | valued _ name _ => some name
  | flag name => some name
  | input _ => none

/-- The choice that the piece makes. -/
def choice? : Piece → Option Choice
  | valued choice _ _ => some choice
  | flag _ => some .verbose
  | input _ => none

/-- What the piece holds besides the name: a value or an input. -/
def operand? : Piece → Option String
  | valued _ _ value => some value
  | flag _ => none
  | input text => some text

/-- The value that the piece gives to a choice. -/
def valueFor? (choice : Choice) : Piece → Option String
  | valued choice' _ value => if choice' = choice then some value else none
  | _ => none

/-- The input, if the piece is one. -/
def input? : Piece → Option String
  | input text => some text
  | _ => none

/-- Options bear a name of their choice, and all choices but that of details have a value. -/
def Named : Piece → Prop
  | valued choice name _ => choice ≠ .verbose ∧ name ∈ choice.names
  | flag name => name ∈ Choice.verbose.names
  | input _ => True

instance : (p : Piece) → Decidable p.Named
  | valued .. => inferInstanceAs (Decidable (_ ∧ _))
  | flag _ => inferInstanceAs (Decidable (_ ∈ _))
  | input _ => isTrue trivial

end Piece

/-- The arguments of a line. -/
def spelling (line : List Piece) : List String :=
  line.flatMap Piece.spelling

/-- The value that a line gives to a choice. -/
def valueOf (choice : Choice) (line : List Piece) : Option String :=
  line.findSome? (Piece.valueFor? choice)

/-- The integer that a line gives to a choice, if it gives a value. -/
def integerOf (choice : Choice) (line : List Piece) : Except UsageFault (Option Int) :=
  match valueOf choice line with
  | none => .ok none
  | some value =>
    match Integer.read value with
    | .ok n => .ok (some n)
    | .error cause => .error (.notInteger value cause)

/-- Whether a line makes a choice. -/
def chooses (choice : Choice) (line : List Piece) : Bool :=
  line.any fun p => p.choice? = some choice

/-- The inputs of a line, in order. -/
def inputsOf (line : List Piece) : List String :=
  line.filterMap Piece.input?

/-- **Tidy lines.** No choice is made twice; no value and no input is an option name, and no input
begins like one. Values may. -/
structure Tidy (line : List Piece) : Prop where
  named : ∀ p ∈ line, p.Named
  once : ∀ choice : Choice, line.countP (fun p => p.choice? = some choice) ≤ 1
  plain : ∀ p ∈ line, ∀ text ∈ p.operand?, ¬ IsOptionName text
  inputs : ∀ text ∈ inputsOf line, looksLikeOption text = false

instance (line : List Piece) : Decidable (Tidy line) :=
  decidable_of_iff ((∀ p ∈ line, p.Named)
      ∧ (∀ choice ∈ Choice.all, line.countP (fun p => p.choice? = some choice) ≤ 1)
      ∧ (∀ p ∈ line, ∀ text ∈ p.operand?, ¬ IsOptionName text)
      ∧ ∀ text ∈ inputsOf line, looksLikeOption text = false)
    ⟨fun ⟨hnamed, honce, hplain, hinputs⟩ =>
        ⟨hnamed, fun choice => honce choice choice.mem_all, hplain, hinputs⟩,
      fun h => ⟨h.named, fun choice _ => h.once choice, h.plain, h.inputs⟩⟩

/-- A line without the piece that makes a choice. -/
def without (choice : Choice) (line : List Piece) : List Piece :=
  line.filter fun p => p.choice? ≠ some choice

variable {line : List Piece}

theorem Tidy.sublist {line' : List Piece} (h : Tidy line) (hsub : line'.Sublist line) :
    Tidy line' := by
  refine ⟨fun p hp => h.named p (hsub.mem hp), fun choice => ?_,
    fun p hp => h.plain p (hsub.mem hp),
    fun text htext => h.inputs text ((hsub.filterMap _).mem htext)⟩
  exact Nat.le_trans hsub.countP_le (h.once choice)

theorem Tidy.without (h : Tidy line) (choice : Choice) : Tidy (without choice line) :=
  h.sublist List.filter_sublist

/-- The order of the pieces does not matter to tidiness. -/
theorem Tidy.perm {line' : List Piece} (h : Tidy line) (hperm : line'.Perm line) : Tidy line' := by
  refine ⟨fun p hp => h.named p (hperm.mem_iff.1 hp), fun choice => ?_,
    fun p hp => h.plain p (hperm.mem_iff.1 hp),
    fun text htext => h.inputs text ((hperm.filterMap _).mem_iff.1 htext)⟩
  rw [hperm.countP_eq]
  exact h.once choice

/-- In a tidy line a choice is made by no piece, or by one with no other before or behind it. -/
theorem Tidy.split (h : Tidy line) (choice : Choice) :
    (∀ p ∈ line, p.choice? ≠ some choice)
      ∨ ∃ before p after, line = before ++ p :: after ∧ p.choice? = some choice
        ∧ (∀ q ∈ before, q.choice? ≠ some choice) ∧ ∀ q ∈ after, q.choice? ≠ some choice := by
  by_cases hsome : ∃ p ∈ line, p.choice? = some choice
  · obtain ⟨p, hp, hchoice⟩ := hsome
    obtain ⟨before, after, rfl⟩ := List.append_of_mem hp
    have honce := h.once choice
    rw [List.countP_append, List.countP_cons_of_pos (by simpa using hchoice)] at honce
    have hbefore : before.countP (fun q => q.choice? = some choice) = 0 := by omega
    have hafter : after.countP (fun q => q.choice? = some choice) = 0 := by omega
    refine .inr ⟨before, p, after, rfl, hchoice, fun q hq => ?_, fun q hq => ?_⟩
    · simpa using List.countP_eq_zero.1 hbefore q hq
    · simpa using List.countP_eq_zero.1 hafter q hq
  · exact .inl fun p hp hchoice => hsome ⟨p, hp, hchoice⟩

/-! ## 2. Names in a line -/

/-- The name that an option bears tells its choice. -/
theorem Piece.Named.choice? {p : Piece} (h : p.Named) {choice : Choice} {name : String}
    (hname : p.name? = some name) (hmem : name ∈ choice.names) : p.choice? = some choice := by
  cases p with
  | valued choice' name' value =>
    obtain rfl := Option.some.inj hname
    exact congrArg some (Choice.eq_of_mem_names name' hmem h.2)
  | flag name' =>
    obtain rfl := Option.some.inj hname
    exact congrArg some (Choice.eq_of_mem_names name' hmem h)
  | input text => cases hname

/-- An option name among the arguments is the name of a piece: it is no value and no input. -/
theorem Tidy.mem_spelling (h : Tidy line) {name : String} (hname : IsOptionName name)
    (hmem : name ∈ spelling line) : ∃ p ∈ line, p.name? = some name := by
  obtain ⟨p, hp, hp'⟩ := List.mem_flatMap.1 hmem
  refine ⟨p, hp, ?_⟩
  have hplain := h.plain p hp name
  cases p with
  | valued choice name' value =>
    rcases List.mem_cons.1 hp' with rfl | hvalue
    · rfl
    · obtain rfl := List.mem_singleton.1 hvalue
      exact absurd hname (hplain rfl)
  | flag name' =>
    obtain rfl := List.mem_singleton.1 hp'
    rfl
  | input text =>
    obtain rfl := List.mem_singleton.1 hp'
    exact absurd hname (hplain rfl)

/-- Where no piece makes a choice, none of its names stands. -/
theorem Tidy.not_mem_spelling (h : Tidy line) {choice : Choice}
    (hnone : ∀ p ∈ line, p.choice? ≠ some choice) :
    ∀ name ∈ choice.names, name ∉ spelling line := by
  intro name hname hmem
  obtain ⟨p, hp, hp'⟩ := h.mem_spelling (.inr ⟨choice, hname⟩) hmem
  exact hnone p hp ((h.named p hp).choice? hp' hname)

/-- Nobody asks for help. -/
theorem Tidy.no_help (h : Tidy line) : ∀ name ∈ helpNames, name ∉ spelling line := by
  intro name hname hmem
  obtain ⟨p, hp, hp'⟩ := h.mem_spelling (.inl hname) hmem
  have hnamed := h.named p hp
  cases p with
  | valued choice name' value =>
    obtain rfl := Option.some.inj hp'
    exact Choice.not_mem_helpNames name' hnamed.2 hname
  | flag name' =>
    obtain rfl := Option.some.inj hp'
    exact Choice.not_mem_helpNames name' hnamed hname
  | input text => cases hp'

theorem present?_eq_none {names arguments : List String} (h : ∀ name ∈ names, name ∉ arguments) :
    present? names arguments = none := by
  rw [present?, List.find?_eq_none]
  intro name hname hcontains
  exact h name hname (List.contains_iff_mem.1 hcontains)

/-- Of several names the first one that stands in the line is found, so if only one does, it is that
one. -/
theorem present?_eq_some {names arguments : List String} {name : String} (hname : name ∈ names)
    (hmem : name ∈ arguments) (honly : ∀ other ∈ names, other ∈ arguments → other = name) :
    present? names arguments = some name := by
  have hsome : (names.find? arguments.contains).isSome := by
    rw [List.find?_isSome]
    exact ⟨name, hname, List.contains_iff_mem.2 hmem⟩
  obtain ⟨found, hfound⟩ := Option.isSome_iff_exists.1 hsome
  have hcontains := List.find?_some hfound
  obtain rfl := honly found (List.mem_of_find?_eq_some hfound) (List.contains_iff_mem.1 hcontains)
  exact hfound

/-- What stands behind the first occurrence of a name is taken with it. -/
theorem valueBehind?_append {name : String} {before : List String} (h : name ∉ before)
    (value : String) (after : List String) :
    valueBehind? name (before ++ name :: value :: after) = some (value, before ++ after) := by
  induction before with
  | nil => simp [valueBehind?]
  | cons first before ih =>
    have hfirst : first ≠ name := fun heq => h (heq ▸ List.mem_cons_self)
    have hrest := ih fun hmem => h (List.mem_cons_of_mem first hmem)
    rw [List.cons_append]
    unfold valueBehind?
    rw [if_neg hfirst, hrest]
    rfl

/-! ## 3. Taking an option -/

theorem spelling_append (before after : List Piece) :
    spelling (before ++ after) = spelling before ++ spelling after :=
  List.flatMap_append

theorem without_of_none {choice : Choice} (h : ∀ p ∈ line, p.choice? ≠ some choice) :
    without choice line = line := by
  rw [without, List.filter_eq_self]
  intro p hp
  exact decide_eq_true (h p hp)

/-- Of a line in which one piece makes the choice, what stands before and behind this piece remains.
-/
theorem without_split {choice : Choice} {before after : List Piece} {p : Piece}
    (hp : p.choice? = some choice) (hbefore : ∀ q ∈ before, q.choice? ≠ some choice)
    (hafter : ∀ q ∈ after, q.choice? ≠ some choice) :
    without choice (before ++ p :: after) = before ++ after := by
  have hbefore' := without_of_none hbefore
  have hafter' := without_of_none hafter
  unfold without at hbefore' hafter' ⊢
  rw [List.filter_append, List.filter_cons_of_neg (by simp [hp]), hbefore', hafter']

theorem valueFor?_of_choice? {choice : Choice} {p : Piece} (h : p.choice? ≠ some choice) :
    p.valueFor? choice = none := by
  cases p with
  | valued choice' name value => exact if_neg fun heq => h (congrArg some heq)
  | flag name => rfl
  | input text => rfl

theorem valueOf_of_none {choice : Choice} (h : ∀ p ∈ line, p.choice? ≠ some choice) :
    valueOf choice line = none :=
  List.findSome?_eq_none_iff.2 fun p hp => valueFor?_of_choice? (h p hp)

/-- The value of a choice is that of the piece that makes it. -/
theorem valueOf_split {choice : Choice} {before : List Piece}
    (hbefore : ∀ q ∈ before, q.choice? ≠ some choice) (name value : String) (after : List Piece) :
    valueOf choice (before ++ .valued choice name value :: after) = some value := by
  have hearlier := valueOf_of_none hbefore
  unfold valueOf at hearlier ⊢
  rw [List.findSome?_append, hearlier]
  simp [Piece.valueFor?]

/-- Of the names of a choice that a piece makes, only the one it bears stands in the line. -/
theorem Tidy.present? {choice : Choice} {before after : List Piece} {p : Piece} {name : String}
    (h : Tidy (before ++ p :: after)) (hname : p.name? = some name) (hmem : name ∈ choice.names)
    (hbefore : ∀ q ∈ before, q.choice? ≠ some choice)
    (hafter : ∀ q ∈ after, q.choice? ≠ some choice) :
    Arguments.present? choice.names (spelling (before ++ p :: after)) = some name := by
  refine present?_eq_some hmem ?_ ?_
  · rw [spelling, List.mem_flatMap]
    refine ⟨p, List.mem_append_right before List.mem_cons_self, ?_⟩
    cases p with
    | input text => cases hname
    | _ =>
      obtain rfl := Option.some.inj hname
      exact List.mem_cons_self
  · intro other hother hspelled
    obtain ⟨q, hq, hq'⟩ := h.mem_spelling (.inr ⟨choice, hother⟩) hspelled
    have hchoice := (h.named q hq).choice? hq' hother
    -- the piece that bears the other name makes the same choice, so it is this one
    rcases List.mem_append.1 hq with hq | hq
    · exact absurd hchoice (hbefore q hq)
    · rcases List.mem_cons.1 hq with rfl | hq
      · exact Option.some.inj (hq'.symm.trans hname)
      · exact absurd hchoice (hafter q hq)

/-- **An option with a value.** Taking it out of a tidy line gives the value of its piece, and
leaves the arguments of the other pieces. -/
theorem takeValue_spelling (h : Tidy line) (choice : Choice) (hvalued : choice ≠ .verbose) :
    takeValue choice.names (spelling line)
      = .ok (valueOf choice line, spelling (without choice line)) := by
  obtain hnone | ⟨before, p, after, rfl, hp, hbefore, hafter⟩ := h.split choice
  · rw [takeValue, present?_eq_none (h.not_mem_spelling hnone), without_of_none hnone,
      valueOf_of_none hnone]
  · have hnamed := h.named p (List.mem_append_right before List.mem_cons_self)
    cases p with
    | flag name => exact absurd (Option.some.inj hp).symm hvalued
    | input text => cases hp
    | valued choice' name value =>
      obtain rfl := Option.some.inj hp
      have hfree : name ∉ spelling before :=
        (h.sublist (List.sublist_append_left _ _)).not_mem_spelling hbefore name hnamed.2
      rw [takeValue, h.present? rfl hnamed.2 hbefore hafter, without_split hp hbefore hafter,
        valueOf_split hbefore name value after, spelling_append, spelling_append]
      have hbehind := valueBehind?_append hfree value (spelling after)
      have hspelled : spelling (.valued choice' name value :: after)
          = name :: value :: spelling after := rfl
      rw [hspelled]
      simp only [hbehind]

/-- **An option without a value.** Taking it out of a tidy line leaves the arguments of the other
pieces. -/
theorem takeFlag_spelling (h : Tidy line) :
    takeFlag Choice.verbose.names (spelling line)
      = (chooses .verbose line, spelling (without .verbose line)) := by
  obtain hnone | ⟨before, p, after, rfl, hp, hbefore, hafter⟩ := h.split .verbose
  · have hchooses : chooses .verbose line = false := by
      rw [chooses, List.any_eq_false]
      intro p hp
      simpa using hnone p hp
    rw [takeFlag, present?_eq_none (h.not_mem_spelling hnone), without_of_none hnone, hchooses]
  · have hmem : p ∈ before ++ p :: after := List.mem_append_right before List.mem_cons_self
    have hnamed := h.named p hmem
    have hchooses : chooses .verbose (before ++ p :: after) = true := by
      rw [chooses, List.any_eq_true]
      exact ⟨p, hmem, decide_eq_true hp⟩
    cases p with
    | valued choice name value => exact absurd (Option.some.inj hp) hnamed.1
    | input text => cases hp
    | flag name =>
      have hfree : name ∉ spelling before :=
        (h.sublist (List.sublist_append_left _ _)).not_mem_spelling hbefore name hnamed
      have hspelled : spelling (.flag name :: after) = name :: spelling after := rfl
      rw [takeFlag, h.present? rfl hnamed hbefore hafter, without_split hp hbefore hafter, hchooses,
        spelling_append, spelling_append, hspelled]
      simp only [List.erase_append_right _ hfree, List.erase_cons_head]

/-- An option whose value has to be an integer. -/
theorem takeInteger_spelling (h : Tidy line) (choice : Choice) (hvalued : choice ≠ .verbose) :
    takeInteger choice.names (spelling line)
      = (integerOf choice line).map fun n => (n, spelling (without choice line)) := by
  rw [takeInteger, takeValue_spelling h choice hvalued, integerOf]
  cases valueOf choice line with
  | none => rfl
  | some value =>
    cases hread : Integer.read value with
    | ok n => simp [bind, Except.bind, Except.map, hread]
    | error cause => simp [bind, Except.bind, Except.map, hread]

/-! ## 4. What is left of a line -/

/-- Taking one choice does not change the values of the others. -/
theorem valueOf_without {choice other : Choice} (hne : other ≠ choice) (line : List Piece) :
    valueOf other (without choice line) = valueOf other line := by
  induction line with
  | nil => rfl
  | cons p line ih =>
    unfold valueOf without at ih ⊢
    by_cases hp : p.choice? = some choice
    · have hother : p.valueFor? other = none := by
        refine valueFor?_of_choice? ?_
        rw [hp]
        exact fun heq => hne (Option.some.inj heq).symm
      rw [List.filter_cons_of_neg (by simp [hp]), List.findSome?_cons, hother]
      exact ih
    · rw [List.filter_cons_of_pos (by simp [hp]), List.findSome?_cons, List.findSome?_cons, ih]

theorem chooses_without {choice other : Choice} (hne : other ≠ choice) (line : List Piece) :
    chooses other (without choice line) = chooses other line := by
  rw [chooses, chooses, without, List.any_filter]
  congr 1
  funext p
  by_cases hp : p.choice? = some choice
  · simp [hp, hne.symm]
  · simp [hp]

theorem inputsOf_without (choice : Choice) (line : List Piece) :
    inputsOf (without choice line) = inputsOf line := by
  rw [inputsOf, without, List.filterMap_filter, inputsOf]
  congr 1
  funext p
  cases p <;> simp [Piece.choice?, Piece.input?]

/-- Without choices, the arguments of a line are its inputs. -/
theorem spelling_of_no_choice (h : ∀ p ∈ line, p.choice? = none) :
    spelling line = inputsOf line := by
  induction line with
  | nil => rfl
  | cons p line ih =>
    have hp := h p List.mem_cons_self
    have hrest := ih fun q hq => h q (List.mem_cons_of_mem p hq)
    cases p with
    | valued choice name value => cases hp
    | flag name => cases hp
    | input text => exact congrArg (text :: ·) hrest

/-- When every choice has been taken out of a tidy line, its inputs are left. -/
theorem Tidy.inputs_left (h : Tidy line) (hnone : ∀ p ∈ line, p.choice? = none) :
    Arguments.inputs (spelling line)
      = if (inputsOf line).isEmpty then .error .noInput else .ok (inputsOf line) := by
  have hfind : (inputsOf line).find? looksLikeOption = none := by
    rw [List.find?_eq_none]
    intro text htext
    simp [h.inputs text htext]
  rw [Arguments.inputs, spelling_of_no_choice hnone, hfind]

/-! ## 5. What a line asks for -/

/-- **Requests.** What a line asks for: a conversion with its values and its inputs, unless its
units are no integer or there is no input. -/
def requestOf (line : List Piece) : Except UsageFault Request :=
  (integerOf .units line).bind fun units =>
    if (inputsOf line).isEmpty then .error .noInput
    else .ok (.convert
      { preferences := ⟨units, valueOf .markOffset line, valueOf .cutOffset line,
          valueOf .drillOffset line, some (chooses .verbose line)⟩
        configuration := valueOf .configuration line
        output := valueOf .output line
        inputs := inputsOf line })

/-- **Reading a tidy line.** Options are taken in a fixed order, each from a line without those
taken before it. -/
theorem Tidy.ofArguments (h : Tidy line) :
    Request.ofArguments (spelling line) = requestOf line := by
  have hhelp : ¬ (takeFlag ["-h", "--help"] (spelling line)).1 = true := by
    show ¬ (takeFlag helpNames (spelling line)).1 = true
    rw [takeFlag, present?_eq_none h.no_help]
    exact Bool.false_ne_true
  -- the lines that are left after each of the steps are tidy still
  have h₁ := h.without .units
  have h₂ := h₁.without .markOffset
  have h₃ := h₂.without .cutOffset
  have h₄ := h₃.without .drillOffset
  have h₅ := h₄.without .verbose
  have h₆ := h₅.without .configuration
  have hunits := takeInteger_spelling h .units (by decide)
  have hmark := takeValue_spelling h₁ .markOffset (by decide)
  have hcut := takeValue_spelling h₂ .cutOffset (by decide)
  have hdrill := takeValue_spelling h₃ .drillOffset (by decide)
  have hverbose := takeFlag_spelling h₄
  have hconfiguration := takeValue_spelling h₅ .configuration (by decide)
  have houtput := takeValue_spelling h₆ .output (by decide)
  -- in the end no choice is left, and what was taken is what the whole line holds
  have hinputs := (h₆.without .output).inputs_left (by
    intro p hp
    simp only [Arguments.without, List.mem_filter, decide_eq_true_eq] at hp
    obtain ⟨⟨⟨⟨⟨⟨⟨-, hu⟩, hm⟩, hc⟩, hd⟩, hv⟩, hf⟩, ho⟩ := hp
    cases hchoice : p.choice? with
    | none => rfl
    | some choice => cases choice <;> contradiction)
  simp only [ne_eq, reduceCtorEq, not_false_eq_true, valueOf_without, chooses_without,
    inputsOf_without, Choice.names]
    at hunits hmark hcut hdrill hverbose hconfiguration houtput hinputs
  rw [Request.ofArguments, if_neg hhelp, Job.ofArguments, hunits, requestOf]
  cases integerOf .units line with
  | error cause => rfl
  | ok units =>
    simp only [Except.map, bind, Except.bind, hmark, hcut, hdrill, hverbose, hconfiguration,
      houtput, hinputs]
    by_cases hempty : (inputsOf line).isEmpty = true
    · simp only [if_pos hempty]
    · simp only [if_neg hempty]
      rfl

/-! ## 6. Lines in another order -/

/-- The value of a choice is that of its piece, wherever that stands. -/
theorem Tidy.valueOf_eq_some_iff (h : Tidy line) {choice : Choice} {value : String} :
    valueOf choice line = some value ↔ ∃ name, .valued choice name value ∈ line := by
  constructor
  · intro hvalue
    obtain ⟨p, hp, hp'⟩ := List.exists_of_findSome?_eq_some hvalue
    cases p with
    | valued choice' name value' =>
      simp only [Piece.valueFor?, Option.ite_none_right_eq_some, Option.some.injEq] at hp'
      obtain ⟨rfl, rfl⟩ := hp'
      exact ⟨name, hp⟩
    | flag name => cases hp'
    | input text => cases hp'
  · rintro ⟨name, hmem⟩
    obtain hnone | ⟨before, p, after, rfl, -, hbefore, hafter⟩ := h.split choice
    · exact absurd rfl (hnone _ hmem)
    · rcases List.mem_append.1 hmem with hmem | hmem
      · exact absurd rfl (hbefore _ hmem)
      · rcases List.mem_cons.1 hmem with rfl | hmem
        · exact valueOf_split hbefore name value after
        · exact absurd rfl (hafter _ hmem)

theorem Tidy.valueOf_perm {line' : List Piece} (h : Tidy line) (hperm : line'.Perm line)
    (choice : Choice) : valueOf choice line' = valueOf choice line := by
  ext value
  simp only [(h.perm hperm).valueOf_eq_some_iff, h.valueOf_eq_some_iff, hperm.mem_iff]

/-- In whatever order its options stand among the inputs, a line asks for the same. -/
theorem Tidy.requestOf_perm {line' : List Piece} (h : Tidy line) (hperm : line'.Perm line)
    (hinputs : inputsOf line' = inputsOf line) : requestOf line' = requestOf line := by
  have hchooses : chooses .verbose line' = chooses .verbose line := hperm.any_eq
  simp only [requestOf, integerOf, h.valueOf_perm hperm, hchooses, hinputs]

/-- **The order of options.** A tidy line is read as the values, the flag and the inputs that its
pieces hold, or it has the fault that its units are no integer, or that there is no input. Any line
with the same pieces in another order, but the inputs in the same, is tidy and is read alike. -/
theorem ofArguments_of_tidy {line : List Piece} (h : Tidy line) :
    Request.ofArguments (spelling line) = requestOf line
      ∧ (∀ choice value,
        valueOf choice line = some value ↔ ∃ name, .valued choice name value ∈ line)
      ∧ (chooses .verbose line = true ↔ ∃ name, .flag name ∈ line)
      ∧ ∀ line' : List Piece, line'.Perm line → inputsOf line' = inputsOf line →
        Tidy line'
          ∧ Request.ofArguments (spelling line') = Request.ofArguments (spelling line) := by
  refine ⟨h.ofArguments, fun choice value => h.valueOf_eq_some_iff, ?_, ?_⟩
  · rw [chooses, List.any_eq_true]
    constructor
    · rintro ⟨p, hp, hchoice⟩
      have hnamed := h.named p hp
      cases p with
      | valued choice name value => exact absurd (by simpa [Piece.choice?] using hchoice) hnamed.1
      | flag name => exact ⟨name, hp⟩
      | input text => simp [Piece.choice?] at hchoice
    · rintro ⟨name, hp⟩
      exact ⟨_, hp, rfl⟩
  · intro line' hperm hinputs
    have h' := h.perm hperm
    exact ⟨h', by rw [h'.ofArguments, h.ofArguments, h.requestOf_perm hperm hinputs]⟩

/-- Two inputs, with a negative offset before them, units between them and the flag behind them; and
the same with everything before the inputs. -/
theorem ofArguments_of_tidy_sample :
    let units : Piece := .valued .units "--units" "3"
    let mark : Piece := .valued .markOffset "-m" "-1,-2"
    let line := [mark, .input "a.gbr", units, .input "b.cut", .flag "-v"]
    let line' := [.flag "-v", units, mark, .input "a.gbr", .input "b.cut"]
    let job : Job :=
      ⟨⟨some 3, some "-1,-2", none, none, some true⟩, none, none, ["a.gbr", "b.cut"]⟩
    Tidy line
      ∧ spelling line' = ["-v", "--units", "3", "-m", "-1,-2", "a.gbr", "b.cut"]
      ∧ Request.ofArguments (spelling line) = .ok (.convert job)
      ∧ Request.ofArguments (spelling line') = .ok (.convert job) := by
  intro units mark line line' job
  have htidy : Tidy line := by decide
  obtain ⟨hread, -, -, hperm⟩ := ofArguments_of_tidy htidy
  have hrequest : requestOf line = .ok (.convert job) := rfl
  refine ⟨htidy, rfl, hread.trans hrequest, ?_⟩
  obtain ⟨-, hsame⟩ := hperm line' (by decide) rfl
  exact hsame.trans (hread.trans hrequest)

end Photoplot.Arguments
