import Mathlib.Data.List.Basic
import Photoplot.CommandLine.Directory

/-!
Places that stay where they are.

Where a path leads depends on the folders alone, and a file is only ever put into a folder that is
there. So creating and storing files changes no folder, every path keeps leading to its place, and
all that changes is what lies at the one place.

**What is proved, and where the work is.**

* `SameFolders` is the relation between directories that everything else is carried along: whoever
  reads a path walks it through folders, and never looks at contents before the end
  (`SameFolders.walk`, `SameFolders.place_ok`). For reading, the contents at the end have to be the
  same as well (`SameFolders.read_iff`).
* That a stored file changes no folder is not true of any place. It needs everything on the way to
  the place to be a folder already (`Grounded`), and that follows from the walk that has found the
  place: each of its steps went on from a folder (`grounded_step`, `grounded_walk`). Steps back to a
  parent are covered as well, since what is grounded is so up to any part of it.
* A file is created at the place that its path leads to (`created_of_create`). The one difficulty is
  that creating drops empty components at the end of a path and reading does not; a path that has
  any is refused, so the two walks are the same.
* `isFolder_put` and `read_put` are what later modules use: folders stay, and what was put last is
  what is read.
-/

set_option autoImplicit false

namespace Photoplot.Directory

variable {d d' : Directory}

/-! ## 1. Directories with the same folders -/

/-- Two directories with the same folders. -/
def SameFolders (d d' : Directory) : Prop :=
  ∀ place, d'.isFolder place = d.isFolder place

theorem SameFolders.refl (d : Directory) : d.SameFolders d := fun _ => rfl

theorem SameFolders.symm (h : d.SameFolders d') : d'.SameFolders d := fun place => (h place).symm

theorem SameFolders.trans {d'' : Directory} (h : d.SameFolders d') (h' : d'.SameFolders d'') :
    d.SameFolders d'' := fun place => (h' place).trans (h place)

theorem walk_nil (d : Directory) (place : Place) : d.walk place [] = .ok place := by
  rw [walk]

/-- What a walk that gets on has found at its first step. -/
theorem walk_cons_ok {start found : Place} {component : List Char} {rest : List (List Char)} :
    d.walk start (component :: rest) = .ok found
      ↔ d.isFolder start = true ∧ isTooLong component = false
        ∧ d.walk (step start component) rest = .ok found := by
  rw [walk]
  cases d.isFolder start with
  | false => simp
  | true => cases isTooLong component <;> simp

/-- A walk goes by the folders, so it ends at the same place. -/
theorem SameFolders.walk (h : d.SameFolders d') {start found : Place}
    {components : List (List Char)} (hwalk : d.walk start components = .ok found) :
    d'.walk start components = .ok found := by
  induction components generalizing start with
  | nil =>
    rw [walk_nil] at hwalk ⊢
    exact hwalk
  | cons component rest ih =>
    obtain ⟨hfolder, hshort, hrest⟩ := walk_cons_ok.1 hwalk
    exact walk_cons_ok.2 ⟨(h start).trans hfolder, hshort, ih hrest⟩

/-- What a path that leads somewhere is made of. -/
theorem place_ok {path : String} {found : Place} :
    d.place path = .ok found
      ↔ pathFault? path = none ∧ d.walk (origin path).1 (origin path).2 = .ok found := by
  rw [place]
  cases pathFault? path <;> simp

/-- **Paths.** With the same folders, a path leads to the same place. -/
theorem SameFolders.place_ok (h : d.SameFolders d') {path : String} {found : Place} :
    d'.place path = .ok found ↔ d.place path = .ok found := by
  rw [Directory.place_ok, Directory.place_ok]
  exact and_congr_right fun _ => ⟨h.symm.walk, h.walk⟩

/-! ## 2. Where a walk leads -/

/-- Whether everything on the way to a place is a folder. -/
def Grounded (d : Directory) (place : Place) : Prop :=
  ∀ before, before <+: place → before ≠ place → d.isFolder before = true

theorem grounded_nil : d.Grounded [] := by
  intro before hbefore hne
  exact absurd (List.prefix_nil.1 hbefore) hne

/-- A name in a folder. -/
theorem grounded_append {folder : Place} (h : d.Grounded folder)
    (hfolder : d.isFolder folder = true) (name : String) : d.Grounded (folder ++ [name]) := by
  intro before hbefore hne
  obtain hwhole | hshort := List.prefix_concat_iff.1 hbefore
  · exact absurd hwhole hne
  · by_cases hsame : before = folder
    · rw [hsame]
      exact hfolder
    · exact h before hshort hsame

theorem grounded_dropLast {place : Place} (h : d.Grounded place) : d.Grounded place.dropLast := by
  intro before hbefore hne
  apply h before (hbefore.trans (List.dropLast_prefix place))
  rintro rfl
  exact hne (hbefore.eq_of_length_le (List.length_dropLast ▸ Nat.sub_le _ _))

/-- One step from a folder, wherever it leads: it stays, goes back, or goes to a name. -/
theorem grounded_step {start : Place} (h : d.Grounded start) (hfolder : d.isFolder start = true)
    (component : List Char) : d.Grounded (step start component) := by
  unfold step parent
  split_ifs
  · exact h
  · exact h
  · exact grounded_append h hfolder ".."
  · exact grounded_dropLast h
  · exact grounded_append h hfolder _

/-- What a walk finds has nothing but folders before it. -/
theorem grounded_walk {start found : Place} {components : List (List Char)} (h : d.Grounded start)
    (hwalk : d.walk start components = .ok found) : d.Grounded found := by
  induction components generalizing start with
  | nil =>
    rw [walk_nil] at hwalk
    cases hwalk
    exact h
  | cons component rest ih =>
    obtain ⟨hfolder, -, hrest⟩ := walk_cons_ok.1 hwalk
    exact ih (grounded_step h hfolder component) hrest

/-- A path starts at the root or at the current folder. -/
theorem grounded_origin (path : String) : d.Grounded (origin path).1 := by
  have hroot : d.Grounded ["/"] := grounded_append grounded_nil rfl "/"
  unfold origin
  split
  · exact hroot
  · exact grounded_nil

/-- What a walk that gets on has found at its last step. -/
theorem walk_concat_ok {start found : Place} {components : List (List Char)}
    {component : List Char} :
    d.walk start (components ++ [component]) = .ok found
      ↔ ∃ folder, d.walk start components = .ok folder ∧ d.isFolder folder = true
        ∧ isTooLong component = false ∧ step folder component = found := by
  induction components generalizing start with
  | nil =>
    rw [List.nil_append, walk_cons_ok, walk_nil, walk_nil]
    simp
  | cons first rest ih =>
    rw [List.cons_append, walk_cons_ok, ih]
    constructor
    · rintro ⟨hfolder, hshort, folder, hrest, hlast⟩
      exact ⟨folder, walk_cons_ok.2 ⟨hfolder, hshort, hrest⟩, hlast⟩
    · rintro ⟨folder, hwalk, hlast⟩
      obtain ⟨hfolder, hshort, hrest⟩ := walk_cons_ok.1 hwalk
      exact ⟨hfolder, hshort, folder, hrest, hlast⟩

/-! ## 3. Creating a file -/

/-- What there is to say about a file that has been created. -/
structure Created (d : Directory) (path : String) (place : Place) (after : Directory) : Prop where
  leads : d.place path = .ok place
  grounded : d.Grounded place
  after_eq : after = d.put place ⟨#[]⟩

/-- The components of a path up to its last name: what is left without the empty ones at the end. -/
theorem named_eq {components : List (List Char)}
    (h : components.length ≤ (components.reverse.dropWhile List.isEmpty).reverse.length) :
    (components.reverse.dropWhile List.isEmpty).reverse = components := by
  have hprefix : (components.reverse.dropWhile List.isEmpty).reverse <+: components := by
    rw [← List.reverse_suffix, List.reverse_reverse]
    exact List.dropWhile_suffix _
  exact hprefix.eq_of_length_le h

/-- A created file lies where its path leads. -/
theorem created_of_create {path : String} {place : Place} (h : d.create path = .ok (place, d')) :
    d.Created path place d' := by
  unfold create at h
  cases hfault : pathFault? path with
  | some cause =>
    rw [hfault] at h
    cases h
  | none =>
    obtain ⟨start, components, horigin⟩ : ∃ start components, origin path = (start, components) :=
      ⟨_, _, rfl⟩
    rw [hfault, horigin] at h
    generalize hnamed : (components.reverse.dropWhile List.isEmpty).reverse = named at h
    simp only [bind, Except.bind] at h
    cases hwalk : d.walk start named.dropLast with
    | error cause =>
      rw [hnamed, hwalk] at h
      cases h
    | ok folder =>
      simp only [hnamed, hwalk] at h
      split_ifs at h with hreal hname hlong
      obtain ⟨rfl, rfl⟩ := Prod.mk.inj (Except.ok.inj h)
      simp only [Bool.or_eq_true, decide_eq_true_eq, not_or, Nat.not_lt] at hname
      obtain ⟨⟨⟨hlength, hidle⟩, -⟩, -⟩ := hname
      -- a path with a name at its end has no empty components behind it
      have hwhole : named = components := by
        rw [← hnamed] at hlength ⊢
        exact named_eq hlength
      have hne : named ≠ [] := by
        rintro rfl
        exact hidle rfl
      have hsplit : components = named.dropLast ++ [named.getLast?.getD []] := by
        rw [List.getLast?_eq_some_getLast hne, Option.getD_some, List.dropLast_append_getLast,
          hwhole]
      have hleads : d.walk (origin path).1 (origin path).2
          = .ok (step folder (named.getLast?.getD [])) := by
        rw [horigin]
        show d.walk start components = _
        rw [hsplit]
        apply walk_concat_ok.2
        exact ⟨folder, hwalk, by simpa using hreal, Bool.eq_false_iff.2 hlong, rfl⟩
      exact ⟨place_ok.2 ⟨hfault, hleads⟩, grounded_walk (grounded_origin path) hleads, rfl⟩

/-! ## 4. Putting a file -/

/-- **Folders stay.** A file that is put where all on the way are folders makes no other folder, and
removes none. -/
theorem isFolder_put {place : Place} (h : d.Grounded place) (bytes : ByteArray) :
    d.SameFolders (d.put place bytes) := by
  intro other
  have hany : (other.isPrefixOf place && decide (other.length < place.length))
      = true → d.isFolder other = true := by
    intro hbelow
    rw [Bool.and_eq_true, List.isPrefixOf_iff_prefix, decide_eq_true_eq] at hbelow
    apply h other hbelow.1
    rintro rfl
    exact Nat.lt_irrefl _ hbelow.2
  apply Bool.eq_iff_iff.2
  constructor
  · intro hfolder
    simp only [isFolder, put, Bool.or_eq_true, List.any_cons, List.any_eq_true, List.mem_filter]
      at hfolder
    rcases hfolder with hfixed | hhead | ⟨file, ⟨hfile, -⟩, hbelow⟩
    · simp only [isFolder, Bool.or_eq_true]
      exact Or.inl hfixed
    · exact hany hhead
    · simp only [isFolder, Bool.or_eq_true, List.any_eq_true]
      exact Or.inr ⟨file, hfile, hbelow⟩
  · intro hfolder
    simp only [isFolder, Bool.or_eq_true, List.any_eq_true] at hfolder
    simp only [isFolder, put, Bool.or_eq_true, List.any_cons, List.any_eq_true, List.mem_filter]
    rcases hfolder with hfixed | ⟨file, hfile, hbelow⟩
    · exact Or.inl hfixed
    · -- a file at the place itself is replaced by the new one
      by_cases hplace : file.1 = place
      · rw [hplace] at hbelow
        exact Or.inr (Or.inl hbelow)
      · exact Or.inr (Or.inr ⟨file, ⟨hfile, by simpa using hplace⟩, hbelow⟩)

/-- What is put at a place last is what lies there. -/
theorem put_put (d : Directory) (place : Place) (first second : ByteArray) :
    (d.put place first).put place second = d.put place second := by
  unfold put
  simp [List.filter_filter]

/-- What there is to read lies at the place that the path leads to. -/
theorem read_ok {path : String} {bytes : ByteArray} :
    d.read path = .ok bytes
      ↔ ∃ place, d.place path = .ok place ∧ d.contents? place = some bytes := by
  unfold read
  cases d.place path with
  | error cause => simp [bind, Except.bind]
  | ok place =>
    cases hcontents : d.contents? place <;> simp [bind, Except.bind, hcontents]

/-- **Reading back.** A path that leads to a place finds what was put there last. -/
theorem read_put {place : Place} (h : d.Grounded place) {path : String}
    (hpath : d.place path = .ok place) (bytes : ByteArray) :
    (d.put place bytes).read path = .ok bytes := by
  apply read_ok.2
  refine ⟨place, (isFolder_put h bytes).place_ok.2 hpath, ?_⟩
  rw [contents?_put, if_pos rfl]

/-- What lies at the end of a path decides what is read. -/
theorem SameFolders.read_ok (h : d.SameFolders d') {path : String} {place : Place}
    (hpath : d.place path = .ok place) {bytes : ByteArray} :
    d'.read path = .ok bytes ↔ d'.contents? place = some bytes := by
  rw [Directory.read_ok, h.place_ok.2 hpath]
  simp

/-- A text that was stored is read as it is. -/
theorem fromUTF8?_toUTF8 (text : String) : String.fromUTF8? text.toUTF8 = some text := by
  unfold String.fromUTF8?
  rw [dif_pos (show text.toUTF8.IsValidUTF8 from text.isValidUTF8)]
  exact congrArg some (String.toByteArray_inj.1 rfl)

/-- Only a file in a valid encoding is read as a text. -/
theorem readText_ok {path text : String} :
    d.readText path = .ok text
      ↔ ∃ bytes, d.read path = .ok bytes ∧ String.fromUTF8? bytes = some text := by
  unfold readText
  cases d.read path with
  | error cause => simp [bind, Except.bind]
  | ok bytes =>
    cases htext : String.fromUTF8? bytes <;> simp [bind, Except.bind, htext]

/-- A path under which the same lies as before reads the same. -/
theorem SameFolders.read_iff (h : d.SameFolders d') {path : String}
    (hcontents : ∀ place, d.place path = .ok place → d'.contents? place = d.contents? place)
    {bytes : ByteArray} : d'.read path = .ok bytes ↔ d.read path = .ok bytes := by
  rw [Directory.read_ok, Directory.read_ok]
  constructor
  · rintro ⟨place, hplace, hbytes⟩
    have hplace' := h.place_ok.1 hplace
    exact ⟨place, hplace', (hcontents place hplace') ▸ hbytes⟩
  · rintro ⟨place, hplace, hbytes⟩
    exact ⟨place, h.place_ok.2 hplace, (hcontents place hplace).trans hbytes⟩

theorem SameFolders.readText_ok (h : d.SameFolders d') {path text : String}
    (hcontents : ∀ place, d.place path = .ok place → d'.contents? place = d.contents? place) :
    d'.readText path = .ok text ↔ d.readText path = .ok text := by
  rw [Directory.readText_ok, Directory.readText_ok]
  simp only [h.read_iff hcontents]

end Photoplot.Directory
