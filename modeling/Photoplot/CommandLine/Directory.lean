import Photoplot.CommandLine.Path
import Photoplot.Fault

/-!
A directory tree and the files in it.

Paths are followed from the working directory, component by component, and everything passed on the
way has to be a folder. A folder need not be listed: whatever a file lies in is one. Paths and names
have to keep within the limits of the file system, counted in bytes.

**What is decided here.** `walk` follows a path one component at a time and reports the first thing
that stops it, in the order in which a file system would notice: what is not a folder, then a name
that is too long. Steps to the parent are taken by name (`parent`), since there are no links. Two
paths lead to the same place exactly if they are walked to the same list of names, and that is how
the proofs tell scripts and inputs apart.

`create` is separate from `put` because it can fail, and because it empties a file that was there;
`put` sets the contents at a place known already. `contents?_put` is the one fact about the store
that everything else is derived from.
-/

set_option autoImplicit false

namespace Photoplot

/-- A place in the tree: the names that lead to it from the working directory. An absolute place
begins with the name `/`, and one above the working directory with steps to the parent. -/
abbrev Place := List String

/-- The files and folders that a program can reach. -/
structure Directory where
  files : List (Place × ByteArray)
  /-- Folders that are there even if no file lies in them. -/
  folders : List Place

namespace Directory

/-! ## 1. Looking at places -/

/-- The contents of the file at a place. -/
def contents? (d : Directory) (place : Place) : Option ByteArray :=
  d.files.lookup place

/-- Whether a place is a folder. -/
def isFolder (d : Directory) (place : Place) : Bool :=
  place.all (· == "..") || place == ["/"] || d.folders.contains place
    || d.files.any fun file => place.isPrefixOf file.1 && place.length < file.1.length

/-- What keeps a place from being a folder. -/
def notFolder (d : Directory) (place : Place) : FileFault :=
  if (d.contents? place).isSome then .notDirectory else .absent

/-- The folder around a place. -/
def parent (place : Place) : Place :=
  if place = ["/"] then place
  else if place.getLast?.all (· == "..") then place ++ [".."]
  else place.dropLast

/-! ## 2. Following paths -/

/-- Where a component leads. -/
def step (place : Place) (component : List Char) : Place :=
  if Path.isIdle component then place
  else if component = ['.', '.'] then parent place
  else place ++ [String.ofList component]

/-- How many bytes a name may have. -/
def nameLimit : Nat := 255

/-- How many bytes a path may have. -/
def pathLimit : Nat := 4095

/-- Whether no file can bear the name. -/
def isTooLong (name : List Char) : Bool :=
  nameLimit < (String.ofList name).utf8ByteSize

/-- Follows components from a place. -/
def walk (d : Directory) : Place → List (List Char) → Except FileFault Place
  | place, [] => .ok place
  | place, component :: rest =>
    if !d.isFolder place then .error (d.notFolder place)
    else if isTooLong component then .error .nameTooLong
    else d.walk (step place component) rest

/-- Where a path begins, and the components to follow from there. -/
def origin (path : String) : Place × List (List Char) :=
  match Path.components path.toList with
  | [] :: rest => (["/"], rest)
  | components => ([], components)

/-- What keeps a path from being followed at all. -/
def pathFault? (path : String) : Option FileFault :=
  if path.isEmpty then some .absent
  else if pathLimit < path.utf8ByteSize then some .nameTooLong
  else none

/-- The place that a path leads to. -/
def place (d : Directory) (path : String) : Except FileFault Place :=
  match pathFault? path with
  | some cause => .error cause
  | none =>
    let (start, components) := origin path
    d.walk start components

/-- Whether a path leads to a place. -/
def leadsTo (d : Directory) (path : String) (place : Place) : Bool :=
  match d.place path with
  | .ok found => found == place
  | .error _ => false

/-- Whether something is there. -/
def holds (d : Directory) (path : String) : Bool :=
  match d.place path with
  | .ok place => (d.contents? place).isSome || d.isFolder place
  | .error _ => false

/-! ## 3. Reading and writing -/

/-- Reads a file. -/
def read (d : Directory) (path : String) : Except FileFault ByteArray := do
  let place ← d.place path
  match d.contents? place with
  | some bytes => .ok bytes
  | none => .error (if d.isFolder place then .isDirectory else .absent)

/-- Reads a file as text. -/
def readText (d : Directory) (path : String) : Except FileFault String := do
  let bytes ← d.read path
  match String.fromUTF8? bytes with
  | some text => .ok text
  | none => .error .notText

/-- Sets the contents of the file at a place. -/
def put (d : Directory) (place : Place) (bytes : ByteArray) : Directory :=
  { d with files := (place, bytes) :: d.files.filter (·.1 != place) }

/-- A file that was put somewhere is found there, and every other file where it was. -/
theorem contents?_put (d : Directory) (place other : Place) (bytes : ByteArray) :
    (d.put place bytes).contents? other = if other = place then some bytes
      else d.contents? other := by
  unfold contents? put
  by_cases h : other = place
  · simp [h]
  · have hne : (other == place) = false := by simpa using h
    rw [List.lookup_cons, hne, if_neg h]
    show List.lookup other (d.files.filter (·.1 != place)) = List.lookup other d.files
    induction d.files with
    | nil => rfl
    | cons file files ih =>
      obtain ⟨p, b⟩ := file
      by_cases hp : p = place
      · subst hp
        simp [List.lookup_cons, hne, ih]
      · by_cases ho : other = p
        · subst ho
          simp [hp]
        · have hof : (other == p) = false := by simpa using ho
          simp [hp, List.lookup_cons, hof, ih]

/-- Creates an empty file, or empties the one that is there, and tells where it is. The folder
around it has to be there already, and a path that ends in a slash can only be a folder. -/
def create (d : Directory) (path : String) : Except FileFault (Place × Directory) := do
  match pathFault? path with
  | some cause => .error cause
  | none =>
    let (start, components) := origin path
    let named := (components.reverse.dropWhile List.isEmpty).reverse
    let folder ← d.walk start named.dropLast
    if !d.isFolder folder then .error (d.notFolder folder)
    else
      let name := named.getLast?.getD []
      let place := step folder name
      if named.length < components.length || Path.isIdle name || name == ['.', '.']
          || d.isFolder place then .error .isDirectory
      else if isTooLong name then .error .nameTooLong
      else .ok (place, d.put place ⟨#[]⟩)

/-- The files that are new or have changed since another time, under their paths. -/
def changesSince (d before : Directory) : List (String × ByteArray) :=
  (d.files.filter fun file => before.contents? file.1 != some file.2).map
    fun file => ("/".intercalate file.1, file.2)

end Directory

end Photoplot
