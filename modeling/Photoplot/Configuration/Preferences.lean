import Photoplot.Configuration.Notation

/-!
What a user may prefer, and the file that says so.

Preferences come from the command line and from a configuration file, and either may leave any of
them open. In a file they are the fields of a record; `Preferences.ofBytes?` reads it, and
`Preferences.ofText?` does the same with text. Fields with other names are skipped, and a field may
not be given twice.
-/

set_option autoImplicit false

namespace Photoplot

/-- What one source says about a conversion; what it leaves open is absent. -/
structure Preferences where
  /-- The selector of the units. -/
  units : Option Int
  /-- The texts of the offsets. -/
  markOffset : Option String
  cutOffset : Option String
  drillOffset : Option String
  verbose : Option Bool
deriving DecidableEq, Repr

namespace Preferences

/-- Nothing is preferred. -/
def none : Preferences := ⟨.none, .none, .none, .none, .none⟩

/-- The default name of the configuration file. -/
def fileName : String := "gerber2igor.ron"

/-! ## 1. Fields -/

/-- The fields of a configuration record. -/
inductive Field where
  | units
  | markOffset
  | cutOffset
  | drillOffset
  | verbose
deriving DecidableEq, Repr

/-- The field with a name. -/
def Field.ofName? (name : String) : Option Field :=
  if name = "units" then some units
  else if name = "markoffset" then some markOffset
  else if name = "cutoffset" then some cutOffset
  else if name = "drilloffset" then some drillOffset
  else if name = "verbose" then some verbose
  else .none

open Notation in
/-- Reads the value of a field into the preferences. -/
def readField? (bare : Bool) (p : Preferences) (field : Field) (bs : Bytes) :
    Option (Preferences × Bytes) :=
  match field with
  | .units =>
    (optional? bare integer? bs).map fun (v, rest) => ({ p with units := v }, rest)
  | .markOffset =>
    (optional? bare text? bs).map fun (v, rest) => ({ p with markOffset := v }, rest)
  | .cutOffset =>
    (optional? bare text? bs).map fun (v, rest) => ({ p with cutOffset := v }, rest)
  | .drillOffset =>
    (optional? bare text? bs).map fun (v, rest) => ({ p with drillOffset := v }, rest)
  | .verbose =>
    (optional? bare truth? bs).map fun (v, rest) => ({ p with verbose := v }, rest)

/-! ## 2. The record -/

open Notation in
/-- Reads the fields of the record up to its closing parenthesis. `given` are the fields read so
far, and `separated` says whether another one may follow. -/
def readFields? (bare : Bool) : (fuel : Nat) → (given : List Field) → (separated : Bool) →
    Preferences → Bytes → Option (Preferences × Bytes)
  | 0, _, _, _, _ => .none
  | fuel + 1, given, separated, p, bs => do
    let bs ← blank? bs
    match after? [')'] bs with
    | some rest => some (p, rest)
    | .none =>
      if separated then do
        let (name, rest) ← name? bs
        let rest ← blank? rest
        let rest ← mark? ":" rest
        match Field.ofName? (String.ofList name) with
        | .none => do
          let rest ← skipValue bare fuel rest
          let (more, rest) ← comma? rest
          readFields? bare fuel given more p rest
        | some field =>
          if field ∈ given then .none
          else do
            let (p, rest) ← readField? bare p field rest
            let (more, rest) ← comma? rest
            readFields? bare fuel (field :: given) more p rest
      else .none

open Notation in
/-- Reads the names in an `enable` attribute, and whether one of them allows bare values. -/
def readExtensions? : (fuel : Nat) → (bare : Bool) → Bytes → Option (Bool × Bytes)
  | 0, _, _ => .none
  | fuel + 1, bare, bs => do
    let (word, rest) ← name? bs
    let allowsBare ←
      if word = "implicit_some".toList then some true
      else if word = "unwrap_newtypes".toList then some false
      else if word = "unwrap_variant_newtypes".toList then some false
      else .none
    let (more, rest) ← comma? rest
    match more, rest with
    | true, b :: _ =>
      if continuesName (asChar b) then readExtensions? fuel (bare || allowsBare) rest
      else some (bare || allowsBare, rest)
    | _, _ => some (bare || allowsBare, rest)

open Notation in
/-- Reads the attributes before the record, and whether they allow bare values. -/
def readAttributes? : (fuel : Nat) → (bare : Bool) → Bytes → Option (Bool × Bytes)
  | 0, _, _ => .none
  | fuel + 1, bare, bs =>
    match after? ['#'] bs with
    | .none => some (bare, bs)
    | some _ => do
      let rest ← ["#", "!", "[", "enable", "("].foldlM (fun rest word => mark? word rest) bs
      let (bare, rest) ← readExtensions? (rest.length + 1) bare rest
      let rest ← [")", "]"].foldlM (fun rest word => mark? word rest) rest
      readAttributes? fuel bare rest

open Notation in
/-- Reads a whole configuration file: attributes, then a record that may bear the name `Config`,
then nothing but blanks and comments. -/
def ofFile? (bs : Bytes) : Option Preferences := do
  let fuel := bs.length + 2
  let bs ← blank? bs
  let (bare, bs) ← readAttributes? fuel false bs
  let bs := (afterName? "Config".toList bs).getD bs
  let bs ← blank? bs
  let bs ← after? ['('] bs
  let (p, bs) ← readFields? bare fuel [] true none bs
  let bs ← blank? bs
  if bs.isEmpty then some p else .none

/-- Reads a configuration from the bytes of a file. -/
def ofBytes? (bytes : ByteArray) : Option Preferences := ofFile? bytes.toList

/-- Reads a configuration from text. -/
def ofText? (text : String) : Option Preferences := ofBytes? text.toUTF8

end Preferences

end Photoplot
