import Photoplot.Text.Split

/-!
Paths and their file names.

A path is text, divided into components by slashes. Empty components and single dots do not count,
so a path may end in slashes and still have a file name. `outputPath` derives the name of a script
from the name of its input; what stands before the file name is kept as it is written.
-/

set_option autoImplicit false

namespace Photoplot.Path

/-- The components of a path, the empty ones included. -/
def components (path : List Char) : List (List Char) :=
  Text.splitAt '/' path

/-- Whether a component leaves the place where it stands. -/
def isIdle (component : List Char) : Bool :=
  component.isEmpty || component == ['.']

/-- What stands before the file name, and the file name. The step to the parent is no name. -/
def fileName? (path : List Char) : Option (List Char × List Char) :=
  match (components path).reverse.dropWhile isIdle with
  | [] => none
  | name :: before =>
    if name = ['.', '.'] then none
    else some (before.reverse.flatMap (· ++ ['/']), name)

/-- The stem and the extension of a file name: what stands before and behind its last dot. A dot at
the beginning belongs to the stem. -/
def splitExtension (name : List Char) : List Char × Option (List Char) :=
  let extension := (name.reverse.takeWhile (· != '.')).reverse
  match name.reverse.dropWhile (· != '.') with
  | [] => (name, none)
  | [_] => (name, none)
  | _ :: stem => (stem.reverse, some extension)

/-- The path with an extension put behind the stem of its file name. -/
def attach (extension path : List Char) : List Char :=
  match fileName? path with
  | none => path
  | some (before, name) => before ++ (splitExtension name).1 ++ '.' :: extension

/-- The path with as many characters taken off its end as the extension of its file name has. -/
def cutExtension (path : List Char) : List Char :=
  match fileName? path with
  | none => path
  | some (_, name) =>
    match (splitExtension name).2 with
    | none => path
    | some extension => path.take (path.length - extension.length)

/-- The path with another extension. The old one is cut off before the new one is attached, and a
path that has no file name by then stays as it is. -/
def withExtension (extension path : List Char) : List Char :=
  attach extension (cutExtension path)

end Photoplot.Path

namespace Photoplot

/-- The path of the script that belongs to an input: the same with the extension `itx`. -/
def outputPath (input : String) : String :=
  String.ofList (Path.withExtension ['i', 't', 'x'] input.toList)

end Photoplot
