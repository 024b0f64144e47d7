import Photoplot.CommandLine.Arguments
import Photoplot.CommandLine.Directory
import Photoplot.Command.Scanner

/-!
Listing the tokens of a command file.

A small companion of the converter: it prints the tokens of the file named behind `--input`, one on
a line, between the size of the file and their count.
-/

set_option autoImplicit false

namespace Photoplot

/-- The lines that list the tokens of a text. -/
def tokenLines (text : String) : List String :=
  let found := tokens text
  ["Read " ++ toString text.utf8ByteSize ++ " bytes"] ++ found.map Token.render
    ++ [toString found.length ++ " tokens"]

/-- Runs the lister. Without a readable input there is nothing to print. -/
def listTokens (arguments : List String) (d : Directory) : Option (List String) :=
  match Arguments.takeValue ["--input"] arguments with
  | .ok (some path, _) =>
    match d.readText path with
    | .ok text => some (tokenLines text)
    | .error _ => none
  | _ => none

end Photoplot
