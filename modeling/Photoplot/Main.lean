import Photoplot.CommandLine.Execution
import Photoplot.CommandLine.TokenList

/-!
The program.

Only here are files read and written. `main` takes a picture of whatever the arguments could name,
lets `execute` work on it, prints what it printed and stores the files that have changed.
-/

set_option autoImplicit false

namespace Photoplot

/-- The paths that a command line can have to do with. -/
def candidatePaths (arguments : List String) : List String :=
  Preferences.fileName :: (arguments ++ arguments.map outputPath)

/-- Adds to a directory what is found under a path: a folder or a file. -/
def look (d : Directory) (place : Place) (path : String) : IO Directory := do
  let isFolder ← try (← IO.FS.realPath path).isDir catch _ => pure false
  if isFolder then pure { d with folders := place :: d.folders }
  else
    try pure (d.put place (← IO.FS.readBinFile path)) catch _ => pure d

/-- Adds to a directory whatever is passed on the way along a path. -/
def observe (d : Directory) (path : String) : IO Directory := do
  let (start, components) := Directory.origin path
  let mut d := d
  let mut place := start
  let mut passed := if start.isEmpty then "" else "/"
  for component in components do
    place := Directory.step place component
    passed := passed ++ String.ofList component
    d ← look d place (if passed.isEmpty then "." else passed)
    passed := passed ++ "/"
  pure d

end Photoplot

/-- Runs the converter on the files of the working directory. A program whose own name ends in
`tokens` lists tokens instead. -/
def main (arguments : List String) : IO UInt32 := do
  let before ← (Photoplot.candidatePaths arguments).foldlM Photoplot.observe ⟨[], []⟩
  if (← IO.appPath).toString.endsWith "tokens" then
    match Photoplot.listTokens arguments before with
    | some lines =>
      lines.forM IO.println
      pure 0
    | none => pure 1
  else
    let outcome := Photoplot.execute arguments before
    for (path, bytes) in outcome.directory.changesSince before do
      IO.FS.writeBinFile path bytes
    outcome.output.forM IO.println
    outcome.errors.forM IO.eprintln
    pure (if outcome.succeeded then 0 else 1)
