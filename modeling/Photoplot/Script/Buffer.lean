/-!
Text on its way into a file.

Lines are collected in a buffer, and the buffer is emptied into the file whenever the next line does
not fit into it. So somebody who reads the file before the script is finished finds a beginning of
the script there, and nothing at all while the script still fits into the buffer.
-/

set_option autoImplicit false

namespace Photoplot.Script

/-- Text on its way into a file. -/
structure Buffer where
  /-- What has arrived in the file. -/
  arrived : String
  /-- What is still held back. -/
  held : String
deriving DecidableEq, Repr

namespace Buffer

/-- How many bytes can be held back. -/
def capacity : Nat := 8192

/-- Nothing has been written. -/
def empty : Buffer := ⟨"", ""⟩

/-- Writes a line. -/
def add (b : Buffer) (line : String) : Buffer :=
  if b.held.utf8ByteSize + line.utf8ByteSize ≤ capacity then { b with held := b.held ++ line }
  else ⟨b.arrived ++ b.held, line⟩

/-- Writes some lines. -/
def addAll (b : Buffer) (lines : List String) : Buffer :=
  lines.foldl add b

end Buffer

end Photoplot.Script
