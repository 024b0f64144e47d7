import Photoplot.Text.Invisible
import Photoplot.Text.Joining

/-!
Text as messages quote it.

A quoted text stands between double quotation marks, and every character of it can be seen: marks
and backslashes are escaped, and a character that has no shape of its own, or that would melt into
its neighbour, is named by its code point.
-/

set_option autoImplicit false

namespace Photoplot.Text

/-- The escape that names a code point, in lower case hexadecimal digits without leading zeros. -/
def codePointEscape (c : Char) : List Char :=
  ['\\', 'u', '\x7b'] ++ Nat.toDigits 16 c.toNat ++ ['\x7d']

/-- What one character becomes inside the marks. -/
def quoteChar (c : Char) : List Char :=
  if c = '\x00' then ['\\', '0']
  else if c = '\t' then ['\\', 't']
  else if c = '\r' then ['\\', 'r']
  else if c = '\n' then ['\\', 'n']
  else if c = '\\' then ['\\', '\\']
  else if c = '\x22' then ['\\', '\x22']
  else if isJoining c || isInvisible c then codePointEscape c
  else [c]

/-- The text in double quotation marks. -/
def quoted (s : String) : String :=
  String.ofList ('\x22' :: (s.toList.flatMap quoteChar ++ ['\x22']))

end Photoplot.Text
