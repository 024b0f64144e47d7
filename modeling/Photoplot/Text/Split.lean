/-!
Dividing text at a separator.

The separator belongs to no part, so a text with `n` separators has `n + 1` parts, some of which may
be empty. There is always a part, even of the empty text.
-/

set_option autoImplicit false

namespace Photoplot.Text

/-- The parts of a text between the separators. -/
def splitAt (separator : Char) : List Char → List (List Char)
  | [] => [[]]
  | c :: cs =>
    if c = separator then [] :: splitAt separator cs
    else
      match splitAt separator cs with
      | first :: others => (c :: first) :: others
      | [] => [[c]]

end Photoplot.Text
