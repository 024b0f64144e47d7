/-!
Tokens of a command file.

A token is a coordinate in raw units or a command: a letter or a slash, with or without a number.
What a command does is not known here.
-/

set_option autoImplicit false

namespace Photoplot

/-- One unit of the command stream. -/
inductive Token where
  | coordinate (x y : Int)
  | command (code : Char) (value : Option Int)
deriving DecidableEq, Repr

namespace Token

/-- The text of a token in messages and token lists. -/
def render : Token → String
  | coordinate x y => "(" ++ toString x ++ "," ++ toString y ++ ")"
  | command code (some value) => String.singleton code ++ toString value
  | command code none => String.singleton code

/-- The numbers that a token can hold: the signed 32-bit ones. -/
def InRange (n : Int) : Prop := -2147483648 ≤ n ∧ n ≤ 2147483647

instance (n : Int) : Decidable (InRange n) := inferInstanceAs (Decidable (_ ∧ _))

end Token

end Photoplot
