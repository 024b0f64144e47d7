import Photoplot.Fault

/-!
Signed 64-bit integers given as decimal text, as on a command line.

The text is read from the left, and the first character that cannot be right decides what is wrong
with it: a character that is no digit, or the digit with which the number leaves the range.
-/

set_option autoImplicit false

namespace Photoplot.Integer

/-- The smallest signed 64-bit integer. -/
def least : Int := -9223372036854775808

/-- The largest signed 64-bit integer. -/
def greatest : Int := 9223372036854775807

/-- Reads the remaining digits of a number that is `value` so far. -/
def readDigits (negative : Bool) (value : Int) : List Char → Except IntegerFault Int
  | [] => .ok value
  | c :: rest =>
    if c.isDigit then
      let digit : Int := c.toNat - '0'.toNat
      let next := if negative then 10 * value - digit else 10 * value + digit
      if next < least then .error .tooSmall
      else if greatest < next then .error .tooLarge
      else readDigits negative next rest
    else .error .invalidDigit

/-- Reads an integer that fills the whole text. A sign needs at least one digit behind it. -/
def read (text : String) : Except IntegerFault Int :=
  match text.toList with
  | [] => .error .empty
  | ['+'] | ['-'] => .error .invalidDigit
  | '-' :: digits => readDigits true 0 digits
  | '+' :: digits => readDigits false 0 digits
  | digits => readDigits false 0 digits

end Photoplot.Integer
