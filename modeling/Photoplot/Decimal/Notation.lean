import Photoplot.Decimal.Shortest

/-!
Decimal text of numbers, as scripts, log lines and offsets hold it.

`render` writes a number with the fewest digits that read back to it, always positionally: there
is never an exponent, a whole number has no point, and the sign of a zero is kept. `read?` accepts
more than `render` writes: an exponent, a point at either end of the digits, a plus sign, and the
names of the infinities and of the missing number in any letter case.
-/

set_option autoImplicit false

namespace Photoplot.Decimal

/-! ## 1. Writing -/

/-- Drops the zeros at the end. -/
def withoutTrailingZeros (cs : List Char) : List Char :=
  (cs.reverse.dropWhile (· == '0')).reverse

/-- The positional text of a decimal. With a negative exponent of `-n` the last `n` digits stand
behind the point, and at least one digit stands before it. -/
def Scaled.positional (d : Scaled) : List Char :=
  let digits := Nat.toDigits 10 d.digits
  if 0 ≤ d.exponent then
    digits ++ List.replicate d.exponent.toNat '0'
  else
    let places := (-d.exponent).toNat
    let padded := List.replicate (places + 1 - digits.length) '0' ++ digits
    let whole := padded.take (padded.length - places)
    match withoutTrailingZeros (padded.drop (padded.length - places)) with
    | [] => whole
    | c :: cs => whole ++ '.' :: c :: cs

/-- Puts a minus sign before the text of a negative number. -/
def signed (negative : Bool) (text : List Char) : List Char :=
  if negative then '-' :: text else text

/-- The text of a number: the missing number has no sign, all others keep theirs. -/
def Binary64.text : Binary64 → List Char
  | .notANumber => ['N', 'a', 'N']
  | .infinite negative => signed negative ['i', 'n', 'f']
  | .zero negative => signed negative ['0']
  | .finite negative size => signed negative size.shortest.positional

/-- The text of a number as it stands in scripts and log lines. -/
def render (x : Float) : String :=
  String.ofList (Binary64.ofBits x.toBits.toNat).text

/-! ## 2. Reading -/

/-- The infinity that results when a number is too large. -/
def infinity : Float := 1.0 / 0.0

/-- The number that stands for a missing one. -/
def missing : Float := 0.0 / 0.0

/-- The number nearest to `digits * 10 ^ exponent`. Beyond the range of binary64 the answer is
known from the count of the digits alone, so no power of an immense exponent is ever formed. -/
def nearest (digits : Nat) (exponent : Int) : Float :=
  if digits = 0 then 0.0
  else
    let magnitude := (Nat.toDigits 10 digits).length + exponent
    if magnitude > 310 then infinity
    else if magnitude < -330 then 0.0
    else Float.ofScientific digits (exponent < 0) exponent.natAbs

/-- Splits a sign off: whether it is a minus sign, and what follows. -/
def splitSign : List Char → Bool × List Char
  | '-' :: rest => (true, rest)
  | '+' :: rest => (false, rest)
  | rest => (false, rest)

/-- Splits the leading decimal digits off. -/
def splitDigits (cs : List Char) : List Char × List Char :=
  (cs.takeWhile Char.isDigit, cs.dropWhile Char.isDigit)

/-- Reads what may follow the digits of a number up to the end of the text: nothing, or an
exponent with at least one digit. -/
def exponent? : List Char → Option Int
  | [] => some 0
  | c :: rest =>
    if c = 'e' ∨ c = 'E' then
      let (negative, body) := splitSign rest
      match splitDigits body with
      | (d :: ds, []) =>
        let size : Int := Nat.ofDigitChars 10 (d :: ds) 0
        some (if negative then -size else size)
      | _ => none
    else none

/-- Reads digits with an optional point and exponent. At least one digit stands before or behind
the point. -/
def digits? (cs : List Char) : Option Float :=
  let (whole, rest) := splitDigits cs
  let (fraction, rest) := match rest with
    | '.' :: more => splitDigits more
    | _ => ([], rest)
  if whole.isEmpty && fraction.isEmpty then none
  else (exponent? rest).map fun e =>
    nearest (Nat.ofDigitChars 10 (whole ++ fraction) 0) (e - fraction.length)

/-- Reads a number without its sign. -/
def unsigned? (cs : List Char) : Option Float :=
  let name := cs.map Char.toLower
  if name = "inf".toList ∨ name = "infinity".toList then some infinity
  else if name = "nan".toList then some missing
  else digits? cs

/-- Reads a number that fills the whole text. -/
def read? (cs : List Char) : Option Float :=
  let (negative, body) := splitSign cs
  (unsigned? body).map fun x => if negative then -x else x

end Photoplot.Decimal
