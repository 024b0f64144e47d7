import Photoplot.Command.Token
import Photoplot.Decimal.Notation

/-!
The written form of tokens.

A lexeme is either a code character with all the digits that follow it, or a coordinate
`X<number>Y<number>` whose last number takes all digits. `Lexeme.atStart?` finds the lexeme with
which a text begins, and `atStart?_eq_some` says that nothing is lost: the text is the lexeme
followed by the rest.
-/

set_option autoImplicit false

namespace Photoplot

/-! ## 1. Numerals -/

/-- Decimal digits, with or without a minus sign. -/
structure Numeral where
  negative : Bool
  digits : List Char
deriving DecidableEq, Repr

namespace Numeral

/-- The characters of a numeral. -/
def text (n : Numeral) : List Char :=
  if n.negative then '-' :: n.digits else n.digits

/-- The number that a numeral stands for. -/
def value (n : Numeral) : Int :=
  let size : Int := Nat.ofDigitChars 10 n.digits 0
  if n.negative then -size else size

/-- Splits a text that begins with at least one digit into its digits and the rest. -/
def unsigned? (negative : Bool) (cs : List Char) : Option (Numeral × List Char) :=
  match cs.takeWhile Char.isDigit with
  | [] => none
  | d :: ds => some (⟨negative, d :: ds⟩, cs.dropWhile Char.isDigit)

/-- Splits a text that begins with a numeral into the numeral and the rest. -/
def split? : List Char → Option (Numeral × List Char)
  | '-' :: rest => unsigned? true rest
  | rest => unsigned? false rest

theorem unsigned?_eq_some {negative : Bool} {cs rest : List Char} {n : Numeral}
    (h : unsigned? negative cs = some (n, rest)) :
    n.negative = negative ∧ cs = n.digits ++ rest := by
  unfold unsigned? at h
  split at h
  · simp at h
  · rename_i d ds hds
    simp only [Option.some.injEq, Prod.mk.injEq] at h
    obtain ⟨rfl, rfl⟩ := h
    refine ⟨rfl, ?_⟩
    show cs = (d :: ds) ++ cs.dropWhile Char.isDigit
    rw [← hds]
    exact (List.takeWhile_append_dropWhile).symm

/-- The numeral and the rest together are the text. -/
theorem split?_eq_some {cs rest : List Char} {n : Numeral} (h : split? cs = some (n, rest)) :
    cs = n.text ++ rest := by
  unfold split? at h
  split at h
  · obtain ⟨hneg, hcs⟩ := unsigned?_eq_some h
    simp [text, hneg, hcs]
  · obtain ⟨hneg, hcs⟩ := unsigned?_eq_some h
    simp [text, hneg, hcs]

end Numeral

/-! ## 2. Lexemes -/

/-- A piece of text that stands for one token. -/
inductive Lexeme where
  | command (code : Char) (digits : List Char)
  | coordinate (x y : Numeral)
deriving DecidableEq, Repr

namespace Lexeme

/-- The characters that begin a command: the capital letters up to `W`, `Z` and the slash. -/
def isCode (c : Char) : Bool :=
  ('A' ≤ c && c ≤ 'W') || c == 'Z' || c == '/'

/-- The characters of a lexeme. -/
def text : Lexeme → List Char
  | command code digits => code :: digits
  | coordinate x y => 'X' :: (x.text ++ 'Y' :: y.text)

/-- Reads a coordinate behind its `X`. -/
def coordinate? (cs : List Char) : Option (Lexeme × List Char) :=
  match Numeral.split? cs with
  | some (x, 'Y' :: rest) => (Numeral.split? rest).map fun (y, rest) => (coordinate x y, rest)
  | _ => none

/-- The lexeme with which a text begins, and what follows it. -/
def atStart? : List Char → Option (Lexeme × List Char)
  | [] => none
  | c :: rest =>
    if isCode c then
      some (command c (rest.takeWhile Char.isDigit), rest.dropWhile Char.isDigit)
    else if c = 'X' then coordinate? rest
    else none

/-- The token that a lexeme stands for. There is none when one of its numbers is out of range. -/
def token? : Lexeme → Option Token
  | command code [] => some (.command code none)
  | command code digits =>
    let value : Int := Nat.ofDigitChars 10 digits 0
    if Token.InRange value then some (.command code (some value)) else none
  | coordinate x y =>
    if Token.InRange x.value ∧ Token.InRange y.value then some (.coordinate x.value y.value)
    else none

theorem text_ne_nil (m : Lexeme) : m.text ≠ [] := by
  cases m <;> simp [text]

/-- The lexeme and the rest together are the text. -/
theorem atStart?_eq_some {cs rest : List Char} {m : Lexeme} (h : atStart? cs = some (m, rest)) :
    cs = m.text ++ rest := by
  unfold atStart? at h
  split at h
  · simp at h
  · rename_i c tail
    split at h
    · simp only [Option.some.injEq, Prod.mk.injEq] at h
      obtain ⟨rfl, rfl⟩ := h
      show c :: tail = c :: (tail.takeWhile Char.isDigit ++ tail.dropWhile Char.isDigit)
      rw [List.takeWhile_append_dropWhile]
    · split at h
      · rename_i hX
        subst hX
        unfold coordinate? at h
        split at h
        · rename_i x afterY hx
          obtain ⟨⟨y, rest'⟩, hy, hm⟩ := Option.map_eq_some_iff.1 h
          simp only [Prod.mk.injEq] at hm
          obtain ⟨rfl, rfl⟩ := hm
          rw [Numeral.split?_eq_some hx, Numeral.split?_eq_some hy]
          simp [text]
        · simp at h
      · simp at h

end Lexeme

end Photoplot
