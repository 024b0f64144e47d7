import Mathlib.Data.Nat.Digits.Defs
import Photoplot.Command.Scanner

/-!
The grammar of command files.

`Lexeme.atStart?` and `findLexeme?` compute; this file says what they compute, in words that do not
mention them. A lexeme matches at the start of a text if it is spelled there, is well formed, and
takes all the digits it could (`Lexeme.Matches`). A text divides into lexemes and gaps such that no
lexeme matches anywhere inside a gap (`Divides`). A lexeme denotes a token when its numbers, counted
by the places of their digits, are in range (`Lexeme.Denotes`).

**What is proved, and where the work is.**

* At the start of a text there is at most one match, and it is what is found
  (`Lexeme.atStart?_eq_some_iff`). The work is in the numerals: a sign is taken off, and then all
  the digits that there are, of which a coordinate needs one.
* Every text divides (`exists_divides`), by induction on its length: the first piece is what the
  search finds, and a lexeme is never empty. It divides in one way only (`Divides.unique`), because
  the search finds the first piece of any division whatever.
* The number that is computed from digits, as a fold from the left, is the sum over their places
  (`Numeral.value_eq_number`), and the range that is tested is that of thirty-two bits
  (`inRange_iff`). So what a lexeme stands for is what it denotes (`Lexeme.token?_eq_some_iff`).

Main statement: `text_divides`, every text divides in exactly one way, and reading it brings up one
reading for each lexeme, in order: the token that the lexeme denotes, or that it denotes none. Where
a scanner stands meanwhile is another matter and has a module of its own, and so have texts that are
put together.
-/

set_option autoImplicit false

namespace Photoplot

/-! ## 1. Matching -/

/-- A text that does not go on with a digit, so that digits before it are all there are. -/
def NoDigitAhead (rest : List Char) : Prop :=
  ∀ c ∈ rest.head?, c.isDigit = false

/-- Where the digits have been dropped, no digit is ahead. -/
theorem noDigitAhead_dropWhile (cs : List Char) : NoDigitAhead (cs.dropWhile Char.isDigit) := by
  intro c hc
  have hnot := List.head?_dropWhile_not Char.isDigit cs
  rw [Option.mem_def.1 hc] at hnot
  exact hnot

/-- Digits that end where no digit is ahead are the digits that are taken. -/
theorem span_digits {digits rest : List Char} (hdigits : ∀ d ∈ digits, d.isDigit = true)
    (hrest : NoDigitAhead rest) :
    (digits ++ rest).takeWhile Char.isDigit = digits
      ∧ (digits ++ rest).dropWhile Char.isDigit = rest := by
  rw [List.takeWhile_append_of_pos hdigits, List.dropWhile_append_of_pos hdigits]
  cases rest with
  | nil => simp
  | cons c rest =>
    have hc : c.isDigit = false := hrest c rfl
    simp [hc]

namespace Numeral

/-- At least one digit, and nothing but digits behind the sign. -/
def Formed (n : Numeral) : Prop :=
  n.digits ≠ [] ∧ ∀ d ∈ n.digits, d.isDigit = true

/-- Reading digits takes all that there are, and at least one. -/
theorem unsigned?_eq_some_iff {negative : Bool} {cs rest : List Char} {n : Numeral} :
    unsigned? negative cs = some (n, rest) ↔
      n.Formed ∧ n.negative = negative ∧ cs = n.digits ++ rest ∧ NoDigitAhead rest := by
  constructor
  · intro h
    obtain ⟨hneg, hcs⟩ := unsigned?_eq_some h
    unfold unsigned? at h
    split at h
    · cases h
    · rename_i d ds htake
      -- what is taken are digits, and what is dropped begins with none
      obtain ⟨rfl, rfl⟩ := Prod.mk.inj (Option.some.inj h)
      refine ⟨⟨by simp, fun c hc => ?_⟩, hneg, hcs, noDigitAhead_dropWhile cs⟩
      have hall : ((d :: ds).all Char.isDigit) = true := by
        rw [← htake]
        exact List.all_takeWhile
      exact List.all_eq_true.1 hall c hc
  · rintro ⟨⟨hne, hdigits⟩, rfl, rfl, hrest⟩
    obtain ⟨htake, hdrop⟩ := span_digits hdigits hrest
    obtain ⟨negative, digits⟩ := n
    cases digits with
    | nil => exact absurd rfl hne
    | cons d ds => simp only [unsigned?, htake, hdrop]

/-- Reading a numeral takes a sign, if there is one, and all the digits behind it. -/
theorem split?_eq_some_iff {cs rest : List Char} {n : Numeral} :
    split? cs = some (n, rest) ↔ n.Formed ∧ cs = n.text ++ rest ∧ NoDigitAhead rest := by
  constructor
  · intro h
    have hcs := split?_eq_some h
    unfold split? at h
    split at h
    · obtain ⟨hn, -, -, hrest⟩ := unsigned?_eq_some_iff.1 h
      exact ⟨hn, hcs, hrest⟩
    · obtain ⟨hn, -, -, hrest⟩ := unsigned?_eq_some_iff.1 h
      exact ⟨hn, hcs, hrest⟩
  · rintro ⟨hn, rfl, hrest⟩
    obtain ⟨negative, digits⟩ := n
    cases negative with
    | true =>
      show unsigned? true (digits ++ rest) = _
      exact unsigned?_eq_some_iff.2 ⟨hn, rfl, rfl, hrest⟩
    | false =>
      -- a digit comes first, so no sign is split off
      cases digits with
      | nil => exact absurd rfl hn.1
      | cons d ds =>
        have hd : d ≠ '-' := by
          rintro rfl
          exact absurd (hn.2 '-' List.mem_cons_self) (by decide)
        have hsplit : split? (d :: (ds ++ rest)) = unsigned? false (d :: (ds ++ rest)) := by
          unfold split?
          split
          · rename_i heq
            exact absurd (List.cons_eq_cons.1 heq).1 hd
          · rfl
        show split? (d :: (ds ++ rest)) = _
        rw [hsplit]
        exact unsigned?_eq_some_iff.2 ⟨hn, rfl, rfl, hrest⟩

end Numeral

namespace Lexeme

/-- **Code characters**, as the dialect has them: a capital letter from `A` to `W`, or `Z`, or a
slash. `X` and `Y` belong to coordinates. -/
def IsCodeCharacter (c : Char) : Prop :=
  ('A' ≤ c ∧ c ≤ 'W') ∨ c = 'Z' ∨ c = '/'

/-- The scanner takes the code characters for such, and no others. -/
theorem isCode_iff {c : Char} : isCode c = true ↔ IsCodeCharacter c := by
  simp [isCode, IsCodeCharacter, or_assoc]

/-- **The two forms.** A code character with digits, or `X` and `Y` with a numeral behind each. -/
inductive Formed : Lexeme → Prop
  | command {code : Char} {digits : List Char} (hcode : IsCodeCharacter code)
      (hdigits : ∀ d ∈ digits, d.isDigit = true) : Formed (.command code digits)
  | coordinate {x y : Numeral} (hx : x.Formed) (hy : y.Formed) : Formed (.coordinate x y)

/-- A text begins with a lexeme that takes all the digits it could. -/
structure Matches (m : Lexeme) (cs rest : List Char) : Prop where
  formed : m.Formed
  spelled : cs = m.text ++ rest
  maximal : NoDigitAhead rest

/-- Behind an `X`, a coordinate is read if and only if a numeral, a `Y` and another numeral stand
there; the first numeral ends at the `Y` by itself. -/
theorem coordinate?_eq_some_iff {cs rest : List Char} {m : Lexeme} :
    coordinate? cs = some (m, rest) ↔
      ∃ x y, m = .coordinate x y ∧ x.Formed ∧ y.Formed ∧ cs = x.text ++ 'Y' :: (y.text ++ rest)
        ∧ NoDigitAhead rest := by
  constructor
  · intro h
    unfold coordinate? at h
    split at h
    · rename_i x afterY hx
      obtain ⟨⟨y, rest'⟩, hy, hm⟩ := Option.map_eq_some_iff.1 h
      obtain ⟨rfl, rfl⟩ := Prod.mk.inj hm
      obtain ⟨hxf, rfl, -⟩ := Numeral.split?_eq_some_iff.1 hx
      obtain ⟨hyf, rfl, hrest⟩ := Numeral.split?_eq_some_iff.1 hy
      exact ⟨x, y, rfl, hxf, hyf, rfl, hrest⟩
    · cases h
  · rintro ⟨x, y, rfl, hxf, hyf, rfl, hrest⟩
    -- the first numeral ends at the `Y`, which is no digit
    have hY : NoDigitAhead ('Y' :: (y.text ++ rest)) := by
      intro c hc
      obtain rfl := Option.some.inj hc
      rfl
    have hx := Numeral.split?_eq_some_iff.2 ⟨hxf, rfl, hY⟩
    have hy := Numeral.split?_eq_some_iff.2 ⟨hyf, rfl, hrest⟩
    simp only [coordinate?, hx, hy, Option.map_some]

/-- **Reading at the start.** The lexeme found at the start of a text is the one that matches there;
there is at most one. -/
theorem atStart?_eq_some_iff {cs rest : List Char} {m : Lexeme} :
    atStart? cs = some (m, rest) ↔ m.Matches cs rest := by
  constructor
  · intro h
    have hcs := atStart?_eq_some h
    unfold atStart? at h
    split at h
    · cases h
    · rename_i c tail
      split at h
      · rename_i hcode
        obtain ⟨rfl, rfl⟩ := Prod.mk.inj (Option.some.inj h)
        exact ⟨.command (isCode_iff.1 hcode) (List.all_eq_true.1 List.all_takeWhile), hcs,
          noDigitAhead_dropWhile tail⟩
      · split at h
        · obtain ⟨x, y, rfl, hx, hy, -, hrest⟩ := coordinate?_eq_some_iff.1 h
          exact ⟨.coordinate hx hy, hcs, hrest⟩
        · cases h
  · rintro ⟨hformed, rfl, hrest⟩
    cases hformed with
    | @command code digits hcode hdigits =>
      obtain ⟨htake, hdrop⟩ := span_digits hdigits hrest
      show atStart? (code :: (digits ++ rest)) = _
      simp only [atStart?, isCode_iff.2 hcode, htake, hdrop, if_true]
    | @coordinate x y hx hy =>
      -- the two forms are told apart by the first character
      have hX : isCode 'X' = false := by decide
      have hread := coordinate?_eq_some_iff.2 ⟨x, y, rfl, hx, hy, rfl, hrest⟩
      show atStart? ('X' :: (x.text ++ 'Y' :: y.text ++ rest)) = _
      simp only [atStart?, hX, Bool.false_eq_true, if_false, if_true]
      simpa using hread

end Lexeme

/-! ## 2. Dividing a text -/

/-- A gap before the text `rest`: no lexeme matches at any position inside it. What stands from such
a position on is an end of the gap with `rest` behind it. -/
def IsGap (gap rest : List Char) : Prop :=
  ∀ tail, tail ≠ [] → tail <:+ gap → ∀ m after, ¬ Lexeme.Matches m (tail ++ rest) after

/-- Where nothing stands, no lexeme begins. -/
theorem isGap_nil (rest : List Char) : IsGap [] rest := by
  intro tail hne htail
  exact absurd (List.suffix_nil.1 htail) hne

/-- A gap is made up character by character: none of them may be the beginning of a match. -/
theorem isGap_cons {c : Char} {gap rest : List Char} :
    IsGap (c :: gap) rest ↔
      (∀ m after, ¬ Lexeme.Matches m (c :: gap ++ rest) after) ∧ IsGap gap rest := by
  constructor
  · intro h
    refine ⟨h (c :: gap) (by simp) List.suffix_rfl, fun tail hne htail => ?_⟩
    exact h tail hne (List.suffix_cons_iff.2 (Or.inr htail))
  · rintro ⟨hhead, hgap⟩ tail hne htail
    rcases List.suffix_cons_iff.1 htail with rfl | htail
    · exact hhead
    · exact hgap tail hne htail

/-- **Divisions of a text.** A text is divided into lexemes with a gap before each and a gap at the
end. -/
inductive Divides : List Char → List (List Char × Lexeme) → List Char → Prop
  | last {gap : List Char} (hgap : IsGap gap []) : Divides gap [] gap
  | piece {gap rest last : List Char} {m : Lexeme} {pieces : List (List Char × Lexeme)}
      (hgap : IsGap gap (m.text ++ rest)) (hmatch : m.Matches (m.text ++ rest) rest)
      (hrest : Divides rest pieces last) :
      Divides (gap ++ m.text ++ rest) ((gap, m) :: pieces) last

/-- The search passes a gap, one character at a time. -/
theorem findAfter_gap {gap : List Char} (before rest : List Char) (hgap : IsGap gap rest) :
    findAfter before (gap ++ rest) = findAfter (gap.reverse ++ before) rest := by
  induction gap generalizing before with
  | nil => rfl
  | cons c gap ih =>
    obtain ⟨hhead, hgap⟩ := isGap_cons.1 hgap
    have hnone : Lexeme.atStart? (c :: (gap ++ rest)) = none := by
      cases h : Lexeme.atStart? (c :: (gap ++ rest)) with
      | none => rfl
      | some found => exact absurd (Lexeme.atStart?_eq_some_iff.1 h) (hhead found.1 found.2)
    show findAfter before (c :: (gap ++ rest)) = _
    rw [findAfter, hnone]
    simp only
    rw [ih (c :: before) hgap, List.reverse_cons, List.append_assoc]
    rfl

/-- The search ends at the first lexeme that matches. -/
theorem findAfter_lexeme {m : Lexeme} {rest : List Char} (before : List Char)
    (hmatch : m.Matches (m.text ++ rest) rest) :
    findAfter before (m.text ++ rest) = some ⟨before.reverse, m, rest⟩ := by
  have hstart := Lexeme.atStart?_eq_some_iff.2 hmatch
  cases htext : m.text ++ rest with
  | nil => exact absurd (List.append_eq_nil_iff.1 htext).1 m.text_ne_nil
  | cons c cs =>
    rw [htext] at hstart
    rw [findAfter, hstart]

/-- In a gap nothing is found. -/
theorem findLexeme?_gap {gap : List Char} (hgap : IsGap gap []) : findLexeme? gap = none := by
  have h := findAfter_gap [] [] hgap
  rw [List.append_nil] at h
  rw [findLexeme?, h, findAfter]

/-- Before a lexeme with a gap in front of it, this gap and this lexeme are found. Together with
`findLexeme?_gap` this is all that the proof of uniqueness needs. -/
theorem findLexeme?_piece {gap rest : List Char} {m : Lexeme} (hgap : IsGap gap (m.text ++ rest))
    (hmatch : m.Matches (m.text ++ rest) rest) :
    findLexeme? (gap ++ m.text ++ rest) = some ⟨gap, m, rest⟩ := by
  rw [findLexeme?, List.append_assoc, findAfter_gap [] _ hgap, findAfter_lexeme _ hmatch]
  simp

/-- Where nothing is found there is a gap. -/
theorem isGap_of_findAfter {before cs : List Char} (h : findAfter before cs = none) :
    IsGap cs [] := by
  induction cs generalizing before with
  | nil => exact isGap_nil []
  | cons c cs ih =>
    unfold findAfter at h
    split at h
    · cases h
    · rename_i hnone
      -- a lexeme that matched here would have been found here
      refine isGap_cons.2 ⟨fun m after hm => ?_, ih h⟩
      rw [List.append_nil, ← Lexeme.atStart?_eq_some_iff, hnone] at hm
      cases hm

/-- What is found matches, and there is a gap before it. -/
theorem piece_of_findAfter {before cs : List Char} {f : Found}
    (h : findAfter before cs = some f) :
    ∃ gap, f.gap = before.reverse ++ gap ∧ cs = gap ++ f.lexeme.text ++ f.rest
      ∧ IsGap gap (f.lexeme.text ++ f.rest)
      ∧ f.lexeme.Matches (f.lexeme.text ++ f.rest) f.rest := by
  induction cs generalizing before with
  | nil => cases h
  | cons c cs ih =>
    unfold findAfter at h
    split at h
    · rename_i m rest hm
      -- the lexeme stands right here, behind no gap at all
      obtain rfl := Option.some.inj h
      have hmatch := Lexeme.atStart?_eq_some_iff.1 hm
      have hcs := hmatch.spelled
      rw [hcs] at hmatch
      exact ⟨[], by simp, hcs, isGap_nil _, hmatch⟩
    · rename_i hnone
      -- it stands further on, and the gap before it begins with this character
      obtain ⟨gap, hf, hcs, hgap, hmatch⟩ := ih h
      refine ⟨c :: gap, by rw [hf]; simp, by rw [hcs]; rfl, ?_, hmatch⟩
      refine isGap_cons.2 ⟨fun m after hm => ?_, hgap⟩
      have hsame : c :: gap ++ (f.lexeme.text ++ f.rest) = c :: cs := by
        rw [hcs, List.cons_append, List.append_assoc]
      rw [hsame, ← Lexeme.atStart?_eq_some_iff, hnone] at hm
      cases hm

/-- Every text divides. The induction is on the length, for a lexeme is never empty. -/
theorem exists_divides (cs : List Char) : ∃ pieces last, Divides cs pieces last := by
  generalize hlen : cs.length = len
  induction len using Nat.strongRecOn generalizing cs with
  | ind len ih =>
    cases hfind : findLexeme? cs with
    | none => exact ⟨[], cs, .last (isGap_of_findAfter hfind)⟩
    | some f =>
      obtain ⟨gap, -, hcs, hgap, hmatch⟩ := piece_of_findAfter hfind
      have hpos := List.length_pos_iff.2 f.lexeme.text_ne_nil
      have hlt : f.rest.length < len := by
        rw [← hlen, hcs, List.length_append, List.length_append]
        omega
      obtain ⟨pieces, last, hrest⟩ := ih _ hlt f.rest rfl
      refine ⟨(gap, f.lexeme) :: pieces, last, ?_⟩
      rw [hcs]
      exact .piece hgap hmatch hrest

/-- A text divides in one way only: the search finds the first piece of any division. -/
theorem Divides.unique {cs last last' : List Char} {pieces pieces' : List (List Char × Lexeme)}
    (h : Divides cs pieces last) (h' : Divides cs pieces' last') :
    pieces' = pieces ∧ last' = last := by
  induction h generalizing pieces' with
  | last hgap =>
    have hfind := findLexeme?_gap hgap
    cases h' with
    | last => exact ⟨rfl, rfl⟩
    | piece hgap' hmatch' =>
      rw [findLexeme?_piece hgap' hmatch'] at hfind
      cases hfind
  | @piece gap rest last m pieces hgap hmatch _ ih =>
    have hfind := findLexeme?_piece hgap hmatch
    -- the text as a variable, so that the other division can be taken apart
    generalize htext : gap ++ m.text ++ rest = cs at h' hfind
    cases h' with
    | last hgap' =>
      rw [findLexeme?_gap hgap'] at hfind
      cases hfind
    | piece hgap' hmatch' hrest' =>
      rw [findLexeme?_piece hgap' hmatch'] at hfind
      obtain ⟨rfl, rfl, rfl⟩ := Found.mk.inj (Option.some.inj hfind)
      obtain ⟨rfl, rfl⟩ := ih hrest'
      exact ⟨rfl, rfl⟩

/-! ## 3. What a lexeme denotes -/

/-- The place value of decimal digits, of which the last one counts the units. -/
def placeValue (digits : List Char) : Nat :=
  Nat.ofDigits 10 (digits.reverse.map fun d => d.toNat - '0'.toNat)

/-- A digit counts as much as the number of digits behind it says. -/
theorem placeValue_cons (d : Char) (digits : List Char) :
    placeValue (d :: digits) = 10 ^ digits.length * (d.toNat - '0'.toNat) + placeValue digits := by
  rw [placeValue, List.reverse_cons, List.map_append, Nat.ofDigits_append, placeValue]
  simp [Nat.ofDigits_singleton, Nat.add_comm]

/-- The fold over the digits comes to their place value. -/
theorem ofDigitChars_eq_placeValue (digits : List Char) :
    Nat.ofDigitChars 10 digits 0 = placeValue digits := by
  induction digits with
  | nil => rfl
  | cons d digits ih =>
    rw [Nat.ofDigitChars_cons, Nat.ofDigitChars_eq_ofDigitChars_zero, ih, placeValue_cons,
      Nat.mul_zero, Nat.zero_add]

/-- The signed number that a numeral is written for. Leading zeros do not count, and minus zero is
zero. -/
def Numeral.number (n : Numeral) : Int :=
  if n.negative then -(placeValue n.digits : Int) else placeValue n.digits

/-- The computed value of a numeral is the number that it is written for. -/
theorem Numeral.value_eq_number (n : Numeral) : n.value = n.number := by
  rw [value, number, ofDigitChars_eq_placeValue]

/-- **What lexemes denote.** A bare code has no number; the number behind a code is at most
`2 ^ 31 - 1`; both coordinates lie between `-2 ^ 31` and `2 ^ 31 - 1`. -/
inductive Lexeme.Denotes : Lexeme → Token → Prop
  | bare {code : Char} : Denotes (.command code []) (.command code none)
  | numbered {code : Char} {digits : List Char} (hne : digits ≠ [])
      (hmax : placeValue digits < 2 ^ 31) :
      Denotes (.command code digits) (.command code (some (placeValue digits)))
  | coordinate {x y : Numeral} (hx : -2 ^ 31 ≤ x.number ∧ x.number < 2 ^ 31)
      (hy : -2 ^ 31 ≤ y.number ∧ y.number < 2 ^ 31) :
      Denotes (.coordinate x y) (.coordinate x.number y.number)

/-- The range of numbers, in powers of two. -/
theorem inRange_iff (n : Int) : Token.InRange n ↔ -2 ^ 31 ≤ n ∧ n < 2 ^ 31 := by
  unfold Token.InRange
  omega

/-- Of numbers without a sign only the greatest one has to be watched. -/
theorem inRange_natCast (n : Nat) : Token.InRange (n : Int) ↔ n < 2 ^ 31 := by
  rw [inRange_iff]
  omega

/-- The token of a code with digits, one branch for each answer to the test of its range. -/
theorem Lexeme.token?_numbered (code d : Char) (ds : List Char) :
    (command code (d :: ds)).token? =
      if Token.InRange (Nat.ofDigitChars 10 (d :: ds) 0 : Int) then
        some (.command code (some (Nat.ofDigitChars 10 (d :: ds) 0 : Int)))
      else none :=
  rfl

/-- The token of a coordinate, which needs both of its numbers in range. -/
theorem Lexeme.token?_coordinate (x y : Numeral) :
    (coordinate x y).token? =
      if Token.InRange x.value ∧ Token.InRange y.value then some (.coordinate x.value y.value)
      else none :=
  rfl

/-- **Denotation.** A lexeme stands for the token that it denotes, and for none if it denotes none.
-/
theorem Lexeme.token?_eq_some_iff {m : Lexeme} {t : Token} : m.token? = some t ↔ m.Denotes t := by
  cases m with
  | command code digits =>
    cases digits with
    | nil =>
      constructor
      · intro h
        obtain rfl := Option.some.inj h
        exact .bare
      · intro h
        cases h with
        | bare => rfl
        | numbered hne => exact absurd rfl hne
    | cons d ds =>
      rw [token?_numbered, ofDigitChars_eq_placeValue]
      simp only [inRange_natCast]
      constructor
      · intro h
        split at h
        · rename_i hmax
          obtain rfl := Option.some.inj h
          exact .numbered (by simp) hmax
        · cases h
      · intro h
        cases h with
        | numbered _ hmax => rw [if_pos hmax]
  | coordinate x y =>
    rw [token?_coordinate, Numeral.value_eq_number, Numeral.value_eq_number]
    simp only [inRange_iff]
    constructor
    · intro h
      split at h
      · rename_i hxy
        obtain rfl := Option.some.inj h
        exact .coordinate hxy.1 hxy.2
      · cases h
    · intro h
      cases h with
      | coordinate hx hy => rw [if_pos ⟨hx, hy⟩]

/-- What a lexeme brings up when it is read: the token that it denotes, or one warning that names
the lexeme, if it denotes none. -/
inductive Lexeme.Yields : Lexeme → Reading → Prop
  | token {m : Lexeme} {t : Token} (h : m.Denotes t) : Yields m (.token t)
  | warning {m : Lexeme} (h : ∀ t, ¬ m.Denotes t) : Yields m (.outOfRange m)

/-- What is brought up for a lexeme is what it yields. -/
theorem Lexeme.yields_reading (m : Lexeme) : m.Yields m.reading := by
  rw [reading]
  cases h : m.token? with
  | some t => exact .token (token?_eq_some_iff.1 h)
  | none =>
    refine .warning fun t ht => ?_
    rw [token?_eq_some_iff.2 ht] at h
    cases h

/-! ## 4. Reading a text -/

/-- A scanner before a piece finds its lexeme and goes on behind it. -/
theorem Scanner.lexeme?_piece {gap rest : List Char} {m : Lexeme} (hgap : IsGap gap (m.text ++ rest))
    (hmatch : m.Matches (m.text ++ rest) rest) (offset : Nat) :
    Scanner.lexeme? ⟨gap ++ m.text ++ rest, offset⟩
      = some (m, ⟨rest, offset + byteSize gap + byteSize m.text⟩) := by
  simp only [Scanner.lexeme?, findLexeme?_piece hgap hmatch]

/-- The readings follow the division: one for each lexeme, whatever the offset is. -/
theorem Divides.readings {cs last : List Char} {pieces : List (List Char × Lexeme)}
    (h : Divides cs pieces last) (offset : Nat) :
    Scanner.readings ⟨cs, offset⟩ = pieces.map fun piece => piece.2.reading := by
  induction h generalizing offset with
  | last hgap =>
    refine Scanner.readings_of_none ?_
    simp only [Scanner.lexeme?, findLexeme?_gap hgap]
  | @piece gap rest last m pieces hgap hmatch _ ih =>
    rw [Scanner.readings_of_some (Scanner.lexeme?_piece hgap hmatch offset), ih]
    rfl

/-- The readings of a text are those of its pieces. -/
theorem readings_of_divides {text : String} {last : List Char}
    {pieces : List (List Char × Lexeme)} (h : Divides text.toList pieces last) :
    readings text = (pieces.map Prod.snd).map Lexeme.reading := by
  rw [readings, Scanner.ofText, h.readings 0, List.map_map]
  rfl

/-- **The grammar.** Every text divides in exactly one way into gaps and lexemes. Reading it brings
up one reading for each lexeme, in their order: the token that the lexeme denotes, or a single
warning if it denotes none. The tokens of the text are those among the readings. -/
theorem text_divides (text : String) :
    ∃ pieces last, Divides text.toList pieces last
      ∧ (∀ pieces' last', Divides text.toList pieces' last' → pieces' = pieces ∧ last' = last)
      ∧ List.Forall₂ Lexeme.Yields (pieces.map Prod.snd) (readings text)
      ∧ tokens text = (readings text).filterMap Reading.token? := by
  obtain ⟨pieces, last, hdivides⟩ := exists_divides text.toList
  refine ⟨pieces, last, hdivides, fun _ _ h => hdivides.unique h, ?_,
    Scanner.tokens_eq_filterMap _⟩
  rw [readings_of_divides hdivides]
  -- lexeme by lexeme; that they are the pieces of a division does not matter any more
  generalize pieces.map Prod.snd = lexemes
  induction lexemes with
  | nil => exact .nil
  | cons m lexemes ih => exact .cons m.yields_reading ih

end Photoplot
