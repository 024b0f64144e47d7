import Photoplot.Proofs.Command.Seams

/-!
Writing tokens as a command file, and reading them again.

`Token.spelling` writes a token the way a command file holds it. The lexeme of a token begins with a
character that no lexeme before it can take in, and takes all the digits that are its own, so tokens
can be written one behind the other with nothing between them, or with any text that holds no lexeme
and does not begin with a digit (`Inert`). Such a text may still look like a part of a lexeme: `Y-8`
is as good a gap as a blank.

**What is proved, and where the work is.**

* A token that can be written (`Token.Writable`) is written as a lexeme that is well formed, is
  spelled as the token is, and stands for that token again (section 2). The numbers are the work
  here: decimal digits of a number without its sign, and the sign before them.
* A text with tokens written into it divides into their lexemes (`divides_spelled`). The induction
  is on the tokens, and has to carry along that the text from any of them on adds no digit to what
  stands before it.
* Only tokens that can be written are ever read (`writable_of_mem_tokens`), for a lexeme is well
  formed and its numbers are in range.

Main statement: `tokens_of_spelled`, reading brings back exactly the tokens that were written; and
since only such tokens are ever read, writing the tokens of any text and reading them again changes
nothing. So a command file has a normal form, and it is read like the file itself.
-/

set_option autoImplicit false

namespace Photoplot

/-! ## 1. Tokens as text -/

/-- A token as a command file holds it. A command is written as it is shown in messages; a
coordinate has its letters before its numbers. -/
def Token.spelling : Token → String
  | .coordinate x y => "X" ++ toString x ++ "Y" ++ toString y
  | .command code value => (Token.command code value).render

/-- **What can be written.** A command has a code character, and no number or one from zero to the
greatest; the numbers of a coordinate are in range. -/
inductive Token.Writable : Token → Prop
  | command {code : Char} {value : Option Int} (hcode : Lexeme.IsCodeCharacter code)
      (hvalue : ∀ v ∈ value, 0 ≤ v ∧ Token.InRange v) : Writable (.command code value)
  | coordinate {x y : Int} (hx : Token.InRange x) (hy : Token.InRange y) :
      Writable (.coordinate x y)

/-- **What may stand between tokens.** Any text without a character that begins a lexeme, as long as
it adds no digit to the token before it. -/
structure Inert (gap : String) : Prop where
  noBeginning : ∀ c ∈ gap.toList, ¬Lexeme.IsCodeCharacter c ∧ c ≠ 'X'
  noDigit : NoDigitAhead gap.toList

/-- A text with tokens in it, each with the gap behind it. -/
def spelled (first : String) (pieces : List (Token × String)) : String :=
  first ++ String.join (pieces.map fun piece => piece.1.spelling ++ piece.2)

/-! ## 2. The lexeme of a token -/

/-- The numeral that a whole number is written with. -/
def Numeral.ofInt (n : Int) : Numeral :=
  ⟨n < 0, Nat.toDigits 10 n.natAbs⟩

/-- The lexeme that a token is written with. -/
def Lexeme.ofToken : Token → Lexeme
  | .coordinate x y => .coordinate (Numeral.ofInt x) (Numeral.ofInt y)
  | .command code none => .command code []
  | .command code (some value) => .command code (Nat.toDigits 10 value.natAbs)

theorem isDigit_of_mem_toDigits {n : Nat} {c : Char} (h : c ∈ Nat.toDigits 10 n) :
    c.isDigit = true :=
  Nat.isDigit_of_mem_toDigits (by decide) (by decide) h

/-- A number that is not negative is written with its digits alone. -/
theorem toList_toString_natAbs {n : Int} (h : 0 ≤ n) :
    (toString n).toList = Nat.toDigits 10 n.natAbs := by
  rw [Int.toString_eq_repr, Int.repr_eq_if, if_pos h, Nat.toList_repr]
  congr 1
  omega

namespace Numeral

/-- The numeral of a number is well formed: there is a digit even for zero. -/
theorem formed_ofInt (n : Int) : (ofInt n).Formed :=
  ⟨Nat.toDigits_ne_nil, fun _ hd => isDigit_of_mem_toDigits hd⟩

/-- The numeral of a number is spelled as the number is printed. -/
theorem text_ofInt (n : Int) : (ofInt n).text = (toString n).toList := by
  by_cases h : 0 ≤ n
  · have hsign : ¬ n < 0 := by omega
    rw [toList_toString_natAbs h]
    simp [text, ofInt, hsign]
  · have hsign : n < 0 := by omega
    have habs : (-n).toNat = n.natAbs := by omega
    rw [Int.toString_eq_repr, Int.repr_eq_if, if_neg h, String.toList_append, Nat.toList_repr, habs]
    simp [text, ofInt, hsign]

theorem value_ofInt (n : Int) : (ofInt n).value = n := by
  simp only [value, ofInt, Nat.ofDigitChars_ten_toDigits, decide_eq_true_eq]
  split <;> omega

end Numeral

namespace Token.Writable

variable {t : Token}

/-- The lexeme of a token is well formed. -/
theorem formed (h : t.Writable) : (Lexeme.ofToken t).Formed := by
  cases h with
  | coordinate => exact .coordinate (Numeral.formed_ofInt _) (Numeral.formed_ofInt _)
  | @command code value hcode =>
    cases value with
    | none => exact .command hcode (by simp)
    | some v => exact .command hcode fun _ hd => isDigit_of_mem_toDigits hd

/-- The lexeme of a token is spelled as the token is. -/
theorem text (h : t.Writable) : (Lexeme.ofToken t).text = t.spelling.toList := by
  cases h with
  | coordinate =>
    simp [Lexeme.ofToken, Lexeme.text, Numeral.text_ofInt, Token.spelling]
  | @command code value hcode hvalue =>
    cases value with
    | none => simp [Lexeme.ofToken, Lexeme.text, Token.spelling, Token.render]
    | some v =>
      show code :: Nat.toDigits 10 v.natAbs = (String.singleton code ++ toString v).toList
      rw [String.toList_append, toList_toString_natAbs (hvalue v rfl).1]
      simp

/-- The lexeme of a token stands for that token. -/
theorem token? (h : t.Writable) : (Lexeme.ofToken t).token? = some t := by
  cases h with
  | coordinate hx hy =>
    rw [Lexeme.ofToken, Lexeme.token?_coordinate, Numeral.value_ofInt, Numeral.value_ofInt,
      if_pos ⟨hx, hy⟩]
  | @command code value hcode hvalue =>
    cases value with
    | none => rfl
    | some v =>
      obtain ⟨hv, hrange⟩ := hvalue v rfl
      have hsize : (v.natAbs : Int) = v := by omega
      obtain ⟨d, ds, hdigits⟩ := List.exists_cons_of_ne_nil (@Nat.toDigits_ne_nil v.natAbs 10)
      rw [Lexeme.ofToken, hdigits, Lexeme.token?_numbered, ← hdigits,
        Nat.ofDigitChars_ten_toDigits, hsize, if_pos hrange]

/-- So reading that lexeme brings up the token, and no warning. -/
theorem reading (h : t.Writable) : (Lexeme.ofToken t).reading = .token t := by
  rw [Lexeme.reading, h.token?]

end Token.Writable

/-! ## 3. Reading what was written -/

/-- No lexeme matches in a text without the beginning of one. -/
theorem Inert.isGap {gap : String} (h : Inert gap) : IsGap gap.toList [] := by
  intro tail hne htail m after hm
  obtain ⟨c, tail, rfl⟩ := List.exists_cons_of_ne_nil hne
  obtain ⟨hcode, hX⟩ := h.noBeginning c (htail.mem List.mem_cons_self)
  have hspelled := hm.spelled
  cases hm.formed with
  | command hcode' =>
    obtain ⟨rfl, -⟩ := List.cons_eq_cons.1 hspelled
    exact hcode hcode'
  | coordinate =>
    obtain ⟨rfl, -⟩ := List.cons_eq_cons.1 hspelled
    exact hX rfl

/-- The first token of a text stands behind the first gap, and the rest is a text with tokens of its
own. -/
theorem toList_spelled_cons (first gap : String) (t : Token) (pieces : List (Token × String)) :
    (spelled first ((t, gap) :: pieces)).toList
      = first.toList ++ t.spelling.toList ++ (spelled gap pieces).toList := by
  simp [spelled, String.toList_join]

/-- The lexemes of a text that tokens were written into are those of the tokens. -/
theorem divides_spelled {first : String} {pieces : List (Token × String)} (hfirst : Inert first)
    (hpieces : ∀ piece ∈ pieces, piece.1.Writable ∧ Inert piece.2) :
    (∃ divided last, Divides (spelled first pieces).toList divided last
        ∧ divided.map Prod.snd = pieces.map fun piece => Lexeme.ofToken piece.1)
      ∧ NoDigitAhead (spelled first pieces).toList := by
  induction pieces generalizing first with
  | nil =>
    have htext : spelled first [] = first := by simp [spelled]
    rw [htext]
    exact ⟨⟨[], _, .last hfirst.isGap, rfl⟩, hfirst.noDigit⟩
  | cons piece pieces ih =>
    obtain ⟨t, gap⟩ := piece
    obtain ⟨ht, hgap⟩ := hpieces (t, gap) List.mem_cons_self
    obtain ⟨⟨divided, last, hdivides, hlexemes⟩, hahead⟩ :=
      ih hgap fun piece hpiece => hpieces piece (List.mem_cons_of_mem _ hpiece)
    -- what comes behind the lexeme adds no digit to it: the gap does not, and neither does a lexeme
    rw [toList_spelled_cons, ← ht.text]
    refine ⟨⟨(first.toList, Lexeme.ofToken t) :: divided, last, ?_, ?_⟩, ?_⟩
    · exact .piece ((isGap_lexeme ht.formed).2 hfirst.isGap) ⟨ht.formed, rfl, hahead⟩ hdivides
    · rw [List.map_cons, List.map_cons, hlexemes]
    · rw [List.append_assoc]
      exact noDigitAhead_append hfirst.noDigit (ht.formed.noDigitAhead _)

/-- Nothing is passed over, and every token is read as it was written. -/
theorem readings_spelled {first : String} {pieces : List (Token × String)} (hfirst : Inert first)
    (hpieces : ∀ piece ∈ pieces, piece.1.Writable ∧ Inert piece.2) :
    readings (spelled first pieces) = pieces.map fun piece => Reading.token piece.1 := by
  obtain ⟨⟨divided, last, hdivides, hlexemes⟩, -⟩ := divides_spelled hfirst hpieces
  rw [readings_of_divides hdivides, hlexemes, List.map_map]
  apply List.map_congr_left
  intro piece hpiece
  exact (hpieces piece hpiece).1.reading

/-! ## 4. Writing what was read -/

/-- All lexemes of a division are well formed. -/
theorem Divides.formed {cs last : List Char} {pieces : List (List Char × Lexeme)}
    (h : Divides cs pieces last) : ∀ piece ∈ pieces, piece.2.Formed := by
  induction h with
  | last => simp
  | piece _ hmatch _ ih =>
    intro piece hpiece
    rcases List.mem_cons.1 hpiece with rfl | hpiece
    · exact hmatch.formed
    · exact ih piece hpiece

/-- What a well-formed lexeme denotes can be written. -/
theorem writable_of_denotes {m : Lexeme} {t : Token} (hm : m.Formed) (h : m.Denotes t) :
    t.Writable := by
  cases h with
  | bare =>
    cases hm with
    | command hcode => exact .command hcode (by simp)
  | @numbered code digits _ hmax =>
    cases hm with
    | command hcode =>
      refine .command hcode fun v hv => ?_
      obtain rfl := Option.some.inj hv
      exact ⟨by omega, (inRange_natCast _).2 hmax⟩
  | coordinate hx hy => exact .coordinate ((inRange_iff _).2 hx) ((inRange_iff _).2 hy)

/-- Whatever is read can be written. -/
theorem writable_of_mem_tokens {text : String} {t : Token} (h : t ∈ tokens text) : t.Writable := by
  obtain ⟨divided, last, hdivides⟩ := exists_divides text.toList
  rw [tokens_eq_filterMap, readings_of_divides hdivides] at h
  obtain ⟨reading, hreading, ht⟩ := List.mem_filterMap.1 h
  obtain ⟨m, hm, rfl⟩ := List.mem_map.1 hreading
  obtain ⟨piece, hpiece, rfl⟩ := List.mem_map.1 hm
  apply writable_of_denotes (hdivides.formed piece hpiece)
  rw [← Lexeme.token?_eq_some_iff]
  rw [Lexeme.reading] at ht
  split at ht
  · rename_i t' ht'
    obtain rfl := Option.some.inj ht
    exact ht'
  · cases ht

theorem inert_empty : Inert "" := by
  constructor
  · simp
  · exact noDigitAhead_nil

/-- **Writing and reading.** Tokens that can be written are read back from any text that they are
written into, in their order and nothing else, with or without something between them. Only such
tokens are ever read; so the tokens of any text, written one behind the other, are read again as
they are. -/
theorem tokens_of_spelled :
    (∀ (first : String) (pieces : List (Token × String)), Inert first →
        (∀ piece ∈ pieces, piece.1.Writable ∧ Inert piece.2) →
        tokens (spelled first pieces) = pieces.map Prod.fst
          ∧ readings (spelled first pieces) = pieces.map fun piece => Reading.token piece.1)
      ∧ (∀ text, ∀ t ∈ tokens text, t.Writable)
      ∧ ∀ text, tokens (String.join ((tokens text).map Token.spelling)) = tokens text := by
  have htokens : ∀ (first : String) (pieces : List (Token × String)), Inert first →
      (∀ piece ∈ pieces, piece.1.Writable ∧ Inert piece.2) →
      tokens (spelled first pieces) = pieces.map Prod.fst := by
    intro first pieces hfirst hpieces
    rw [tokens_eq_filterMap, readings_spelled hfirst hpieces, List.filterMap_map]
    exact congrFun (List.filterMap_eq_map (f := Prod.fst)) pieces
  refine ⟨fun first pieces hfirst hpieces =>
    ⟨htokens first pieces hfirst hpieces, readings_spelled hfirst hpieces⟩,
    fun text t ht => writable_of_mem_tokens ht, ?_⟩
  intro text
  -- the tokens of the text with empty gaps between them
  have hagain := htokens "" ((tokens text).map fun t => (t, "")) inert_empty ?_
  · have hspelled : spelled "" ((tokens text).map fun t => (t, ""))
        = String.join ((tokens text).map Token.spelling) := by
      simp [spelled, Function.comp_def]
    rw [hspelled, List.map_map] at hagain
    rw [hagain]
    exact List.map_id _
  · intro piece hpiece
    obtain ⟨t, ht, rfl⟩ := List.mem_map.1 hpiece
    exact ⟨writable_of_mem_tokens ht, inert_empty⟩

/-- A bare code right before a coordinate, the least number there is, and a gap that looks like the
rest of a coordinate. -/
def samplePieces : List (Token × String) :=
  [(.command 'A' none, ""), (.coordinate (-2147483648) 7, "Y-8"),
    (.command 'D' (some 2147483647), "")]

/-- Nothing between the first two tokens, and behind the second one a text that a reader might take
for the rest of a coordinate: the three tokens are read, and no other. -/
theorem tokens_of_samplePieces :
    Inert "-1"
      ∧ (∀ piece ∈ samplePieces, piece.1.Writable ∧ Inert piece.2)
      ∧ tokens (spelled "-1" samplePieces)
        = [.command 'A' none, .coordinate (-2147483648) 7, .command 'D' (some 2147483647)]
      ∧ spelled "-1" samplePieces = "-1AX-2147483648Y7Y-8D2147483647" := by
  have hnumber : Inert "-1" := by
    constructor
    · simp [← Lexeme.isCode_iff, Lexeme.isCode]
    · exact noDigitAhead_cons rfl _
  have hbroken : Inert "Y-8" := by
    constructor
    · simp [← Lexeme.isCode_iff, Lexeme.isCode]
    · exact noDigitAhead_cons rfl _
  have hpieces : ∀ piece ∈ samplePieces, piece.1.Writable ∧ Inert piece.2 := by
    intro piece hpiece
    simp only [samplePieces, List.mem_cons, List.not_mem_nil, or_false] at hpiece
    rcases hpiece with rfl | rfl | rfl
    · exact ⟨.command (Lexeme.isCode_iff.1 rfl) (by simp), inert_empty⟩
    · exact ⟨.coordinate (by decide) (by decide), hbroken⟩
    · exact ⟨.command (Lexeme.isCode_iff.1 rfl) (by simp [Token.InRange]), inert_empty⟩
  exact ⟨hnumber, hpieces, (tokens_of_spelled.1 "-1" samplePieces hnumber hpieces).1, by decide⟩

end Photoplot
