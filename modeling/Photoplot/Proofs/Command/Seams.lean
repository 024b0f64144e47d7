import Photoplot.Proofs.Command.Grammar

/-!
Texts that are put together.

Behind its first character a lexeme holds nothing but digits, minus signs and the `Y` of a
coordinate. Every other character is a wall: no lexeme reaches across it, so what is read before it
does not depend on what stands behind it. A lexeme begins with a wall, and so a gap is a gap
whatever lexeme follows it (`isGap_lexeme`). That is why divisions can be put one behind the other,
although a gap is defined by all that comes after it.

**What is proved, and where the work is.**

* A match stays one when the text goes on with anything but a digit (`Lexeme.Matches.append`), and a
  match that begins before a wall ends before it (`Lexeme.Matches.before_wall`). The second is the
  delicate one: the text of the lexeme is compared with the text up to the wall, and the wall must
  not come to stand inside the lexeme.
* The pieces of a text are pieces of every text that begins with it (`Divides.append`), by induction
  on the division. What is new may begin in the last gap, so that gap is divided again.
* Two texts with a separator between them are read as the one and then the other (`Divides.join`).
  Here the last gap of the first text, the separator and the first gap of the second one make a
  single gap (`isGap_join`).

Two laws of reading come of this. A text that goes on behind its end is read as before, and then
further, unless digits are added to its last lexeme (`readings_prefix`); and a text is read as the
two parts into which a separator cuts it (`readings_separated`). The first has a condition and the
second has none, because a separator is no digit.
-/

set_option autoImplicit false

namespace Photoplot

/-! ## 1. Walls -/

/-- **Walls.** A character that stands nowhere in a lexeme but at its beginning. -/
structure IsWall (c : Char) : Prop where
  notDigit : c.isDigit = false
  notMinus : c ≠ '-'
  notY : c ≠ 'Y'

/-- The code characters by their numbers, but for the last letter and the slash. -/
theorem code_cases {c : Char} (h : Lexeme.IsCodeCharacter c) :
    (65 ≤ c.val.toNat ∧ c.val.toNat ≤ 87) ∨ c = 'Z' ∨ c = '/' := by
  rcases h with ⟨hlow, hhigh⟩ | hrest
  · rw [Char.le_def, UInt32.le_iff_toNat_le] at hlow hhigh
    exact .inl ⟨hlow, hhigh⟩
  · exact .inr hrest

/-- Whatever begins a command is a wall: none of these characters stands inside a lexeme. -/
theorem Lexeme.IsCodeCharacter.isWall {c : Char} (h : Lexeme.IsCodeCharacter c) : IsWall c := by
  rcases code_cases h with ⟨hlow, hhigh⟩ | rfl | rfl
  · have h9 : '9'.val.toNat = 57 := rfl
    refine ⟨?_, ?_, ?_⟩
    · simp only [Char.isDigit, Bool.and_eq_false_iff, decide_eq_false_iff_not, ge_iff_le,
        UInt32.le_iff_toNat_le]
      omega
    · rintro rfl
      exact absurd hlow (by decide)
    · rintro rfl
      exact absurd hhigh (by decide)
  · constructor <;> decide
  · constructor <;> decide

/-- A numeral has no wall in it. -/
theorem Numeral.not_isWall {n : Numeral} (h : n.Formed) {c : Char} (hc : c ∈ n.text) :
    ¬ IsWall c := by
  intro hwall
  have hdigit : c ∉ n.digits := by
    intro hmem
    have := h.2 c hmem
    rw [hwall.notDigit] at this
    cases this
  rw [Numeral.text] at hc
  split at hc
  · rcases List.mem_cons.1 hc with rfl | hmem
    · exact hwall.notMinus rfl
    · exact hdigit hmem
  · exact hdigit hc

namespace Lexeme

/-- A lexeme begins with a wall, and there is none behind its first character. -/
theorem Formed.exists_wall {m : Lexeme} (h : m.Formed) :
    ∃ first inner, m.text = first :: inner ∧ IsWall first ∧ ∀ c ∈ inner, ¬ IsWall c := by
  cases h with
  | @command code digits hcode hdigits =>
    refine ⟨code, digits, rfl, hcode.isWall, ?_⟩
    intro c hc hwall
    have hdigit := hdigits c hc
    rw [hwall.notDigit] at hdigit
    cases hdigit
  | @coordinate x y hx hy =>
    refine ⟨'X', x.text ++ 'Y' :: y.text, rfl, by constructor <;> decide, ?_⟩
    intro c hc
    rcases List.mem_append.1 hc with hc | hc
    · exact Numeral.not_isWall hx hc
    · rcases List.mem_cons.1 hc with rfl | hc
      · exact fun hwall => hwall.notY rfl
      · exact Numeral.not_isWall hy hc

end Lexeme

/-! ## 2. Matching before a wall -/

theorem noDigitAhead_nil : NoDigitAhead [] := by
  intro c hc
  cases hc

/-- A text that begins with another character has no digit ahead, whatever it goes on with. -/
theorem noDigitAhead_cons {c : Char} (hc : c.isDigit = false) (rest : List Char) :
    NoDigitAhead (c :: rest) := by
  intro d hd
  obtain rfl := Option.some.inj hd
  exact hc

/-- Only the first character counts, or if there is none the first one of what follows. -/
theorem noDigitAhead_append {first second : List Char} (hfirst : NoDigitAhead first)
    (hsecond : NoDigitAhead second) : NoDigitAhead (first ++ second) := by
  cases first with
  | nil => exact hsecond
  | cons c first => exact hfirst

/-- What has no digit ahead has none when it is cut off. -/
theorem noDigitAhead_of_append {first second : List Char} (h : NoDigitAhead (first ++ second)) :
    NoDigitAhead first := by
  cases first with
  | nil => exact noDigitAhead_nil
  | cons c first => exact h

namespace Lexeme

/-- A lexeme adds no digit to what stands before it. -/
theorem Formed.noDigitAhead {m : Lexeme} (h : m.Formed) (rest : List Char) :
    NoDigitAhead (m.text ++ rest) := by
  obtain ⟨first, inner, htext, hwall, -⟩ := h.exists_wall
  rw [htext]
  exact noDigitAhead_cons hwall.notDigit _

/-- A match goes on to be one when the text goes on, unless with a digit. -/
theorem Matches.append {m : Lexeme} {cs rest more : List Char} (h : m.Matches cs rest)
    (hmore : NoDigitAhead more) : m.Matches (cs ++ more) (rest ++ more) := by
  refine ⟨h.formed, ?_, noDigitAhead_append h.maximal hmore⟩
  rw [h.spelled, List.append_assoc]

/-- A lexeme that begins before a wall ends before it. -/
theorem Matches.before_wall {m : Lexeme} {cs rest after : List Char} {c : Char} (hc : IsWall c)
    (hcs : cs ≠ []) (h : m.Matches (cs ++ c :: rest) after) : ∃ left, m.Matches cs left := by
  obtain ⟨first, inner, htext, -, hinner⟩ := h.formed.exists_wall
  have hspelled := h.spelled
  rcases List.append_eq_append_iff.1 hspelled with ⟨extra, hextra, hrest⟩ | ⟨left, hleft, hafter⟩
  · cases extra with
    | nil =>
      -- the lexeme is all that stands before the wall
      refine ⟨[], h.formed, ?_, noDigitAhead_nil⟩
      rw [hextra]
      simp
    | cons d extra =>
      -- the wall would stand in the lexeme, and not at its beginning
      obtain ⟨rfl, -⟩ := List.cons_eq_cons.1 hrest
      obtain ⟨b, cs, rfl⟩ := List.exists_cons_of_ne_nil hcs
      rw [htext] at hextra
      obtain ⟨-, rfl⟩ := List.cons_eq_cons.1 hextra
      exact absurd hc (hinner c (by simp))
  · refine ⟨left, h.formed, hleft, ?_⟩
    have hbehind : NoDigitAhead (left ++ c :: rest) := hafter ▸ h.maximal
    exact noDigitAhead_of_append hbehind

end Lexeme

/-- **Gaps before a wall.** Whether a text is a gap does not depend on what a wall behind it is
followed by, or whether there is one. -/
theorem isGap_wall {gap rest : List Char} {c : Char} (hc : IsWall c) :
    IsGap gap (c :: rest) ↔ IsGap gap [] := by
  constructor
  · intro h tail hne htail m after hm
    rw [List.append_nil] at hm
    exact h tail hne htail m _ (hm.append (noDigitAhead_cons hc.notDigit rest))
  · intro h tail hne htail m after hm
    obtain ⟨left, hleft⟩ := hm.before_wall hc hne
    rw [← List.append_nil tail] at hleft
    exact h tail hne htail m left hleft

/-- **Gaps before a lexeme.** Whether a text is a gap does not depend on the lexeme behind it, nor
on what follows that. -/
theorem isGap_lexeme {gap rest : List Char} {m : Lexeme} (hm : m.Formed) :
    IsGap gap (m.text ++ rest) ↔ IsGap gap [] := by
  obtain ⟨first, inner, htext, hwall, -⟩ := hm.exists_wall
  rw [htext]
  exact isGap_wall hwall

/-! ## 3. A text that goes on -/

/-- The pieces of a text are pieces of every text that begins with it, unless that goes on with a
digit. -/
theorem Divides.append {cs last : List Char} {pieces : List (List Char × Lexeme)}
    (h : Divides cs pieces last) {more : List Char} (hmore : NoDigitAhead more) :
    ∃ further last', Divides (cs ++ more) (pieces ++ further) last' := by
  induction h with
  | @last gap hgap =>
    obtain ⟨further, last', hfurther⟩ := exists_divides (gap ++ more)
    exact ⟨further, last', hfurther⟩
  | @piece gap rest last m pieces hgap hmatch _ ih =>
    obtain ⟨further, last', hfurther⟩ := ih
    refine ⟨further, last', ?_⟩
    -- the gap does not depend on the text behind its lexeme
    have hgap' : IsGap gap (m.text ++ (rest ++ more)) :=
      (isGap_lexeme hmatch.formed).2 ((isGap_lexeme hmatch.formed).1 hgap)
    have hmatch' : m.Matches (m.text ++ (rest ++ more)) (rest ++ more) := by
      rw [← List.append_assoc]
      exact hmatch.append hmore
    rw [List.append_assoc]
    exact .piece hgap' hmatch' hfurther

/-- A text that is a lexeme has one reading. -/
theorem readings_lexeme {text : String} {m : Lexeme} (hm : m.Formed) (htext : text.toList = m.text) :
    readings text = [m.reading] := by
  have hdivides : Divides text.toList [([], m)] [] := by
    have hmatch : m.Matches (m.text ++ []) [] := ⟨hm, rfl, noDigitAhead_nil⟩
    have hpiece := Divides.piece (isGap_nil _) hmatch (.last (isGap_nil []))
    rw [htext]
    simpa using hpiece
  exact readings_of_divides hdivides

theorem tokens_eq_filterMap (text : String) :
    tokens text = (readings text).filterMap Reading.token? :=
  Scanner.tokens_eq_filterMap _

/-- **The seam.** What is read of a text is read first of every text that begins with it, unless
that goes on with a digit. -/
theorem readings_prefix (s : String) {t : String} (ht : NoDigitAhead t.toList) :
    readings s <+: readings (s ++ t) := by
  obtain ⟨pieces, last, hpieces⟩ := exists_divides s.toList
  obtain ⟨further, last', hfurther⟩ := hpieces.append ht
  rw [← String.toList_append] at hfurther
  rw [readings_of_divides hpieces, readings_of_divides hfurther, List.map_append, List.map_append]
  exact List.prefix_append _ _

/-! ## 4. A text that is cut -/

/-- **Separators.** A character that stands in no lexeme at all: no digit, no capital letter, no
slash and no minus sign. -/
structure IsSeparator (c : Char) : Prop where
  notDigit : c.isDigit = false
  notUpper : c.isUpper = false
  notSlash : c ≠ '/'
  notMinus : c ≠ '-'

instance (c : Char) : Decidable (IsSeparator c) :=
  decidable_of_iff (c.isDigit = false ∧ c.isUpper = false ∧ c ≠ '/' ∧ c ≠ '-')
    ⟨fun h => ⟨h.1, h.2.1, h.2.2.1, h.2.2.2⟩, fun h => ⟨h.1, h.2, h.3, h.4⟩⟩

/-- A separator is a wall, and one with which not even a lexeme begins. -/
theorem IsSeparator.isWall {c : Char} (h : IsSeparator c) : IsWall c := by
  refine ⟨h.notDigit, h.notMinus, ?_⟩
  rintro rfl
  exact absurd h.notUpper (by decide)

/-- The code characters are capital letters, but for the slash. -/
theorem isUpper_of_code {c : Char} (h : Lexeme.IsCodeCharacter c) (hslash : c ≠ '/') :
    c.isUpper = true := by
  rcases code_cases h with ⟨hlow, hhigh⟩ | rfl | rfl
  · have hA : 'A'.val.toNat = 65 := rfl
    have hZ : 'Z'.val.toNat = 90 := rfl
    show decide ('A'.val ≤ c.val ∧ c.val ≤ 'Z'.val) = true
    rw [decide_eq_true_iff, UInt32.le_iff_toNat_le, UInt32.le_iff_toNat_le]
    omega
  · decide
  · exact absurd rfl hslash

/-- No lexeme begins with a separator. -/
theorem IsSeparator.not_matches {c : Char} (h : IsSeparator c) (rest : List Char) (m : Lexeme)
    (after : List Char) : ¬ m.Matches (c :: rest) after := by
  rintro ⟨hformed, hspelled, -⟩
  cases hformed with
  | command hcode hdigits =>
    obtain ⟨rfl, -⟩ := List.cons_eq_cons.1 hspelled
    have hupper := isUpper_of_code hcode h.notSlash
    rw [h.notUpper] at hupper
    cases hupper
  | coordinate hx hy =>
    obtain ⟨rfl, -⟩ := List.cons_eq_cons.1 hspelled
    exact absurd h.notUpper (by decide)

/-- Two gaps with a separator between them are one gap. -/
theorem isGap_join {gap gap' rest : List Char} {c : Char} (hc : IsSeparator c)
    (hgap : IsGap gap []) (hgap' : IsGap gap' rest) : IsGap (gap ++ c :: gap') rest := by
  induction gap with
  | nil => exact isGap_cons.2 ⟨hc.not_matches _, hgap'⟩
  | cons d gap ih =>
    -- what matched in the first gap would end before the separator
    have hwalled : IsGap (d :: gap) (c :: (gap' ++ rest)) := (isGap_wall hc.isWall).2 hgap
    refine isGap_cons.2 ⟨?_, ih (isGap_cons.1 hgap).2⟩
    have hhead := (isGap_cons.1 hwalled).1
    intro m after
    have hnone := hhead m after
    rwa [← List.cons_append, ← List.append_assoc] at hnone

/-- The lexemes of two texts with a separator between them are those of the one and then those of
the other. -/
theorem Divides.join {c : Char} (hc : IsSeparator c) {s t last last' : List Char}
    {pieces pieces' : List (List Char × Lexeme)} (hs : Divides s pieces last)
    (ht : Divides t pieces' last') :
    ∃ joined end', Divides (s ++ c :: t) joined end'
      ∧ joined.map Prod.snd = pieces.map Prod.snd ++ pieces'.map Prod.snd := by
  induction hs with
  | @last gap hgap =>
    -- the gap at the end and the first one of the other text become one
    cases ht with
    | last hgap' => exact ⟨[], _, .last (isGap_join hc hgap hgap'), rfl⟩
    | @piece gap' rest last' m pieces' hgap' hmatch hrest =>
      refine ⟨(gap ++ c :: gap', m) :: pieces', last', ?_, rfl⟩
      have hpiece := Divides.piece (isGap_join hc hgap hgap') hmatch hrest
      simpa only [List.append_assoc, List.cons_append] using hpiece
  | @piece gap rest last m pieces hgap hmatch _ ih =>
    obtain ⟨joined, end', hjoined, hlexemes⟩ := ih
    refine ⟨(gap, m) :: joined, end', ?_, by simp [hlexemes]⟩
    have hgap' : IsGap gap (m.text ++ (rest ++ c :: t)) :=
      (isGap_lexeme hmatch.formed).2 ((isGap_lexeme hmatch.formed).1 hgap)
    have hmatch' : m.Matches (m.text ++ (rest ++ c :: t)) (rest ++ c :: t) := by
      rw [← List.append_assoc]
      exact hmatch.append (noDigitAhead_cons hc.notDigit t)
    rw [List.append_assoc]
    exact .piece hgap' hmatch' hjoined

/-- **The cut.** A text with a separator in it is read as what stands before the separator and then
what stands behind it. -/
theorem readings_separated (s t : String) {c : Char} (hc : IsSeparator c) :
    readings (s ++ String.singleton c ++ t) = readings s ++ readings t := by
  obtain ⟨pieces, last, hs⟩ := exists_divides s.toList
  obtain ⟨pieces', last', ht⟩ := exists_divides t.toList
  obtain ⟨joined, end', hjoined, hlexemes⟩ := hs.join hc ht
  have htext : s.toList ++ c :: t.toList = (s ++ String.singleton c ++ t).toList := by
    simp
  rw [htext] at hjoined
  rw [readings_of_divides hjoined, readings_of_divides hs, readings_of_divides ht, hlexemes,
    List.map_append]

end Photoplot
