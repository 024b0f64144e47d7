import Photoplot.Command.Lexeme

/-!
Reading tokens from the text of a command file.

Between two lexemes there may be anything that contains no lexeme: line ends, asterisks, a malformed
coordinate. `findLexeme?` finds the leftmost lexeme of a text, so a malformed coordinate is given up
one character at a time. A scanner is what is left of the text, with the count of the bytes before
it; `Scanner.next` pulls one token out of it and names the lexemes it had to pass over because their
numbers are out of range.

**What is decided here.** A lexeme with a number out of range is passed over and named, and `next`
goes on searching behind it. It ends because a lexeme is never empty (`length_lt_of_lexeme?`), and
`pulls` ends because a pull with a token has consumed one. Offsets count bytes of UTF-8, while the
text is a list of characters; so a scanner cannot stand inside a character.

A pull that finds no token leaves the scanner behind the last lexeme it passed over, if any. The
text as a whole is read as a list of `Reading`s, and `readings_of_some` is the equation to reason
with: the readings are those of the leftmost lexeme followed by those of what is left behind it.
-/

set_option autoImplicit false

namespace Photoplot

/-! ## 1. The leftmost lexeme -/

/-- A lexeme within a text: the gap before it, the lexeme and what follows. -/
structure Found where
  gap : List Char
  lexeme : Lexeme
  rest : List Char

/-- The leftmost lexeme of a text that stands behind the gap, given in reverse. -/
def findAfter : (gap : List Char) → List Char → Option Found
  | _, [] => none
  | gap, c :: cs =>
    match Lexeme.atStart? (c :: cs) with
    | some (m, rest) => some ⟨gap.reverse, m, rest⟩
    | none => findAfter (c :: gap) cs

/-- The leftmost lexeme of a text. -/
def findLexeme? (cs : List Char) : Option Found :=
  findAfter [] cs

/-- Gap, lexeme and rest together are the text. -/
theorem findAfter_eq_some {gap cs : List Char} {f : Found} (h : findAfter gap cs = some f) :
    gap.reverse ++ cs = f.gap ++ f.lexeme.text ++ f.rest := by
  induction cs generalizing gap with
  | nil => simp [findAfter] at h
  | cons c cs ih =>
    unfold findAfter at h
    split at h
    · rename_i m rest hm
      obtain rfl := Option.some.inj h
      simp [Lexeme.atStart?_eq_some hm]
    · simpa using ih h

theorem findLexeme?_eq_some {cs : List Char} {f : Found} (h : findLexeme? cs = some f) :
    cs = f.gap ++ f.lexeme.text ++ f.rest := by
  simpa using findAfter_eq_some h

/-! ## 2. Scanners -/

/-- A text that is being read. -/
structure Scanner where
  /-- What has not been read yet. -/
  rest : List Char
  /-- The count of the bytes before it. -/
  offset : Nat

/-- The size of a text in UTF-8. -/
def byteSize (cs : List Char) : Nat :=
  cs.foldr (fun c size => c.utf8Size + size) 0

namespace Scanner

/-- A scanner at the beginning of a text. -/
def ofText (text : String) : Scanner := ⟨text.toList, 0⟩

/-- The next lexeme, and the scanner behind it. -/
def lexeme? (s : Scanner) : Option (Lexeme × Scanner) :=
  match findLexeme? s.rest with
  | some f => some (f.lexeme, ⟨f.rest, s.offset + byteSize f.gap + byteSize f.lexeme.text⟩)
  | none => none

theorem length_lt_of_lexeme? {s t : Scanner} {m : Lexeme} (h : s.lexeme? = some (m, t)) :
    t.rest.length < s.rest.length := by
  unfold lexeme? at h
  split at h
  · rename_i f hf
    simp only [Option.some.injEq, Prod.mk.injEq] at h
    obtain ⟨rfl, rfl⟩ := h
    rw [findLexeme?_eq_some hf]
    have := List.length_pos_iff.2 (Lexeme.text_ne_nil f.lexeme)
    simp only [List.length_append]
    omega
  · simp at h

end Scanner

/-- What one pull out of a scanner yields. -/
structure Pull where
  /-- The lexemes passed over because their numbers are out of range. -/
  skipped : List Lexeme
  /-- The token, if there was one more. -/
  token : Option Token
  /-- The scanner behind the last lexeme seen. -/
  after : Scanner

namespace Scanner

/-- Pulls the next token. -/
def next (s : Scanner) : Pull :=
  match _found : s.lexeme? with
  | none => ⟨[], none, s⟩
  | some (m, after) =>
    match m.token? with
    | some t => ⟨[], some t, after⟩
    | none =>
      let pull := after.next
      { pull with skipped := m :: pull.skipped }
termination_by s.rest.length
decreasing_by exact length_lt_of_lexeme? _found

theorem length_lt_of_next {s : Scanner} (h : s.next.token.isSome) :
    s.next.after.rest.length < s.rest.length := by
  fun_induction next s with
  | case1 => simp at h
  | case2 s m after hm t ht => exact length_lt_of_lexeme? hm
  | case3 s m after hm _ _ ih =>
    exact Nat.lt_trans (ih h) (length_lt_of_lexeme? hm)

/-- Pulls until no token is left; the last pull is the one that finds none. -/
def pulls (s : Scanner) : List Pull :=
  if _more : s.next.token.isSome then s.next :: s.next.after.pulls else [s.next]
termination_by s.rest.length
decreasing_by exact length_lt_of_next _more

end Scanner

/-! ## 3. Readings -/

/-- One thing that reading a command file brings up. -/
inductive Reading where
  | token (t : Token)
  | outOfRange (m : Lexeme)
deriving DecidableEq, Repr

/-- What a lexeme brings up: its token, or that its numbers are out of range. -/
def Lexeme.reading (m : Lexeme) : Reading :=
  match m.token? with
  | some t => .token t
  | none => .outOfRange m

/-- The token of a reading, if it is one. -/
def Reading.token? : Reading → Option Token
  | token t => some t
  | outOfRange _ => none

/-- The readings of one pull: what was passed over, then the token. -/
def Pull.readings (p : Pull) : List Reading :=
  p.skipped.map .outOfRange ++ p.token.toList.map .token

namespace Scanner

/-- All that is still to be read, in order. -/
def readings (s : Scanner) : List Reading :=
  s.pulls.flatMap Pull.readings

/-- The tokens that are still to be read, in order. -/
def tokens (s : Scanner) : List Token :=
  s.pulls.filterMap Pull.token

theorem readings_eq_next (s : Scanner) :
    s.readings = s.next.readings ++
      (if s.next.token.isSome then s.next.after.readings else []) := by
  rw [readings, pulls]
  split <;> simp [readings]

/-- With no lexeme left nothing is pulled. -/
theorem next_of_none {s : Scanner} (h : s.lexeme? = none) : s.next = ⟨[], none, s⟩ := by
  rw [next]
  split
  · rfl
  · rename_i hsome
    rw [h] at hsome
    cases hsome

/-- A lexeme is pulled if it stands for a token, and passed over if it does not. -/
theorem next_of_some {s after : Scanner} {m : Lexeme} (h : s.lexeme? = some (m, after)) :
    s.next = match m.token? with
      | some t => ⟨[], some t, after⟩
      | none => { after.next with skipped := m :: after.next.skipped } := by
  rw [next]
  split
  · rename_i hnone
    rw [h] at hnone
    cases hnone
  · rename_i hsome
    rw [h] at hsome
    cases hsome
    rfl

/-- With no lexeme left there is nothing to read. -/
theorem readings_of_none {s : Scanner} (h : s.lexeme? = none) : s.readings = [] := by
  rw [readings_eq_next, next_of_none h]
  rfl

/-- The lexemes of a text are read one after the other, each on its own. -/
theorem readings_of_some {s after : Scanner} {m : Lexeme} (h : s.lexeme? = some (m, after)) :
    s.readings = m.reading :: after.readings := by
  have hnext := next_of_some h
  cases ht : m.token? with
  | some t =>
    rw [ht] at hnext
    rw [readings_eq_next, hnext]
    simp [Pull.readings, Lexeme.reading, ht]
  | none =>
    rw [ht] at hnext
    rw [readings_eq_next, hnext, readings_eq_next after]
    simp [Pull.readings, Lexeme.reading, ht]

/-- The tokens are the readings without the lexemes passed over. -/
theorem tokens_eq_filterMap (s : Scanner) : s.tokens = s.readings.filterMap Reading.token? := by
  have hpull : ∀ p : Pull, p.readings.filterMap Reading.token? = p.token.toList := by
    intro p
    cases hp : p.token <;>
      simp [Pull.readings, hp, List.filterMap_map, Function.comp_def, Reading.token?]
  rw [tokens, readings, List.filterMap_flatMap]
  simp only [hpull]
  induction s.pulls with
  | nil => rfl
  | cons p ps ih => cases hp : p.token <;> simp [hp, ih]

end Scanner

/-- All that a text brings up, in order. -/
def readings (text : String) : List Reading :=
  (Scanner.ofText text).readings

/-- The tokens of a text, in order. -/
def tokens (text : String) : List Token :=
  (Scanner.ofText text).tokens

end Photoplot
