import Photoplot.Decimal.Notation

/-!
The notation of configuration files.

A configuration is a record in RON, the notation of records with named fields, optional values
(`Some(3)`, `None`), quoted text, numbers and comments. A file is read byte by byte, because only
text in quotes has to be UTF-8. Every reader takes what is left of the file and gives what it read
with what is left then, or nothing if the file is malformed; the causes are not told apart.

Fields with unknown names are skipped. `Notation.skipValue` and `Notation.skipItems` read a value of
any shape for that; their fuel bounds the count of values and items, each of which takes a byte.
-/

set_option autoImplicit false

namespace Photoplot.Notation

/-- What is left of a file. -/
abbrev Bytes := List UInt8

/-- The character that a byte stands for in the ASCII part of a file. -/
def asChar (b : UInt8) : Char := Char.ofNat b.toNat

/-! ## 1. Words and marks -/

/-- What follows a word, if the file goes on with it. -/
def after? : List Char → Bytes → Option Bytes
  | [], bs => some bs
  | _ :: _, [] => none
  | c :: cs, b :: bs => if asChar b = c then after? cs bs else none

/-- The word at the beginning of what is left, as characters. -/
def takeWord (allowed : Char → Bool) (bs : Bytes) : List Char × Bytes :=
  ((bs.takeWhile (allowed ∘ asChar)).map asChar, bs.dropWhile (allowed ∘ asChar))

/-- The characters that a name can begin with. -/
def beginsName (c : Char) : Bool := c.isAlpha || c == '_'

/-- The characters that a name can go on with. -/
def continuesName (c : Char) : Bool := c.isAlphanum || c == '_'

/-- The characters of a name that is marked by `r#`. -/
def continuesRawName (c : Char) : Bool :=
  continuesName c || c == '.' || c == '+' || c == '-'

/-- What follows a word that is not merely the beginning of a longer name. -/
def afterName? (name : List Char) (bs : Bytes) : Option Bytes := do
  let rest ← after? name bs
  match rest with
  | b :: _ => if continuesName (asChar b) then none else some rest
  | [] => some rest

/-- Reads a name. The beginning of raw text, `r` with a quotation mark, is none. -/
def name? (bs : Bytes) : Option (List Char × Bytes) :=
  match bs.map asChar |>.take 3 with
  | ['r'] => none
  | 'r' :: '\x22' :: _ => none
  | 'r' :: '#' :: c :: _ =>
    if continuesRawName c then some (takeWord continuesRawName (bs.drop 2)) else none
  | 'r' :: '#' :: _ => none
  | c :: _ => if beginsName c then some (takeWord continuesName bs) else none
  | [] => none

/-! ## 2. Blanks and comments -/

/-- Where in a run of blanks a reader is. -/
inductive Blank where
  | plain
  | line
  | block (outer : Nat)

/-- Skips blanks and comments. Block comments nest, and one that is not closed is malformed. -/
def skipBlank : Blank → Bytes → Option Bytes
  | .plain, [] => some []
  | .line, [] => some []
  | .block _, [] => none
  | .plain, b :: bs =>
    if asChar b = ' ' ∨ asChar b = '\t' ∨ asChar b = '\n' ∨ asChar b = '\r' then
      skipBlank .plain bs
    else if asChar b = '/' then
      match bs with
      | [] => none
      | c :: rest =>
        if asChar c = '/' then skipBlank .line rest
        else if asChar c = '*' then skipBlank (.block 0) rest
        else none
    else some (b :: bs)
  | .line, b :: bs => if asChar b = '\n' then skipBlank .plain bs else skipBlank .line bs
  | .block _, [_] => none
  | .block outer, b :: c :: rest =>
    if asChar b = '/' ∧ asChar c = '*' then skipBlank (.block (outer + 1)) rest
    else if asChar b = '*' ∧ asChar c = '/' then
      match outer with
      | 0 => skipBlank .plain rest
      | outer + 1 => skipBlank (.block outer) rest
    else skipBlank (.block outer) (c :: rest)

/-- Skips blanks and comments between two marks. -/
def blank? (bs : Bytes) : Option Bytes := skipBlank .plain bs

/-- What follows a word and the blanks behind it. -/
def mark? (word : String) (bs : Bytes) : Option Bytes :=
  (after? word.toList bs).bind blank?

/-- Skips blanks and a comma, if there is one, and says whether there was. -/
def comma? (bs : Bytes) : Option (Bool × Bytes) := do
  let bs ← blank? bs
  match after? [','] bs with
  | some rest => (blank? rest).map (true, ·)
  | none => some (false, bs)

/-! ## 3. Numbers -/

/-- The value of a hexadecimal digit. -/
def hexValue? (c : Char) : Option Nat :=
  if '0' ≤ c ∧ c ≤ '9' then some (c.toNat - '0'.toNat)
  else if 'a' ≤ c ∧ c ≤ 'f' then some (c.toNat - 'a'.toNat + 10)
  else if 'A' ≤ c ∧ c ≤ 'F' then some (c.toNat - 'A'.toNat + 10)
  else none

/-- The characters that a whole number is made of, in any base. -/
def inInteger (c : Char) : Bool := (hexValue? c).isSome || c == '_'

/-- The characters that a number with a fraction or an exponent is made of. -/
def inReal (c : Char) : Bool :=
  c.isDigit || c == 'e' || c == 'E' || c == '.' || c == '+' || c == '-'

/-- The base of a whole number, and what follows the mark of the base. -/
def base (bs : Bytes) : Nat × Bytes :=
  match (bs.take 2).map asChar with
  | ['0', 'x'] => (16, bs.drop 2)
  | ['0', 'b'] => (2, bs.drop 2)
  | ['0', 'o'] => (8, bs.drop 2)
  | _ => (10, bs)

/-- The number that digits stand for. Underscores between them do not count. -/
def digitsValue? (base : Nat) (digits : List Char) : Option Nat :=
  (digits.filter (· != '_')).foldlM (fun value c => do
    let digit ← hexValue? c
    if digit < base then pure (base * value + digit) else none) 0

/-- Reads a whole number without a sign. It begins with a digit, not with an underscore. -/
def natural? (bs : Bytes) : Option (Nat × Bytes) := do
  let (base, bs) := base bs
  match takeWord inInteger bs with
  | ([], _) => none
  | ('_' :: _, _) => none
  | (digits, rest) => (digitsValue? base digits).map (·, rest)

/-- Splits a sign off: whether there is one, whether it is a minus sign, and what follows. -/
def sign (bs : Bytes) : Bool × Bool × Bytes :=
  match bs with
  | [] => (false, false, [])
  | b :: rest =>
    if asChar b = '-' then (true, true, rest)
    else if asChar b = '+' then (true, false, rest)
    else (false, false, bs)

/-- Reads an integer that lies between `-bound` and `bound`. The lower bound is in the range, the
upper one is not. -/
def integerWithin? (bound : Nat) (bs : Bytes) : Option (Int × Bytes) := do
  let (_, negative, digits) := sign bs
  let (size, rest) ← natural? digits
  let value : Int := if negative then -size else size
  if -bound ≤ value ∧ value < bound then pure (value, rest) else none

/-- Reads a signed 64-bit integer. -/
def integer? (bs : Bytes) : Option (Int × Bytes) := integerWithin? (Nat.pow 2 63) bs

/-- Skips a whole number that fits into 128 bits. With a sign, one of the bits is taken by it. -/
def skipInteger? (bs : Bytes) : Option Bytes :=
  if (sign bs).1 then (integerWithin? (Nat.pow 2 127) bs).map Prod.snd
  else do
    let (size, rest) ← natural? bs
    if size < Nat.pow 2 128 then pure rest else none

/-- Skips a number that may have a fraction or an exponent. -/
def skipReal? (bs : Bytes) : Option Bytes :=
  let (word, rest) := takeWord inReal bs
  (Decimal.read? word).map fun _ => rest

/-- Skips any number. What looks like a whole number but is none may still be read as another. -/
def skipNumber? (bs : Bytes) : Option Bytes :=
  let (_, _, digits) := sign bs
  if (takeWord inInteger digits).1.length < (takeWord inReal digits).1.length then skipReal? bs
  else (skipInteger? bs).or (skipReal? bs)

/-! ## 4. Text -/

/-- The bytes of the character with a code point, if it is one. -/
def codePoint? (n : Nat) : Option Bytes :=
  if n.isValidChar then some (String.utf8EncodeChar (Char.ofNat n)) else none

/-- Reads an escape behind its backslash: the bytes of the character it stands for. -/
def escape? : Bytes → Option (Bytes × Bytes)
  | [] => none
  | b :: rest =>
    match asChar b with
    | '\'' | '\x22' | '\\' => some ([b], rest)
    | 'n' => some ([10], rest)
    | 'r' => some ([13], rest)
    | 't' => some ([9], rest)
    | '0' => some ([0], rest)
    | 'x' =>
      match rest with
      | high :: low :: rest => do
        let high ← hexValue? (asChar high)
        let low ← hexValue? (asChar low)
        (codePoint? (16 * high + low)).map (·, rest)
      | _ => none
    | 'u' => do
      let rest ← after? ['\x7b'] rest
      let (digits, rest) := takeWord (fun c => (hexValue? c).isSome) rest
      let rest ← after? ['\x7d'] rest
      if 1 ≤ digits.length ∧ digits.length ≤ 6 then
        let value ← digitsValue? 16 digits
        (codePoint? value).map (·, rest)
      else none
    | _ => none

/-- Reads text behind its opening quotation mark. The text so far is given in reverse. -/
def quotedText? : (fuel : Nat) → (soFar : Bytes) → Bytes → Option (Bytes × Bytes)
  | 0, _, _ => none
  | _ + 1, _, [] => none
  | fuel + 1, soFar, b :: rest =>
    if asChar b = '\x22' then some (soFar.reverse, rest)
    else if asChar b = '\\' then do
      let (bytes, rest) ← escape? rest
      quotedText? fuel (bytes.reverse ++ soFar) rest
    else quotedText? fuel (b :: soFar) rest

/-- Reads raw text up to its closing mark. The text so far is given in reverse. -/
def rawText? (closing : List Char) : (soFar : Bytes) → Bytes → Option (Bytes × Bytes)
  | _, [] => none
  | soFar, b :: rest =>
    match after? closing (b :: rest) with
    | some rest => some (soFar.reverse, rest)
    | none => rawText? closing (b :: soFar) rest

/-- Reads quoted or raw text. Raw text is closed by a quotation mark with as many number signs as
stand before the opening one. -/
def text? (bs : Bytes) : Option (String × Bytes) := do
  let (bytes, rest) ←
    match after? ['\x22'] bs with
    | some body => quotedText? (body.length + 1) [] body
    | none => do
      let bs ← after? ['r'] bs
      let (signs, bs) := takeWord (· == '#') bs
      let body ← after? ['\x22'] bs
      rawText? ('\x22' :: signs) [] body
  let text ← String.fromUTF8? ⟨bytes.toArray⟩
  pure (text, rest)

/-- Skips a single character in apostrophes. -/
def skipCharacter? (bs : Bytes) : Option Bytes := do
  let bs ← after? ['\''] bs
  match after? ['\\'] bs with
  | some rest => do
    let (_, rest) ← escape? rest
    after? ['\''] rest
  | none => do
    let bytes := bs.takeWhile fun b => asChar b != '\''
    let text ← if bytes.length ≤ 4 then String.fromUTF8? ⟨bytes.toArray⟩ else none
    if text.length = 1 then after? ['\''] (bs.drop bytes.length) else none

/-! ## 5. Values of any shape -/

/-- The kinds of values with items. -/
inductive Items where
  | list
  | tuple
  | record
  | dictionary

/-- The mark that closes the items. -/
def Items.closing : Items → Char
  | list => ']'
  | tuple => ')'
  | record => ')'
  | dictionary => '\x7d'

/-- Whether the items in parentheses have names. -/
def inParentheses? (bs : Bytes) : Option Items := do
  let bs ← blank? bs
  match name? bs with
  | none => some .tuple
  | some (_, rest) =>
    match ← blank? rest with
    | [] => none
    | b :: _ => some (if asChar b = ':' then .record else .tuple)

/-- The words that are values by themselves. Those for numbers may bear a sign. -/
def plainWords : List String :=
  ["true", "false", "None", "inf", "+inf", "-inf", "NaN", "+NaN", "-NaN"]

/-- What follows a word that is a value by itself. -/
def afterPlainWord? (bs : Bytes) : Option Bytes :=
  plainWords.findSome? fun word => afterName? word.toList bs

mutual

/-- Skips a value of any shape. With `bare`, an optional value may do without `Some`. -/
def skipValue (bare : Bool) : (fuel : Nat) → Bytes → Option Bytes
  | 0, _ => none
  | fuel + 1, bs =>
    match afterPlainWord? bs, afterName? "Some".toList bs, after? "()".toList bs with
    | some rest, _, _ => some rest
    | none, some rest, _ => do
      let rest ← blank? rest
      match after? ['('] rest with
      | some inner => do
        let inner ← blank? inner
        let inner ← skipValue bare fuel inner
        let inner ← blank? inner
        after? [')'] inner
      | none => if bare then skipValue bare fuel rest else none
    | none, none, some rest => some rest
    | none, none, none => do
      let named := name? bs
      let bs ← match named with
        | some (_, rest) => blank? rest
        | none => some bs
      match bs, named.isSome with
      | [], isNamed => if isNamed then some [] else none
      | b :: rest, isNamed =>
        if asChar b = '(' then do
          let kind ← inParentheses? rest
          skipItems bare kind fuel true rest
        else if isNamed then some (b :: rest)
        else if asChar b = '[' then skipItems bare .list fuel true rest
        else if asChar b = '\x7b' then skipItems bare .dictionary fuel true rest
        else if asChar b = '\x22' ∨ asChar b = 'r' then (text? (b :: rest)).map Prod.snd
        else if asChar b = '\'' then skipCharacter? (b :: rest)
        else if (asChar b).isDigit ∨ asChar b = '+' ∨ asChar b = '-' ∨ asChar b = '.' then
          skipNumber? (b :: rest)
        else none

/-- Skips items up to their closing mark. `separated` says whether another item may follow: that is
so at the beginning and behind a comma. -/
def skipItems (bare : Bool) (kind : Items) :
    (fuel : Nat) → (separated : Bool) → Bytes → Option Bytes
  | 0, _, _ => none
  | fuel + 1, separated, bs => do
    let bs ← blank? bs
    match after? [kind.closing] bs with
    | some rest => some rest
    | none =>
      if separated then do
        let rest ← match kind with
          | .list | .tuple => skipValue bare fuel bs
          | .record => do
            let (_, rest) ← name? bs
            let rest ← blank? rest
            let rest ← mark? ":" rest
            skipValue bare fuel rest
          | .dictionary => do
            let rest ← skipValue bare fuel bs
            let rest ← blank? rest
            let rest ← mark? ":" rest
            skipValue bare fuel rest
        let (more, rest) ← comma? rest
        skipItems bare kind fuel more rest
      else none

end

/-! ## 6. Optional values -/

/-- Reads an optional value. With `bare`, the value may stand without `Some`. -/
def optional? {α : Type} (bare : Bool) (value? : Bytes → Option (α × Bytes)) (bs : Bytes) :
    Option (Option α × Bytes) :=
  match after? "None".toList bs with
  | some rest => some (none, rest)
  | none =>
    let readBare := fun rest => if bare then (value? rest).map fun (v, r) => (some v, r) else none
    match after? "Some".toList bs with
    | none => readBare bs
    | some rest => do
      let rest ← blank? rest
      match after? ['('] rest with
      | none => readBare rest
      | some inner => do
        let inner ← blank? inner
        let (v, inner) ← value? inner
        let inner ← blank? inner
        (after? [')'] inner).map (some v, ·)

/-- Reads a truth value. -/
def truth? (bs : Bytes) : Option (Bool × Bytes) :=
  match after? "true".toList bs with
  | some rest => some (true, rest)
  | none => (after? "false".toList bs).map (false, ·)

end Photoplot.Notation
