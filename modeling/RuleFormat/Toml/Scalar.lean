import RuleFormat.Token.Literal
import RuleFormat.Toml.Value

/-!
# Scalars

The values without parts: strings, numbers, truth values and moments.

## Strings

Basic strings have escapes, literal strings have none; both come in a form of one line and in one of
several lines.  A reader of a string takes a text from behind the opening quotes and gives the
content of the string and what is behind its closing quotes.
-/

namespace RuleFormat.Toml

/-- Whether a character may stand in a comment, and in a string of one line as far as it has no
meaning there: all but control characters, with the exception of the tab. -/
def isPlain (c : Char) : Bool := c == '\t' || (0x20 ≤ c.toNat && c.toNat != 0x7F)

/-- Blanks inside a line. -/
def isSpace (c : Char) : Bool := c == ' ' || c == '\t'

/-- What is behind a line ending. -/
def afterNewline? : Text → Option Text
  | '\n' :: t => some t
  | '\r' :: '\n' :: t => some t
  | _ => none

/-- The character that hexadecimal digits stand for. -/
def hexChar? (n : Nat) (t : Text) : Option Char := do
  let ds := t.take n
  if ds.length ≠ n then none
  let values ← ds.mapM Literal.hexValue?
  let code := values.foldl (fun m d => m * 16 + d) 0
  if code < 0xD800 ∨ (0xE000 ≤ code ∧ code < 0x110000) then some (Char.ofNat code) else none

/-- The character of an escape, and the number of characters behind the backslash. -/
def escape? : Text → Option (Char × Nat)
  | 'b' :: _ => some (Char.ofNat 0x08, 1)
  | 't' :: _ => some ('\t', 1)
  | 'n' :: _ => some ('\n', 1)
  | 'f' :: _ => some (Char.ofNat 0x0C, 1)
  | 'r' :: _ => some ('\r', 1)
  | 'e' :: _ => some (Char.ofNat 0x1B, 1)
  | '"' :: _ => some ('"', 1)
  | '\\' :: _ => some ('\\', 1)
  | 'x' :: t => (hexChar? 2 t).map (·, 3)
  | 'u' :: t => (hexChar? 4 t).map (·, 5)
  | 'U' :: t => (hexChar? 8 t).map (·, 9)
  | _ => none

/-- Puts a character in front of the content of a string. -/
def push (c : Char) (r : Option (Text × Text)) : Option (Text × Text) :=
  r.map fun (content, rest) => (c :: content, rest)

/-- A basic string of one line; its first `n` characters are passed over. -/
def basicFrom : Nat → Text → Option (Text × Text)
  | _, [] => none
  | n + 1, _ :: cs => basicFrom n cs
  | 0, c :: cs =>
    if c = '"' then some ([], cs)
    else if c = '\\' then
      match escape? cs with
      | some (e, n) => push e (basicFrom n cs)
      | none => none
    else if isPlain c then push c (basicFrom 0 cs)
    else none

/-- A literal string of one line. -/
def literal : Text → Option (Text × Text)
  | [] => none
  | c :: cs =>
    if c = '\'' then some ([], cs) else if isPlain c then push c (literal cs) else none

/-- The end of a string of several lines: three quotes, or up to five, of which the first two then
belong to the content. -/
def closing? (quote : Char) (t : Text) : Option (Text × Text) :=
  let n := min (t.takeWhile (· == quote)).length 5
  if n < 3 then none else some (List.replicate (n - 3) quote, t.drop n)

/-- A basic string of several lines; its first `n` characters are passed over, and then the blanks
and line endings when it is `folding`. -/
def basicLinesFrom : Nat → Bool → Text → Option (Text × Text)
  | _, _, [] => none
  | n + 1, folding, _ :: cs => basicLinesFrom n folding cs
  | 0, folding, c :: cs =>
    if folding && (isSpace c || (afterNewline? (c :: cs)).isSome) then basicLinesFrom 0 true cs
    else if c = '"' then
      match closing? '"' (c :: cs) with
      | some r => some r
      | none => push c (basicLinesFrom 0 false cs)
    else if c = '\\' then
      if (afterNewline? (cs.dropWhile isSpace)).isSome then basicLinesFrom 0 true cs
      else
        match escape? cs with
        | some (e, n) => push e (basicLinesFrom n false cs)
        | none => none
    else if isPlain c || (afterNewline? (c :: cs)).isSome then push c (basicLinesFrom 0 false cs)
    else none

/-- A literal string of several lines. -/
def literalLines : Text → Option (Text × Text)
  | [] => none
  | c :: cs =>
    match closing? '\'' (c :: cs) with
    | some r => some r
    | none =>
      if isPlain c || (afterNewline? (c :: cs)).isSome then push c (literalLines cs) else none

/-- A text without the line ending that it begins with. -/
def trimNewline (t : Text) : Text := (afterNewline? t).getD t

/-- A string of one line, with its quotes. -/
def lineString? : Text → Option (Text × Text)
  | '"' :: t => basicFrom 0 t
  | '\'' :: t => literal t
  | _ => none

/-- A string, with its quotes. -/
def string? : Text → Option (Text × Text)
  | '"' :: '"' :: '"' :: t => basicLinesFrom 0 false (trimNewline t)
  | '\'' :: '\'' :: '\'' :: t => literalLines (trimNewline t)
  | t => lineString? t

/-!
## Numbers, truth values and moments

Scalars without quotes.  A reader of one is given the whole text of a scalar, or the text
of one of its parts.
-/

/-- The decimal digits. -/
def isDigit (c : Char) : Bool := '0' ≤ c && c ≤ '9'

/-- The digits of a number, in which a single underscore may stand between two digits. -/
def digits? (allowed : Char → Bool) : Text → Option Text
  | [] => none
  | [c] => if allowed c then some [c] else none
  | c :: '_' :: cs => if allowed c then (digits? allowed cs).map (c :: ·) else none
  | c :: cs => if allowed c then (digits? allowed cs).map (c :: ·) else none

/-- The value of digits in a base. -/
def valueIn (base : Nat) (ds : Text) : Nat :=
  ds.foldl (fun n c => n * base + (Literal.hexValue? c).getD 0) 0

/-- A number of fixed width. -/
def fixed? (ds : Text) : Option Nat := if ds.all isDigit then some (valueIn 10 ds) else none

/-- A sign, when there is one, and what is behind it. -/
def signed : Text → Int × Text
  | '+' :: t => (1, t)
  | '-' :: t => (-1, t)
  | t => (1, t)

/-- Digits of which only a zero that stands alone may be the first zero. -/
def plainDigits? (t : Text) : Option Text := do
  let ds ← digits? isDigit t
  if ds.head? = some '0' ∧ ds.length ≠ 1 then none else some ds

/-- The number of an integer behind the mark of its base.  Without digits it is an integer that has
no number. -/
def based? (base : Nat) (ds : Text) : Option (Option Int) :=
  let allowed (c : Char) : Bool := (Literal.hexValue? c).any (· < base)
  if ds.isEmpty then some none else (digits? allowed ds).map fun ds => some (valueIn base ds)

/-- The number of an integer. -/
def integer? (t : Text) : Option (Option Int) :=
  match t with
  | '0' :: 'x' :: ds => based? 16 ds
  | '0' :: 'o' :: ds => based? 8 ds
  | '0' :: 'b' :: ds => based? 2 ds
  | _ =>
    let (sign, ds) := signed t
    (plainDigits? ds).map fun ds => some (sign * valueIn 10 ds)

/-- Whether a character can stand among digits. -/
def isDigitOrUnderscore (c : Char) : Bool := isDigit c || c == '_'

/-- The exponent of a number, which may begin with zeros. -/
def exponent? (t : Text) : Option Int :=
  let (sign, ds) := signed t
  (digits? isDigit ds).map fun ds => sign * valueIn 10 ds

/-- A number with a fraction, with an exponent, or with both. -/
def decimal? (t : Text) : Option Decimal :=
  let body := (signed t).2
  if body = "inf".toList then some .infinite
  else if body = "nan".toList then some .undefined
  else do
    let whole ← plainDigits? (body.takeWhile isDigitOrUnderscore)
    match body.dropWhile isDigitOrUnderscore with
    | '.' :: rest =>
      let fraction ← digits? isDigit (rest.takeWhile isDigitOrUnderscore)
      let number := valueIn 10 (whole ++ fraction)
      match rest.dropWhile isDigitOrUnderscore with
      | [] => return .finite number (-fraction.length)
      | e :: rest =>
        if e = 'e' ∨ e = 'E' then
          return .finite number ((← exponent? rest) - fraction.length)
        else none
    | e :: rest =>
      if e = 'e' ∨ e = 'E' then return .finite (valueIn 10 whole) (← exponent? rest) else none
    | [] => none

/-- The number of days in a month. -/
def daysIn (year month : Nat) : Nat :=
  if month = 2 then
    if year % 4 = 0 ∧ (year % 100 ≠ 0 ∨ year % 400 = 0) then 29 else 28
  else if [4, 6, 9, 11].contains month then 30
  else 31

/-- What is behind a date. -/
def afterDate? : Text → Option Text
  | a :: b :: c :: d :: '-' :: e :: f :: '-' :: g :: h :: rest => do
    let year ← fixed? [a, b, c, d]
    let month ← fixed? [e, f]
    let day ← fixed? [g, h]
    if 1 ≤ month ∧ month ≤ 12 ∧ 1 ≤ day ∧ day ≤ daysIn year month then some rest else none
  | _ => none

/-- What is behind an hour and a minute. -/
def afterMinutes? : Text → Option Text
  | a :: b :: ':' :: c :: d :: rest => do
    let hour ← fixed? [a, b]
    let minute ← fixed? [c, d]
    if hour ≤ 23 ∧ minute ≤ 59 then some rest else none
  | _ => none

/-- What is behind the seconds and their fraction, if there are any. -/
def afterSeconds? : Text → Option Text
  | ':' :: a :: b :: '.' :: c :: rest => do
    let second ← fixed? [a, b]
    if second ≤ 60 ∧ isDigit c then some (rest.dropWhile isDigit) else none
  | ':' :: a :: b :: rest => do
    let second ← fixed? [a, b]
    if second ≤ 60 then some rest else none
  | ':' :: _ => none
  | rest => some rest

/-- What is behind a time of day. -/
def afterTime? (t : Text) : Option Text := afterMinutes? t >>= afterSeconds?

/-- Whether a text is the offset of a time from universal time, or nothing. -/
def isOffset : Text → Bool
  | [] => true
  | ['Z'] => true
  | ['z'] => true
  | '+' :: t => afterMinutes? t == some []
  | '-' :: t => afterMinutes? t == some []
  | _ => false

/-- Whether a text is a date, a time of day, or both with or without an offset. -/
def isMoment (t : Text) : Bool :=
  match afterDate? t with
  | some [] => true
  | some (c :: rest) =>
    if c = 'T' ∨ c = 't' ∨ c = ' ' then
      match afterTime? rest with
      | some offset => isOffset offset
      | none => false
    else false
  | none => afterTime? t == some []

/-- A scalar without quotes. -/
def bare? (t : Text) : Option Value :=
  if t = "true".toList then some (.boolean true)
  else if t = "false".toList then some (.boolean false)
  else if isMoment t then some .moment
  else
    match integer? t with
    | some n => some (.integer n)
    | none => (decimal? t).map .float

end RuleFormat.Toml
