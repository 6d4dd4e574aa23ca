import RuleFormat.Text.Identifier

/-!
# Literals

Strings, byte strings and strings for C, each plain or raw; characters and bytes; integers and
floating point numbers.  Every literal may carry a suffix, which is an identifier.

All readers take a text and give what is left behind the literal, or nothing when the text does
not begin with one.
-/

namespace RuleFormat

/-- The three kinds of string literals. -/
inductive StringKind where
  | text | bytes | cstring
  deriving DecidableEq, Repr

namespace Literal

/-- What follows an identifier at the front of a text. -/
def afterIdent? : Text → Option Text
  | [] => none
  | c :: cs => if isIdentStart c then some (cs.dropWhile isIdentContinue) else none

/-- What follows an optional suffix. -/
def afterSuffix (t : Text) : Text := (afterIdent? t).getD t

/-- The value of a hexadecimal digit. -/
def hexValue? (c : Char) : Option Nat :=
  if '0' ≤ c ∧ c ≤ '9' then some (c.toNat - 48)
  else if 'a' ≤ c ∧ c ≤ 'f' then some (c.toNat - 87)
  else if 'A' ≤ c ∧ c ≤ 'F' then some (c.toNat - 55)
  else none

/-! ## Strings -/

/-- Where the reader stands in a plain string literal. -/
inductive StringState where
  | plain
  /-- Behind a carriage return; `skipping` when it was reached by `skip`. -/
  | carriage (skipping : Bool)
  | backslash
  | hexFirst
  | hexSecond (first : Nat)
  | unicodeOpen
  /-- Behind `digits` digits of a code point, whose value is `value`. -/
  | unicode (value digits : Nat)
  /-- Behind a backslash at the end of a line, where blanks are passed over. -/
  | skip
  deriving DecidableEq, Repr

/-- What one character does to a string literal. -/
inductive StringStep where
  | fail
  | go (next : StringState)
  | close
  deriving DecidableEq, Repr

/-- A character that is not part of an escape. -/
def plainStep (k : StringKind) (c : Char) : StringStep :=
  if c = '"' then .close
  else if c = '\r' then .go (.carriage false)
  else if c = '\\' then .go .backslash
  else if k = .bytes ∧ 128 ≤ c.toNat then .fail
  else if k = .cstring ∧ c.toNat = 0 then .fail
  else .go .plain

/-- The character behind a backslash. -/
def escapeStep (k : StringKind) (c : Char) : StringStep :=
  if c = 'x' then .go .hexFirst
  else if c = 'u' ∧ k ≠ .bytes then .go .unicodeOpen
  else if c = '0' ∧ k ≠ .cstring then .go .plain
  else if c ∈ ['n', 'r', 't', '\\', '\'', '"'] then .go .plain
  else if c = '\n' then .go .skip
  else if c = '\r' then .go (.carriage true)
  else .fail

/-- Whether two hexadecimal digits may follow `\x` in a string of this kind. -/
def hexAllowed (k : StringKind) (first second : Nat) : Bool :=
  match k with
  | .text => first < 8
  | .bytes => true
  | .cstring => first != 0 || second != 0

/-- Whether a code point is that of a character. -/
def isScalar (n : Nat) : Bool := n < 0xD800 || (0xE000 ≤ n && n < 0x110000)

/-- A character between the braces of a code point. -/
def unicodeStep (k : StringKind) (value digits : Nat) (c : Char) : StringStep :=
  match hexValue? c with
  | some d => if digits = 6 then .fail else .go (.unicode (value * 16 + d) (digits + 1))
  | none =>
    if digits = 0 then .fail
    else if c = '_' then .go (.unicode value digits)
    else if c = '}' ∧ isScalar value ∧ (k = .cstring → value ≠ 0) then .go .plain
    else .fail

/-- One character of a plain string literal. -/
def stringStep (k : StringKind) : StringState → Char → StringStep
  | .plain, c => plainStep k c
  | .carriage skipping, c =>
    if c = '\n' then .go (if skipping then .skip else .plain) else .fail
  | .backslash, c => escapeStep k c
  | .hexFirst, c =>
    match hexValue? c with
    | some d => .go (.hexSecond d)
    | none => .fail
  | .hexSecond first, c =>
    match hexValue? c with
    | some d => if hexAllowed k first d then .go .plain else .fail
    | none => .fail
  | .unicodeOpen, c => if c = '{' then .go (.unicode 0 0) else .fail
  | .unicode value digits, c => unicodeStep k value digits c
  | .skip, c =>
    if c = ' ' ∨ c = '\t' ∨ c = '\n' then .go .skip
    else if c = '\r' then .go (.carriage true)
    else plainStep k c

/-- What follows the closing quote of a plain string literal. -/
def afterString? (k : StringKind) : StringState → Text → Option Text
  | _, [] => none
  | s, c :: cs =>
    match stringStep k s c with
    | .fail => none
    | .go s' => afterString? k s' cs
    | .close => some cs

/-- What follows the closing quote of a raw string literal with `hashes` hash marks. -/
def afterRaw? (k : StringKind) (hashes : Nat) : Text → Option Text
  | [] => none
  | '"' :: cs =>
    if (List.replicate hashes '#').isPrefixOf cs then some (cs.drop hashes)
    else afterRaw? k hashes cs
  | '\r' :: '\n' :: cs => afterRaw? k hashes cs
  | '\r' :: _ => none
  | c :: cs =>
    if (k = .bytes ∧ 128 ≤ c.toNat) ∨ (k = .cstring ∧ c.toNat = 0) then none
    else afterRaw? k hashes cs

/-- What follows the hash marks, the quote and the body of a raw string literal. -/
def afterRawOpen? (k : StringKind) (t : Text) : Option Text :=
  let hashes := (t.takeWhile (· == '#')).length
  match t.dropWhile (· == '#') with
  | '"' :: cs => if 255 < hashes then none else afterRaw? k hashes cs
  | _ => none

/-- What follows a string literal of any kind, its suffix not yet passed. -/
def afterAnyString? : Text → Option Text
  | '"' :: cs => afterString? .text .plain cs
  | 'r' :: cs => afterRawOpen? .text cs
  | 'b' :: '"' :: cs => afterString? .bytes .plain cs
  | 'b' :: 'r' :: cs => afterRawOpen? .bytes cs
  | 'c' :: '"' :: cs => afterString? .cstring .plain cs
  | 'c' :: 'r' :: cs => afterRawOpen? .cstring cs
  | _ => none

/-! ## Characters and bytes -/

/-- What follows an escape that must not run over the end of a line. -/
def afterEscape? (k : StringKind) : StringState → Text → Option Text
  | _, [] => none
  | s, c :: cs =>
    match stringStep k s c with
    | .go .plain => some cs
    | .go .skip => none
    | .go (.carriage _) => none
    | .go s' => afterEscape? k s' cs
    | _ => none

/-- What follows the character between the quotes. -/
def afterOneChar? (k : StringKind) : Text → Option Text
  | '\\' :: cs => afterEscape? k .backslash cs
  | c :: cs => if k = .bytes ∧ 128 ≤ c.toNat then none else some cs
  | [] => none

/-- What follows the closing quote of a character. -/
def afterQuoted? (k : StringKind) (t : Text) : Option Text :=
  match afterOneChar? k t with
  | some ('\'' :: cs) => some cs
  | _ => none

/-- What follows a character or byte literal, its suffix not yet passed. -/
def afterCharacter? : Text → Option Text
  | '\'' :: cs => afterQuoted? .text cs
  | 'b' :: '\'' :: cs => afterQuoted? .bytes cs
  | _ => none

/-! ## Numbers -/

/-- Whether a character is a decimal digit. -/
def isDigit (c : Char) : Bool := '0' ≤ c && c ≤ '9'

/-- What follows an exponent, from behind its letter; nothing when it has no digit.  `sign` and
`digit` say whether a sign and a digit have been seen. -/
def afterExponent? (sign digit : Bool) : Text → Option Text
  | [] => if digit then some [] else none
  | c :: cs =>
    if c = '+' ∨ c = '-' then
      if digit then some (c :: cs) else if sign then none else afterExponent? true digit cs
    else if isDigit c then afterExponent? sign true cs
    else if c = '_' then afterExponent? sign digit cs
    else if digit then some (c :: cs)
    else none

/-- Whether a point in front of this text belongs to something else than a number: a range, or the
name of a field. -/
def isPointForeign : Text → Bool
  | [] => false
  | c :: _ => c == '.' || isIdentStart c

/-- What follows the digits of a floating point number; `point` says whether its point has been
seen.  A number without point and exponent is none. -/
def afterFloatDigits? (point : Bool) : Text → Option Text
  | [] => if point then some [] else none
  | c :: cs =>
    if isDigit c || c == '_' then afterFloatDigits? point cs
    else if c = '.' ∧ !point then
      if isPointForeign cs then none else afterFloatDigits? true cs
    else if c = 'e' ∨ c = 'E' then
      (afterExponent? false false cs).or (if point then some (c :: cs) else none)
    else if point then some (c :: cs)
    else none

/-- What follows the digits of an integer; `empty` says that none has been seen. -/
def afterDigits? (base : Nat) (empty : Bool) : Text → Option Text
  | [] => if empty then none else some []
  | c :: cs =>
    if isDigit c then
      if c.toNat - 48 < base then afterDigits? base false cs else none
    else if c = '_' then
      if empty && base == 10 then none else afterDigits? base empty cs
    else
      match hexValue? c with
      | some d =>
        if d < base then afterDigits? base false cs
        else if empty then none else some (c :: cs)
      | none => if empty then none else some (c :: cs)

/-- What follows an integer without its suffix. -/
def afterInteger? : Text → Option Text
  | '0' :: 'x' :: cs => afterDigits? 16 true cs
  | '0' :: 'o' :: cs => afterDigits? 8 true cs
  | '0' :: 'b' :: cs => afterDigits? 2 true cs
  | cs => afterDigits? 10 true cs

/-- What follows a number's suffix, which must end the word. -/
def afterNumberSuffix? (t : Text) : Option Text :=
  match afterSuffix t with
  | [] => some []
  | c :: cs => if isIdentContinue c then none else some (c :: cs)

/-- What follows a floating point number. -/
def afterFloat? : Text → Option Text
  | [] => none
  | c :: cs => if isDigit c then (afterFloatDigits? false cs).bind afterNumberSuffix? else none

/-- What follows a number. -/
def afterNumber? (t : Text) : Option Text :=
  (afterFloat? t).or ((afterInteger? t).bind afterNumberSuffix?)

/-- What follows the literal at the front of a text. -/
def after? (t : Text) : Option Text :=
  ((afterAnyString? t).map afterSuffix).or
    (((afterCharacter? t).map afterSuffix).or (afterNumber? t))

end Literal

end RuleFormat
