import RuleFormat.Text.Basic
import RuleFormat.Text.Escape
import RuleFormat.Token.Literal

/-!
# Tokens

A parameter declaration is read as a sequence of tokens: words (identifiers and keywords),
lifetimes, literals, single punctuation characters, and groups in one of three kinds of
delimiters.  A punctuation character is *joint* when it makes one operator with the next one.

`render` writes tokens out again: one blank between neighbours, none behind a joint character and
none inside round and square delimiters.
-/

namespace RuleFormat

/-- The delimiters that make a group. -/
inductive Delimiter where
  | round | square | curly
  deriving DecidableEq, Repr

namespace Delimiter

/-- The delimiter that a character opens. -/
def ofOpen? : Char → Option Delimiter
  | '(' => some round
  | '[' => some square
  | '{' => some curly
  | _ => none

/-- The delimiter that a character closes. -/
def ofClose? : Char → Option Delimiter
  | ')' => some round
  | ']' => some square
  | '}' => some curly
  | _ => none

end Delimiter

/-- A token of a parameter declaration. -/
inductive Token where
  /-- An identifier, a keyword or an underscore; a raw identifier keeps its mark. -/
  | word (text : Text)
  /-- A lifetime with its leading quote. -/
  | lifetime (text : Text)
  | literal (text : Text)
  | punct (c : Char) (joint : Bool)
  | group (d : Delimiter) (inner : List Token)
  deriving Repr

/-- A sequence of tokens. -/
abbrev Tokens := List Token

/-- Whether nothing is written between this token and the next one. -/
def Token.isJoint : Token → Bool
  | .punct _ joint => joint
  | _ => false

/-- The text inside the delimiters of a group, delimiters included. -/
def Delimiter.enclose : Delimiter → Text → Text
  | .round, t => '(' :: t ++ [')']
  | .square, t => '[' :: t ++ [']']
  | .curly, [] => "\x7b \x7d"
  | .curly, t => "\x7b ".toList ++ t ++ " \x7d".toList

mutual

/-- A token as it is written out. -/
def Token.render : Token → Text
  | .word t => t
  | .lifetime t => t
  | .literal t => t
  | .punct c _ => [c]
  | .group d ts => d.enclose (render ts)

/-- Tokens as they are written out, one blank between two of them unless the first is joint. -/
def render : Tokens → Text
  | [] => []
  | [t] => t.render
  | t :: u :: ts => t.render ++ (if t.isJoint then [] else [' ']) ++ render (u :: ts)

end

/-- The tokens of an operator: all of its characters but the last are joint. -/
def operator : Text → Tokens
  | [] => []
  | [c] => [.punct c false]
  | c :: cs => .punct c true :: operator cs

/-!
## Reading tokens

Comments and white space are passed over, the two direction marks counting as white space and a
byte order mark being allowed at the very front.  A documentation comment stands for the attribute
that it abbreviates.  `lexemes` reads the flat sequence in which a delimiter is a lexeme of its own,
and `nest` makes groups of it; `lex` is both.
-/

/-- A token, or one of the two ends of a group. -/
inductive Lexeme where
  | token (t : Token)
  | enter (d : Delimiter)
  | leave (d : Delimiter)
  deriving Repr

namespace Lexer

/-- Whether a character is passed over between tokens. -/
def isGap (c : Char) : Bool := isWhite c || c.toNat == 0x200E || c.toNat == 0x200F

/-! ## Comments -/

/-- What follows a block comment that stands inside `depth` others, from behind its opening. -/
def afterComment? : Nat → Text → Option Text
  | _, [] => none
  | d, '/' :: '*' :: cs => afterComment? (d + 1) cs
  | 0, '*' :: '/' :: cs => some cs
  | d + 1, '*' :: '/' :: cs => afterComment? d cs
  | d, _ :: cs => afterComment? d cs

/-- The rest of the line, and what follows it; the line feed is not taken. -/
def splitLine (t : Text) : Text × Text :=
  let line := t.takeWhile (· != '\n')
  let rest := t.dropWhile (· != '\n')
  if rest.isEmpty then (line, rest)
  else if line.getLast? = some '\r' then (line.dropLast, rest)
  else (line, rest)

/-- Whether a text has a carriage return that no line feed follows. -/
def hasBareReturn : Text → Bool
  | [] => false
  | ['\r'] => true
  | '\r' :: c :: cs => c != '\n' || hasBareReturn (c :: cs)
  | _ :: cs => hasBareReturn cs

/-- The two forms of documentation comments. -/
inductive DocStyle where
  | outer | inner
  deriving DecidableEq, Repr

/-- What stands in a documentation comment, before it is known to be well formed. -/
structure Doc where
  style : DocStyle
  content : Text
  rest : Text

/-- The part of a block comment behind its opening of `n` characters and before its end. -/
def blockDoc? (style : DocStyle) (n : Nat) (t : Text) : Option Doc := do
  let rest ← afterComment? 0 (t.drop 2)
  let all := t.take (t.length - rest.length)
  return ⟨style, (all.drop n).take (all.length - n - 2), rest⟩

/-- The part of a line comment behind its opening of three characters. -/
def lineDoc (style : DocStyle) (t : Text) : Doc :=
  let (line, rest) := splitLine (t.drop 3)
  ⟨style, line, rest⟩

/-- The comment at the front of a text: what follows a plain comment, or the parts of a
documentation comment. -/
def comment? (t : Text) : Option (Text ⊕ Doc) :=
  match t with
  | '/' :: '/' :: '/' :: '/' :: _ => some (.inl (splitLine t).2)
  | '/' :: '/' :: '/' :: _ => some (.inr (lineDoc .outer t))
  | '/' :: '/' :: '!' :: _ => some (.inr (lineDoc .inner t))
  | '/' :: '/' :: _ => some (.inl (splitLine t).2)
  | '/' :: '*' :: '*' :: '/' :: cs => some (.inl cs)
  | '/' :: '*' :: '*' :: '*' :: _ => (afterComment? 0 (t.drop 2)).map .inl
  | '/' :: '*' :: '*' :: _ => (blockDoc? .outer 3 t).map .inr
  | '/' :: '*' :: '!' :: _ => (blockDoc? .inner 3 t).map .inr
  | '/' :: '*' :: cs => (afterComment? 0 cs).map .inl
  | _ => none

/-- A text inside the string literal of a documentation attribute.  In front of an octal digit the
zero character is written with two digits, so that nobody takes them together. -/
def docText : Text → Text
  | [] => []
  | c :: cs =>
    if c.toNat = 0 && cs.head?.any (fun d => '0' ≤ d && d ≤ '7') then "\\x00".toList ++ docText cs
    else escapedChar c ++ docText cs

/-- The attribute that a documentation comment stands for. -/
def Doc.attribute (d : Doc) : List Lexeme :=
  [.token (.punct '#' false)]
    ++ (match d.style with
        | .outer => []
        | .inner => [.token (.punct '!' false)])
    ++ [.enter .square, .token (.word "doc"), .token (.punct '=' false),
        .token (.literal (['"'] ++ docText d.content ++ ['"'])), .leave .square]

/-! ## Leaves -/

/-- The punctuation characters. -/
def punctuation : Text := "~!@#$%^&*-=+|;:,<.>/?'"

/-- Whether a text begins with a punctuation character that opens no comment. -/
def startsPunct : Text → Bool
  | '/' :: '/' :: _ => false
  | '/' :: '*' :: _ => false
  | c :: _ => punctuation.contains c
  | [] => false

/-- The words that may not be raw identifiers. -/
def neverRaw : List Text := ["_", "super", "self", "Self", "crate"]

/-- The identifier at the front of a text, with its mark when it is raw, and what follows it. -/
def identifier? (t : Text) : Option (Text × Text) :=
  match t with
  | 'r' :: '#' :: cs => do
    let rest ← Literal.afterIdent? cs
    let name := cs.take (cs.length - rest.length)
    if neverRaw.contains name then none else some ('r' :: '#' :: name, rest)
  | _ => do
    let rest ← Literal.afterIdent? t
    return (t.take (t.length - rest.length), rest)

/-- The beginnings of broken string literals, which are no identifiers. -/
def brokenLiterals : List Text :=
  ["r\"", "r#\"", "r##", "b\"", "b'", "br\"", "br#", "c\"", "cr\"", "cr#"]

/-- The word at the front of a text. -/
def word? (t : Text) : Option (Text × Text) :=
  if brokenLiterals.any (·.isPrefixOf t) then none else identifier? t

/-- The lifetime at the front of a text: a quote and an identifier that no second quote follows. -/
def lifetime? : Text → Option (Text × Text)
  | '\'' :: cs =>
    match identifier? cs with
    | none => none
    | some (_, '\'' :: _) => none
    | some (name, '#' :: rest) =>
      if ['r', '#'].isPrefixOf cs then some ('\'' :: name, '#' :: rest) else none
    | some (name, rest) => some ('\'' :: name, rest)
  | _ => none

/-- The text that stands for a token which could not be read.  It counts as a literal. -/
def unreadable : Text := "(/*ERROR*/)"

/-- The token at the front of a text that is no group.  A quote in front of a literal whose letters
could be the name of a lifetime is a token of its own. -/
def leaf? (t : Text) : Option (Token × Text) :=
  match Literal.after? t with
  | some rest => some (.literal (t.take (t.length - rest.length)), rest)
  | none =>
    match t with
    | [] => none
    | '\'' :: cs =>
      (lifetime? t).map fun (name, rest) =>
        if (Literal.after? cs).isSome then (.punct '\'' true, cs) else (.lifetime name, rest)
    | c :: cs =>
      if startsPunct t then some (.punct c (startsPunct cs), cs)
      else (word? t).map fun (name, rest) => (.word name, rest)

/-- The lexemes that stand at the front of a text, and what follows them.  There are none for
white space and plain comments. -/
def next? (c : Char) (cs : Text) : Option (List Lexeme × Text) :=
  if isGap c then some ([], cs)
  else if unreadable.isPrefixOf (c :: cs) then
    some ([.token (.literal unreadable)], (c :: cs).drop unreadable.length)
  else
    match comment? (c :: cs) with
    | some (.inl rest) => some ([], rest)
    | some (.inr d) => if hasBareReturn d.content then none else some (d.attribute, d.rest)
    | none =>
      match Delimiter.ofOpen? c, Delimiter.ofClose? c with
      | some d, _ => some ([.enter d], cs)
      | none, some d => some ([.leave d], cs)
      | none, none => (leaf? (c :: cs)).map fun (t, rest) => ([.token t], rest)

/-- The lexemes of a text behind its first `n` characters. -/
def lexemesFrom : Nat → Text → Option (List Lexeme)
  | _, [] => some []
  | n + 1, _ :: cs => lexemesFrom n cs
  | 0, c :: cs =>
    match next? c cs with
    | none => none
    | some (ls, rest) => (lexemesFrom (cs.length - rest.length) cs).map (ls ++ ·)

/-- Makes groups of lexemes.  `outer` are the groups that are open, the innermost first, each with
the tokens in front of it; `done` are the tokens of the innermost group, the last one first. -/
def nest : List (Delimiter × Tokens) → Tokens → List Lexeme → Option Tokens
  | [], done, [] => some done.reverse
  | _ :: _, _, [] => none
  | outer, done, .token t :: ls => nest outer (t :: done) ls
  | outer, done, .enter d :: ls => nest ((d, done) :: outer) [] ls
  | [], _, .leave _ :: _ => none
  | (d, before) :: outer, done, .leave d' :: ls =>
    if d = d' then nest outer (.group d done.reverse :: before) ls else none

end Lexer

/-- A text without a byte order mark at its front. -/
def dropByteOrderMark : Text → Text
  | c :: cs => if c.toNat = 0xFEFF then cs else c :: cs
  | [] => []

/-- The lexemes of a text. -/
def lexemes (t : Text) : Option (List Lexeme) := Lexer.lexemesFrom 0 (dropByteOrderMark t)

/-- The tokens of a text; nothing when a character makes none or the delimiters do not match. -/
def lex (t : Text) : Option Tokens := (lexemes t).bind (Lexer.nest [] [])

end RuleFormat
