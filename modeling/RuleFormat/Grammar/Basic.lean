import RuleFormat.Token.Lexer

/-!
# Grammar rules

A rule takes tokens from the front of a sequence and gives what it has read, or fails.  The rules
for types, patterns and expressions give tokens again: those they have taken, spaced and ordered
the way they are written out.

This module has the rules that look at single tokens, and the ones that repeat others.
-/

namespace RuleFormat

/-- A grammar rule: it takes tokens from the front, or fails. -/
abbrev Parser := StateT Tokens Option

namespace Parser

/-! ## Looking ahead -/

/-- The keywords and reserved words, which are no identifiers; so is the underscore. -/
def reserved : List Text := List.map String.toList
  ["_", "abstract", "as", "async", "await", "become", "box", "break", "const", "continue", "crate",
   "do", "dyn", "else", "enum", "extern", "false", "final", "fn", "for", "if", "impl", "in", "let",
   "loop", "macro", "match", "mod", "move", "mut", "override", "priv", "pub", "ref", "return",
   "Self", "self", "static", "struct", "super", "trait", "true", "try", "type", "typeof", "unsafe",
   "unsized", "use", "virtual", "where", "while", "yield"]

/-- Whether tokens begin with the operator `cs`.  What follows it may be joint to it. -/
def startsOp : Text → Tokens → Bool
  | [], _ => true
  | [c], .punct d _ :: _ => c == d
  | c :: cs, .punct d joint :: ts => c == d && joint && startsOp cs ts
  | _, _ => false

/-- Whether tokens begin with the word `w`. -/
def startsWord (w : Text) : Tokens → Bool
  | .word t :: _ => t == w
  | _ => false

/-- Whether tokens begin with one of these words. -/
def startsOneOf (ws : List Text) : Tokens → Bool
  | .word t :: _ => ws.contains t
  | _ => false

/-- Whether tokens begin with any word, reserved or not. -/
def startsAnyWord : Tokens → Bool
  | .word _ :: _ => true
  | _ => false

/-- Whether tokens begin with an identifier. -/
def startsIdent : Tokens → Bool
  | .word t :: _ => !reserved.contains t
  | _ => false

/-- Whether tokens begin with a lifetime. -/
def startsLifetime : Tokens → Bool
  | .lifetime _ :: _ => true
  | _ => false

/-- Whether tokens begin with a group in the given delimiters. -/
def startsGroup (d : Delimiter) : Tokens → Bool
  | .group d' _ :: _ => d == d'
  | _ => false

/-- Whether a literal is a number. -/
def isNumber : Text → Bool
  | c :: _ => '0' ≤ c && c ≤ '9'
  | [] => false

/-- Whether tokens begin with a literal: a literal token, a truth value, or a number behind a
minus sign. -/
def startsLiteral : Tokens → Bool
  | .literal _ :: _ => true
  | .word t :: _ => t == "true".toList || t == "false".toList
  | .punct '-' _ :: .literal t :: _ => isNumber t
  | _ => false

/-- Whether the tokens ahead satisfy `p`. -/
def ahead (p : Tokens → Bool) : Parser Bool := fun ts => some (p ts, ts)

/-! ## Single tokens -/

/-- The operator `cs`. -/
def op (cs : Text) : Parser Tokens := fun ts =>
  if startsOp cs ts then some (operator cs, ts.drop cs.length) else none

/-- The word `w`. -/
def word (w : Text) : Parser Tokens := fun ts =>
  match ts with
  | .word t :: rest => if t = w then some ([.word t], rest) else none
  | _ => none

/-- Any word, reserved or not. -/
def anyWord : Parser Tokens := fun ts =>
  match ts with
  | .word t :: rest => some ([.word t], rest)
  | _ => none

/-- An identifier. -/
def ident : Parser Text := fun ts =>
  match ts with
  | .word t :: rest => if reserved.contains t then none else some (t, rest)
  | _ => none

/-- A lifetime. -/
def lifetime : Parser Tokens := fun ts =>
  match ts with
  | .lifetime t :: rest => some ([.lifetime t], rest)
  | _ => none

/-- A literal.  The minus sign of a number is a token of its own. -/
def literal : Parser Tokens := fun ts =>
  match ts with
  | .literal t :: rest => some ([.literal t], rest)
  | .word t :: rest =>
    if t = "true".toList ∨ t = "false".toList then some ([.word t], rest) else none
  | .punct '-' _ :: .literal t :: rest =>
    if isNumber t then some ([.punct '-' false, .literal t], rest) else none
  | _ => none

/-- Whether a literal is a string without a letter for bytes. -/
def isString : Text → Bool
  | '"' :: _ => true
  | 'r' :: _ => true
  | _ => false

/-- A group in the given delimiters, all of whose content `p` reads. -/
def group (d : Delimiter) (p : Parser Tokens) : Parser Tokens := fun ts =>
  match ts with
  | .group d' inner :: rest =>
    if d = d' then
      match p inner with
      | some (out, []) => some ([.group d out], rest)
      | _ => none
    else none
  | _ => none

/-- A group in any delimiters, taken as it is. -/
def anyGroup : Parser Tokens := fun ts =>
  match ts with
  | .group d inner :: rest => some ([.group d inner], rest)
  | _ => none

/-- What `p` takes, as it stands in the input. -/
def verbatim {α : Type} (p : Parser α) : Parser Tokens := fun ts =>
  match p ts with
  | some (_, rest) => some (ts.take (ts.length - rest.length), rest)
  | none => none

/-- What `p` reads.  When it satisfies `test`, it is changed by `keep` so as to hold what `p` takes
as that stands in the input. -/
def keepingIf {α : Type} (test : α → Bool) (keep : α → Tokens → α) (p : Parser α) : Parser α :=
  fun ts =>
    match p ts with
    | some (a, rest) =>
      some (if test a then keep a (ts.take (ts.length - rest.length)) else a, rest)
    | none => none

/-- What `p` gives, or what it takes as it stands in the input when `p` asks for that. -/
def verbatimIf (p : Parser (Tokens × Bool)) : Parser Tokens := do
  return (← keepingIf (·.2) (fun _ source => (source, true)) p).1

/-! ## Options and repetitions -/

/-- What `p` reads when the tokens ahead satisfy `test`, else nothing. -/
def optional (test : Tokens → Bool) (p : Parser Tokens) : Parser Tokens := do
  if ← ahead test then p else return []

/-- The operator `cs` when it stands ahead. -/
def optionalOp (cs : Text) : Parser Tokens := optional (startsOp cs) (op cs)

/-- The word `w` when it stands ahead. -/
def optionalWord (w : Text) : Parser Tokens := optional (startsWord w) (word w)

/-- Runs `step` until it says that it is done, at most `n` times, and collects what it reads. -/
def repeatUpTo {α : Type} (step : Parser (Option α)) : Nat → Parser (List α)
  | 0 => fun _ => none
  | n + 1 => do
    match ← step with
    | none => return []
    | some a => return a :: (← repeatUpTo step n)

/-- Runs `step` until it says that it is done.  Each round but the last takes a token, so that the
number of tokens bounds the rounds. -/
def repeatUntilDone {α : Type} (step : Parser (Option α)) : Parser (List α) := fun ts =>
  repeatUpTo step (ts.length + 1) ts

/-- Lets `step` extend `a` until it says that it is done, at most `n` times. -/
def extendUpTo {α : Type} (step : α → Parser (Option α)) : Nat → α → Parser α
  | 0, _ => fun _ => none
  | n + 1, a => do
    match ← step a with
    | none => return a
    | some b => extendUpTo step n b

/-- Lets `step` extend `a` until it says that it is done.  Each round but the last takes a token. -/
def extend {α : Type} (step : α → Parser (Option α)) (a : α) : Parser α := fun ts =>
  extendUpTo step (ts.length + 1) a ts

/-- What `p` reads, again and again as long as the tokens ahead satisfy `test`. -/
def repeatWhile {α : Type} (test : Tokens → Bool) (p : Parser α) : Parser (List α) :=
  repeatUntilDone do
    if ← ahead test then return some (← p) else return none

/-- An item and the comma behind it, which may be missing when `stop` holds of what follows. -/
def separated (stop : Tokens → Bool) (item : Parser Tokens) : Parser Tokens := do
  let value ← item
  if ← ahead stop then return value
  return value ++ (← op ",")

/-- Items until `stop` holds, a comma between two of them and perhaps behind the last. -/
def listUntil (stop : Tokens → Bool) (item : Parser Tokens) : Parser Tokens := do
  return (← repeatWhile (fun ts => !stop ts) (separated stop item)).flatten

/-- Items up to the end of the tokens, a comma between two of them and perhaps behind the last. -/
def commaList (item : Parser Tokens) : Parser Tokens := listUntil List.isEmpty item

end Parser

end RuleFormat
