import RuleFormat.Text.Basic

/-!
# Parameter blocks

A parameter block is the text between the parentheses of a rule header.  It is read from left to
right: comments stand for one blank, string literals are taken as they are, an arrow is no closing
bracket, and the four kinds of brackets nest.  The block ends at the round bracket that closes
nothing inside it, and the commas outside all brackets cut it into pieces.

* `walk` reads the pieces of a block.
* `fragments` makes each piece a fragment: white space collapsed, empty pieces left out.
* `readBlock` puts the two together.
-/

namespace RuleFormat

/-- The four kinds of brackets that nest in a block. -/
inductive Bracket where
  | round | square | curly | angle
  deriving DecidableEq, Repr

namespace Bracket

/-- The bracket that a character opens. -/
def ofOpen? : Char → Option Bracket
  | '(' => some round
  | '[' => some square
  | '{' => some curly
  | '<' => some angle
  | _ => none

/-- The character that closes a bracket. -/
def close : Bracket → Char
  | round => ')'
  | square => ']'
  | curly => '}'
  | angle => '>'

end Bracket

/-- Whether a character closes some bracket. -/
def isClose (c : Char) : Bool := c == ')' || c == ']' || c == '}' || c == '>'

/-- Why a block cannot be read. -/
inductive BlockFault where
  | unclosedList
  | unclosedComment
  | unclosedString
  /-- A closing character that does not close the innermost open bracket. -/
  | unbalanced (found : Char)
  deriving DecidableEq, Repr

/-- The wording of a fault. -/
def BlockFault.message : BlockFault → Text
  | unclosedList => "parameter list is never closed"
  | unclosedComment => "block comment is never closed"
  | unclosedString => "string literal is never closed"
  | unbalanced c => "unbalanced ".toList ++ quoted [c] ++ " in parameter list".toList

/-- What the reader stands in: plain code, a line comment, a block comment inside `depth` others,
a string literal, or a string literal just after a backslash. -/
inductive Mode where
  | code
  | line
  | comment (depth : Nat)
  | string
  | escape
  deriving DecidableEq, Repr

/-- What is read of a block from some point on. -/
structure Walk where
  /-- The rest of the piece that the reader stands in, comments made one blank each. -/
  piece : Text
  /-- The pieces behind it. -/
  pieces : List Text
  /-- All characters up to the closing bracket. -/
  body : Text
  /-- What follows the closing bracket. -/
  rest : Text
  deriving DecidableEq, Repr

namespace Walk

/-- The walk that stands at the closing bracket. -/
def done (rest : Text) : Walk := ⟨[], [], [], rest⟩

/-- Characters `raw` in front, which show as `shown` in the piece. -/
def put (shown raw : Text) (w : Walk) : Walk :=
  { w with piece := shown ++ w.piece, body := raw ++ w.body }

/-- A character in front that belongs to the piece. -/
def keep (c : Char) (w : Walk) : Walk := w.put [c] [c]

/-- A character in front that the piece does not show. -/
def skip (c : Char) (w : Walk) : Walk := w.put [] [c]

/-- A comma in front that ends a piece. -/
def cut (w : Walk) : Walk := ⟨[], w.piece :: w.pieces, ',' :: w.body, w.rest⟩

end Walk

/-- Reads a block in a mode and inside the brackets `inner`, the innermost first. -/
def walk : Mode → List Bracket → Text → Except BlockFault Walk
  | .code, _, [] => .error .unclosedList
  | .code, inner, '/' :: '/' :: cs => (walk .line inner cs).map (·.put [' '] ['/', '/'])
  | .code, inner, '/' :: '*' :: cs => (walk (.comment 0) inner cs).map (·.put [' '] ['/', '*'])
  | .code, inner, '"' :: cs => (walk .string inner cs).map (·.keep '"')
  | .code, inner, '-' :: '>' :: cs => (walk .code inner cs).map (·.put ['-', '>'] ['-', '>'])
  | .code, inner, c :: cs =>
    match Bracket.ofOpen? c with
    | some b => (walk .code (b :: inner) cs).map (·.keep c)
    | none =>
      if isClose c then
        match inner with
        | [] => if c = ')' then .ok (.done cs) else .error (.unbalanced c)
        | b :: outer =>
          if b.close = c then (walk .code outer cs).map (·.keep c) else .error (.unbalanced c)
      else if c = ',' ∧ inner = [] then (walk .code [] cs).map (·.cut)
      else (walk .code inner cs).map (·.keep c)
  | .line, _, [] => .error .unclosedList
  | .line, inner, c :: cs =>
    if c = '\n' then (walk .code inner cs).map (·.keep c) else (walk .line inner cs).map (·.skip c)
  | .comment _, _, [] => .error .unclosedComment
  | .comment 0, inner, '*' :: '/' :: cs => (walk .code inner cs).map (·.put [] ['*', '/'])
  | .comment (d + 1), inner, '*' :: '/' :: cs =>
    (walk (.comment d) inner cs).map (·.put [] ['*', '/'])
  | .comment d, inner, '/' :: '*' :: cs =>
    (walk (.comment (d + 1)) inner cs).map (·.put [] ['/', '*'])
  | .comment d, inner, c :: cs => (walk (.comment d) inner cs).map (·.skip c)
  | .string, _, [] => .error .unclosedString
  | .string, inner, c :: cs =>
    (walk (if c = '"' then .code else if c = '\\' then .escape else .string) inner cs).map
      (·.keep c)
  | .escape, _, [] => .error .unclosedString
  | .escape, inner, c :: cs => (walk .string inner cs).map (·.keep c)

/-- The fragments that the pieces of a block make. -/
def fragments (pieces : List Text) : List Text :=
  (pieces.map collapse).filter fun f => !f.isEmpty

/-- A parameter block that could be read. -/
structure Block where
  fragments : List Text
  /-- All characters up to the closing bracket. -/
  body : Text
  /-- What follows the closing bracket. -/
  rest : Text
  deriving DecidableEq, Repr

/-- Reads the block that begins just behind its opening bracket. -/
def readBlock (t : Text) : Except BlockFault Block :=
  (walk .code [] t).map fun w => ⟨fragments (w.piece :: w.pieces), w.body, w.rest⟩

end RuleFormat
