import RuleFormat.Grammar.Basic

/-!
# Nested parts of a declaration

Types, patterns, expressions and statements stand inside each other.  Their rules are therefore
written against the rules for the parts that are nested in them, which `Nested` holds, and recursion
is left to the place where all of them come together: there each level of nesting uses the level
below.
-/

namespace RuleFormat

/-- What the surroundings of a type need to know about it. -/
inductive TypeShape where
  /-- A path of a single segment that is not qualified. -/
  | name
  /-- Another path without a self type. -/
  | path
  /-- One trait bound without `dyn`; `inner` is the bound without parentheses of its own. -/
  | bound (inner : Tokens)
  | other

/-- A type as it is written out. -/
structure TypeForm where
  tokens : Tokens
  shape : TypeShape
  /-- Whether it ends with a path that has no arguments, to which an angle bracket behind it would
  seem to give some. -/
  endsBare : Bool

/-- Whether a type is a path without a self type. -/
def TypeForm.isPath (t : TypeForm) : Bool :=
  match t.shape with
  | .name => true
  | .path => true
  | _ => false

/-- What the surroundings of a pattern need to know about it. -/
inductive PatternShape where
  /-- A binding of this name. -/
  | binding (name : Text)
  /-- The pattern `..`. -/
  | rest
  /-- A range that has one end only. -/
  | openRange
  /-- A pattern that is written out as it stands in the input. -/
  | verbatim
  | other

/-- A pattern as it is written out. -/
structure PatternForm where
  tokens : Tokens
  shape : PatternShape

/-- A bound as it is written out. -/
structure BoundForm where
  tokens : Tokens
  /-- Whether it is one by a trait. -/
  isTrait : Bool
  /-- Whether it ends with a path that has no arguments. -/
  endsBare : Bool

/-- What may stand in a bound at some place. -/
structure BoundPlace where
  /-- Whether a precise capture is allowed. -/
  capture : Bool
  /-- Whether the mark `const` is allowed. -/
  const : Bool

/-- What the surroundings of an expression need to know about it. -/
inductive ExprShape where
  /-- A range, which is no operand unless it stands in parentheses. -/
  | range
  /-- A comparison, which is no operand of another one. -/
  | comparison
  /-- An expression that ends with a block and is a statement without a semicolon. -/
  | block
  /-- A macro with braces, which is a statement without a semicolon, too. -/
  | braced
  /-- An expression that is written out as it stands in the input. -/
  | verbatim
  | other
  deriving DecidableEq, Repr

/-- An expression as it is written out. -/
structure ExprForm where
  tokens : Tokens
  /-- The expression as it is written out in front of an operator that begins with an angle bracket:
  a cast to a type without arguments needs parentheses there. -/
  beforeAngle : Tokens := tokens
  shape : ExprShape := .other

/-- An expression behind attributes.  A range that has some stands in parentheses. -/
def ExprForm.behind (attrs : Tokens) (e : ExprForm) : ExprForm :=
  if e.shape = .range ∧ !attrs.isEmpty then
    let tokens := attrs ++ [.group .round e.tokens]
    { e with tokens, beforeAngle := tokens }
  else { e with tokens := attrs ++ e.tokens, beforeAngle := attrs ++ e.beforeAngle }

/-- How tightly an operator binds its operands, from loose to tight. -/
inductive Precedence where
  | assign | range | or | and | compare | bitOr | bitXor | bitAnd | shift | sum | product | cast
  deriving DecidableEq, Repr

/-- The place of a precedence in the order from loose to tight. -/
def Precedence.rank : Precedence → Nat
  | assign => 0
  | range => 1
  | or => 2
  | and => 3
  | compare => 4
  | bitOr => 5
  | bitXor => 6
  | bitAnd => 7
  | shift => 8
  | sum => 9
  | product => 10
  | cast => 11

/-- The rules for the parts that may be nested in a part. -/
structure Nested where
  /-- A type; the flag allows it to be a sum of bounds. -/
  type : Bool → Parser TypeForm
  /-- The arguments between angle brackets. -/
  arguments : Parser Tokens
  bound : BoundPlace → Parser BoundForm
  pattern : Parser PatternForm
  /-- An expression; the flag allows it to be a structure literal. -/
  expr : Bool → Parser ExprForm
  /-- The operand of an operator in front of it. -/
  operand : Bool → Parser ExprForm
  /-- The operand behind an operator between two, with the operators in it that bind tighter. -/
  rightOperand : Bool → Precedence → Parser ExprForm
  /-- An expression at the front of a statement or behind the arrow of a choice, where one that ends
  with a block goes no further. -/
  leadingExpr : Parser ExprForm
  /-- The statements of a block, without its braces. -/
  statements : Parser Tokens
  /-- An item, with its attributes. -/
  item : Parser Tokens
  /-- Fields with names, without the braces around them. -/
  fields : Parser Tokens
  /-- The names of other places behind `use`; the first flag allows a double colon inside braces,
  and the second one asks for the tokens as they stand in the input. -/
  useTree : Bool → Parser (Tokens × Bool)

namespace Nested

/-- No part at all: below the last level of nesting. -/
def none : Nested where
  type _ := failure
  arguments := failure
  bound _ := failure
  pattern := failure
  expr _ := failure
  operand _ := failure
  rightOperand _ _ := failure
  leadingExpr := failure
  statements := failure
  item := failure
  fields := failure
  useTree _ := failure

/-- The tokens of a type that may be a sum of bounds. -/
def typeTokens (r : Nested) : Parser Tokens := do return (← r.type true).tokens

/-- The tokens of a bound. -/
def boundTokens (r : Nested) (place : BoundPlace) : Parser Tokens := do
  return (← r.bound place).tokens

/-- The tokens of an expression. -/
def exprTokens (r : Nested) : Parser Tokens := do return (← r.expr true).tokens

/-- A block with its braces. -/
def block (r : Nested) : Parser Tokens := Parser.group .curly r.statements

end Nested

end RuleFormat

/-!
## Attributes

An attribute is `#[path]`, `#[path(tokens)]` or `#[path = value]`.  Inside a block, an attribute of
the block itself has an exclamation mark.
-/

namespace RuleFormat.Parser

/-- The reserved words that may be segments of a path. -/
def pathWords : List Text := ["super", "self", "Self", "crate"]

/-- Whether tokens begin with a segment of a plain path. -/
def startsPlainSegment (ts : Tokens) : Bool := startsIdent ts || startsOneOf pathWords ts

/-- A plain path: segments without arguments. -/
def plainPath : Parser Tokens := do
  let lead ← optionalOp "::"
  guard (← ahead startsPlainSegment)
  let first ← anyWord
  let more ← repeatWhile (startsOp "::") do
    let sep ← op "::"
    guard (← ahead startsPlainSegment)
    return sep ++ (← anyWord)
  return lead ++ first ++ more.flatten

/-- What an attribute says. -/
def attributeContent (r : Nested) : Parser Tokens := do
  let path ← if ← ahead (startsWord "unsafe") then anyWord else plainPath
  if ← ahead fun ts => startsGroup .round ts || startsGroup .square ts || startsGroup .curly ts then
    return path ++ (← anyGroup)
  if ← ahead fun ts => startsOp "=" ts && !startsOp "==" ts && !startsOp "=>" ts then
    let eq ← op "="
    guard (!(← ahead fun ts => startsOp "#" ts && startsGroup .square (ts.drop 1)))
    return path ++ eq ++ (← r.exprTokens)
  return path

/-- The attributes of a block, at its front. -/
def innerAttributes (r : Nested) : Parser Tokens := do
  let all ← repeatWhile (fun ts => startsOp "#" ts && startsOp "!" (ts.drop 1)) do
    let pound ← op "#"
    let mark ← op "!"
    return pound ++ mark ++ (← group .square (attributeContent r))
  return all.flatten

/-- A block that may have attributes of its own, with its braces. -/
def attributedBlock (r : Nested) : Parser Tokens :=
  group .curly do
    let attrs ← innerAttributes r
    return attrs ++ (← r.statements)

/-- The attributes in front of something. -/
def attributes (r : Nested) : Parser Tokens := do
  let all ← repeatWhile (startsOp "#") do
    let pound ← op "#"
    return pound ++ (← group .square (attributeContent r))
  return all.flatten

end RuleFormat.Parser
