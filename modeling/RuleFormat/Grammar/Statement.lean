import RuleFormat.Grammar.Expression
import RuleFormat.Grammar.Item

/-!
# Statements

A block holds items, declarations of variables and expressions.  A semicolon must follow an
expression unless it is the last one, ends with a block, or is a macro with braces.
-/

namespace RuleFormat.Parser

/-! ## Macros with braces -/

/-- What a macro that a statement begins with is. -/
inductive MacroForm where
  /-- It has braces and is a statement by itself. -/
  | statement
  /-- It has a name and is an item. -/
  | item
  | other
  deriving DecidableEq, Repr

/-- What a macro that stands ahead is. -/
def macroAhead (ts : Tokens) : MacroForm :=
  match plainPath ts with
  | some (_, rest) =>
    let next := rest.drop 1
    let behind := next.drop 1
    if !startsOp "!" rest then .other
    else if startsIdent next || startsWord "try" next then .item
    else if startsGroup .curly next
        && !((startsOp "." behind && !startsOp ".." behind) || startsOp "?" behind) then .statement
    else .other
  | none => .other

/-- A macro with braces that is a statement, perhaps with a semicolon. -/
def macroStatement : Parser Tokens := do
  let path ← plainPath
  return path ++ (← macroCall) ++ (← optionalOp ";")

/-! ## Items and variables -/

/-- Whether an item stands ahead. -/
def startsItem (ts : Tokens) : Bool :=
  let next := ts.drop 1
  let isFunction (ts : Tokens) : Bool := startsOneOf ["unsafe", "extern", "fn"] ts
  startsOneOf ["pub", "extern", "use", "fn", "mod", "type", "struct", "enum", "trait", "impl",
      "macro"] ts
    || (startsWord "crate" ts && !startsOp "::" next)
    || (startsWord "static" ts && (startsWord "mut" next || startsIdent next))
    || (startsWord "const" ts && !(startsGroup .curly next || startsWord "static" next
      || startsWord "move" next || startsOp "|" next
      || (startsWord "async" next && !isFunction (next.drop 1))))
    || (startsWord "unsafe" ts && !startsGroup .curly next)
    || (startsWord "async" ts && isFunction next)
    || (startsWord "union" ts && startsIdent next)
    || startsAutoTrait ts
    || (startsWord "default" ts && startsOneOf ["unsafe", "impl"] next)

/-- Whether tokens end with a group in braces. -/
def endsWithBraces (ts : Tokens) : Bool :=
  match ts.getLast? with
  | some (.group .curly _) => true
  | _ => false

/-- A declaration of a variable.  Behind a value that does not end with braces, a block may say what
to do when the pattern does not fit. -/
def letStatement (r : Nested) : Parser Tokens := do
  let head ← word "let"
  let p ← r.pattern
  let type ← optional (startsOp ":") do return (← op ":") ++ (← r.typeTokens)
  let value ← optional (startsOp "=") do
    let eq ← op "="
    let value ← r.exprTokens
    let other ← optional (fun ts => startsWord "else" ts && !endsWithBraces value) do
      return (← word "else") ++ (← r.block)
    return eq ++ value ++ other
  return head ++ p.tokens ++ type ++ value ++ (← op ";")

/-! ## Statements -/

/-- The expression of a statement, behind the attributes of the statement.  They belong to its first
operand, but to a range as a whole. -/
def statementExpr (r : Nested) (attrs : Tokens) : Parser ExprForm := fun ts =>
  match leadingExprBehind r attrs ts with
  | some (e, rest) =>
    if e.shape = .range ∧ !attrs.isEmpty then
      (leadingExprBehind r [] ts).map fun (e, rest) => (e.behind attrs, rest)
    else some (e, rest)
  | none => none

/-- An expression as a statement, behind its attributes. -/
def exprStatement (r : Nested) (attrs : Tokens) : Parser Tokens := do
  let e ← statementExpr r attrs
  if ← ahead (startsOp ";") then return e.tokens ++ (← op ";")
  guard (e.shape = .block || e.shape = .braced || (← ahead List.isEmpty))
  return e.tokens

/-- A statement that has attributes or may have some. -/
def attributedStatement (r : Nested) : Parser Tokens := fun ts =>
  match attributes r ts with
  | none => none
  | some (attrs, rest) =>
    let behindAttributes (p : Parser Tokens) : Option (Tokens × Tokens) :=
      (p rest).map fun (tokens, rest) => (attrs ++ tokens, rest)
    match macroAhead rest with
    | .statement => behindAttributes macroStatement
    | .item => item r ts
    | .other =>
      if startsWord "let" rest then behindAttributes (letStatement r)
      else if startsItem rest then item r ts
      else exprStatement r attrs rest

/-- A statement, or a semicolon that stands alone. -/
def statement (r : Nested) : Parser Tokens := do
  if ← ahead (startsOp ";") then op ";" else attributedStatement r

/-- The statements of a block. -/
def statements (r : Nested) : Parser Tokens := do
  return (← repeatWhile (fun ts => !ts.isEmpty) (statement r)).flatten

end RuleFormat.Parser
