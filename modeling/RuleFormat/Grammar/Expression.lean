import RuleFormat.Grammar.Nested
import RuleFormat.Grammar.Pattern

/-!
# Expressions

The operators, and the operands between them.

## Operators

Operands are joined by operators, of which those that bind tighter are taken first.  Assignments
group to the right and all others to the left; comparisons do not group at all, and a range is no
operand.

An expression is written out with the operators in the order in which they stand.  Parentheses are
added in one place only: an angle bracket behind a cast would be taken for the arguments of its
type.
-/

namespace RuleFormat

/-! ## Writing operations -/

/-- Whether an operator begins with a bracket that could begin the arguments of a type. -/
def opensAngle (o : Text) : Bool := o == "<".toList || o == "<<".toList

/-- Two operands with an operator between them. -/
def ExprForm.binary (left : ExprForm) (o : Text) (p : Precedence) (right : ExprForm) : ExprForm :=
  let front := (if opensAngle o then left.beforeAngle else left.tokens) ++ operator o
  { tokens := front ++ right.tokens
    beforeAngle := front ++ right.beforeAngle
    shape := if p = .compare then .comparison else .other }

/-- An operand that is cast to a type. -/
def ExprForm.cast (value : ExprForm) (type : TypeForm) : ExprForm :=
  let tokens := value.tokens ++ [.word "as"] ++ type.tokens
  { tokens, beforeAngle := if type.endsBare then [.group .round tokens] else tokens }

namespace Parser

/-! ## Operators between two operands -/

/-- The operators between two operands, the longer ones first. -/
def binaryOperators : List (Text × Precedence) := List.map (fun (o, p) => (String.toList o, p))
  [("<<=", .assign), (">>=", .assign), ("+=", .assign), ("-=", .assign), ("*=", .assign),
   ("/=", .assign), ("%=", .assign), ("^=", .assign), ("&=", .assign), ("|=", .assign),
   ("&&", .and), ("||", .or), ("<<", .shift), (">>", .shift), ("==", .compare), ("<=", .compare),
   ("!=", .compare), (">=", .compare), ("+", .sum), ("-", .sum), ("*", .product), ("/", .product),
   ("%", .product), ("^", .bitXor), ("&", .bitAnd), ("|", .bitOr), ("<", .compare),
   (">", .compare)]

/-- What may follow an operand. -/
inductive Operator where
  | binary (text : Text) (precedence : Precedence)
  | assign
  | range
  | cast

/-- How tightly an operator binds. -/
def Operator.precedence : Operator → Precedence
  | binary _ p => p
  | assign => .assign
  | range => .range
  | cast => .cast

/-- The operator that stands ahead. -/
def operatorAhead (ts : Tokens) : Option Operator :=
  match binaryOperators.find? fun (o, _) => startsOp o ts with
  | some (o, p) => some (.binary o p)
  | none =>
    if startsOp "=" ts && !startsOp "=>" ts then some .assign
    else if startsOp ".." ts then some .range
    else if startsWord "as" ts then some .cast
    else none

/-! ## Ranges -/

/-- The dots of a range, and whether they include its upper end. -/
def exprDots : Parser (Tokens × Bool) := do
  guard (!(← ahead (startsOp "...")))
  if ← ahead (startsOp "..=") then return (← op "..=", true)
  return (← op "..", false)

/-- The operators that show that a range has no upper end. -/
def rangeStops : List Text := List.map String.toList
  [",", ";", "?", "=>", "=", "+", "/", "%", "^", ">", "<=", "!=", "-=", "*=", "&=", "|=", "<<="]

/-- Whether tokens end a range that has no upper end. -/
def endsOpenRange (allowStruct : Bool) (ts : Tokens) : Bool :=
  ts.isEmpty || rangeStops.any (startsOp · ts) || (startsOp "." ts && !startsOp ".." ts)
    || (!allowStruct && startsGroup .curly ts) || startsWord "as" ts

/-- The dots and the upper end of a range that begins with `start`. -/
def rangeBehind (r : Nested) (allowStruct : Bool) (start : Tokens) : Parser ExprForm := do
  let (dots, closed) ← exprDots
  if !closed && (← ahead (endsOpenRange allowStruct)) then
    return { tokens := start ++ dots, shape := .range }
  let last ← r.rightOperand allowStruct .range
  return { tokens := start ++ dots ++ last.tokens, shape := .range }

/-! ## Chains of operations -/

/-- Whether tokens go on with something that a cast must not have behind it. -/
def startsTrailer (ts : Tokens) : Bool :=
  (startsOp "." ts && !startsOp ".." ts) || startsOp "?" ts || startsGroup .square ts
    || startsGroup .round ts

/-- The operator ahead with its right operand, behind the operand `left`. -/
def operation (r : Nested) (allowStruct : Bool) (left : ExprForm) : Operator → Parser ExprForm
  | .binary o p => do
    guard (p != .compare || left.shape != .comparison)
    let _ ← op o
    return left.binary o p (← r.rightOperand allowStruct p)
  | .assign => do
    let eq ← op "="
    let right ← r.rightOperand allowStruct .assign
    return { tokens := left.tokens ++ eq ++ right.tokens }
  | .range => rangeBehind r allowStruct left.tokens
  | .cast => do
    let _ ← word "as"
    let type ← r.type false
    guard (!(← ahead startsTrailer))
    return left.cast type

/-- The operators behind an operand that bind at least as tightly as `least`, with their operands.
-/
def operations (r : Nested) (allowStruct : Bool) (least : Precedence) :
    ExprForm → Parser ExprForm :=
  extend fun left => do
    match operatorAhead (← get) with
    | some o =>
      if left.shape = .range || o.precedence.rank < least.rank then return none
      return some (← operation r allowStruct left o)
    | none => return none

/-- The operators behind an operand that bind tighter than `p`, in front of which it stands; behind
an assignment further assignments, too. -/
def tighterOperations (r : Nested) (allowStruct : Bool) (p : Precedence) :
    ExprForm → Parser ExprForm :=
  extend fun right => do
    match operatorAhead (← get) with
    | some o =>
      let next := o.precedence
      if right.shape != .range && (p.rank < next.rank || (p = .assign && next = .assign)) then
        return some (← operations r allowStruct next right)
      return none
    | none => return none

end Parser

end RuleFormat

/-!
## Operands and what is made of them

The expressions that stand in the length of an array, in a constant argument, in the value of an
attribute and in statements.  An operand is an atom with what follows it: calls, fields, indices and
question marks.
-/

namespace RuleFormat.Parser

/-- An expression of which the surroundings need no more than its tokens. -/
def otherExpr (p : Parser Tokens) : Parser ExprForm := do return { tokens := ← p }

/-! ## What may follow an operand -/

/-- Expressions with commas between them. -/
def exprList (r : Nested) : Parser Tokens := commaList r.exprTokens

/-- The arguments of a call. -/
def callArguments (r : Nested) : Parser Tokens := group .round (exprList r)

/-- The numbers of fields with points between them that a number with points stands for. -/
def fieldNumbers (parts : List Text) : Option Tokens := do
  let numbers ← parts.mapM fieldNumber?
  return [Token.punct '.' false].intercalate (numbers.map fun n => [.literal (decimal n)])

/-- A field or a method call behind a point. -/
def namedMember (r : Nested) : Parser Tokens := do
  if ← ahead (startsWord "await") then anyWord
  else if ← ahead startsIdent then
    let name ← anyWord
    let args ← optional (startsOp "::") do return (← angleArguments r).1
    if args.isEmpty && !(← ahead (startsGroup .round)) then return name
    return name ++ args ++ (← callArguments r)
  else fieldNumber

/-- What stands behind a point.  A number with a point in it stands for two fields, and one with a
point at its end for a field in front of another one. -/
def member (r : Nested) : Parser Tokens := fun ts =>
  match ts with
  | .literal t :: rest =>
    match t.splitOnP (· == '.') with
    | [a, []] => do
      let front ← fieldNumbers [a]
      let (last, rest) ← namedMember r rest
      return (front ++ [.punct '.' false] ++ last, rest)
    | parts => do return (← fieldNumbers parts, rest)
  | _ => namedMember r ts

/-- What may follow an operand: a call, a field, an index or a question mark. -/
def trailer? (r : Nested) (isRange : Bool) : Parser (Option Tokens) := do
  if ← ahead (startsGroup .round) then return some (← callArguments r)
  else if ← ahead fun ts => startsOp "." ts && !startsOp ".." ts && !isRange then
    let dot ← op "."
    return some (dot ++ (← member r))
  else if ← ahead (startsGroup .square) then return some (← group .square r.exprTokens)
  else if ← ahead fun ts => startsOp "?" ts && !isRange then return some (← op "?")
  else return none

/-- An atom with all that follows it. -/
def trailers (r : Nested) : ExprForm → Parser ExprForm :=
  extend fun e => do
    match ← trailer? r (e.shape = .range) with
    | some tokens => return some { tokens := e.tokens ++ tokens }
    | none => return none

/-! ## Atoms in delimiters -/

/-- The content of square brackets: elements, or one element and a number of times. -/
def squareExprContent (r : Nested) : Parser Tokens := do
  if ← ahead List.isEmpty then return []
  let first ← r.exprTokens
  if ← ahead (startsOp ";") then
    let semi ← op ";"
    return first ++ semi ++ (← r.exprTokens)
  if ← ahead List.isEmpty then return first
  let comma ← op ","
  return first ++ comma ++ (← exprList r)

/-- A field of a structure literal.  A field with a number needs a value. -/
def fieldValue (r : Nested) : Parser Tokens := do
  let attrs ← attributes r
  if ← ahead startsIdent then
    let name ← anyWord
    let value ← optional (startsOp ":") do return (← op ":") ++ (← r.exprTokens)
    return attrs ++ name ++ value
  let name ← fieldNumber
  let colon ← op ":"
  return attrs ++ name ++ colon ++ (← r.exprTokens)

/-- The content of a structure literal. -/
def structExprContent (r : Nested) : Parser Tokens := do
  let all ← repeatWhile (fun ts => !ts.isEmpty) do
    if ← ahead (startsOp "..") then
      let dots ← op ".."
      let base ← if ← ahead List.isEmpty then pure [] else r.exprTokens
      guard (← ahead List.isEmpty)
      return dots ++ base
    separated List.isEmpty (fieldValue r)
  return all.flatten

/-- A path, a macro call or a structure literal. -/
def pathExpr (r : Nested) (allowStruct : Bool) : Parser ExprForm := do
  let (p, qualified) ← qualifiedPath r true
  if !qualified && p.isPlain && (← ahead startsMacroMark) then
    let hasBraces ← ahead fun ts => startsGroup .curly (ts.drop 1)
    return { tokens := p.tokens ++ (← macroCall), shape := if hasBraces then .braced else .other }
  if allowStruct && (← ahead (startsGroup .curly)) then
    return { tokens := p.tokens ++ (← group .curly (structExprContent r)) }
  return { tokens := p.tokens }

/-! ## Closures -/

/-- A parameter of a closure.  Without a type, a pattern that is taken as it stands has no
attributes. -/
def closureParameter (r : Nested) : Parser Tokens := do
  let attrs ← attributes r
  let p ← r.pattern
  let type ← optional (startsOp ":") do return (← op ":") ++ (← r.typeTokens)
  match p.shape, type with
  | .verbatim, [] => return p.tokens
  | _, _ => return attrs ++ p.tokens ++ type

/-- A closure: its marks, its parameters between bars, and an expression, which is a block when a
type stands behind an arrow. -/
def closure (r : Nested) (allowStruct : Bool) : Parser Tokens := do
  let names ← binders r
  let const ← optionalWord "const"
  let static ← optionalWord "static"
  let async ← optionalWord "async"
  let move ← optionalWord "move"
  let left ← op "|"
  let params ← listUntil (startsOp "|") (closureParameter r)
  let right ← op "|"
  let head := names ++ const ++ static ++ async ++ move ++ left ++ params ++ right
  if ← ahead (startsOp "->") then
    let arrow ← op "->"
    let type ← r.typeTokens
    return head ++ arrow ++ type ++ (← r.block)
  return head ++ (← r.expr allowStruct).tokens

/-- Whether a closure stands ahead. -/
def startsClosure (ts : Tokens) : Bool :=
  let next := ts.drop 1
  startsOp "|" ts || startsWord "move" ts || startsWord "static" ts
    || (startsWord "for" ts && startsGenerics next)
    || (startsWord "const" ts && !startsGroup .curly next)
    || (startsWord "async" ts && (startsOp "|" next || startsWord "move" next))

/-! ## Jumps -/

/-- Whether an expression stands ahead. -/
def startsExpr (ts : Tokens) : Bool :=
  (startsAnyWord ts && !startsWord "as" ts)
    || startsGroup .round ts || startsGroup .square ts || startsGroup .curly ts || startsLiteral ts
    || (startsOp "!" ts && !startsOp "!=" ts)
    || (startsOp "-" ts && !startsOp "-=" ts && !startsOp "->" ts)
    || (startsOp "*" ts && !startsOp "*=" ts)
    || (startsOp "|" ts && !startsOp "|=" ts)
    || (startsOp "&" ts && !startsOp "&=" ts)
    || startsOp ".." ts
    || (startsOp "<" ts && !startsOp "<=" ts && !startsOp "<<=" ts)
    || startsOp "::" ts || startsLifetime ts || startsOp "#" ts

/-- A jump out of a loop or a block, perhaps with a label and a value. -/
def breakExpr (r : Nested) (allowStruct : Bool) : Parser Tokens := do
  let head ← word "break"
  guard (!(← ahead fun ts => startsLifetime ts && startsOp ":" (ts.drop 1)))
  let label ← optional startsLifetime lifetime
  let value ← optional (fun ts => startsExpr ts && (allowStruct || !startsGroup .curly ts))
    r.exprTokens
  return head ++ label ++ value

/-- A jump with a word in front, perhaps with a value. -/
def jumpExpr (r : Nested) : Parser Tokens := do
  let head ← anyWord
  return head ++ (← optional startsExpr r.exprTokens)

/-- A call that replaces the one it stands in. -/
def becomeExpr (r : Nested) : Parser Tokens :=
  verbatim do
    let _ ← word "become"
    r.exprTokens

/-- An operation that is built into a compiler. -/
def builtinExpr : Parser Tokens :=
  verbatim do
    let _ ← word "builtin"
    let _ ← op "#"
    let _ ← ident
    guard (← ahead (startsGroup .round))
    anyGroup

/-! ## Choices and loops -/

/-- A condition and a block, behind the word `if`. -/
def ifClause (r : Nested) : Parser Tokens := do
  let head ← word "if"
  let cond ← r.expr false
  return head ++ cond.tokens ++ (← r.block)

/-- A choice by conditions. -/
def ifExpr (r : Nested) : Parser Tokens := do
  let first ← ifClause r
  let more ← repeatWhile (fun ts => startsWord "else" ts && startsWord "if" (ts.drop 1)) do
    let head ← word "else"
    return head ++ (← ifClause r)
  let last ← optional (startsWord "else") do
    let head ← word "else"
    return head ++ (← r.block)
  return first ++ more.flatten ++ last

/-- A value that is looked at by a choice or a loop, which is no structure literal. -/
def subject (r : Nested) : Parser Tokens := do return (← r.expr false).tokens

/-- A loop with a condition. -/
def whileExpr (r : Nested) : Parser Tokens := do
  let head ← word "while"
  let cond ← subject r
  return head ++ cond ++ (← attributedBlock r)

/-- A loop over the elements of something. -/
def forExpr (r : Nested) : Parser Tokens := do
  let head ← word "for"
  let p ← alternatives r
  let mark ← word "in"
  let elements ← subject r
  return head ++ p.tokens ++ mark ++ elements ++ (← attributedBlock r)

/-- A block behind a word, with attributes of its own. -/
def wordBlock (r : Nested) : Parser Tokens := do
  let head ← anyWord
  return head ++ (← attributedBlock r)

/-- A block without attributes of its own behind words. -/
def plainWordBlock (r : Nested) : Parser Tokens := do
  let head ← anyWord
  let move ← optionalWord "move"
  return head ++ move ++ (← r.block)

/-- A loop or a block behind a label. -/
def labeledExpr (r : Nested) : Parser Tokens := do
  let name ← lifetime
  let label := name ++ (← op ":")
  if ← ahead (startsWord "while") then return label ++ (← whileExpr r)
  else if ← ahead (startsWord "for") then return label ++ (← forExpr r)
  else if ← ahead (startsWord "loop") then return label ++ (← wordBlock r)
  else return label ++ (← attributedBlock r)

/-- An arm of a choice by patterns.  A comma must divide it from the next one unless its body is a
statement of its own. -/
def matchArm (r : Nested) : Parser Tokens := do
  let attrs ← attributes r
  let p ← alternatives r
  let cond ← optional (startsWord "if") do return (← word "if") ++ (← r.exprTokens)
  let arrow ← op "=>"
  let body ← r.leadingExpr
  let mayEnd ← ahead fun ts => ts.isEmpty || body.shape = .block
  let comma ← if mayEnd then optionalOp "," else op ","
  return attrs ++ p.tokens ++ cond ++ arrow ++ body.tokens ++ comma

/-- A choice by patterns. -/
def matchExpr (r : Nested) : Parser Tokens := do
  let head ← word "match"
  let value ← subject r
  let arms ← group .curly do
    let attrs ← innerAttributes r
    return attrs ++ (← repeatWhile (fun ts => !ts.isEmpty) (matchArm r)).flatten
  return head ++ value ++ arms

/-- An expression that ends with a block and is a statement of its own, when one stands ahead. -/
def blockLike? (r : Nested) : Parser (Option Tokens) := do
  let isClosure ← ahead startsClosure
  let isBlock ← ahead fun ts => startsGroup .curly (ts.drop 1)
  if ← ahead (startsWord "if") then return some (← ifExpr r)
  else if ← ahead (startsWord "while") then return some (← whileExpr r)
  else if ← ahead fun ts => startsWord "for" ts && !isClosure then return some (← forExpr r)
  else if ← ahead (startsWord "match") then return some (← matchExpr r)
  else if ← ahead fun ts => startsWord "try" ts && isBlock then return some (← plainWordBlock r)
  else if ← ahead fun ts => startsWord "const" ts && isBlock then return some (← wordBlock r)
  else if ← ahead (startsOneOf ["loop", "unsafe"]) then return some (← wordBlock r)
  else if ← ahead (startsGroup .curly) then return some (← attributedBlock r)
  else if ← ahead startsLifetime then return some (← labeledExpr r)
  else return none

/-! ## Operands -/

/-- A binding in a condition: a pattern, and a value in which nothing binds looser than a
comparison. -/
def letExpr (r : Nested) (allowStruct : Bool) : Parser Tokens := do
  let head ← word "let"
  let p ← alternatives r
  let eq ← op "="
  let value ← operations r allowStruct .compare (← r.operand allowStruct)
  return head ++ p.tokens ++ eq ++ value.tokens

/-- The words that begin a path in an expression. -/
def startsPathExpr (ts : Tokens) : Bool :=
  startsIdent ts || startsOneOf pathWords ts || startsOp "::" ts || startsOp "<" ts
    || (startsWord "try" ts && (startsOp "!" (ts.drop 1) || startsOp "::" (ts.drop 1)))

/-- Whether a block that runs later stands ahead. -/
def startsAsyncBlock (ts : Tokens) : Bool :=
  startsWord "async" ts && (startsGroup .curly (ts.drop 1)
    || (startsWord "move" (ts.drop 1) && startsGroup .curly (ts.drop 2)))

/-- What an operand begins with, apart from expressions that end with a block. -/
def plainAtom (r : Nested) (allowStruct : Bool) : Parser ExprForm := do
  if ← ahead startsLiteral then otherExpr literal
  else if ← ahead startsAsyncBlock then otherExpr (plainWordBlock r)
  else if ← ahead startsClosure then otherExpr (closure r allowStruct)
  else if ← ahead fun ts => startsWord "builtin" ts && startsOp "#" (ts.drop 1) then
    return { tokens := ← builtinExpr, shape := .verbatim }
  else if ← ahead startsPathExpr then pathExpr r allowStruct
  else if ← ahead (startsGroup .round) then otherExpr (group .round (exprList r))
  else if ← ahead (startsWord "break") then otherExpr (breakExpr r allowStruct)
  else if ← ahead (startsWord "continue") then
    let head ← anyWord
    return { tokens := head ++ (← optional startsLifetime lifetime) }
  else if ← ahead (startsOneOf ["return", "yield"]) then otherExpr (jumpExpr r)
  else if ← ahead (startsWord "become") then
    return { tokens := ← becomeExpr r, shape := .verbatim }
  else if ← ahead (startsGroup .square) then otherExpr (group .square (squareExprContent r))
  else if ← ahead (startsWord "let") then
    otherExpr (letExpr r allowStruct)
  else if ← ahead (startsOp "..") then rangeBehind r allowStruct []
  else if ← ahead (startsWord "_") then otherExpr anyWord
  else failure

/-- What an operand begins with. -/
def atom (r : Nested) (allowStruct : Bool) : Parser ExprForm := do
  match ← blockLike? r with
  | some tokens => return { tokens, shape := .block }
  | none => plainAtom r allowStruct

/-- Whether a sign stands ahead that belongs in front of an operand. -/
def startsSign (ts : Tokens) : Bool :=
  startsOp "&" ts || startsOp "*" ts || startsOp "!" ts || startsOp "-" ts

/-- The sign in front of an operand.  A reference may be mutable, or raw and then mutable or
constant. -/
def sign : Parser Tokens := do
  if ← ahead (startsOp "&") then
    let mark ← op "&"
    if ← ahead fun ts => startsWord "raw" ts && startsOneOf ["mut", "const"] (ts.drop 1) then
      return mark ++ (← anyWord) ++ (← anyWord)
    return mark ++ (← optionalWord "mut")
  else if ← ahead (startsOp "*") then op "*"
  else if ← ahead (startsOp "!") then op "!"
  else op "-"

/-- An operand without its attributes. -/
def bareOperand (r : Nested) (allowStruct : Bool) : Parser ExprForm := do
  if ← ahead startsSign then
    let mark ← sign
    return { tokens := mark ++ (← r.operand allowStruct).tokens }
  trailers r (← atom r allowStruct)

/-- An operand with the attributes and signs in front of it.  A range has no attributes. -/
def operand (r : Nested) (allowStruct : Bool) : Parser ExprForm :=
  keepingIf (·.shape = .verbatim) (fun _ source => { tokens := source, shape := .verbatim }) do
    let attrs ← attributes r
    let e ← bareOperand r allowStruct
    guard (attrs.isEmpty || e.shape != .range)
    return e.behind attrs

/-- The operand behind an operator, with the operators in it that bind tighter. -/
def rightOperand (r : Nested) (allowStruct : Bool) (p : Precedence) : Parser ExprForm := do
  tighterOperations r allowStruct p (← operand r allowStruct)

/-- An expression. -/
def expr (r : Nested) (allowStruct : Bool) : Parser ExprForm := do
  operations r allowStruct .assign (← operand r allowStruct)

/-- An expression at the front of a statement, behind its attributes.  One that ends with a block
goes on only with a point or a question mark. -/
def leadingExprBehind (r : Nested) (attrs : Tokens) : Parser ExprForm := do
  match ← blockLike? r with
  | some tokens =>
    let e : ExprForm := { tokens, shape := .block }
    if ← ahead fun ts => (startsOp "." ts && !startsOp ".." ts) || startsOp "?" ts then
      operations r true .assign ((← trailers r e).behind attrs)
    else return e.behind attrs
  | none =>
    let e ← operand r true
    operations r true .assign (if e.shape = .verbatim then e else e.behind attrs)

/-- An expression at the front of a statement. -/
def leadingExpr (r : Nested) : Parser ExprForm := do leadingExprBehind r (← attributes r)

end RuleFormat.Parser
