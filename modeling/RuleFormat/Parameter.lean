import RuleFormat.Grammar.Statement
import RuleFormat.Token.Lexer

/-!
# Parameter declarations

A declaration is a receiver such as `&mut self`, a lone type, or a pattern, a colon and a type.
`nested` ties the rules for types, patterns, expressions, statements and items together: at each
level the parts inside a part are read by the level below.  A declaration has no more levels than
tokens, and no more tokens than characters, so that the length of its text is a depth at which
nothing fails for want of levels.
-/

namespace RuleFormat

/-- The rules at one level of nesting, from those of the level below. -/
def Nested.next (r : Nested) : Nested where
  type := Parser.type r
  arguments := Parser.arguments r
  bound := Parser.bound r
  pattern := Parser.pattern r
  expr := Parser.expr r
  operand := Parser.operand r
  rightOperand := Parser.rightOperand r
  leadingExpr := Parser.leadingExpr r
  statements := Parser.statements r
  item := Parser.item r
  fields := Parser.fields r
  useTree := Parser.useTree r

/-- The rules for `n` levels of nesting. -/
def nested : Nat → Nested
  | 0 => .none
  | n + 1 => (nested n).next

/-- What a parameter declares. -/
inductive Declaration where
  /-- The object that a method is called on. -/
  | receiver
  /-- A pattern with a type; `name` is the name of a binding, or the tokens of another pattern. -/
  | typed (name : Text) (type : Tokens)

namespace Parser

/-- The name that a pattern gives its parameter. -/
def patternName (p : PatternForm) : Text :=
  match p.shape with
  | .binding name => name
  | _ => render p.tokens

/-- A pattern, a colon and a type, or a lone type, whose parameter is called `_`. -/
def typedDeclaration (r : Nested) : Parser Declaration := do
  let p ← parameterPattern r
  return .typed (patternName p) (← r.typeTokens)

/-- A whole declaration: attributes, and then a receiver if there is one. -/
def declaration (r : Nested) : Parser Declaration := do
  let _ ← attributes r
  fun ts =>
    match receiver r ts with
    | some (_, rest) => some (.receiver, rest)
    | none => typedDeclaration r ts

end Parser

/-- Reads a declaration, which must be the whole text. -/
def Declaration.read? (t : Text) : Option Declaration :=
  match lex t with
  | none => none
  | some ts =>
    match Parser.declaration (nested (t.length + 1)) ts with
    | some (d, []) => some d
    | _ => none

/-!
## Parameters

A parameter is a fragment that declares a name and its type.  It keeps the fragment, which is what
is written when the parameter is moved, beside the name and the type, by which it is sorted.

The environment parameter `e: Env` leads every list.  It is recognised in any form (with `mut`, with
an attribute, …), and is *plain* when nothing but blanks tells its text from `e: Env`.
-/

/-- A parameter of a rule. -/
structure Parameter where
  /-- The fragment that declares it. -/
  text : Text
  /-- The name of its binding, or the tokens of its pattern when that is not a binding. -/
  name : Text
  /-- The tokens of its type. -/
  type : Text
  deriving DecidableEq, Repr

/-- Why a fragment is no parameter. -/
inductive ParameterFault where
  | notDeclaration (fragment : Text)
  | receiver (fragment : Text)
  deriving DecidableEq, Repr

/-- The wording of a fault. -/
def ParameterFault.message : ParameterFault → Text
  | notDeclaration f => quoted f ++ " is not a `name: Type` parameter".toList
  | receiver f => quoted f ++ ": receivers are not allowed in rule headers".toList

namespace Parameter

/-- Reads a fragment. -/
def read (fragment : Text) : Except ParameterFault Parameter :=
  match Declaration.read? fragment with
  | none => .error (.notDeclaration fragment)
  | some .receiver => .error (.receiver fragment)
  | some (.typed name type) => .ok ⟨fragment, name, render type⟩

/-- Reads fragments in order, up to the first that is no parameter. -/
def readAll : List Text → Except ParameterFault (List Parameter)
  | [] => .ok []
  | f :: fs =>
    match read f with
    | .error e => .error e
    | .ok p => (readAll fs).map (p :: ·)

/-- A text with its blanks left out; other white space stays. -/
def withoutBlanks (t : Text) : Text := t.filter (· != ' ')

/-- The name of the environment parameter. -/
def envName : Text := "e"

/-- The type of the environment parameter. -/
def envType : Text := "Env"

/-- The environment parameter in its plain form. -/
def envText : Text := envName ++ ": ".toList ++ envType

/-- Whether this is the environment parameter, in whatever form. -/
def isEnv (p : Parameter) : Bool := p.name == envName && withoutBlanks p.type == envType

/-- Whether this is the environment parameter in its plain form. -/
def isPlainEnv (p : Parameter) : Bool :=
  p.isEnv && withoutBlanks p.text == envName ++ [':'] ++ envType

end Parameter

end RuleFormat
