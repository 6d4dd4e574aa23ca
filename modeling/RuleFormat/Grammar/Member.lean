import RuleFormat.Grammar.Pattern
import RuleFormat.Grammar.Type

/-!
# Signatures and members

What items are made of: the signatures of functions, and the declarations that stand inside of other
items.

## Signatures

What a function says about itself: the names that it introduces, its parameters, its result, and
what it demands of its types.
-/

namespace RuleFormat.Parser

/-! ## Names and demands -/

/-- The names that an item introduces in angle brackets, and whether there are brackets.  Lifetimes
are written first, and brackets without names are not written. -/
def generics (r : Nested) : Parser (Tokens × Bool) := do
  if !(← ahead (startsOp "<")) then return ([], false)
  let lt ← op "<"
  let names ← repeatWhile (fun ts => !startsOp ">" ts) do
    let attrs ← attributes r
    let isLifetime ← ahead startsLifetime
    let name ← if ← ahead (startsWord "_") then anyWord else binder r
    if ← ahead (startsOp ">") then return ⟨isLifetime, attrs ++ name, false⟩
    let _ ← op ","
    return (⟨isLifetime, attrs ++ name, true⟩ : Argument)
  let gt ← op ">"
  return (if names.isEmpty then [] else lt ++ arrange names ++ gt, true)

/-- Whether tokens end the demands on types, apart from the comma that divides them. -/
def endsWhere (ts : Tokens) : Bool :=
  ts.isEmpty || startsGroup .curly ts || startsOp ";" ts || startsOp "=" ts
    || (startsOp ":" ts && !startsOp "::" ts)

/-- A demand on a lifetime or a type. -/
def demand (r : Nested) : Parser Tokens := do
  let stop (ts : Tokens) : Bool := endsWhere ts || startsOp "," ts
  if ← ahead fun ts => startsLifetime ts && startsOp ":" (ts.drop 1) then
    let name ← lifetime
    let colon ← op ":"
    return name ++ colon ++ (← boundsUntil stop lifetime)
  let names ← binders r
  let type ← r.typeTokens
  let colon ← op ":"
  return names ++ type ++ colon ++ (← boundsUntil stop (r.boundTokens ⟨false, true⟩))

/-- The demands behind `where`, and whether the word is there.  Without any it is not written. -/
def whereClause (r : Nested) : Parser (Tokens × Bool) := do
  if !(← ahead (startsWord "where")) then return ([], false)
  let head ← word "where"
  let all ← listUntil endsWhere (demand r)
  return (if all.isEmpty then [] else head ++ all, true)

/-! ## Parameters -/

/-- A receiver: `self` with `&`, a lifetime and `mut` in front as it may have, or with a type behind
it when it is no reference. -/
def receiver (r : Nested) : Parser Tokens := do
  let mark ← optionalOp "&"
  let life ← if mark.isEmpty then pure [] else optional startsLifetime lifetime
  let mutable ← optionalWord "mut"
  let name ← word "self"
  guard (!(← ahead (startsOp "::")))
  let type ← if mark.isEmpty then
    optional (startsOp ":") do return (← op ":") ++ (← r.typeTokens)
  else pure []
  return mark ++ life ++ mutable ++ name ++ type

/-- The pattern of a parameter and the colon behind it.  There are none in front of a lone type with
arguments, which has the pattern `_`. -/
def parameterPattern (r : Nested) : Parser PatternForm := do
  if ← ahead fun ts => startsIdent ts && startsOp "<" (ts.drop 1) then
    return ⟨[.word "_"], .other⟩
  let p ← r.pattern
  let _ ← op ":"
  return p

/-- One parameter of a function with the comma behind it.  The first one may be a receiver, and the
last one may be dots. -/
def parameterItem (r : Nested) (first : Bool) : Parser Tokens := do
  let attrs ← attributes r
  let dots (front : Tokens) : Parser Tokens := do
    let dots ← op "..."
    let comma ← optionalOp ","
    guard (← ahead List.isEmpty)
    return attrs ++ front ++ dots ++ comma
  if ← ahead (startsOp "...") then return ← dots []
  if ← ahead fun ts => (receiver r ts).isSome then
    guard first
    return attrs ++ (← separated List.isEmpty (receiver r))
  let p ← parameterPattern r
  if ← ahead (startsOp "...") then return ← dots (p.tokens ++ operator ":")
  return attrs ++ p.tokens ++ operator ":" ++ (← separated List.isEmpty r.typeTokens)

/-- The parameters of a function. -/
def parameters (r : Nested) : Parser Tokens := do
  if ← ahead List.isEmpty then return []
  let first ← parameterItem r true
  let more ← repeatWhile (fun ts => !ts.isEmpty) (parameterItem r false)
  return first ++ more.flatten

/-! ## Functions -/

/-- What is behind a word, when it stands ahead. -/
def behindWord (w : Text) (ts : Tokens) : Tokens := if startsWord w ts then ts.drop 1 else ts

/-- What is behind a calling convention, when one stands ahead. -/
def behindConvention (ts : Tokens) : Tokens :=
  match ts with
  | .word t :: .literal s :: rest =>
    if t = "extern".toList then if isString s then rest else .literal s :: rest else ts
  | _ => behindWord "extern" ts

/-- The words that say whether a function may be called without care; `foreign` allows the one for a
foreign function that may. -/
def riskWords (foreign : Bool) : List Text :=
  if foreign then ["safe", "unsafe"] else ["unsafe"]

/-- Whether a signature stands ahead. -/
def startsSignature (foreign : Bool) (ts : Tokens) : Bool :=
  let marks := behindWord "async" (behindWord "const" ts)
  startsWord "fn" (behindConvention (if startsOneOf (riskWords foreign) marks then marks.drop 1
    else marks))

/-- A signature. -/
def signature (r : Nested) (foreign : Bool) : Parser Tokens := do
  let const ← optionalWord "const"
  let async ← optionalWord "async"
  let risk ← optional (startsOneOf (riskWords foreign)) anyWord
  let convention ← callConvention
  let head ← word "fn"
  let name ← ident
  let (names, _) ← generics r
  let params ← group .round (parameters r)
  let output ← optional (startsOp "->") do return (← op "->") ++ (← r.typeTokens)
  let (demands, _) ← whereClause r
  return const ++ async ++ risk ++ convention ++ head ++ [.word name] ++ names ++ params ++ output
    ++ demands

/-!
## Parts of items

Functions, constants and types are declared by items of their own and as members of other items:
traits, implementations and foreign blocks.

Some forms are allowed by the grammar only.  They are written as they stand in the input, and the
rules that may meet one give a flag beside the tokens which says so.
-/

/-! ## Visibility -/

/-- Whether parentheses say how far something is visible. -/
def isVisibilityScope : Tokens → Bool
  | [.word t] => List.contains ["crate".toList, "self".toList, "super".toList] t
  | .word t :: rest =>
    t == "in".toList &&
      match plainPath rest with
      | some (_, []) => true
      | _ => false
  | _ => false

/-- How far something is visible; nothing at all when it is visible here only. -/
def visibility : Parser Tokens :=
  optional (startsWord "pub") do
    let head ← word "pub"
    let scope ← optional (fun
      | .group .round inner :: _ => isVisibilityScope inner
      | _ => false) anyGroup
    return head ++ scope

/-- What is behind the visibility of an item. -/
def behindVisibility (ts : Tokens) : Tokens :=
  match visibility ts with
  | some (_, rest) => rest
  | none => ts

/-! ## Values -/

/-- A name or an underscore. -/
def nameOrBlank : Parser Tokens := do
  guard (← ahead fun ts => startsIdent ts || startsWord "_" ts)
  anyWord

/-- A value behind an equals sign, when there is one. -/
def valueBehind (r : Nested) : Parser Tokens :=
  optional (startsOp "=") do return (← op "=") ++ (← r.exprTokens)

/-- A constant.  One with names in angle brackets or with demands, and one without a value when
`needsValue` holds, is allowed by the grammar only. -/
def constant (r : Nested) (needsValue : Bool) : Parser (Tokens × Bool) := do
  let head ← word "const"
  let name ← nameOrBlank
  let (names, hasNames) ← generics r
  let colon ← op ":"
  let type ← r.typeTokens
  let value ← valueBehind r
  let (demands, hasDemands) ← whereClause r
  let semi ← op ";"
  return (head ++ name ++ names ++ colon ++ type ++ value ++ demands ++ semi,
    hasNames || hasDemands || (needsValue && value.isEmpty))

/-! ## Types -/

/-- The declaration of a type, in its parts. -/
structure TypeParts where
  /-- The word, the name, and the names in angle brackets. -/
  front : Tokens
  hasColon : Bool
  bounds : Tokens
  demands : Tokens
  /-- The type behind an equals sign. -/
  definition : Tokens

/-- Where the demands of a declared type stand: in front of its definition, behind it, or in one of
the two places. -/
inductive DemandPlace where
  | front | back | both
  deriving DecidableEq, Repr

/-- The declaration of a type, with its semicolon. -/
def typeParts (r : Nested) (place : DemandPlace) : Parser TypeParts := do
  let head ← word "type"
  let name ← ident
  let (names, _) ← generics r
  let hasColon ← ahead (startsOp ":")
  let stop (ts : Tokens) : Bool := startsWord "where" ts || startsOp "=" ts || startsOp ";" ts
  let bounds ← optional (startsOp ":") do
    let _ ← op ":"
    boundsUntil stop (r.boundTokens ⟨false, true⟩)
  let (front, hasFront) ← if place = .back then pure ([], false) else whereClause r
  let definition ← optional (startsOp "=") do return (← op "=") ++ (← r.typeTokens)
  let (back, _) ← if place = .front || hasFront then pure ([], false) else whereClause r
  let _ ← op ";"
  return ⟨head ++ [.word name] ++ names, hasColon, bounds, front ++ back, definition⟩

/-! ## Macros -/

/-- A macro that stands for members, or one that `named` allows to have a name. -/
def macroMember (named : Bool) : Parser Tokens := do
  let path ← plainPath
  let mark ← op "!"
  let name ← optional (fun ts => named && (startsIdent ts || startsWord "try" ts)) anyWord
  let hasBraces ← ahead (startsGroup .curly)
  let body ← anyGroup
  let semi ← if hasBraces then pure [] else op ";"
  return path ++ mark ++ name ++ body ++ semi

/-- Whether a macro may stand ahead. -/
def startsMacro (ts : Tokens) : Bool :=
  startsIdent ts || startsOneOf ["self", "super", "crate"] ts || startsOp "::" ts

/-! ## Members of traits -/

/-- A function of a trait, which may be without a body. -/
def traitFunction (r : Nested) : Parser Tokens := do
  let sig ← signature r false
  if ← ahead (startsOp ";") then return sig ++ (← op ";")
  return sig ++ (← attributedBlock r)

/-- A type of a trait. -/
def traitType (r : Nested) : Parser Tokens := do
  let t ← typeParts r .back
  let bounds := if t.bounds.isEmpty then [] else operator ":" ++ t.bounds
  return t.front ++ bounds ++ t.definition ++ t.demands ++ operator ";"

/-- A member of a trait.  With a visibility or the word `default` it is allowed by the grammar
only. -/
def traitMember (r : Nested) : Parser Tokens :=
  verbatimIf do
    let attrs ← attributes r
    let vis ← visibility
    let standard ← optionalWord "default"
    let marks := vis ++ standard
    let (body, raw) ←
      if ← ahead (startsSignature false) then pure (← traitFunction r, false)
      else if ← ahead (startsWord "const") then constant r false
      else if ← ahead (startsWord "type") then pure (← traitType r, false)
      else
        guard (marks.isEmpty && (← ahead startsMacro))
        pure (← macroMember false, false)
    return (attrs ++ marks ++ body, raw || !marks.isEmpty)

/-! ## Members of implementations -/

/-- A function of an implementation.  Without a body it is allowed by the grammar only. -/
def function (r : Nested) : Parser (Tokens × Bool) := do
  let sig ← signature r false
  if ← ahead (startsOp ";") then return (sig ++ (← op ";"), true)
  return (sig ++ (← attributedBlock r), false)

/-- A member of an implementation. -/
def implMember (r : Nested) : Parser Tokens :=
  verbatimIf do
    let attrs ← attributes r
    let vis ← visibility
    let standard ← optional (fun ts => startsWord "default" ts && !startsOp "!" (ts.drop 1)) anyWord
    let marks := vis ++ standard
    let (body, raw) ←
      if ← ahead (startsSignature false) then function r
      else if ← ahead (startsWord "const") then constant r true
      else if ← ahead (startsWord "type") then
        let t ← typeParts r .back
        pure (t.front ++ t.definition ++ t.demands ++ operator ";",
          t.hasColon || t.definition.isEmpty)
      else
        guard (marks.isEmpty && (← ahead startsMacro))
        pure (← macroMember false, false)
    return (attrs ++ marks ++ body, raw)

/-! ## Members of foreign blocks -/

/-- A foreign function.  With a body or the word `safe` it is allowed by the grammar only. -/
def foreignFunction (r : Nested) : Parser (Tokens × Bool) := do
  let isSafe ← ahead fun ts => !startsSignature false ts
  let sig ← signature r true
  if ← ahead (startsGroup .curly) then return (sig ++ (← attributedBlock r), true)
  return (sig ++ (← op ";"), isSafe)

/-- A foreign variable.  With a value, or the word `safe` or `unsafe`, it is allowed by the grammar
only. -/
def foreignStatic (r : Nested) : Parser (Tokens × Bool) := do
  let mark ← optional (startsOneOf ["unsafe", "safe"]) anyWord
  let head ← word "static"
  let mutable ← optionalWord "mut"
  let name ← ident
  let colon ← op ":"
  let type ← r.typeTokens
  let value ← valueBehind r
  let semi ← op ";"
  return (mark ++ head ++ mutable ++ [.word name] ++ colon ++ type ++ value ++ semi,
    !mark.isEmpty || !value.isEmpty)

/-- A member of a foreign block. -/
def foreignMember (r : Nested) : Parser Tokens :=
  verbatimIf do
    let attrs ← attributes r
    let vis ← visibility
    let startsStatic (ts : Tokens) : Bool := startsWord "static" ts
      || (startsOneOf ["unsafe", "safe"] ts && startsWord "static" (ts.drop 1))
    let (body, raw) ←
      if ← ahead (startsSignature true) then foreignFunction r
      else if ← ahead startsStatic then foreignStatic r
      else if ← ahead (startsWord "type") then
        let t ← typeParts r .both
        pure (t.front ++ t.demands ++ operator ";", t.hasColon || !t.definition.isEmpty)
      else
        guard (vis.isEmpty && (← ahead startsMacro))
        pure (← macroMember false, false)
    return (attrs ++ vis ++ body, raw)

end RuleFormat.Parser
