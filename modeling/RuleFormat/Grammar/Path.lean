import RuleFormat.Grammar.Nested

/-!
# Paths, arguments and bounds

A path is a sequence of segments, each of which may have arguments in angle brackets; a bound may
have arguments in parentheses instead.  Among arguments in angle brackets lifetimes are written
first.
-/

namespace RuleFormat.Parser

/-! ## Arguments in angle brackets -/

/-- An argument, and whether a comma followed it. -/
structure Argument where
  isLifetime : Bool
  value : Tokens
  comma : Bool

/-- Writes arguments out; `separated` says that no comma is due in front of the first one. -/
def writeArguments : Bool → List Argument → Tokens
  | _, [] => []
  | separated, a :: as =>
    (if separated then [] else operator ",") ++ a.value ++ (if a.comma then operator "," else [])
      ++ writeArguments a.comma as

/-- Arguments as they are written out: lifetimes first, each with the comma that it had, and a
comma where two of them would touch. -/
def arrange (args : List Argument) : Tokens :=
  writeArguments true (args.filter (·.isLifetime) ++ args.filter (!·.isLifetime))

/-- Arguments up to the closing angle bracket. -/
def argumentList (item : Parser (Bool × Tokens)) : Parser Tokens := do
  let args ← repeatWhile (fun ts => !startsOp ">" ts) do
    let (isLifetime, value) ← item
    if ← ahead (startsOp ">") then return ⟨isLifetime, value, false⟩
    let _ ← op ","
    return (⟨isLifetime, value, true⟩ : Argument)
  return arrange args

/-- An argument that is a constant: a literal, a name or a block. -/
def constArgument (r : Nested) : Parser Tokens := do
  if ← ahead startsLiteral then literal
  else if ← ahead startsIdent then anyWord
  else attributedBlock r

/-! ## Segments -/

/-- Whether arguments in angle brackets stand ahead.  In an expression a bare angle bracket is an
operator, and arguments need the double colon in front. -/
def startsArguments (inExpr : Bool) (ts : Tokens) : Bool :=
  (!inExpr && startsOp "<" ts && !startsOp "<=" ts && !startsOp "<<=" ts)
    || (startsOp "::" ts && startsOp "<" (ts.drop 2))

/-- The reserved words that are segments without arguments. -/
def bareSegments : List Text := ["super", "self", "crate", "try"]

/-- A segment of a path. -/
structure Segment where
  /-- The name, with the double colon in front that divides it from other segments. -/
  name : Tokens
  /-- The arguments in angle brackets with the brackets, when there are brackets. -/
  arguments : Tokens
  /-- Whether there is nothing between the brackets. -/
  isHollow : Bool

/-- A segment as it is written out. -/
def Segment.tokens (s : Segment) : Tokens := s.name ++ s.arguments

/-- A path as it is written out. -/
structure PathForm where
  tokens : Tokens
  /-- Whether it has a single segment and no double colon in front. -/
  isName : Bool
  /-- Whether no segment has arguments. -/
  isPlain : Bool
  /-- Whether the last segment has no arguments. -/
  endsBare : Bool
  /-- The path without the brackets of its last segment, when there is nothing between them. -/
  stem? : Option Tokens

/-- The path of the segments `front` and `last`. -/
def PathForm.ofSegments (front : List Segment) (last : Segment) : PathForm where
  tokens := (front.map Segment.tokens).flatten ++ last.tokens
  isName := front.isEmpty
  isPlain := (front ++ [last]).all (·.arguments.isEmpty)
  endsBare := last.arguments.isEmpty
  stem? := if last.isHollow then some ((front.map Segment.tokens).flatten ++ last.name) else none

/-- Arguments in angle brackets; the flag says that there are none between the brackets. -/
def angleArguments (r : Nested) : Parser (Tokens × Bool) := do
  let lead ← optionalOp "::"
  let lt ← op "<"
  let args ← r.arguments
  return (lead ++ lt ++ args ++ (← op ">"), args.isEmpty)

/-- A segment of a path, behind a separator. -/
def segment (r : Nested) (inExpr : Bool) (separator : Tokens) : Parser Segment := do
  if ← ahead (startsOneOf bareSegments) then return ⟨separator ++ (← anyWord), [], true⟩
  guard (← ahead fun ts => startsIdent ts || startsWord "Self" ts)
  let name ← anyWord
  if ← ahead (startsArguments inExpr) then
    let (args, isHollow) ← angleArguments r
    return ⟨separator ++ name, args, isHollow⟩
  return ⟨separator ++ name, [], true⟩

/-- The segments behind a path's first one, as long as `go` holds of what follows. -/
def moreSegments (r : Nested) (inExpr : Bool) (go : Tokens → Bool) : Parser (List Segment) :=
  repeatWhile go do
    let sep ← op "::"
    segment r inExpr sep

/-- A path without a self type. -/
def path (r : Nested) (inExpr : Bool) : Parser PathForm := do
  let lead ← optionalOp "::"
  let first ← segment r inExpr lead
  let more ← moreSegments r inExpr fun ts => startsOp "::" ts && !startsGroup .round (ts.drop 2)
  let all := first :: more
  let form := PathForm.ofSegments all.dropLast (all.getLast?.getD first)
  return { form with isName := form.isName && lead.isEmpty }

/-- A path that may begin with a self type in angle brackets; the flag says whether it does. -/
def qualifiedPath (r : Nested) (inExpr : Bool) : Parser (PathForm × Bool) := do
  if ← ahead (startsOp "<") then
    let lt ← op "<"
    let self ← r.typeTokens
    let as ← optional (startsWord "as") do
      let head ← word "as"
      return head ++ (← path r false).tokens
    let gt ← op ">"
    let sep ← op "::"
    let first ← segment r inExpr sep
    let all := first :: (← moreSegments r inExpr (startsOp "::"))
    let form := PathForm.ofSegments all.dropLast (all.getLast?.getD first)
    return ({ form with tokens := lt ++ self ++ as ++ gt ++ form.tokens }, true)
  else
    return (← path r inExpr, false)

/-- Whether a macro's mark stands ahead. -/
def startsMacroMark (ts : Tokens) : Bool := startsOp "!" ts && !startsOp "!=" ts

/-- The mark and the arguments of a macro. -/
def macroCall : Parser Tokens := do
  let mark ← op "!"
  return mark ++ (← anyGroup)

/-! ## Bounds -/

/-- The type behind an arrow, when there is one; the flag says that it ends with a path without
arguments. -/
def returnType (r : Nested) : Parser (Tokens × Bool) := do
  if ← ahead (startsOp "->") then
    let arrow ← op "->"
    let type ← r.type false
    return (arrow ++ type.tokens, type.endsBare)
  return ([], false)

/-- Arguments in parentheses, and the type behind an arrow. -/
def roundArguments (r : Nested) : Parser (Tokens × Bool) := do
  let args ← group .round (commaList r.typeTokens)
  let (output, endsBare) ← returnType r
  return (args ++ output, endsBare)

/-- Whether tokens end a list of bounds in angle brackets. -/
def endsBounds (ts : Tokens) : Bool := startsOp "," ts || startsOp ">" ts || startsOp "=" ts

/-- Bounds behind a colon, joined by plus signs; there may be none at all. -/
def boundsUntil (stop : Tokens → Bool) (item : Parser Tokens) : Parser Tokens := do
  if ← ahead stop then return []
  let first ← item
  let more ← repeatWhile (startsOp "+") do
    let plus ← op "+"
    if ← ahead stop then return plus
    return plus ++ (← item)
  return first ++ more.flatten

/-- A colon and bounds; the colon is not written when no bound follows it. -/
def colonBounds (item : Parser Tokens) : Parser Tokens :=
  optional (startsOp ":") do
    let colon ← op ":"
    let all ← boundsUntil endsBounds item
    return if all.isEmpty then [] else colon ++ all

/-- A place where a bound is one by a lifetime or a trait only. -/
def plainPlace : BoundPlace := ⟨false, false⟩

/-- A name that a `for` introduces: a lifetime, a type or a constant. -/
def binder (r : Nested) : Parser Tokens := do
  let attrs ← attributes r
  if ← ahead startsLifetime then
    let name ← lifetime
    return attrs ++ name ++ (← colonBounds lifetime)
  if ← ahead (startsWord "const") then
    let name := (← word "const") ++ [.word (← ident)]
    let colon ← op ":"
    let type ← r.typeTokens
    let value ← optional (startsOp "=") do return (← op "=") ++ (← constArgument r)
    return attrs ++ name ++ colon ++ type ++ value
  let name : Tokens := [.word (← ident)]
  let bounds ← colonBounds (r.boundTokens ⟨false, true⟩)
  let value ← optional (startsOp "=") do return (← op "=") ++ (← r.typeTokens)
  return attrs ++ name ++ bounds ++ value

/-- Whether names in angle brackets stand ahead, rather than a self type. -/
def startsGenerics (ts : Tokens) : Bool :=
  let second := ts.drop 1
  let third := ts.drop 2
  startsOp "<" ts && (startsOp ">" second || startsOp "#" second || startsWord "const" second
    || ((startsLifetime second || startsIdent second)
      && (startsOp ">" third || startsOp "," third || startsOp "=" third
        || (startsOp ":" third && !startsOp "::" third))))

/-- The names that a `for` introduces, when one stands ahead. -/
def binders (r : Nested) : Parser Tokens :=
  optional (startsWord "for") do
    let head ← word "for"
    let lt ← op "<"
    let names ← listUntil (startsOp ">") (binder r)
    return head ++ lt ++ names ++ (← op ">")

/-- The names that a precise capture lists. -/
def capture : Parser Tokens := do
  let head ← word "use"
  let lt ← op "<"
  let names ← argumentList do
    if ← ahead startsLifetime then return (true, ← lifetime)
    guard (← ahead fun ts => startsIdent ts || startsWord "Self" ts)
    return (false, ← anyWord)
  return head ++ lt ++ names ++ (← op ">")

/-- Whether arguments in parentheses stand ahead, with or without a double colon. -/
def startsRoundArguments (ts : Tokens) : Bool :=
  startsGroup .round ts || (startsOp "::" ts && startsGroup .round (ts.drop 2))

/-- The path of a trait.  Arguments in parentheses stand in place of brackets with nothing between
them, and the double colon in front of them is not written. -/
def traitPath (r : Nested) : Parser (Tokens × Bool) := do
  let p ← path r false
  match p.stem? with
  | some stem =>
    if ← ahead startsRoundArguments then
      let _ ← optionalOp "::"
      let (args, endsBare) ← roundArguments r
      return (stem ++ args, endsBare)
    return (p.tokens, p.endsBare)
  | none => return (p.tokens, p.endsBare)

/-- A bound by a trait, before it is known whether it stands in parentheses. -/
structure TraitForm where
  tokens : Tokens
  /-- Whether it has the mark `const`, by which the whole bound is written as it stands in the
  input. -/
  isConst : Bool
  /-- Whether it ends with a path that has no arguments. -/
  endsBare : Bool

/-- A bound by a trait. -/
def traitBound (r : Nested) (place : BoundPlace) : Parser TraitForm := do
  let names ← binders r
  let const ←
    if ← ahead (startsGroup .square) then group .square (word "const") else optionalWord "const"
  guard (const.isEmpty || place.const)
  let maybe ← optionalOp "?"
  let late ← if names.isEmpty && !maybe.isEmpty then binders r else pure []
  let (path, endsBare) ← traitPath r
  guard (maybe.isEmpty || (names.isEmpty && late.isEmpty))
  return ⟨names ++ const ++ maybe ++ path, !const.isEmpty, endsBare⟩

/-- A bound by a trait that may stand in parentheses. -/
def enclosedTrait (r : Nested) (place : BoundPlace) : Parser TraitForm := fun ts =>
  match ts with
  | .group .round inner :: rest =>
    match traitBound r place inner with
    | some (t, []) => some ({ t with tokens := [.group .round t.tokens] }, rest)
    | _ => none
  | _ => traitBound r place ts

/-- One bound: a lifetime, a precise capture, or a trait that may stand in parentheses. -/
def bound (r : Nested) (place : BoundPlace) : Parser BoundForm := do
  if ← ahead startsLifetime then return ⟨← lifetime, false, false⟩
  if ← ahead (startsWord "use") then
    guard place.capture
    return ⟨← capture, false, false⟩
  let t ← keepingIf (·.isConst) (fun _ source => ⟨source, true, false⟩) (enclosedTrait r place)
  return ⟨t.tokens, true, t.endsBare⟩

/-- Whether tokens go on with a bound behind a plus sign. -/
def startsBound (place : BoundPlace) (ts : Tokens) : Bool :=
  startsAnyWord ts || startsOp "::" ts || startsOp "?" ts || startsLifetime ts
    || startsGroup .round ts || (place.const && startsGroup .square ts)

/-- Further bounds, each behind a plus sign. -/
def moreBounds (r : Nested) (place : BoundPlace) : Parser (List BoundForm) := do
  let more ← repeatWhile (fun ts => startsOp "+" ts && startsBound place (ts.drop 1)) do
    let plus ← op "+"
    let b ← bound r place
    return { b with tokens := plus ++ b.tokens }
  return more

/-- What follows the first one of several bounds, and perhaps one plus sign more.  The bounds
together end as the last one does. -/
def boundsFrom (r : Nested) (place : BoundPlace) (first : BoundForm) : Parser BoundForm := do
  let more ← moreBounds r place
  let plus ← optionalOp "+"
  let all := first :: more
  return {
    tokens := (all.map (·.tokens)).flatten ++ plus
    isTrait := all.any (·.isTrait)
    endsBare := (all.getLast?.map (·.endsBare)).getD false }

/-- The bounds behind `impl` or `dyn`, of which one at least is by a trait; several are allowed
when `sum` holds. -/
def bounds (r : Nested) (sum : Bool) (place : BoundPlace) : Parser BoundForm := do
  let first ← bound r place
  let all ← if sum then boundsFrom r place first else pure first
  guard all.isTrait
  return all

/-! ## Arguments -/

/-- An argument in angle brackets, and whether it is a lifetime. -/
def argument (r : Nested) : Parser (Bool × Tokens) := do
  if ← ahead fun ts => startsLifetime ts && !startsOp "+" (ts.drop 1) then
    return (true, ← lifetime)
  if ← ahead fun ts => startsLiteral ts || startsGroup .curly ts then
    return (false, ← constArgument r)
  let type ← r.type true
  match type.shape with
  | .name =>
    if ← ahead (startsOp "=") then
      let eq ← op "="
      let value ←
        if ← ahead fun ts => startsLiteral ts || startsGroup .curly ts then constArgument r
        else r.typeTokens
      return (false, type.tokens ++ eq ++ value)
    if ← ahead (startsOp ":") then
      let colon ← op ":"
      let all ← boundsUntil (fun ts => startsOp "," ts || startsOp ">" ts)
        (r.boundTokens ⟨false, true⟩)
      return (false, type.tokens ++ colon ++ all)
    return (false, type.tokens)
  | _ => return (false, type.tokens)

/-- The arguments between angle brackets. -/
def arguments (r : Nested) : Parser Tokens := argumentList (argument r)

end RuleFormat.Parser
