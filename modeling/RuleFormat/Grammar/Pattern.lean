import RuleFormat.Grammar.Path
import RuleFormat.Token.Literal

/-!
# Patterns

Bindings, literals and ranges, paths with or without sub-patterns, tuples, slices and references.
Alternatives are allowed inside delimiters only.
-/

namespace RuleFormat.Parser

/-- A pattern of which the surroundings need no more than its tokens. -/
def otherPattern (p : Parser Tokens) : Parser PatternForm := do return ⟨← p, .other⟩

/-! ## Ranges -/

/-- Whether tokens end a range that has no upper end. -/
def endsRange (ts : Tokens) : Bool :=
  ts.isEmpty || startsOp "|" ts || startsOp "=" ts || (startsOp ":" ts && !startsOp "::" ts)
    || startsOp "," ts || startsOp ";" ts || startsWord "if" ts

/-- An end of a range: a literal, a path or a constant block. -/
def rangeEnd (r : Nested) : Parser Tokens := do
  if ← ahead startsLiteral then literal
  else if ← ahead fun ts => startsIdent ts || startsOneOf pathWords ts || startsOp "::" ts
      || startsOp "<" ts then
    return (← qualifiedPath r true).1.tokens
  else
    let head ← word "const"
    return head ++ (← attributedBlock r)

/-- The dots of a range, and whether they include its upper end.  Three dots are written as the
operator that replaced them. -/
def rangeDots : Parser (Tokens × Bool) := do
  if ← ahead (startsOp "..=") then return (← op "..=", true)
  else if ← ahead (startsOp "...") then
    let _ ← op "..."
    return (operator "..=", true)
  else return (← op "..", false)

/-- A range that begins with `start`. -/
def rangeFrom (r : Nested) (start : Tokens) : Parser PatternForm := do
  let (dots, closed) ← rangeDots
  if ← ahead endsRange then
    guard (!closed)
    return ⟨start ++ dots, .openRange⟩
  return ⟨start ++ dots ++ (← rangeEnd r), .other⟩

/-- A range without a lower end, or the pattern `..`. -/
def rangeTo (r : Nested) : Parser PatternForm := do
  guard (!(← ahead (startsOp "...")))
  let (dots, closed) ← rangeDots
  if ← ahead endsRange then
    guard (!closed)
    return ⟨dots, .rest⟩
  return ⟨dots ++ (← rangeEnd r), .openRange⟩

/-- A literal or a constant block, or a range that begins with one. -/
def literalPattern (r : Nested) : Parser PatternForm := do
  let start ← rangeEnd r
  if ← ahead (startsOp "..") then rangeFrom r start else return ⟨start, .other⟩

/-! ## Sub-patterns -/

/-- Whether a bar between alternatives stands ahead. -/
def startsBar (ts : Tokens) : Bool := startsOp "|" ts && !startsOp "||" ts && !startsOp "|=" ts

/-- Alternatives with bars between them, and perhaps one in front. -/
def alternatives (r : Nested) : Parser PatternForm := do
  let lead ← optionalOp "|"
  let first ← r.pattern
  let more ← repeatWhile startsBar do
    let bar ← op "|"
    return bar ++ (← r.pattern).tokens
  if lead.isEmpty && more.isEmpty then return first
  return ⟨lead ++ first.tokens ++ more.flatten, .other⟩

/-- Sub-patterns with commas between them. -/
def patternList (r : Nested) : Parser Tokens :=
  commaList do return (← alternatives r).tokens

/-- Sub-patterns of a slice, none of which is a range with one end only. -/
def sliceContent (r : Nested) : Parser Tokens :=
  commaList do
    let p ← alternatives r
    match p.shape with
    | .openRange => failure
    | _ => return p.tokens

/-- The value of a whole number in some base, in which underscores do not count. -/
def wholeNumber? (base : Nat) (digits : Text) : Option Nat :=
  (digits.filter (· != '_')).foldlM (fun n c => do
    let d ← Literal.hexValue? c
    if d < base then some (n * base + d) else none) 0

/-- The number of a field: an integer without a suffix, below `2 ^ 32`. -/
def fieldNumber? (t : Text) : Option Nat := do
  let n ←
    match t with
    | '0' :: 'x' :: ds => wholeNumber? 16 ds
    | '0' :: 'o' :: ds => wholeNumber? 8 ds
    | '0' :: 'b' :: ds => wholeNumber? 2 ds
    | ds => if isNumber ds then wholeNumber? 10 ds else none
  if n < Nat.pow 2 32 then some n else none

/-- The number of a field, which is written in decimal digits. -/
def fieldNumber : Parser Tokens := fun ts =>
  match ts with
  | .literal t :: rest => (fieldNumber? t).map fun n => ([.literal (decimal n)], rest)
  | _ => none

/-- A field of a structure pattern. -/
def fieldPattern (r : Nested) : Parser Tokens := do
  if ← ahead (startsWord "box") then
    verbatim do
      let head ← word "box"
      let ref ← optionalWord "ref"
      let mutable ← optionalWord "mut"
      return head ++ ref ++ mutable ++ [.word (← ident)]
  else
    let ref ← optionalWord "ref"
    let mutable ← optionalWord "mut"
    let marks := ref ++ mutable
    if marks.isEmpty && !(← ahead startsIdent) then
      let name ← fieldNumber
      let colon ← op ":"
      return name ++ colon ++ (← alternatives r).tokens
    let name : Tokens := [.word (← ident)]
    if marks.isEmpty && (← ahead (startsOp ":")) then
      let colon ← op ":"
      return name ++ colon ++ (← alternatives r).tokens
    return marks ++ name

/-- The content of a structure pattern: fields, and perhaps `..` behind them. -/
def structContent (r : Nested) : Parser Tokens := do
  let all ← repeatWhile (fun ts => !ts.isEmpty) do
    let attrs ← attributes r
    if ← ahead (startsOp "..") then
      let dots ← op ".."
      guard (← ahead List.isEmpty)
      return attrs ++ dots
    let field ← separated List.isEmpty (fieldPattern r)
    return attrs ++ field
  return all.flatten

/-! ## Patterns that begin with a path -/

/-- Whether a path that is more than a binding stands ahead. -/
def startsPathPattern (ts : Tokens) : Bool :=
  let next := ts.drop 1
  (startsIdent ts && (startsOp "::" next || startsOp "!" next || startsGroup .curly next
      || startsGroup .round next || startsOp ".." next))
    || (startsWord "self" ts && startsOp "::" next)
    || startsOp "::" ts || startsOp "<" ts || startsOneOf ["Self", "super", "crate"] ts

/-- A path, a macro, a structure, a tuple structure, or a range that begins with a path. -/
def pathPattern (r : Nested) : Parser PatternForm := do
  let (p, qualified) ← qualifiedPath r true
  if !qualified && p.isPlain && (← ahead startsMacroMark) then
    return ⟨p.tokens ++ (← macroCall), .other⟩
  if ← ahead (startsGroup .curly) then
    return ⟨p.tokens ++ (← group .curly (structContent r)), .other⟩
  else if ← ahead (startsGroup .round) then
    return ⟨p.tokens ++ (← group .round (patternList r)), .other⟩
  else if ← ahead (startsOp "..") then rangeFrom r p.tokens
  else return ⟨p.tokens, .other⟩

/-! ## All patterns -/

/-- A binding: `ref mut name @ pattern`, of which the name alone is required. -/
def bindingPattern (r : Nested) : Parser PatternForm := do
  let ref ← optionalWord "ref"
  let mutable ← optionalWord "mut"
  guard (← ahead fun ts => startsIdent ts || startsWord "self" ts)
  let name ← anyWord
  let sub ← optional (startsOp "@") do
    let mark ← op "@"
    return mark ++ (← r.pattern).tokens
  return ⟨ref ++ mutable ++ name ++ sub, .binding (RuleFormat.render name)⟩

/-- A reference pattern: `&mut pattern`, `mut` being optional. -/
def referencePattern (r : Nested) : Parser Tokens := do
  let mark ← op "&"
  let mutable ← optionalWord "mut"
  return mark ++ mutable ++ (← r.pattern).tokens

/-- A boxed pattern, taken as it stands. -/
def boxPattern (r : Nested) : Parser PatternForm := do
  let tokens ← verbatim do
    let head ← word "box"
    return head ++ (← r.pattern).tokens
  return ⟨tokens, .verbatim⟩

/-- A pattern without alternatives of its own. -/
def pattern (r : Nested) : Parser PatternForm := do
  if ← ahead startsPathPattern then pathPattern r
  else if ← ahead (startsWord "_") then otherPattern anyWord
  else if ← ahead (startsWord "box") then boxPattern r
  else if ← ahead fun ts => startsOp "-" ts || startsLiteral ts || startsWord "const" ts then
    literalPattern r
  else if ← ahead fun ts => startsOneOf ["ref", "mut", "self"] ts || startsIdent ts then
    bindingPattern r
  else if ← ahead (startsOp "&") then otherPattern (referencePattern r)
  else if ← ahead (startsGroup .round) then otherPattern (group .round (patternList r))
  else if ← ahead (startsGroup .square) then otherPattern (group .square (sliceContent r))
  else if ← ahead (startsOp "..") then rangeTo r
  else failure

end RuleFormat.Parser
