import RuleFormat.Grammar.Path

/-!
# Types

Paths, references, pointers, slices and arrays, tuples, function pointers, and sums of bounds with
or without `impl` and `dyn`.
-/

namespace RuleFormat.Parser

/-- A type of which the surroundings need no more than its tokens. -/
def otherType (p : Parser Tokens) : Parser TypeForm := do return ⟨← p, .other, false⟩

/-! ## Function pointers -/

/-- The convention behind `extern`. -/
def callConvention : Parser Tokens :=
  optional (startsWord "extern") do
    let head ← word "extern"
    let name ← optional (fun
      | .literal t :: _ => isString t
      | _ => false) literal
    return head ++ name

/-- Whether a name and a colon stand ahead. -/
def startsNamed (first : Bool) (ts : Tokens) : Bool :=
  (startsIdent ts || startsWord "_" ts || (first && startsWord "self" ts))
    && startsOp ":" (ts.drop 1) && !startsOp "::" (ts.drop 1)

/-- Whether `mut self` stands ahead. -/
def startsMutSelf (ts : Tokens) : Bool := startsWord "mut" ts && startsWord "self" (ts.drop 1)

/-- An argument of a function pointer; `first` allows it to be one for `self`.  An argument with
`mut self` is written as it stands in the input. -/
def pointerArgument (r : Nested) (first : Bool) : Parser Tokens :=
  verbatimIf do
    let isMutable ← ahead fun ts => first && startsMutSelf ts
    let head ← if isMutable then word "mut" else pure []
    let isSelf ← ahead (startsWord "self")
    let name ← optional (startsNamed first) do return (← anyWord) ++ (← op ":")
    if first && (name.isEmpty || !isSelf) && (← ahead startsMutSelf) then
      return (head ++ name ++ (← word "mut") ++ (← word "self"), true)
    else if isMutable && name.isEmpty then
      return (head ++ (← word "self"), true)
    else
      return (head ++ name ++ (← r.typeTokens), isMutable)

/-- Whether the dots that stand for further arguments stand ahead, with or without a name. -/
def startsVariadic (ts : Tokens) : Bool :=
  startsOp "..." ts
    || ((startsIdent ts || startsWord "_" ts) && startsOp ":" (ts.drop 1)
      && startsOp "..." (ts.drop 2))

/-- The dots that stand for further arguments, which nothing but a comma may follow. -/
def variadic : Parser Tokens := do
  let name ← optional startsAnyWord do return (← anyWord) ++ (← op ":")
  let dots ← op "..."
  let comma ← optionalOp ","
  guard (← ahead List.isEmpty)
  return name ++ dots ++ comma

/-- One argument of a function pointer with the comma behind it. -/
def pointerItem (r : Nested) (first : Bool) : Parser Tokens := do
  let attrs ← attributes r
  if ← ahead startsVariadic then return attrs ++ (← variadic)
  let arg ← separated List.isEmpty (pointerArgument r first)
  return attrs ++ arg

/-- The arguments of a function pointer. -/
def pointerArguments (r : Nested) : Parser Tokens := do
  if ← ahead List.isEmpty then return []
  let first ← pointerItem r true
  let more ← repeatWhile (fun ts => !ts.isEmpty) (pointerItem r false)
  return first ++ more.flatten

/-- A function pointer behind the names that it introduces. -/
def functionPointer (r : Nested) : Parser TypeForm := do
  let mark ← optionalWord "unsafe"
  let convention ← callConvention
  let head ← word "fn"
  let args ← group .round (pointerArguments r)
  let (output, endsBare) ← returnType r
  return ⟨mark ++ convention ++ head ++ args ++ output, .other, endsBare⟩

/-! ## Types in parentheses -/

/-- A bound in parentheses, and further bounds, each behind a plus sign. -/
def requiredBounds (r : Nested) (first : BoundForm) : Parser BoundForm := do
  let more ← repeatWhile (startsOp "+") do
    let plus ← op "+"
    let b ← bound r plainPlace
    return { b with tokens := plus ++ b.tokens }
  let all := first :: more
  return {
    tokens := (all.map (·.tokens)).flatten
    isTrait := true
    endsBare := (all.getLast?.map (·.endsBare)).getD false }

/-- What stands in parentheses where a type is expected. -/
inductive RoundForm where
  | unit
  /-- A sum of bounds that begins with a lifetime. -/
  | sum (tokens : Tokens)
  /-- A bound that may be missing. -/
  | maybe (bound : TraitForm)
  | tuple (tokens : Tokens)
  | single (type : TypeForm)

/-- The content of parentheses where a type is expected. -/
def roundContent (r : Nested) : Parser RoundForm := do
  if ← ahead List.isEmpty then return .unit
  if ← ahead startsLifetime then return .sum (← bounds r true plainPlace).tokens
  if ← ahead (startsOp "?") then return .maybe (← traitBound r plainPlace)
  let first ← r.type true
  if ← ahead (startsOp ",") then
    let comma ← op ","
    return .tuple (first.tokens ++ comma ++ (← commaList r.typeTokens))
  return .single first

/-- A type that begins with parentheses. -/
def roundType (r : Nested) (sum : Bool) : Parser TypeForm := fun ts =>
  match ts with
  | .group .round inner :: rest =>
    match roundContent r inner with
    | some (form, []) =>
      let enclosed (out : Tokens) : Tokens := [.group .round out]
      let sumFrom (out : Tokens) : Parser TypeForm := do
        let all ← requiredBounds r ⟨enclosed out, true, false⟩
        return ⟨all.tokens, .other, all.endsBare⟩
      let single (first : TypeForm) : Parser TypeForm := do
        if sum && (← ahead (startsOp "+")) then
          match first.shape with
          | .name | .path => sumFrom first.tokens
          | .bound out => sumFrom out
          | .other => return ⟨enclosed first.tokens, .other, false⟩
        else return ⟨enclosed first.tokens, .other, false⟩
      match form with
      | .unit => some (⟨enclosed [], .other, false⟩, rest)
      | .sum out => some (⟨enclosed out, .other, false⟩, rest)
      | .tuple out => some (⟨enclosed out, .other, false⟩, rest)
      | .maybe b =>
        let all : Parser TypeForm := do
          let isAlone ← ahead fun ts => !startsOp "+" ts
          let all ← requiredBounds r ⟨enclosed b.tokens, true, b.endsBare⟩
          return ⟨all.tokens, if isAlone then .bound b.tokens else .other, all.endsBare⟩
        all rest
      | .single first => single first rest
    | _ => none
  | _ => none

/-! ## Types that begin with a path -/

/-- The words that begin a path. -/
def startsPathWord (ts : Tokens) : Bool := startsIdent ts || startsOneOf pathWords ts

/-- A path, a macro, or a sum of bounds that begins with a path.  `names` are the names that a `for`
in front has introduced. -/
def pathType (r : Nested) (sum : Bool) (names : Tokens) : Parser TypeForm := do
  let (p, qualified) ← qualifiedPath r false
  if qualified then return ⟨p.tokens, .other, p.endsBare⟩
  if p.isPlain && (← ahead startsMacroMark) then return ⟨p.tokens ++ (← macroCall), .other, false⟩
  if !names.isEmpty || (sum && (← ahead (startsOp "+"))) then
    let first := names ++ p.tokens
    let isAlone ← ahead fun ts => !(sum && startsOp "+" ts)
    let form : BoundForm := ⟨first, true, p.endsBare⟩
    let all ← if sum then boundsFrom r plainPlace form else pure form
    return ⟨all.tokens, if isAlone then .bound first else .other, all.endsBare⟩
  return ⟨p.tokens, if p.isName then .name else .path, p.endsBare⟩

/-! ## All types -/

/-- The content of square brackets where a type is expected: a slice or an array. -/
def squareContent (r : Nested) : Parser Tokens := do
  let elem ← r.typeTokens
  if ← ahead (startsOp ";") then
    let semi ← op ";"
    return elem ++ semi ++ (← r.exprTokens)
  return elem

/-- A pointer: `*const T` or `*mut T`. -/
def pointerType (r : Nested) : Parser TypeForm := do
  let star ← op "*"
  let kind ← if ← ahead (startsWord "const") then word "const" else word "mut"
  let target ← r.type false
  return ⟨star ++ kind ++ target.tokens, .other, target.endsBare⟩

/-- A reference: `&'a mut T`, the lifetime and `mut` being optional. -/
def referenceType (r : Nested) : Parser TypeForm := do
  let mark ← op "&"
  let life ← optional startsLifetime lifetime
  let mutable ← optionalWord "mut"
  let target ← r.type false
  return ⟨mark ++ life ++ mutable ++ target.tokens, .other, target.endsBare⟩

/-- A sum of bounds behind `dyn`.  With a star behind `dyn` it is written as it stands in the
input. -/
def dynType (r : Nested) (sum : Bool) : Parser TypeForm := do
  if ← ahead fun ts => startsOp "*" (ts.drop 1) then
    otherType (verbatim do
      let _ ← word "dyn"
      let _ ← op "*"
      bounds r sum plainPlace)
  else
    let head ← word "dyn"
    let all ← bounds r sum plainPlace
    return ⟨head ++ all.tokens, .other, all.endsBare⟩

/-- A sum of bounds behind `impl`. -/
def implType (r : Nested) (sum : Bool) : Parser TypeForm := do
  let head ← word "impl"
  let all ← bounds r sum ⟨true, true⟩
  return ⟨head ++ all.tokens, .other, all.endsBare⟩

/-- A sum of bounds that begins with a lifetime.  It is one wherever it stands. -/
def lifetimeSum (r : Nested) : Parser TypeForm := do
  let all ← bounds r true plainPlace
  return ⟨all.tokens, .other, all.endsBare⟩

/-- The words that begin a function pointer. -/
def pointerWords : List Text := ["fn", "unsafe", "extern"]

/-- A type behind the names that a `for` in front of it has introduced. -/
def boundType (r : Nested) (sum : Bool) : Parser TypeForm := do
  let names ← binders r
  guard (← ahead fun ts => startsPathWord ts || startsOneOf pointerWords ts)
  if ← ahead (startsOneOf pointerWords) then
    let pointer ← functionPointer r
    return { pointer with tokens := names ++ pointer.tokens }
  pathType r sum names

/-- A type; `sum` allows it to be a sum of bounds. -/
def type (r : Nested) (sum : Bool) : Parser TypeForm := do
  if ← ahead (startsWord "for") then boundType r sum
  else if ← ahead (startsGroup .round) then roundType r sum
  else if ← ahead (startsOneOf pointerWords) then functionPointer r
  else if ← ahead fun ts => startsPathWord ts || startsOp "::" ts || startsOp "<" ts then
    pathType r sum []
  else if ← ahead (startsWord "dyn") then dynType r sum
  else if ← ahead (startsGroup .square) then otherType (group .square (squareContent r))
  else if ← ahead (startsOp "*") then pointerType r
  else if ← ahead (startsOp "&") then referenceType r
  else if ← ahead (startsOp "!") then otherType (op "!")
  else if ← ahead (startsWord "impl") then implType r sum
  else if ← ahead (startsWord "_") then otherType anyWord
  else if ← ahead startsLifetime then lifetimeSum r
  else failure

end RuleFormat.Parser
