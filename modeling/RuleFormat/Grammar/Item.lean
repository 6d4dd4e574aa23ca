import RuleFormat.Grammar.Member

/-!
# Items

What a block may declare beside variables: functions, constants, types, modules, names of other
places, traits and implementations.
-/

namespace RuleFormat.Parser

/-- A rule whose tokens are never taken as they stand in the input. -/
def regular (p : Parser Tokens) : Parser (Tokens × Bool) := do return (← p, false)

/-- The content of braces: attributes of the item itself, and members. -/
def memberBlock (r : Nested) (member : Parser Tokens) : Parser Tokens :=
  group .curly do
    let attrs ← innerAttributes r
    return attrs ++ (← repeatWhile (fun ts => !ts.isEmpty) member).flatten

/-! ## Functions and variables -/

/-- A function. -/
def functionItem (r : Nested) : Parser (Tokens × Bool) := do
  let vis ← visibility
  let (body, raw) ← function r
  return (vis ++ body, raw)

/-- A constant. -/
def constantItem (r : Nested) : Parser (Tokens × Bool) := do
  let vis ← visibility
  let (body, raw) ← constant r true
  return (vis ++ body, raw)

/-- A variable that lives as long as the program.  Without a type or a value it is allowed by the
grammar only. -/
def staticItem (r : Nested) : Parser (Tokens × Bool) := do
  let vis ← visibility
  let head ← word "static"
  let mutable ← optionalWord "mut"
  let name ← ident
  let type ← optional (fun ts => !startsOp "=" ts) do return (← op ":") ++ (← r.typeTokens)
  let value ← valueBehind r
  let semi ← op ";"
  return (vis ++ head ++ mutable ++ [.word name] ++ type ++ value ++ semi,
    type.isEmpty || value.isEmpty)

/-! ## Names of other places -/

/-- Behind `as`, another name or none. -/
def otherName : Parser Tokens :=
  optional (startsWord "as") do return (← word "as") ++ (← nameOrBlank)

/-- Whether tokens begin with a segment of a name of another place. -/
def startsUseSegment (ts : Tokens) : Bool :=
  startsIdent ts || startsOneOf ["self", "super", "crate", "try"] ts

/-- One of the names in braces, with the comma behind it.  A double colon in front of it, which
`root` allows, is allowed by the grammar only. -/
def useBranch (r : Nested) (root : Bool) : Parser (Tokens × Bool) := do
  let lead ← if root then optionalOp "::" else pure []
  let (tree, raw) ← r.useTree (root && lead.isEmpty)
  let comma ← if ← ahead List.isEmpty then pure [] else op ","
  return (lead ++ tree ++ comma, raw || !lead.isEmpty)

/-- Names in braces. -/
def useBranches (r : Nested) (root : Bool) : Parser (Tokens × Bool) := fun ts =>
  match ts with
  | .group .curly inner :: rest =>
    match repeatWhile (fun ts => !ts.isEmpty) (useBranch r root) inner with
    | some (all, []) => some (([.group .curly (all.map (·.1)).flatten], all.any (·.2)), rest)
    | _ => none
  | _ => none

/-- The names of other places behind `use`: a path that ends with a name, a star or braces. -/
def useTree (r : Nested) (root : Bool) : Parser (Tokens × Bool) := do
  let segments ← repeatWhile (fun ts => startsUseSegment ts && startsOp "::" (ts.drop 1)) do
    return (← anyWord) ++ (← op "::")
  let front := segments.flatten
  if ← ahead (startsOp "*") then return (front ++ (← op "*"), false)
  else if ← ahead (startsGroup .curly) then
    let (all, raw) ← useBranches r (root && front.isEmpty)
    return (front ++ all, raw)
  else
    guard (← ahead startsUseSegment)
    return (front ++ (← anyWord) ++ (← otherName), false)

/-- A declaration of names of other places. -/
def useItem (r : Nested) : Parser (Tokens × Bool) := do
  let vis ← visibility
  let head ← word "use"
  let lead ← optionalOp "::"
  let (tree, raw) ← useTree r lead.isEmpty
  return (vis ++ head ++ lead ++ tree ++ (← op ";"), raw)

/-- A declaration of another library. -/
def libraryItem : Parser Tokens := do
  let vis ← visibility
  let head := (← word "extern") ++ (← word "crate")
  guard (← ahead fun ts => startsIdent ts || startsWord "self" ts)
  let name ← anyWord
  return vis ++ head ++ name ++ (← otherName) ++ (← op ";")

/-! ## Modules and macros -/

/-- A module, with its items or without. -/
def moduleItem (r : Nested) : Parser Tokens := do
  let vis ← visibility
  let risk ← optionalWord "unsafe"
  let head ← word "mod"
  guard (← ahead fun ts => startsIdent ts || startsWord "try" ts)
  let front := vis ++ risk ++ head ++ (← anyWord)
  if ← ahead (startsOp ";") then return front ++ (← op ";")
  return front ++ (← memberBlock r r.item)

/-- A declaration of a macro, which is allowed by the grammar only. -/
def macroItem : Parser (Tokens × Bool) := do
  let vis ← visibility
  let head ← word "macro"
  let name ← ident
  let params ← optional (startsGroup .round) anyGroup
  guard (← ahead (startsGroup .curly))
  return (vis ++ head ++ [.word name] ++ params ++ (← anyGroup), true)

/-! ## Types -/

/-- Another name for a type. -/
def aliasItem (r : Nested) : Parser (Tokens × Bool) := do
  let vis ← visibility
  let t ← typeParts r .front
  return (vis ++ t.front ++ t.demands ++ t.definition ++ operator ";",
    t.hasColon || t.definition.isEmpty)

/-- A field with a name.  One without a name may be a structure or a union in itself. -/
def namedField (r : Nested) : Parser Tokens := do
  let attrs ← attributes r
  let vis ← visibility
  let isBlank ← ahead (startsWord "_")
  let name ← nameOrBlank
  let colon ← op ":"
  let isStructure ← ahead fun ts => isBlank && (startsWord "struct" ts
    || (startsWord "union" ts && startsGroup .curly (ts.drop 1)))
  let type ←
    if isStructure then verbatim do return (← anyWord) ++ (← group .curly r.fields)
    else r.typeTokens
  return attrs ++ vis ++ name ++ colon ++ type

/-- A field without a name. -/
def plainField (r : Nested) : Parser Tokens := do
  let attrs ← attributes r
  let vis ← visibility
  return attrs ++ vis ++ (← r.typeTokens)

/-- Fields with names. -/
def fields (r : Nested) : Parser Tokens := commaList (namedField r)

/-- Fields with names, in braces. -/
def namedFields (r : Nested) : Parser Tokens := group .curly (fields r)

/-- Fields without names, in parentheses. -/
def plainFields (r : Nested) : Parser Tokens := group .round (commaList (plainField r))

/-- A structure. -/
def structItem (r : Nested) : Parser Tokens := do
  let vis ← visibility
  let head ← word "struct"
  let name ← ident
  let (names, _) ← generics r
  let front := vis ++ head ++ [.word name] ++ names
  let (demands, hasDemands) ← whereClause r
  if !hasDemands && (← ahead (startsGroup .round)) then
    let fields ← plainFields r
    let (demands, _) ← whereClause r
    return front ++ fields ++ demands ++ (← op ";")
  else if ← ahead (startsGroup .curly) then return front ++ demands ++ (← namedFields r)
  else return front ++ demands ++ (← op ";")

/-- A union. -/
def unionItem (r : Nested) : Parser Tokens := do
  let vis ← visibility
  let head ← word "union"
  let name ← ident
  let (names, _) ← generics r
  let (demands, _) ← whereClause r
  return vis ++ head ++ [.word name] ++ names ++ demands ++ (← namedFields r)

/-- A variant of an enumeration.  Its visibility is not written. -/
def variant (r : Nested) : Parser Tokens := do
  let attrs ← attributes r
  let _ ← visibility
  let name ← ident
  let fields ←
    if ← ahead (startsGroup .curly) then namedFields r
    else optional (startsGroup .round) (plainFields r)
  return attrs ++ [.word name] ++ fields ++ (← valueBehind r)

/-- An enumeration. -/
def enumItem (r : Nested) : Parser Tokens := do
  let vis ← visibility
  let head ← word "enum"
  let name ← ident
  let (names, _) ← generics r
  let (demands, _) ← whereClause r
  return vis ++ head ++ [.word name] ++ names ++ demands ++
    (← group .curly (commaList (variant r)))

/-! ## Traits and implementations -/

/-- A trait, or another name for bounds. -/
def traitItem (r : Nested) : Parser Tokens := do
  let vis ← visibility
  let risk ← optionalWord "unsafe"
  let auto ← optionalWord "auto"
  let head ← word "trait"
  let name ← ident
  let (names, _) ← generics r
  let front := vis ++ risk ++ auto ++ head ++ [.word name] ++ names
  let item := r.boundTokens ⟨false, true⟩
  if risk.isEmpty && auto.isEmpty && (← ahead (startsOp "=")) then
    let eq ← op "="
    let all ← boundsUntil (fun ts => startsWord "where" ts || startsOp ";" ts) item
    let (demands, _) ← whereClause r
    return front ++ eq ++ all ++ demands ++ (← op ";")
  let supers ← optional (startsOp ":") do
    let colon ← op ":"
    let all ← boundsUntil (fun ts => startsWord "where" ts || startsGroup .curly ts) item
    return if all.isEmpty then [] else colon ++ all
  let (demands, _) ← whereClause r
  return front ++ supers ++ demands ++ (← memberBlock r (traitMember r))

/-- An implementation of a trait or of a type.  A visibility, the word `const` and a trait that is
no path are allowed by the grammar only. -/
def implItem (r : Nested) : Parser (Tokens × Bool) := do
  let vis ← visibility
  let standard ← optionalWord "default"
  let risk ← optionalWord "unsafe"
  let head ← word "impl"
  let (names, _) ← if ← ahead startsGenerics then generics r else pure ([], false)
  let maybe ← optional (fun ts => startsOp "?" ts && startsWord "const" (ts.drop 1)) (op "?")
  let const ← optionalWord "const"
  let before ← get
  let negative ← optional (fun ts => startsOp "!" ts && !startsGroup .curly (ts.drop 1)) (op "!")
  let first ← r.type true
  let source := before.take (before.length - (← get).length)
  let isTrait ← ahead (startsWord "for")
  let subject := if negative.isEmpty || isTrait then negative ++ first.tokens else source
  let target ← optional (startsWord "for") do return (← word "for") ++ (← r.typeTokens)
  let (demands, _) ← whereClause r
  let members ← memberBlock r (implMember r)
  return (vis ++ standard ++ risk ++ head ++ names ++ maybe ++ const ++ subject
      ++ target ++ demands ++ members,
    !vis.isEmpty || !const.isEmpty || (isTrait && !first.isPath))

/-- A block of foreign functions and variables. -/
def foreignItem (r : Nested) : Parser Tokens := do
  let risk ← optionalWord "unsafe"
  let convention ← callConvention
  return risk ++ convention ++ (← memberBlock r (foreignMember r))

/-! ## All items -/

/-- Whether a foreign block stands ahead, from the word `extern` on. -/
def startsForeign (ts : Tokens) : Bool :=
  startsWord "extern" ts && startsGroup .curly (behindConvention ts)

/-- Whether the word `auto` in front of a trait stands ahead. -/
def startsAutoTrait (ts : Tokens) : Bool := startsWord "auto" ts && startsWord "trait" (ts.drop 1)

/-- An item without its attributes, from what is behind its visibility. -/
def itemBody (r : Nested) : Parser (Tokens × Bool) := do
  let rest := behindVisibility (← get)
  let next := rest.drop 1
  if startsSignature false rest then functionItem r
  else if startsWord "extern" rest && startsWord "crate" next then regular libraryItem
  else if startsForeign rest then regular (foreignItem r)
  else if startsWord "use" rest then useItem r
  else if startsWord "static" rest then staticItem r
  else if startsWord "const" rest then constantItem r
  else if startsWord "unsafe" rest then
    if startsWord "trait" next || startsAutoTrait next then regular (traitItem r)
    else if startsWord "impl" next then implItem r
    else if startsWord "extern" next then regular (foreignItem r)
    else regular (moduleItem r)
  else if startsWord "mod" rest then regular (moduleItem r)
  else if startsWord "type" rest then aliasItem r
  else if startsWord "struct" rest then regular (structItem r)
  else if startsWord "enum" rest then regular (enumItem r)
  else if startsWord "union" rest && startsIdent next then regular (unionItem r)
  else if startsWord "trait" rest || startsAutoTrait rest then regular (traitItem r)
  else if startsWord "impl" rest || (startsWord "default" rest && !startsOp "!" next) then
    implItem r
  else if startsWord "macro" rest then macroItem
  else
    guard (!(← ahead (startsWord "pub")) && startsMacro rest)
    regular (macroMember true)

/-- An item with its attributes. -/
def item (r : Nested) : Parser Tokens :=
  verbatimIf do
    let attrs ← attributes r
    let (body, raw) ← itemBody r
    return (attrs ++ body, raw)

end RuleFormat.Parser
