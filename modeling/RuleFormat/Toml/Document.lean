import RuleFormat.Toml.Scalar
import RuleFormat.Toml.Value

/-!
# Documents

A document is a sequence of statements: assignments, headers of tables and headers of elements of
arrays of tables.  An assignment goes into the table of the last header before it.

Arrays and inline tables may be nested up to `maxDepth`, and a key may have as many parts.
-/

namespace RuleFormat.Toml

/-- What is behind blanks, line endings and comments. -/
def gap : (inComment : Bool) → Text → Text
  | _, [] => []
  | _, '\n' :: cs => gap false cs
  | _, '\r' :: '\n' :: cs => gap false cs
  | true, c :: cs => if isPlain c then gap true cs else c :: cs
  | false, c :: cs =>
    if isSpace c then gap false cs else if c = '#' then gap true cs else c :: cs

/-- What is behind blanks, a comment if there is one, and the end of the line. -/
def afterLine? (t : Text) : Option Text :=
  let rest :=
    match t.dropWhile isSpace with
    | '#' :: cs => cs.dropWhile isPlain
    | cs => cs
  if rest.isEmpty then some [] else afterNewline? rest

/-! ## Keys -/

/-- The characters of keys without quotes. -/
def isBare (c : Char) : Bool :=
  isDigit c || ('a' ≤ c && c ≤ 'z') || ('A' ≤ c && c ≤ 'Z') || c == '_' || c == '-'

/-- A key without dots. -/
def key? (t : Text) : Option (Text × Text) :=
  match lineString? t with
  | some r => some r
  | none =>
    let name := t.takeWhile isBare
    if name.isEmpty then none else some (name, t.dropWhile isBare)

/-- At most `n` keys with dots between them, and the blanks behind. -/
def keys? : Nat → Text → Option (List Text × Text)
  | 0, _ => none
  | n + 1, t => do
    let (k, rest) ← key? t
    match rest.dropWhile isSpace with
    | '.' :: rest =>
      let (ks, rest) ← keys? n (rest.dropWhile isSpace)
      return (k :: ks, rest)
    | rest => return ([k], rest)

/-- How deep arrays and inline tables may be nested, and how many parts a key may have. -/
def maxDepth : Nat := 80

/-- A key with its dots, and the blanks around it. -/
def dottedKey? (t : Text) : Option (List Text × Text) :=
  keys? maxDepth (t.dropWhile isSpace)

/-! ## Values -/

/-- The characters of scalars without quotes. -/
def isScalar (c : Char) : Bool := isBare c || c == '+' || c == '.' || c == ':'

/-- A scalar without quotes.  A single blank may divide a date from a time. -/
def scalar? (t : Text) : Option (Value × Text) :=
  let first := t.takeWhile isScalar
  let rest := t.dropWhile isScalar
  let apart : Option (Value × Text) :=
    match rest with
    | ' ' :: behind =>
      let second := behind.takeWhile isScalar
      if afterDate? first = some [] ∧ isMoment (first ++ ' ' :: second) then
        some (.moment, behind.dropWhile isScalar)
      else none
    | _ => none
  match apart with
  | some r => some r
  | none => (bare? first).map (·, rest)

/-- At most `n` items up to the character `close`, a comma between two of them and perhaps behind
the last. -/
def itemsUpTo {α : Type} (item : Text → Option (α × Text)) (close : Char) :
    Nat → Text → Option (List α × Text)
  | 0, _ => none
  | n + 1, t =>
    match gap false t with
    | [] => none
    | c :: cs =>
      if c = close then some ([], cs)
      else do
        let (a, rest) ← item (c :: cs)
        match gap false rest with
        | [] => none
        | d :: ds =>
          if d = ',' then
            let (as, rest) ← itemsUpTo item close n ds
            return (a :: as, rest)
          else if d = close then return ([a], ds)
          else none

/-- Items up to the character `close`.  Every item has a character. -/
def items? {α : Type} (item : Text → Option (α × Text)) (close : Char) (t : Text) :
    Option (List α × Text) :=
  itemsUpTo item close (t.length + 1) t

/-- An assignment: a key, and a value behind an equals sign.  What may stand around the sign is
passed over by `skip`. -/
def assignment? (skip : Text → Text) (value : Text → Option (Value × Text)) (t : Text) :
    Option ((List Text × Value) × Text) := do
  let (ks, rest) ← dottedKey? t
  match skip rest with
  | '=' :: rest =>
    let (v, rest) ← value (skip rest)
    return ((ks, v), rest)
  | _ => none

/-- A value in which arrays and inline tables are nested at most `depth` times. -/
def value? : (depth : Nat) → Text → Option (Value × Text)
  | 0, t =>
    match string? t with
    | some (s, rest) => some (.string s, rest)
    | none => scalar? t
  | depth + 1, t =>
    match t with
    | '[' :: rest => (items? (value? depth) ']' rest).map fun (vs, rest) => (.array false vs, rest)
    | '\x7b' :: rest => do
      let (es, rest) ← items? (assignment? (gap false) (value? depth)) '\x7d' rest
      return (← inlineTable es, rest)
    | t =>
      match string? t with
      | some (s, rest) => some (.string s, rest)
      | none => scalar? t

/-! ## Statements -/

/-- A statement of a document. -/
inductive Statement where
  | assign (keys : List Text) (value : Value)
  | table (keys : List Text)
  | element (keys : List Text)

/-- A statement, up to the end of its line. -/
def statement? (t : Text) : Option (Statement × Text) :=
  match t with
  | '[' :: '[' :: rest => do
    let (ks, rest) ← dottedKey? rest
    match rest with
    | ']' :: ']' :: rest => return (.element ks, ← afterLine? rest)
    | _ => none
  | '[' :: rest => do
    let (ks, rest) ← dottedKey? rest
    match rest with
    | ']' :: rest => return (.table ks, ← afterLine? rest)
    | _ => none
  | t => do
    let ((ks, v), rest) ← assignment? (·.dropWhile isSpace) (value? maxDepth) t
    return (.assign ks v, ← afterLine? rest)

/-- At most `n` statements. -/
def statementsUpTo : Nat → Text → Option (List Statement)
  | 0, _ => none
  | n + 1, t =>
    match gap false t with
    | [] => some []
    | c :: cs => do
      let (s, rest) ← statement? (c :: cs)
      return s :: (← statementsUpTo n rest)

/-- The mark that a text in UTF-8 may begin with. -/
def byteOrderMark : Char := Char.ofNat 0xFEFF

/-- The statements of a document, which may begin with a byte order mark. -/
def statements? (t : Text) : Option (List Statement) :=
  statementsUpTo (t.length + 1) (if t.head? = some byteOrderMark then t.tail else t)

/-- A document of which some statements have been read. -/
structure Document where
  entries : Entries
  /-- The path of the table that assignments go to. -/
  current : List Text

/-- What a statement adds to a document. -/
def Document.add (d : Document) : Statement → Option Document
  | .assign ks v => do
    let (path, key) ← splitPath ks
    let es ← within .passed (fun _ => assign path key v) d.current .header d.entries
    return { d with entries := es }
  | .table ks => do
    let (path, key) ← splitPath ks
    return ⟨← openTable path key d.entries, ks⟩
  | .element ks => do
    let (path, key) ← splitPath ks
    return ⟨← openElement path key d.entries, ks⟩

/-- Reads a document. -/
def read? (t : Text) : Option Entries := do
  let d ← (← statements? t).foldlM Document.add ⟨[], []⟩
  return d.entries

end RuleFormat.Toml
