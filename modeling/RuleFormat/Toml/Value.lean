import RuleFormat.Text.Basic

/-!
# Values of TOML documents

A document is a table of values.  A table remembers how it came about, because that decides what
may still be added to it: a table with a header of its own may not be given a second header, and an
inline table is closed.  Numbers keep all their digits; `Value.isSound` tells whether they have any
and can be held in 128 bits, or in a double.
-/

namespace RuleFormat.Toml

/-- A number with a fraction or an exponent. -/
inductive Decimal where
  /-- The number `digits * 10 ^ exponent`, without its sign. -/
  | finite (digits : Nat) (exponent : Int)
  | infinite
  | undefined
  deriving DecidableEq, Repr

/-- The middle between the greatest double and the power of two above it.  From here on numbers are
rounded to infinity. -/
def Decimal.bound : Nat := (Nat.pow 2 54 - 1) * Nat.pow 2 970

/-- Whether the double that is nearest to a number is finite, unless the number is not.  Numbers
that are beyond all doubt by the count of their digits are not computed. -/
def Decimal.fits : Decimal → Bool
  | finite 0 _ => true
  | finite digits exponent =>
    let places : Int := (decimal digits).length + exponent
    if places ≤ 308 then true
    else if places > 310 then false
    else
      match exponent with
      | .ofNat e => digits * Nat.pow 10 e < bound
      | .negSucc e => digits < bound * Nat.pow 10 (e + 1)
  | infinite => true
  | undefined => true

/-- How a table came about. -/
inductive Origin where
  /-- It has a header of its own, or is the document itself. -/
  | header
  /-- The header of another table passes through it. -/
  | passed
  /-- A dotted key passes through it. -/
  | dotted
  /-- It is written in braces. -/
  | inline
  deriving DecidableEq, Repr

/-- A value.  An integer has no number when there are no digits behind the mark of its base.  An
array is `open` when its elements are tables with headers. -/
inductive Value where
  | string (text : Text)
  | integer (number : Option Int)
  | float (number : Decimal)
  | boolean (truth : Bool)
  | moment
  | array (isOpen : Bool) (elements : List Value)
  | table (origin : Origin) (entries : List (Text × Value))

/-- The entries of a table. -/
abbrev Entries := List (Text × Value)

/-- Whether an integer can be held in 128 bits, with a sign or without. -/
def integerFits (n : Int) : Bool := -Int.pow 2 127 ≤ n && n < Int.pow 2 128

mutual

/-- Whether all numbers in a value can be held. -/
def Value.isSound : Value → Bool
  | .integer n => n.any integerFits
  | .float d => d.fits
  | .array _ vs => allSound vs
  | .table _ es => entriesSound es
  | _ => true

/-- Whether all numbers in some values can be held. -/
def allSound : List Value → Bool
  | [] => true
  | v :: vs => v.isSound && allSound vs

/-- Whether all numbers in a table can be held. -/
def entriesSound : List (Text × Value) → Bool
  | [] => true
  | (_, v) :: es => v.isSound && entriesSound es

end

/-- The value of a key. -/
def Entries.get? (es : Entries) (key : Text) : Option Value :=
  (es.find? fun e => e.1 == key).map (·.2)

/-!
## Building tables

Documents and inline tables grow entry by entry.  `within` goes down a path, making the tables that
are missing; it enters the last table of an array of tables.  It does not go into values, into
inline tables, nor, for a dotted key, into a table that has a header.
-/

/-- Replaces the value of a key by what `f` makes of it, and adds it at the end when there was
none. -/
def alter (key : Text) (f : Option Value → Option Value) : Entries → Option Entries
  | [] => (f none).map fun v => [(key, v)]
  | (k, v) :: es =>
    if k = key then (f (some v)).map fun v => (k, v) :: es
    else (alter key f es).map ((k, v) :: ·)

/-- Replaces the last table of an array of tables. -/
def alterLast (f : Entries → Option Entries) : List Value → Option (List Value)
  | [] => none
  | [.table origin es] => (f es).map fun es => [.table origin es]
  | v :: vs => (alterLast f vs).map (v :: ·)

/-- Changes the table at the end of a path by `f`, which is told how that table came about.  The
tables on the way are made by `making`, which is `dotted` or `passed`. -/
def within (making : Origin) (f : Origin → Entries → Option Entries) :
    List Text → Origin → Entries → Option Entries
  | [], origin, es => f origin es
  | k :: ks, _, es =>
    alter k (fun
      | none => (within making f ks making []).map (.table making)
      | some (.table origin es) =>
        if origin = .inline ∨ (making = .dotted ∧ origin = .header) then none
        else (within making f ks origin es).map (.table origin)
      | some (.array true vs) => (alterLast (within making f ks .header) vs).map (.array true)
      | some _ => none) es

/-- Puts a value that is not there yet. -/
def addNew (key : Text) (v : Value) : Entries → Option Entries :=
  alter key fun
    | none => some v
    | some _ => none

/-- Assigns a value to a key with dots.  The last table on its way must be one that dotted keys have
made. -/
def assign (path : List Text) (key : Text) (v : Value) : Entries → Option Entries :=
  within .dotted (fun origin es =>
    if path.isEmpty ∨ origin = .dotted then addNew key v es else none) path .header

/-- The header of a table. -/
def openTable (path : List Text) (key : Text) : Entries → Option Entries :=
  within .passed (fun _ => alter key fun
    | none => some (.table .header [])
    | some (.table .passed es) => some (.table .header es)
    | some _ => none) path .header

/-- The header of one more table in an array of tables. -/
def openElement (path : List Text) (key : Text) : Entries → Option Entries :=
  within .passed (fun _ => alter key fun
    | none => some (.array true [.table .header []])
    | some (.array true vs) => some (.array true (vs ++ [.table .header []]))
    | some _ => none) path .header

/-- Splits a path into the tables on the way and the key at its end. -/
def splitPath (ks : List Text) : Option (List Text × Text) :=
  ks.getLast?.map fun k => (ks.dropLast, k)

/-- An inline table. -/
def inlineTable (es : List (List Text × Value)) : Option Value :=
  (es.foldlM (fun (t : Entries) (ks, v) => do
    let (path, key) ← splitPath ks
    assign path key v t) []).map (.table .inline)

end RuleFormat.Toml
