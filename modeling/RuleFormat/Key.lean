import RuleFormat.Text.Basic

/-!
# Keys and key tables

A key says which parameters belong to a group: those of its name and, when it has one, of its type.
Types are compared without their white space.  There are two tables of keys, and a parameter that
matches both belongs to the parametric one.  The order of the ghost table is the order in which
ghost parameters are written.

* `Key.accepts` is the test.
* `Tables.lookup` finds a parameter's bucket.
* `Tables.check` refuses tables with empty names and with keys that are listed twice.
-/

namespace RuleFormat

/-- A name, and perhaps a type, that a parameter must have. -/
structure Key where
  name : Text
  type : Option Text
  deriving DecidableEq, Repr

namespace Key

/-- Whether a parameter of this name and type has the key. -/
def accepts (k : Key) (name type : Text) : Bool :=
  k.name == name &&
    match k.type with
    | none => true
    | some t => compact t == compact type

/-- A key as it is written in messages. -/
def text (k : Key) : Text :=
  match k.type with
  | none => k.name
  | some t => k.name ++ ": ".toList ++ t

/-- What tells a key from the others of its table: name, and type without white space. -/
def identity (k : Key) : Text × Option Text := (k.name, k.type.map compact)

end Key

/-- The two tables of keys, and the groups of parameters that they make. -/
inductive Bucket where
  | parametric | ghost
  deriving DecidableEq, Repr

/-- The name of a table. -/
def Bucket.label : Bucket → Text
  | parametric => "parametric"
  | ghost => "ghost"

/-- The tables that parameters are sorted by. -/
structure Tables where
  parametric : List Key
  ghost : List Key
  deriving DecidableEq, Repr

/-- Why a table is refused. -/
inductive TableFault where
  | emptyName (table : Bucket)
  | repeated (table : Bucket) (key : Key)
  deriving DecidableEq, Repr

/-- The wording of a fault. -/
def TableFault.message : TableFault → Text
  | emptyName b => b.label ++ " table contains an entry with an empty name".toList
  | repeated b k => b.label ++ " table lists ".toList ++ quoted k.text ++ " more than once".toList

/-- Checks the keys of a table from first to last; `seen` are the identities of those before. -/
def checkKeys (b : Bucket) (seen : List (Text × Option Text)) : List Key → Except TableFault Unit
  | [] => .ok ()
  | k :: ks =>
    if isBlank k.name then .error (.emptyName b)
    else if seen.contains k.identity then .error (.repeated b k)
    else checkKeys b (k.identity :: seen) ks

namespace Tables

/-- Whether a parameter has a key of the parametric table. -/
def isParametric (t : Tables) (name type : Text) : Bool := t.parametric.any (·.accepts name type)

/-- Whether a parameter has a key of the ghost table. -/
def isGhost (t : Tables) (name type : Text) : Bool := t.ghost.any (·.accepts name type)

/-- The bucket of a parameter. -/
def lookup (t : Tables) (name type : Text) : Option Bucket :=
  if t.isParametric name type then some .parametric
  else if t.isGhost name type then some .ghost
  else none

/-- Checks both tables, the parametric one first. -/
def check (t : Tables) : Except TableFault Unit := do
  checkKeys .parametric [] t.parametric
  checkKeys .ghost [] t.ghost

/-- A key with a type. -/
def typed (name type : String) : Key := ⟨name.toList, some type.toList⟩

/-- The tables that are used unless a configuration replaces them. -/
def builtin : Tables where
  parametric := [
    typed "caller_admin" "Address",
    typed "caller_emergency_admin" "Address",
    typed "caller_rewards_admin" "Address",
    typed "caller_operations_admin" "Address",
    typed "caller_pause_admin" "Address",
    typed "caller_emergency_pause_admins" "Vec<Address>",
    typed "role_name" "Symbol",
    typed "new_address" "Address",
    typed "value" "bool",
    typed "address" "Address",
    typed "addresses" "Vec<Address>",
    typed "new_wasm_hash" "BytesN<32>"]
  ghost := [
    typed "admin" "Option<Address>",
    typed "emergency_admin" "Option<Address>",
    typed "rewards_admin" "Option<Address>",
    typed "operations_admin" "Option<Address>",
    typed "pause_admin" "Option<Address>",
    typed "emergency_pause_admins" "Vec<Address>",
    typed "admin_transfer_deadline" "u64",
    typed "em_admin_transfer_deadline" "u64",
    typed "future_admin" "Option<Address>",
    typed "future_em_admin" "Option<Address>",
    typed "emergency_mode" "bool",
    typed "upgrade_deadline" "u64",
    typed "future_wasm" "Option<BytesN<32>>"]

end Tables

end RuleFormat
