import RuleFormat.Reorder
import RuleFormat.Toml.Document

/-!
# Configurations

A configuration sets the layout of headers, the treatment of parameters without a key, and whether
diagnostics are tolerated.  It may replace the tables of keys; a table that it does not set is the
built-in one.
-/

namespace RuleFormat

/-- What an operator can set. -/
structure Config where
  layout : Layout := .builtin
  policy : Policy := .drop
  strict : Bool := false
  parametric : Option (List Key) := none
  ghost : Option (List Key) := none
  deriving DecidableEq, Repr

/-- Why a configuration is refused. -/
inductive ConfigFault where
  /-- The file does not have the form of a configuration. -/
  | unreadable
  | table (fault : TableFault)
  | indent
  deriving DecidableEq, Repr

/-- The name of configuration files. -/
def configName : Text := ".rule-reorder.toml"

/-- The wording of a fault. -/
def ConfigFault.message : ConfigFault → Text
  | unreadable => "Failed to parse ".toList ++ configName
  | table fault => fault.message
  | indent => "indentation must not exceed ".toList ++ decimal Layout.maxIndent ++ " columns".toList

namespace Config

/-- The tables that are in force. -/
def tables (c : Config) : Tables where
  parametric := c.parametric.getD Tables.builtin.parametric
  ghost := c.ghost.getD Tables.builtin.ghost

/-- What decides how headers are written. -/
def settings (c : Config) : Settings := ⟨c.tables, c.layout, c.policy⟩

/-- Checks the tables in force, then the layout. -/
def check (c : Config) : Except ConfigFault Unit :=
  match c.tables.check with
  | .error fault => .error (.table fault)
  | .ok () => if c.layout.isAllowed then .ok () else .error .indent

end Config

/-!
## Reading configurations

A configuration is written as a document whose tables `layout` and `policy` hold the settings and
whose arrays `parametric` and `ghost` hold keys.  Keys that are not known are passed over.  In place
of a table stands also the list of its fields, in order; later ones may be missing.
-/

open Toml

namespace Config

/-- The fields of a record: with their names, or in order. -/
inductive Fields where
  | named (entries : Entries)
  | listed (values : List Value)

/-- The fields of a value.  A date or time has none that is known. -/
def fields? : Value → Option Fields
  | .table _ es => some (.named es)
  | .array _ vs => some (.listed vs)
  | .moment => some (.named [])
  | _ => none

/-- The field with this place and name. -/
def Fields.get? (place : Nat) (name : Text) : Fields → Option Value
  | .named es => es.get? name
  | .listed vs => vs[place]?

/-- Whether the fields apart from those with these names can be passed over. -/
def Fields.restSound (names : List Text) : Fields → Bool
  | .named es => entriesSound (es.filter fun e => !names.contains e.1)
  | .listed _ => true

/-- Reads a field, for which there is a value when it is missing. -/
def field {α : Type} (f : Fields) (place : Nat) (name : Text) (missing : α)
    (read : Value → Option α) : Option α :=
  match f.get? place name with
  | none => some missing
  | some v => read v

/-- Reads the fields of a record with these names. -/
def record {α : Type} (names : List Text) (read : Fields → Option α) (v : Value) : Option α := do
  let f ← fields? v
  if f.restSound names then read f else none

/-- Reads a text. -/
def text? : Value → Option Text
  | .string t => some t
  | _ => none

/-- Reads a truth value. -/
def truth? : Value → Option Bool
  | .boolean b => some b
  | _ => none

/-- Reads a number of columns, which must be held in 64 bits. -/
def columns? : Value → Option Nat
  | .integer (some n) => if 0 ≤ n ∧ n < Int.pow 2 64 then some n.toNat else none
  | _ => none

/-- The policy of a name. -/
def policyNamed? (t : Text) : Option Policy :=
  if t = "drop".toList then some .drop else if t = "keep".toList then some .keep else none

/-- Whether a value has no fields. -/
def isHollow : Value → Bool
  | .table _ es => es.isEmpty
  | .array _ vs => vs.isEmpty
  | _ => false

/-- Reads a policy: its name, or a table with the name as its only key and nothing behind it. -/
def policy? : Value → Option Policy
  | .string t => policyNamed? t
  | .table _ [(k, v)] => if isHollow v then policyNamed? k else none
  | _ => none

/-- Reads a key. -/
def key? : Value → Option Key :=
  record ["name", "type"] fun f => do
    let name ← (f.get? 0 "name").bind text?
    let type ← field f 1 "type" none fun v => (text? v).map some
    return ⟨name, type⟩

/-- Reads a list of keys. -/
def keys? : Value → Option (List Key)
  | .array _ vs => vs.mapM key?
  | _ => none

/-- Reads a layout. -/
def layout? : Value → Option Layout :=
  record ["header_indent", "param_indent"] fun f => do
    let header ← field f 0 "header_indent" Layout.builtin.headerIndent columns?
    let param ← field f 1 "param_indent" Layout.builtin.paramIndent columns?
    return ⟨header, param⟩

/-- Reads the settings of a policy: what happens to parameters without a key, and strictness. -/
def policies? : Value → Option (Policy × Bool) :=
  record ["unclassified", "strict"] fun f => do
    let policy ← field f 0 "unclassified" .drop policy?
    let strict ← field f 1 "strict" false truth?
    return (policy, strict)

/-- Reads a configuration from a document. -/
def ofEntries? (es : Entries) : Option Config := do
  let f : Fields := .named es
  if !f.restSound ["layout", "policy", "parametric", "ghost"] then none
  let layout ← field f 0 "layout" Layout.builtin layout?
  let (policy, strict) ← field f 1 "policy" (.drop, false) policies?
  let parametric ← field f 2 "parametric" none fun v => (keys? v).map some
  let ghost ← field f 3 "ghost" none fun v => (keys? v).map some
  return { layout, policy, strict, parametric, ghost }

/-- Reads a configuration and checks it. -/
def read (t : Text) : Except ConfigFault Config :=
  match (read? t).bind ofEntries? with
  | none => .error .unreadable
  | some c =>
    match c.check with
    | .error fault => .error fault
    | .ok () => .ok c

end Config

end RuleFormat

/-!
## The first configuration file

The text of a configuration file for an operator to start from.  It sets everything to what it is
without a file.
-/

namespace RuleFormat.Config

/-- A key as an element of an array of tables.  The names and types of built-in keys have no
characters that would have to be escaped. -/
def entryText (table : Bucket) (k : Key) : Text :=
  "\n[[".toList ++ table.label ++ "]]\nname = \"".toList ++ k.name ++ "\"\n".toList
    ++ match k.type with
      | none => []
      | some t => "type = \"".toList ++ t ++ "\"\n".toList

/-- The text of the first configuration file. -/
def defaultText : Text :=
  "# rule-reorder configuration\n\n[layout]\nheader_indent = ".toList
    ++ decimal Layout.builtin.headerIndent
    ++ "\nparam_indent = ".toList ++ decimal Layout.builtin.paramIndent
    ++ "\n\n[policy]\n".toList
    ++ "# \"drop\" leaves unclassified parameters out; \"keep\" emits them last\n".toList
    ++ "unclassified = \"drop\"\nstrict = false\n".toList
    ++ Tables.builtin.parametric.flatMap (entryText .parametric)
    ++ "\n# Ghost parameters are emitted in this order\n".toList
    ++ Tables.builtin.ghost.flatMap (entryText .ghost)

end RuleFormat.Config
