import RuleFormat.Command
import RuleFormat.Report

/-!
# Command lines

Arguments are lists of bytes, since a path need not be a text.  All names are ASCII, so that no
other bytes are ever taken for one.

Arguments are read from left to right.  A value that is given to an option as an argument of its
own, or to the path, is looked at only when the next argument that is known has been seen, or at the
end; until then it is pending.  The first fault that is seen decides.

`init` and `help` name commands only when they come first.
-/

namespace RuleFormat

/-- Why a command line is not carried out. -/
inductive Refusal where
  | unknownArgument
  | invalidValue
  | argumentConflict
  | tooManyValues
  | invalidSubcommand
  | displayHelp
  | displayVersion
  deriving DecidableEq, Repr

/-- The name of a refusal. -/
def Refusal.name : Refusal → Text
  | unknownArgument => "UnknownArgument"
  | invalidValue => "InvalidValue"
  | argumentConflict => "ArgumentConflict"
  | tooManyValues => "TooManyValues"
  | invalidSubcommand => "InvalidSubcommand"
  | displayHelp => "DisplayHelp"
  | displayVersion => "DisplayVersion"

/-- An argument without a value. -/
inductive Flag where
  | dryRun | check | strict | keepUnclassified | force | verbose | help | version
  deriving DecidableEq, Repr

/-- What is given by a value. -/
inductive Setting where
  | path | config | format
  deriving DecidableEq, Repr

/-- An argument that has a name. -/
inductive Named where
  | flag (f : Flag)
  | setting (s : Setting)
  deriving DecidableEq, Repr

/-- The names that a command knows. -/
structure Vocabulary where
  long : List (Bytes × Named)
  short : List (UInt8 × Named)
  /-- Whether the command takes a path. -/
  takesPath : Bool

/-- The byte of an ASCII character. -/
def letter (c : Char) : UInt8 := UInt8.ofNat c.toNat

namespace Vocabulary

/-- The names for reordering. -/
def reorder : Vocabulary where
  long := [
    ("config", .setting .config), ("format", .setting .format),
    ("dry-run", .flag .dryRun), ("check", .flag .check), ("strict", .flag .strict),
    ("keep-unclassified", .flag .keepUnclassified), ("verbose", .flag .verbose),
    ("help", .flag .help), ("version", .flag .version)]
  short := [
    (letter 'c', .setting .config), (letter 'f', .setting .format), (letter 'v', .flag .verbose),
    (letter 'h', .flag .help), (letter 'V', .flag .version)]
  takesPath := true

/-- The names for making a configuration file. -/
def init : Vocabulary where
  long := [("force", .flag .force), ("verbose", .flag .verbose), ("help", .flag .help)]
  short := [(letter 'f', .flag .force), (letter 'v', .flag .verbose), (letter 'h', .flag .help)]
  takesPath := false

/-- What is wrong with an argument without a name that a command does not take. -/
def surplus (v : Vocabulary) : Refusal :=
  if v.takesPath then .argumentConflict else .unknownArgument

end Vocabulary

/-- What has been read of a command line. -/
structure Reading where
  /-- The flags, apart from those that are counted. -/
  flags : List Flag := []
  verbosity : Nat := 0
  path : Option Bytes := none
  config : Option Bytes := none
  format : Option Format := none
  /-- A setting whose value is still to come, or still to be looked at. -/
  pending : Option (Setting × Option Bytes) := none
  /-- Whether a path has been seen. -/
  pathSeen : Bool := false
  /-- Whether no names follow. -/
  trailing : Bool := false
  deriving DecidableEq, Repr

namespace Reading

/-- The byte that names begin with. -/
abbrev hyphen : UInt8 := 0x2D

/-- The byte between a name and a value. -/
abbrev equals : UInt8 := 0x3D

/-- The greatest count of a flag. -/
def maxCount : Nat := 255

/-- The form of a report with this name. -/
def format? (name : Bytes) : Option Format :=
  if name = "json" then some .json else if name = "terminal" then some .terminal else none

/-- Gives a setting its value, which it must not have yet. -/
def give (r : Reading) (s : Setting) (value : Bytes) : Except Refusal Reading :=
  match s with
  | .path => if value.isEmpty then .error .invalidValue else .ok { r with path := some value }
  | .config =>
    if r.config.isSome then .error .argumentConflict
    else if value.isEmpty then .error .invalidValue
    else .ok { r with config := some value }
  | .format =>
    if r.format.isSome then .error .argumentConflict
    else
      match format? value with
      | none => .error .invalidValue
      | some f => .ok { r with format := some f }

/-- Looks at the value that is pending. -/
def settle (r : Reading) : Except Refusal Reading :=
  match r.pending with
  | none => .ok r
  | some (_, none) => .error .invalidValue
  | some (s, some value) => { r with pending := none }.give s value

/-- Notes a flag. -/
def mark (r : Reading) (f : Flag) : Except Refusal Reading := do
  let r ← r.settle
  match f with
  | .help => throw .displayHelp
  | .version => throw .displayVersion
  | .verbose => return { r with verbosity := min (r.verbosity + 1) maxCount }
  | f =>
    if r.flags.contains f then throw .argumentConflict
    else return { r with flags := f :: r.flags }

/-- A setting by its name, with the value that is attached to it, if there is one. -/
def set (r : Reading) (s : Setting) (attached : Option Bytes) : Except Refusal Reading := do
  let r ← r.settle
  match attached with
  | some value => r.give s value
  | none => return { r with pending := some (s, none) }

/-- An argument without a name. -/
def place (r : Reading) (v : Vocabulary) (arg : Bytes) : Except Refusal Reading := do
  if r.pathSeen || !v.takesPath then throw v.surplus
  let r ← r.settle
  return { r with pending := some (.path, some arg), pathSeen := true }

/-- An argument that begins with two hyphens, without them. -/
def long (r : Reading) (v : Vocabulary) (arg : Bytes) : Except Refusal Reading :=
  let attached := (arg.dropWhile (· != equals)).tail?
  match v.long.lookup (arg.takeWhile (· != equals)) with
  | none => .error .unknownArgument
  | some (.flag f) => if attached.isSome then .error .tooManyValues else r.mark f
  | some (.setting s) => r.set s attached

/-- The value that stands behind a letter, perhaps with an equals sign between. -/
def attachedValue : Bytes → Option Bytes
  | [] => none
  | b :: value => some (if b = equals then value else b :: value)

/-- The letters of an argument that begins with one hyphen. -/
def letters (r : Reading) (v : Vocabulary) : Bytes → Except Refusal Reading
  | [] => .ok r
  | b :: bs =>
    match v.short.lookup b with
    | none => .error .unknownArgument
    | some (.flag f) =>
      match r.mark f with
      | .error refusal => .error refusal
      | .ok r => r.letters v bs
    | some (.setting s) => r.set s (attachedValue bs)

/-- An argument without hyphens: a value that has been announced, or the path. -/
def value (r : Reading) (v : Vocabulary) (arg : Bytes) : Except Refusal Reading :=
  match r.pending with
  | some (s, none) => .ok { r with pending := some (s, some arg) }
  | _ => r.place v arg

/-- Reads an argument. -/
def argument (v : Vocabulary) (r : Reading) (arg : Bytes) : Except Refusal Reading :=
  if r.trailing then r.place v arg
  else
    match arg with
    | b :: c :: rest =>
      if b ≠ hyphen then r.value v arg
      else if c ≠ hyphen then r.letters v (c :: rest)
      else if rest.isEmpty then .ok { r with trailing := true }
      else r.long v rest
    | _ => r.value v arg

/-- Reads all arguments of a command. -/
def all (v : Vocabulary) (args : List Bytes) : Except Refusal Reading := do
  (← args.foldlM (argument v) {}).settle

end Reading

/-- What is asked of the program. -/
structure Request where
  options : Options
  config : Option Bytes
  keepUnclassified : Bool
  format : Format
  deriving DecidableEq, Repr

/-- A command of the program. -/
inductive Command where
  | reorder (request : Request)
  | init (force : Bool)
  deriving DecidableEq, Repr

/-- A command line that can be carried out. -/
structure Invocation where
  command : Command
  verbosity : Nat
  deriving DecidableEq, Repr

namespace Invocation

/-- A command line for reordering. -/
def ofReading (r : Reading) : Except Refusal Invocation :=
  let has (f : Flag) : Bool := r.flags.contains f
  if has .dryRun && has .check then .error .argumentConflict
  else
    let mode : WriteMode := if has .check then .check else if has .dryRun then .dryRun else .write
    .ok {
      command := .reorder {
        options := ⟨r.path.getD defaultTarget, mode, has .strict⟩
        config := r.config
        keepUnclassified := has .keepUnclassified
        format := r.format.getD .terminal }
      verbosity := r.verbosity }

/-- The command that makes a configuration file. -/
def initName : Bytes := "init"

/-- The command that shows help. -/
def helpName : Bytes := "help"

/-- What a call for help leads to. -/
def help : List Bytes → Refusal
  | [] => .displayHelp
  | [topic] => if topic = initName ∨ topic = helpName then .displayHelp else .invalidSubcommand
  | _ => .invalidSubcommand

/-- Reads a command line. -/
def parse (args : List Bytes) : Except Refusal Invocation :=
  match args with
  | [] => (Reading.all .reorder []).bind ofReading
  | first :: rest =>
    if first = initName then do
      let r ← Reading.all .init rest
      return ⟨.init (r.flags.contains .force), r.verbosity⟩
    else if first = helpName then .error (help rest)
    else (Reading.all .reorder args).bind ofReading

end Invocation

end RuleFormat
