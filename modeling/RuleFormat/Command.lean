import RuleFormat.Config
import RuleFormat.Files.Basic

/-!
# Commands

To find the configuration, to put a file in order, and to make a first configuration file.
-/

namespace RuleFormat

/-!
## Finding configurations

A configuration file that an operator names must be there and be right.  Without one the nearest
file is used: that of a directory, of its parent, and so on, up to ten directories.  A file that
cannot be used is passed over with a warning, one that is not there without.
-/

namespace Config

/-- How many directories are searched. -/
def searchDepth : Nat := 10

/-- What is said about a file that cannot be read: nothing when there is none. -/
def unreadableEvents (path : Bytes) (failure : Failure) : List Event :=
  match failure.source? with
  | some fault => if fault.isMissing then [] else [.configUnreadable path fault.message]
  | none => []

section

variable {m : Type → Type} [Monad m] [Files m]

/-- Reads the configuration file at a path. -/
def load (path : Bytes) : Action m Config := do
  let content ← Files.read path
  match read content with
  | .error fault => throw (.config (some path) fault.message)
  | .ok c => do
    Action.note (.configLoaded path)
    return c

/-- Reads a file, if it can be read. -/
def tryRead (path : Bytes) : Action m (Option Text) :=
  tryCatch (do return some (← Files.read path)) fun failure => do
    Action.noteAll (unreadableEvents path failure)
    return none

/-- Reads the configuration file at a path, if it can be used. -/
def tryLoad (path : Bytes) : Action m (Option Config) := do
  match ← tryRead path with
  | none => return none
  | some content =>
    match read content with
    | .error fault => do
      Action.note (.configRefused path fault.message)
      return none
    | .ok c => do
      Action.note (.configLoaded path)
      return some c

/-- The first configuration that can be used among the files of some directories. -/
def firstOf : List Bytes → Action m Config
  | [] => do
    Action.note (.configMissing searchDepth)
    return {}
  | dir :: dirs => do
    match ← tryLoad (Path.join dir configName) with
    | some c => return c
    | none => firstOf dirs

/-- The configuration that is in force in a directory. -/
def discover (start : Bytes) : Action m Config := firstOf (Path.ancestors searchDepth start)

end

end Config

/-!
## The reordering command

Reads a file, puts its headers in order, and writes it back when that changes it and the mode allows
to write.  In strict mode nothing is written when there is a diagnostic.
-/

/-- What a run may do to the file. -/
inductive WriteMode where
  | write
  /-- Only report. -/
  | dryRun
  /-- Only report; a file that is not in order makes the program fail. -/
  | check
  deriving DecidableEq, Repr

/-- What an operator asks for. -/
structure Options where
  path : Bytes
  mode : WriteMode
  strict : Bool
  deriving DecidableEq, Repr

/-- The file that is reordered when none is named. -/
def defaultTarget : Bytes := "src/certora_specs/base/parametric.rs"

/-- The failure that strict mode makes of diagnostics. -/
def strictFailure? (path : Bytes) : List Diagnostic → Option Failure
  | [] => none
  | [.noMatches] => some (.noMatches path)
  | ds => some (.strict path ds.length)

/-- What strict mode says about diagnostics.  That there is no header at all is said by the failure
itself. -/
def strictEvents : List Diagnostic → List Event
  | [.noMatches] => []
  | ds => ds.map .violation

section

variable {m : Type → Type} [Monad m] [Files m]

/-- Fails when there are diagnostics. -/
def enforceStrict (path : Bytes) (r : Report) : Action m Unit := do
  Action.noteAll (strictEvents r.diagnostics)
  match strictFailure? path r.diagnostics with
  | some failure => throw failure
  | none => return ()

/-- Writes a file that has been put in order, if that is to be done, and says whether it was. -/
def save (o : Options) (headers : Nat) (wouldChange : Bool) (text : Text) : Action m Bool :=
  match o.mode, wouldChange with
  | .write, true => do
    Files.write o.path text
    Action.note (.fileWritten o.path headers)
    return true
  | .write, false => do
    Action.note (.fileUpToDate o.path)
    return false
  | _, _ => return false

/-- Puts a file in order. -/
def reorderFile (o : Options) (c : Config) : Action m Outcome := do
  let content ← Files.read o.path
  Action.note (.fileRead o.path (byteLength content))
  let r := reorder c.settings content
  Action.noteAll r.events
  if o.strict || c.strict then enforceStrict o.path r.report
  let wouldChange := r.text != content
  let written ← save o r.report.changed wouldChange r.text
  return { path := o.path, report := r.report, wouldChange, written }

end

/-!
## The command that makes a configuration file

The file is not made when there is one already, unless that is asked for.
-/

/-- What is said when the file has been made. -/
def initNotice : Text := "Created ".toList ++ configName ++ " configuration file\n".toList

/-- Makes the configuration file of a directory. -/
def initConfig {m : Type → Type} [Monad m] [Files m] (dir : Bytes) (force : Bool) :
    Action m Unit := do
  let path := Path.join dir configName
  if (← (Files.isThere path : m Bool)) && !force then throw .configExists
  Files.write path Config.defaultText

end RuleFormat
