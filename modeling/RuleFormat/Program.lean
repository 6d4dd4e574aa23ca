import RuleFormat.Command.Arguments

/-!
# The program

From a command line to an exit status and what is printed.  The status is 0 when all went well, 2
when the operator can mend what went wrong, and 1 otherwise, also when a check finds a file that is
not in order.

The report comes last.  A path that is no text cannot be reported in JSON, and then the status is 1
although the file may have been written.
-/

namespace RuleFormat

/-- What is left of a run of the program. -/
structure Finish where
  exit : Nat
  stdout : Text
  stderr : Text
  deriving DecidableEq, Repr

namespace Program

/-- The name and version of the program. -/
def version : Text := "rule-reorder 0.1.0\n"

/-- The level with this name or number, in letters of any case; `none` inside stands for silence. -/
def levelNamed? (t : Text) : Option (Option Level) :=
  let name := t.map Char.toLower
  if name = "off".toList ∨ name = "0".toList then some none
  else if name = "error".toList ∨ name = "1".toList then some (some .error)
  else if name = "warn".toList ∨ name = "2".toList then some (some .warn)
  else if name = "info".toList ∨ name = "3".toList then some (some .info)
  else if name = "debug".toList ∨ name = "4".toList then some (some .debug)
  else if name = "trace".toList ∨ name = "5".toList then some (some .trace)
  else none

/-- The part of the log that the environment can name. -/
def logTarget : Text := "rule_reorder="

/-- Up to which level events are shown.  What the environment asks for wins over the count of flags;
an empty word there asks for errors, and what is no text is passed over. -/
def logLimit (verbosity : Nat) (environment : Option Bytes) : Option Level :=
  match environment.bind toText? with
  | none => some (Level.ofVerbosity verbosity)
  | some t =>
    if t.isEmpty then some .error
    else
      let name := if logTarget.isPrefixOf t then t.drop logTarget.length else t
      (levelNamed? name).getD (some (Level.ofVerbosity verbosity))

/-- How a command line that is not carried out ends. -/
def refuse : Refusal → Finish
  | .displayVersion => ⟨0, version, []⟩
  | .displayHelp => ⟨0, [], '<' :: Refusal.displayHelp.name ++ ['>']⟩
  | refusal => ⟨2, [], '<' :: refusal.name ++ ['>']⟩

/-- The start of what is said about a failure. -/
def errorText (t : Text) : Text := "Error: ".toList ++ t ++ ['\n']

/-- A cause behind its label, under which its further lines are set in. -/
def causeText (label : Text) (cause : Text) : Text :=
  label ++ cause.flatMap fun c =>
    if c = '\n' then '\n' :: List.replicate label.length ' ' else [c]

/-- A failure to reorder a file.  When it comes from the file system its causes are listed. -/
def reorderFailureText (path : Bytes) (failure : Failure) : Text :=
  match failure.source? with
  | none => errorText failure.message
  | some fault =>
    errorText ("Failed to reorder ".toList ++ display path) ++ "\nCaused by:\n".toList
      ++ causeText "    0: " failure.message ++ ['\n']
      ++ causeText "    1: " fault.message ++ ['\n']

/-- What is said about a failure that has one cause. -/
def causedText (message cause : Text) : Text :=
  errorText message ++ "\nCaused by:\n".toList ++ causeText "    " cause ++ ['\n']

/-- A failure to make a configuration file. -/
def initFailureText (failure : Failure) : Text :=
  match failure.source? with
  | none => errorText failure.message
  | some fault => causedText failure.message fault.message

section

variable {m : Type → Type} [Monad m] [Files m]

/-- The configuration that is in force where a program runs. -/
def discoverConfig : (directory : Except FileFault Bytes) → Action m Config
  | .error fault => throw (.io [Path.dot] fault)
  | .ok path => Config.discover path

/-- The configuration for a request that is made in a directory. -/
def resolveConfig (directory : Except FileFault Bytes) (r : Request) : Action m Config := do
  let c ←
    match r.config with
    | some path => Config.load path
    | none => discoverConfig directory
  return if r.keepUnclassified then { c with policy := .keep } else c

/-- Carries a request out. -/
def reorderAction (directory : Except FileFault Bytes) (r : Request) : Action m Outcome := do
  reorderFile r.options (← resolveConfig directory r)

/-- How a request ends. -/
def reorderFinish (r : Request) (log : Text) : Except Failure Outcome → Finish
  | .error failure =>
    { exit := if failure.isUserFixable then 2 else 1
      stdout := []
      stderr := log ++ reorderFailureText r.options.path failure }
  | .ok outcome =>
    match outcome.render false r.format with
    | none =>
      ⟨1, [], log ++ errorText "path contains invalid UTF-8 characters"⟩
    | some report =>
      { exit := if r.options.mode = .check ∧ outcome.wouldChange then 1 else 0
        stdout := report
        stderr := log }

/-- How the making of a configuration file ends. -/
def initFinish (log : Text) : Except Failure Unit → Finish
  | .error failure => ⟨1, [], log ++ initFailureText failure⟩
  | .ok () => ⟨0, initNotice, log⟩

end

section

variable {m : Type → Type} [Monad m] [Machine m]

/-- Runs the program. -/
def run (environment : Option Bytes) (args : List Bytes) : m Finish :=
  match Invocation.parse args with
  | .error refusal => return refuse refusal
  | .ok i => do
    let limit := logLimit i.verbosity environment
    match i.command, ← Machine.directory with
    | .init _, .error fault =>
      return ⟨1, [], causedText "Failed to get current directory" fault.message⟩
    | .init force, .ok directory =>
      let (result, events) ← (initConfig directory force : Action m Unit).perform
      return initFinish (logUpTo limit events) result
    | .reorder r, directory =>
      let (result, events) ← (reorderAction directory r : Action m Outcome).perform
      return reorderFinish r (logUpTo limit events) result

end

end Program

end RuleFormat
