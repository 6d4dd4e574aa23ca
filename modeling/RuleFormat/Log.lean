import RuleFormat.Report
import RuleFormat.Text.Escape

/-!
# Failures and the log

What a command can fail with, and what it says on the way.
-/

namespace RuleFormat

/-!
## Failures

Some failures an operator can mend by changing a file or a setting; the others come from the file
system.
-/

/-- What a file system can refuse. -/
inductive FileFault where
  /-- There is no file in a store. -/
  | absent
  /-- There is no file or directory on a disk. -/
  | missing
  | isDirectory
  | notDirectory
  /-- A file may not be read, or a directory not be entered. -/
  | denied
  /-- Links lead from one to the next too often. -/
  | tooManyLinks
  /-- The last part of the path has a meaning of its own. -/
  | busy
  /-- The content is not the UTF-8 form of a text. -/
  | notText
  /-- A temporary file could not be made. -/
  | temporary (fault : FileFault) (path : Bytes)
  | other (text : Text)
  deriving DecidableEq, Repr

namespace FileFault

/-- What has been decoded, between quotation marks.  Stray bytes are spelled out. -/
def escapedItem : Decoded → Text
  | .char c => escapedChar c
  | .stray bytes => bytes.flatMap fun b =>
    ['\\', 'x', (Nat.digitChar (b.toNat / 16)).toUpper, (Nat.digitChar (b.toNat % 16)).toUpper]

/-- A path between quotation marks. -/
def quotedPath (path : Bytes) : Text := '"' :: (decode path).flatMap escapedItem ++ ['"']

/-- The wording of a fault. -/
def message : FileFault → Text
  | absent => "file not found"
  | missing => "No such file or directory (os error 2)"
  | isDirectory => "Is a directory (os error 21)"
  | notDirectory => "Not a directory (os error 20)"
  | denied => "Permission denied (os error 13)"
  | tooManyLinks => "Too many levels of symbolic links (os error 40)"
  | busy => "Device or resource busy (os error 16)"
  | notText => "stream did not contain valid UTF-8"
  | temporary fault path => fault.message ++ " at path ".toList ++ quotedPath path
  | other text => text

/-- Whether a fault says that there is no file. -/
def isMissing : FileFault → Bool
  | absent => true
  | missing => true
  | _ => false

end FileFault

/-- What a command can fail with. -/
inductive Failure where
  | io (path : Bytes) (fault : FileFault)
  | config (path : Option Bytes) (message : Text)
  | noMatches (path : Bytes)
  /-- Strict mode does not tolerate the diagnostics, of which there are so many. -/
  | strict (path : Bytes) (count : Nat)
  /-- The first configuration file is already there. -/
  | configExists
  deriving DecidableEq, Repr

namespace Failure

/-- The wording of a failure. -/
def message : Failure → Text
  | io path fault => "I/O error on ".toList ++ display path ++ ": ".toList ++ fault.message
  | config none message => "Configuration error: ".toList ++ message
  | config (some path) message =>
    "Configuration error in ".toList ++ display path ++ ": ".toList ++ message
  | noMatches path => "No `#[rule]` headers matched in ".toList ++ display path
  | strict path count =>
    "Strict mode: ".toList ++ decimal count ++ " diagnostic(s) reported for ".toList ++ display path
  | configExists => "Configuration file already exists. Use --force to overwrite."

/-- The fault that lies behind a failure. -/
def source? : Failure → Option FileFault
  | io _ fault => some fault
  | _ => none

/-- Whether an operator can mend a failure by changing a file or a setting. -/
def isUserFixable : Failure → Bool
  | io .. => false
  | configExists => false
  | _ => true

end Failure

/-!
## The log

What happens during a run is a list of events.  Each event has a level and a wording, and is written
as one line: the level to the right of five columns, and the wording, in which control characters
that steer a terminal are spelled out.
-/

/-- How much an event matters. -/
inductive Level where
  | error | warn | info | debug | trace
  deriving DecidableEq, Repr

namespace Level

/-- The rank of a level: the higher, the less it matters. -/
def rank : Level → Nat
  | error => 1
  | warn => 2
  | info => 3
  | debug => 4
  | trace => 5

/-- The name of a level. -/
def name : Level → Text
  | error => "error"
  | warn => "warn"
  | info => "info"
  | debug => "debug"
  | trace => "trace"

/-- The name of a level in a log line. -/
def tag : Level → Text
  | error => "ERROR"
  | warn => " WARN"
  | info => " INFO"
  | debug => "DEBUG"
  | trace => "TRACE"

/-- The level that the number of `-v` flags asks for. -/
def ofVerbosity : Nat → Level
  | 0 => warn
  | 1 => info
  | 2 => debug
  | _ => trace

end Level

/-- Something that happened during a run. -/
inductive Event where
  /-- A header was left as it is. -/
  | headerSkipped (rule : Text) (line : Nat) (reason : Text)
  /-- The environment parameter was written in a form that is not plain. -/
  | envReplaced (parameter : Text)
  /-- A parameter came too late for its ghost keys. -/
  | duplicateDropped (parameter : Text)
  /-- A parameter has no key. -/
  | unclassifiedDropped (parameter : Text)
  /-- A header was put in order. -/
  | headerDone (rule : Text) (line : Nat) (changed : Bool)
  /-- There was no header. -/
  | nothingMatched
  | fileRead (path : Bytes) (bytes : Nat)
  | fileReplaced (path : Bytes)
  | fileWritten (path : Bytes) (headers : Nat)
  | fileUpToDate (path : Bytes)
  /-- A diagnostic that strict mode does not tolerate. -/
  | violation (diagnostic : Diagnostic)
  | configLoaded (path : Bytes)
  | configUnreadable (path : Bytes) (cause : Text)
  | configRefused (path : Bytes) (cause : Text)
  /-- No configuration file was found among this many directories. -/
  | configMissing (directories : Nat)
  deriving DecidableEq, Repr

namespace Event

/-- The level of an event. -/
def level : Event → Level
  | headerSkipped .. => .warn
  | envReplaced .. => .warn
  | duplicateDropped .. => .warn
  | unclassifiedDropped .. => .warn
  | headerDone .. => .debug
  | nothingMatched => .warn
  | fileRead .. => .info
  | fileReplaced .. => .debug
  | fileWritten .. => .info
  | fileUpToDate .. => .info
  | violation .. => .error
  | configLoaded .. => .debug
  | configUnreadable .. => .warn
  | configRefused .. => .warn
  | configMissing .. => .debug

/-- A truth value in a log line. -/
def truth : Bool → Text
  | true => "true"
  | false => "false"

/-- The wording of an event. -/
def message : Event → Text
  | headerSkipped rule line reason =>
    "Rule ".toList ++ quoted rule ++ " at line ".toList ++ decimal line
      ++ " not rewritten: ".toList ++ reason
  | envReplaced p =>
    "Replacing ".toList ++ quoted p ++ " with the plain env parameter".toList
  | duplicateDropped p => "Dropping duplicate ghost parameter ".toList ++ quoted p
  | unclassifiedDropped p => "Dropping unclassified parameter ".toList ++ quoted p
  | headerDone rule line changed =>
    "Rewrote rule header rule=".toList ++ rule ++ " line=".toList ++ decimal line
      ++ " changed=".toList ++ truth changed
  | nothingMatched => "No rule headers matched"
  | fileRead path bytes =>
    "Read ".toList ++ display path ++ " (".toList ++ decimal bytes ++ " bytes)".toList
  | fileReplaced path => "Atomically replaced ".toList ++ display path
  | fileWritten path headers =>
    "Rewrote ".toList ++ decimal headers ++ " header(s) in ".toList ++ display path
  | fileUpToDate path => display path ++ " already up to date; not writing".toList
  | violation d => d.message
  | configLoaded path => "Loaded config from ".toList ++ display path
  | configUnreadable path cause =>
    "Failed to read config file ".toList ++ display path ++ ": ".toList ++ cause
  | configRefused path cause => cause ++ " (".toList ++ display path ++ "). Using defaults.".toList
  | configMissing n =>
    "No config found after checking ".toList ++ decimal n
      ++ " directories. Using default config.".toList

/-- A character as it stands in a log line. -/
def shown (c : Char) : Text :=
  let n := c.toNat
  if n = 0x1B then "\\x1b"
  else if n = 0x07 then "\\x07"
  else if n = 0x08 then "\\x08"
  else if n = 0x0C then "\\x0c"
  else if n = 0x7F then "\\x7f"
  else if 0x80 ≤ n ∧ n ≤ 0x9F then "\\u\x7b".toList ++ Nat.toDigits 16 n ++ "\x7d".toList
  else [c]

/-- The log line of an event. -/
def line (e : Event) : Text := e.level.tag ++ [' '] ++ e.message.flatMap shown ++ ['\n']

end Event

/-- The log of events, all levels included. -/
def logText (es : List Event) : Text := es.flatMap Event.line

/-- The log of the events up to a level; nothing at all without one. -/
def logUpTo (limit : Option Level) (es : List Event) : Text :=
  match limit with
  | none => []
  | some l => logText (es.filter fun e => e.level.rank ≤ l.rank)

end RuleFormat
