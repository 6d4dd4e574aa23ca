import RuleFormat.Text.Bytes

/-!
# Reports

A pass over a file reports a summary of each rule whose header could be read, and the diagnostics
that an operator should see: headers that were left as they are, parameters that were left out, and
that there was nothing to do.

The result of a run is reported in one of two forms: as a value of JSON, for which the path of the
file must be a text, or as lines for an operator, with colours or without.
-/

namespace RuleFormat

/-! ## Diagnostics and summaries -/

/-- Why a parameter is left out. -/
inductive DropReason where
  /-- It matches no key. -/
  | unclassified
  /-- Other parameters have taken its ghost keys. -/
  | duplicateGhost
  /-- It is the environment parameter in a form that is not plain. -/
  | envForm
  deriving DecidableEq, Repr

/-- The name of a reason. -/
def DropReason.label : DropReason → Text
  | unclassified => "unclassified"
  | duplicateGhost => "duplicate_ghost_key"
  | envForm => "env_binding_mode"

/-- A reason in words. -/
def DropReason.words : DropReason → Text
  | unclassified => "matches no classification key"
  | duplicateGhost => "duplicates an earlier ghost parameter"
  | envForm => "replaced by plain `e: Env`"

/-- Something that an operator should see. -/
inductive Diagnostic where
  /-- There is no rule header in the file. -/
  | noMatches
  /-- A header is left as it is. -/
  | malformed (rule : Text) (line : Nat) (reason : Text)
  /-- A parameter is left out. -/
  | dropped (rule : Text) (line : Nat) (parameter : Text) (reason : DropReason)
  deriving DecidableEq, Repr

/-- A rule with its line, as messages begin. -/
def ruleAtLine (rule : Text) (line : Nat) : Text :=
  "line ".toList ++ decimal line ++ ": rule ".toList ++ quoted rule

/-- The wording of a diagnostic. -/
def Diagnostic.message : Diagnostic → Text
  | noMatches => "no `#[rule]` headers matched"
  | malformed rule line reason => ruleAtLine rule line ++ " left unchanged: ".toList ++ reason
  | dropped rule line parameter reason =>
    ruleAtLine rule line ++ " dropped ".toList ++ quoted parameter ++ " (".toList ++ reason.words
      ++ ")".toList

/-- What was done to one header. -/
structure RuleSummary where
  name : Text
  line : Nat
  parametric : Nat
  ghost : Nat
  unclassified : Nat
  dropped : Nat
  changed : Bool
  deriving DecidableEq, Repr

/-- What a pass over a file has done. -/
structure Report where
  matched : Nat
  changed : Nat
  rules : List RuleSummary
  diagnostics : List Diagnostic
  deriving DecidableEq, Repr

/-- Whether there is something that an operator should see. -/
def Report.hasDiagnostics (r : Report) : Bool := !r.diagnostics.isEmpty

/-- The result of a run on a file. -/
structure Outcome where
  path : Bytes
  report : Report
  /-- Whether the file is not yet in order. -/
  wouldChange : Bool
  written : Bool
  deriving DecidableEq, Repr

/-!
## JSON

Values of JSON, as far as reports need them, and their form over several lines: two blanks for each
level, every element and every field on a line of its own.
-/

/-- A value of JSON. -/
inductive JsonValue where
  | string (text : Text)
  | number (n : Nat)
  | boolean (b : Bool)
  | array (elements : List JsonValue)
  | object (fields : List (Text × JsonValue))

namespace JsonValue

/-- A character inside a string.  Quotation marks, backslashes and control characters below the
blank are escaped. -/
def escapeChar (c : Char) : Text :=
  if c = '"' then ['\\', '"']
  else if c = '\\' then ['\\', '\\']
  else if c.toNat = 0x08 then ['\\', 'b']
  else if c = '\t' then ['\\', 't']
  else if c = '\n' then ['\\', 'n']
  else if c.toNat = 0x0C then ['\\', 'f']
  else if c = '\r' then ['\\', 'r']
  else if c.toNat < 0x10 then "\\u000".toList ++ Nat.toDigits 16 c.toNat
  else if c.toNat < 0x20 then "\\u00".toList ++ Nat.toDigits 16 c.toNat
  else [c]

/-- A string with its quotation marks. -/
def stringText (t : Text) : Text := '"' :: t.flatMap escapeChar ++ ['"']

/-- The start of a line at a level. -/
def newLine (level : Nat) : Text := '\n' :: List.replicate (2 * level) ' '

mutual

/-- A value whose first line stands at a level. -/
def pretty (level : Nat) : JsonValue → Text
  | .string t => stringText t
  | .number n => decimal n
  | .boolean true => "true"
  | .boolean false => "false"
  | .array [] => "[]"
  | .array (v :: vs) =>
    '[' :: newLine (level + 1) ++ pretty (level + 1) v ++ prettyRest (level + 1) vs
      ++ newLine level ++ [']']
  | .object [] => "\x7b\x7d"
  | .object ((k, v) :: fs) =>
    '\x7b' :: newLine (level + 1) ++ stringText k ++ ": ".toList ++ pretty (level + 1) v
      ++ prettyFields (level + 1) fs ++ newLine level ++ ['\x7d']

/-- The elements behind the first. -/
def prettyRest (level : Nat) : List JsonValue → Text
  | [] => []
  | v :: vs => ',' :: newLine level ++ pretty level v ++ prettyRest level vs

/-- The fields behind the first. -/
def prettyFields (level : Nat) : List (Text × JsonValue) → Text
  | [] => []
  | (k, v) :: fs =>
    ',' :: newLine level ++ stringText k ++ ": ".toList ++ pretty level v ++ prettyFields level fs

end

end JsonValue

/-!
## Reports for programs

The result of a run as a value of JSON.
-/

/-- A diagnostic, whose kind is its first field. -/
def Diagnostic.toJson : Diagnostic → JsonValue
  | noMatches => .object [("kind", .string "no_matches")]
  | malformed rule line reason =>
    .object [("kind", .string "malformed_header"), ("rule", .string rule), ("line", .number line),
      ("reason", .string reason)]
  | dropped rule line parameter reason =>
    .object [("kind", .string "dropped_parameter"), ("rule", .string rule), ("line", .number line),
      ("parameter", .string parameter), ("reason", .string reason.label)]

/-- The summary of a rule. -/
def RuleSummary.toJson (r : RuleSummary) : JsonValue :=
  .object [("name", .string r.name), ("line", .number r.line), ("parametric", .number r.parametric),
    ("ghost", .number r.ghost), ("unclassified", .number r.unclassified),
    ("dropped", .number r.dropped), ("changed", .boolean r.changed)]

/-- A report. -/
def Report.toJson (r : Report) : JsonValue :=
  .object [("headers_matched", .number r.matched), ("headers_changed", .number r.changed),
    ("rules", .array (r.rules.map RuleSummary.toJson)),
    ("diagnostics", .array (r.diagnostics.map Diagnostic.toJson))]

/-- The result of a run.  There is none for a path that is no text. -/
def Outcome.toJson? (o : Outcome) : Option JsonValue :=
  (toText? o.path).map fun path =>
    .object [("path", .string path), ("report", o.report.toJson),
      ("would_change", .boolean o.wouldChange), ("written", .boolean o.written)]

/-- The report of a run for programs, if there is one. -/
def Outcome.jsonText? (o : Outcome) : Option Text := o.toJson?.map fun v => v.pretty 0 ++ ['\n']

/-!
## Reports for terminals

The result of a run as lines for an operator, with colours or without.
-/

/-- How a word is shown. -/
inductive Style where
  | bold | cyan | green | yellow | warning
  deriving DecidableEq, Repr

/-- The code by which a terminal is told of a style. -/
def Style.code : Style → Text
  | bold => "1"
  | cyan => "36"
  | green => "32"
  | yellow => "33"
  | warning => "1;33"

/-- The character that begins the orders to a terminal. -/
def escapeChar : Char := Char.ofNat 0x1B

/-- Words in a style, if there are to be colours. -/
def styled (color : Bool) (s : Style) (t : Text) : Text :=
  if color then escapeChar :: '[' :: s.code ++ 'm' :: t ++ escapeChar :: "[0m".toList else t

/-- The line for a rule. -/
def RuleSummary.terminalLine (color : Bool) (r : RuleSummary) : Text :=
  "  ".toList ++ styled color .cyan "~" ++ [' '] ++ r.name ++ " (line ".toList ++ decimal r.line
    ++ "): ".toList ++ decimal r.parametric ++ " parametric, ".toList ++ decimal r.ghost
    ++ " ghost\n".toList

/-- The line for a diagnostic. -/
def Diagnostic.terminalLine (color : Bool) (d : Diagnostic) : Text :=
  "  ".toList ++ styled color .warning "warning:" ++ [' '] ++ d.message ++ ['\n']

/-- The last line. -/
def Outcome.verdict (color : Bool) (o : Outcome) : Text :=
  (if o.written then styled color .green "Parameter reordering completed!"
    else if o.wouldChange then styled color .yellow "File would change (not written)"
    else styled color .green "File already up to date") ++ ['\n']

/-- The report of a run for a terminal. -/
def Outcome.terminalText (color : Bool) (o : Outcome) : Text :=
  styled color .bold "Rule headers:" ++ [' '] ++ display o.path ++ ['\n']
    ++ "  matched: ".toList ++ decimal o.report.matched ++ "  changed: ".toList
    ++ decimal o.report.changed ++ ['\n']
    ++ (o.report.rules.filter (·.changed)).flatMap (RuleSummary.terminalLine color)
    ++ o.report.diagnostics.flatMap (Diagnostic.terminalLine color)
    ++ o.verdict color

/-- The forms of a report. -/
inductive Format where
  | json | terminal
  deriving DecidableEq, Repr

/-- The report of a run, if there is one. -/
def Outcome.render (o : Outcome) (color : Bool) : Format → Option Text
  | .json => o.jsonText?
  | .terminal => some (o.terminalText color)

end RuleFormat
