import RuleFormat.Groups
import RuleFormat.Header

/-!
# Reordering a file

A pass over a text replaces each header whose parameters can all be read, and leaves every other
character where it is.  `writeHeader` writes the new headers, `step` says what becomes of one
segment, and `reorder` runs over all of them and adds the steps up to a text, a report and a log.
-/

namespace RuleFormat

/-!
## Writing headers

A header is written over several lines: the attribute, the name, one line for each parameter with
the environment parameter first, a comment line in front of each group that is not empty, and the
closing bracket with the brace.  A comma follows each parameter but the last.
-/

/-- The indentation of a written header. -/
structure Layout where
  /-- Columns in front of `pub fn` and of the closing bracket. -/
  headerIndent : Nat
  /-- Columns in front of parameters and comments. -/
  paramIndent : Nat
  deriving DecidableEq, Repr

/-- The indentation that is used unless a configuration sets another. -/
def Layout.builtin : Layout := ⟨12, 16⟩

/-- The greatest indentation that a configuration may set. -/
def Layout.maxIndent : Nat := 80

/-- Whether a configuration may set this layout. -/
def Layout.isAllowed (l : Layout) : Bool :=
  l.headerIndent ≤ maxIndent && l.paramIndent ≤ maxIndent

/-- Whether a text has a carriage return with a line feed behind it. -/
def hasReturnFeed : Text → Bool
  | [] => false
  | c :: cs => (c == '\r' && cs.head? == some '\n') || hasReturnFeed cs

/-- The line ending that a text uses: with a carriage return when it has any such. -/
def lineEnding (t : Text) : Text := if hasReturnFeed t then ['\r', '\n'] else ['\n']

/-- A line inside a written header. -/
inductive Entry where
  | comment (text : Text)
  | param (text : Text)
  deriving DecidableEq, Repr

/-- Whether an entry is a parameter. -/
def Entry.isParam : Entry → Bool
  | .comment _ => false
  | .param _ => true

/-- A group of parameters with its comment in front, when it is not empty. -/
def groupEntries (comment : Text) (ps : List Parameter) : List Entry :=
  if ps.isEmpty then [] else .comment comment :: ps.map (.param ·.text)

/-- The comment in front of parametric parameters. -/
def parametricComment : Text := "// ParametricParams variables"

/-- The comment in front of ghost parameters. -/
def ghostComment : Text := "// Initialize ghost storage state from parameters"

/-- The comment in front of unclassified parameters. -/
def unclassifiedComment : Text := "// Unclassified parameters"

/-- The lines inside a written header. -/
def Groups.entries (g : Groups) : List Entry :=
  .param Parameter.envText
    :: (groupEntries parametricComment g.parametric ++ groupEntries ghostComment g.ghost
      ++ groupEntries unclassifiedComment g.unclassified)

/-- Blanks in front of a line. -/
def pad (n : Nat) : Text := List.replicate n ' '

/-- Writes the lines inside a header. -/
def writeEntries (indent : Nat) (newline : Text) : List Entry → Text
  | [] => []
  | .comment t :: es => pad indent ++ t ++ newline ++ writeEntries indent newline es
  | .param t :: es =>
    pad indent ++ t ++ (if es.any Entry.isParam then [','] else []) ++ newline
      ++ writeEntries indent newline es

/-- Writes a header, from its attribute to the brace that opens its body. -/
def writeHeader (l : Layout) (newline name : Text) (g : Groups) : Text :=
  Opening.text ⟨newline ++ pad l.headerIndent, name⟩ ++ newline
    ++ writeEntries l.paramIndent newline g.entries
    ++ pad l.headerIndent ++ ") \x7b".toList

/-! ## Single segments -/

/-- What decides how headers are written. -/
structure Settings where
  tables : Tables
  layout : Layout
  policy : Policy
  deriving DecidableEq, Repr

/-- What becomes of one segment. -/
structure Step where
  text : Text
  /-- How many headers this makes. -/
  matched : Nat
  /-- How many headers this makes that are not as they were. -/
  changed : Nat
  rule : Option RuleSummary
  diagnostics : List Diagnostic
  events : List Event
  deriving DecidableEq, Repr

namespace Step

/-- A segment outside of headers. -/
def copy (t : Text) : Step := ⟨t, 0, 0, none, [], []⟩

/-- A header that is left as it is. -/
def leave (t rule : Text) (line : Nat) (reason : Text) : Step :=
  ⟨t, 0, 0, none, [.malformed rule line reason], [.headerSkipped rule line reason]⟩

/-- A header that is put in order. -/
def replace (s : Settings) (newline : Text) (line : Nat) (h : Header) (ps : List Parameter) :
    Step :=
  let sorting := Sorting.run s.tables s.policy ps
  let g := sorting.toGroups
  let name := h.opening.name
  let text := writeHeader s.layout newline name g
  let changed := h.text != text
  { text
    matched := 1
    changed := if changed then 1 else 0
    rule := some ⟨name, line, g.parametric.length, g.ghost.length, g.unclassified.length,
      g.dropped.length, changed⟩
    diagnostics := g.dropped.map fun d => .dropped name line d.parameter.text d.reason
    events := sorting.log ++ [.headerDone name line changed] }

end Step

/-- What becomes of a segment that stands in a line. -/
def step (s : Settings) (newline : Text) (line : Nat) : Segment → Step
  | .plain c => .copy [c]
  | .malformed o fault => .leave o.text o.name line fault.message
  | .header h =>
    match Parameter.readAll h.fragments with
    | .error fault => .leave h.text h.opening.name line fault.message
    | .ok ps => .replace s newline line h ps

/-- What becomes of segments, the first of which stands in a line. -/
def steps (s : Settings) (newline : Text) (line : Nat) : List Segment → List Step
  | [] => []
  | seg :: segs => step s newline line seg :: steps s newline (line + lineFeeds seg.text) segs

/-! ## Whole texts -/

/-- A text in order, with what is to be said about it. -/
structure Reordered where
  text : Text
  report : Report
  events : List Event
  deriving DecidableEq, Repr

namespace Reordered

/-- What becomes of no segment. -/
def empty : Reordered := ⟨[], ⟨0, 0, [], []⟩, []⟩

/-- Adds what becomes of a segment in front. -/
def before (s : Step) (r : Reordered) : Reordered where
  text := s.text ++ r.text
  report := {
    matched := s.matched + r.report.matched
    changed := s.changed + r.report.changed
    rules := s.rule.toList ++ r.report.rules
    diagnostics := s.diagnostics ++ r.report.diagnostics }
  events := s.events ++ r.events

/-- Says so when there was no header. -/
def close (r : Reordered) : Reordered :=
  if r.report.matched = 0 ∧ !r.report.hasDiagnostics then
    { r with
      report := { r.report with diagnostics := r.report.diagnostics ++ [.noMatches] }
      events := r.events ++ [.nothingMatched] }
  else r

/-- Adds steps up. -/
def ofSteps (ss : List Step) : Reordered := (ss.foldr before empty).close

end Reordered

/-- Puts all headers of a text in order. -/
def reorder (s : Settings) (t : Text) : Reordered :=
  .ofSteps (steps s (lineEnding t) 1 (segments t))

end RuleFormat
