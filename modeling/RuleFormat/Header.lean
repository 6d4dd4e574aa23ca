import RuleFormat.Block
import RuleFormat.Text.Identifier

/-!
# Rule headers

A rule header begins with its opening: the attribute `#[rule]`, white space, and
`pub fn [< $f _name >](`.  A parameter block follows, then white space only, and the brace that
opens the rule's body.  A header whose block or brace cannot be read is malformed, and only its
opening is set apart.

* `readOpening?` recognises an opening at the front of a text.
* `segments` takes a text apart into headers, malformed openings and plain characters.
* `scan` lists the headers and the malformed ones with their places.
-/

namespace RuleFormat

/-- The opening of a rule header. -/
structure Opening where
  /-- The white space behind the attribute. -/
  gap : Text
  /-- The rule's name. -/
  name : Text
  deriving DecidableEq, Repr

/-- The attribute that marks a rule. -/
def ruleAttribute : Text := "#[rule]"

/-- What stands between the white space and the rule's name. -/
def beforeName : Text := "pub fn [< $f _"

/-- What stands between the rule's name and its parameter block. -/
def afterName : Text := " >]("

/-- An opening as it is written. -/
def Opening.text (o : Opening) : Text :=
  ruleAttribute ++ o.gap ++ beforeName ++ o.name ++ afterName

/-- The opening at the front of a text, and what follows it. -/
def readOpening? (t : Text) : Option (Opening × Text) := do
  let t ← ruleAttribute.isPrefixOf? t
  let gap := t.takeWhile isWhite
  guard (!gap.isEmpty)
  let t ← beforeName.isPrefixOf? (t.dropWhile isWhite)
  let name := t.takeWhile isWord
  guard (!name.isEmpty)
  let t ← afterName.isPrefixOf? (t.dropWhile isWord)
  return (⟨gap, name⟩, t)

/-- A header whose parameter block and body brace could be read. -/
structure Header where
  opening : Opening
  /-- The text of the parameter block. -/
  body : Text
  /-- The white space between the block and the brace. -/
  gap : Text
  fragments : List Text
  deriving DecidableEq, Repr

/-- A header as it is written, through the brace. -/
def Header.text (h : Header) : Text :=
  h.opening.text ++ h.body ++ [')'] ++ h.gap ++ ['{']

/-- Why a header is malformed. -/
inductive HeaderFault where
  | block (fault : BlockFault)
  | missingBrace
  deriving DecidableEq, Repr

/-- The wording of a fault. -/
def HeaderFault.message : HeaderFault → Text
  | block f => f.message
  | missingBrace => "expected ".toList ++ quoted ['{'] ++ " after the parameter list".toList

/-- Reads what follows an opening. -/
def readHeader (o : Opening) (t : Text) : Except HeaderFault Header :=
  match readBlock t with
  | .error f => .error (.block f)
  | .ok b =>
    match b.rest.dropWhile isWhite with
    | '{' :: _ => .ok ⟨o, b.body, b.rest.takeWhile isWhite, b.fragments⟩
    | _ => .error .missingBrace

/-- A part of a text. -/
inductive Segment where
  /-- A character outside all openings and headers. -/
  | plain (c : Char)
  | header (h : Header)
  /-- The opening of a malformed header. -/
  | malformed (o : Opening) (fault : HeaderFault)
  deriving DecidableEq, Repr

/-- A segment as it is written. -/
def Segment.text : Segment → Text
  | plain c => [c]
  | header h => h.text
  | malformed o _ => o.text

/-- The segment that a text begins with, its first character being `c`. -/
def segmentAt (c : Char) (cs : Text) : Segment :=
  match readOpening? (c :: cs) with
  | none => .plain c
  | some (o, t) =>
    match readHeader o t with
    | .ok h => .header h
    | .error f => .malformed o f

/-- The segments of a text behind its first `n` characters. -/
def segmentsFrom : Nat → Text → List Segment
  | _, [] => []
  | n + 1, _ :: cs => segmentsFrom n cs
  | 0, c :: cs =>
    let s := segmentAt c cs
    s :: segmentsFrom (s.text.length - 1) cs

/-- A text taken apart: headers, openings of malformed headers, and all other characters. -/
def segments (t : Text) : List Segment := segmentsFrom 0 t

/-- What the scanner reports about one rule. -/
inductive Found where
  | header (h : Header)
  | malformed (o : Opening) (fault : HeaderFault)
  deriving DecidableEq, Repr

namespace Found

/-- What a segment has to report. -/
def ofSegment? : Segment → Option Found
  | .plain _ => none
  | .header h => some (.header h)
  | .malformed o f => some (.malformed o f)

/-- The rule's name. -/
def name : Found → Text
  | header h => h.opening.name
  | malformed o _ => o.name

/-- The text that is set apart: the whole header, or the opening of a malformed one. -/
def text : Found → Text
  | header h => h.text
  | malformed o _ => o.text

end Found

/-- A place in a text: bytes before it, and its line. -/
structure Place where
  offset : Nat
  line : Nat
  deriving DecidableEq, Repr

/-- The first place of a text. -/
def Place.start : Place := ⟨0, 1⟩

/-- The place behind `t`, when `t` begins here. -/
def Place.after (p : Place) (t : Text) : Place := ⟨p.offset + byteLength t, p.line + lineFeeds t⟩

/-- A header or malformed header with its place. -/
structure ScanItem where
  place : Place
  found : Found
  deriving DecidableEq, Repr

/-- Where the item ends, in bytes. -/
def ScanItem.stop (i : ScanItem) : Nat := i.place.offset + byteLength i.found.text

/-- The items among segments that begin at place `p`. -/
def itemsFrom (p : Place) : List Segment → List ScanItem
  | [] => []
  | s :: ss =>
    let more := itemsFrom (p.after s.text) ss
    match Found.ofSegment? s with
    | some f => ⟨p, f⟩ :: more
    | none => more

/-- All rule headers of a text, malformed ones included, in order. -/
def scan (t : Text) : List ScanItem := itemsFrom .start (segments t)

end RuleFormat
