/-!
# Texts

A text is a list of characters, so that everything which reads or writes text can be defined by
recursion on it.  Positions that leave the library are counted in bytes of the UTF-8 form, which
`byteLength` gives.
-/

namespace RuleFormat

/-- A text, as the list of its characters. -/
abbrev Text := List Char

instance : Coe String Text := ⟨String.toList⟩

/-- The number of bytes in the UTF-8 form of a text. -/
def byteLength : Text → Nat
  | [] => 0
  | c :: cs => c.utf8Size + byteLength cs

/-- The text that is left after its first `n` bytes.  Nothing is left when `n` lies past the end. -/
def dropBytes : Nat → Text → Text
  | 0, t => t
  | _ + 1, [] => []
  | n + 1, c :: cs => dropBytes (n + 1 - c.utf8Size) cs

/-- The number of line feeds in a text. -/
def lineFeeds (t : Text) : Nat := t.count '\n'

/-- The decimal digits of a number. -/
def decimal (n : Nat) : Text := Nat.toDigits 10 n

/-- The lists `ts` one after the other, with `sep` between two neighbours. -/
def joinWith {α : Type} (sep : List α) (ts : List (List α)) : List α := sep.intercalate ts

/-- The text between a pair of backquotes. -/
def quoted (t : Text) : Text := "`".toList ++ t ++ "`".toList

@[simp] theorem byteLength_nil : byteLength [] = 0 := rfl

@[simp] theorem byteLength_cons (c : Char) (t : Text) :
    byteLength (c :: t) = c.utf8Size + byteLength t := rfl

@[simp] theorem byteLength_append (s t : Text) :
    byteLength (s ++ t) = byteLength s + byteLength t := by
  induction s with
  | nil => simp
  | cons c s ih => simp [ih, Nat.add_assoc]

@[simp] theorem dropBytes_zero (t : Text) : dropBytes 0 t = t := by
  cases t <;> rfl

/-!
## White space

White space is the Unicode property `White_Space`: the line and page separators, the blanks of all
widths that stand between words, and nothing that merely looks empty (a zero width space or a byte
order mark is not white).

* `words` are the maximal runs of characters that are not white.
* `collapse` joins the words with one blank each, so that it also trims.
* `compact` leaves all white space out.
-/

/-- Whether a character has the property `White_Space`. -/
def isWhite (c : Char) : Bool :=
  let n := c.toNat
  (9 ≤ n && n ≤ 13) || n == 0x20 || n == 0x85 || n == 0xA0 || n == 0x1680
    || (0x2000 ≤ n && n ≤ 0x200A) || n == 0x2028 || n == 0x2029 || n == 0x202F || n == 0x205F
    || n == 0x3000

/-- Whether a text holds white space only. -/
def isBlank (t : Text) : Bool := t.all isWhite

/-- The words of a text: its maximal runs of characters that are not white. -/
def words (t : Text) : List Text := (t.splitOnP isWhite).filter fun w => !w.isEmpty

/-- A text with each run of white space made one blank, and none at either end. -/
def collapse (t : Text) : Text := joinWith [' '] (words t)

/-- A text with all white space left out. -/
def compact (t : Text) : Text := t.filter fun c => !isWhite c

@[simp] theorem compact_nil : compact [] = [] := rfl

@[simp] theorem compact_append (s t : Text) : compact (s ++ t) = compact s ++ compact t :=
  List.filter_append ..

end RuleFormat
