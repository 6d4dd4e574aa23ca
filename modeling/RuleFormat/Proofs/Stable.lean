import RuleFormat.Parameter
import RuleFormat.Proofs.Brackets
import RuleFormat.Proofs.Lexing

/-!
# Tokens as they are written out

What is written out of tokens, and which tokens are written out as they stand.

## The ink of tokens

Types are compared without their white space, so of the tokens of a type only the *ink* counts: what
they are written out as, white space left out.  The ink of tokens is the ink of one behind that of the
other (`ink_append`), and a text that spells tokens, with white space between them, has their ink
(`compact_of_spells`).
-/

namespace RuleFormat

/-- Tokens as they are written out, without white space. -/
def ink (ts : Tokens) : Text := compact (render ts)

@[simp] theorem ink_nil : ink [] = [] := rfl

@[simp] theorem ink_cons (t : Token) (ts : Tokens) : ink (t :: ts) = compact t.render ++ ink ts := by
  cases ts with
  | nil => simp [ink, render]
  | cons u ts =>
    have hgap : compact (if t.isJoint then [] else [' ']) = [] := by cases t.isJoint <;> rfl
    simp [ink, render, hgap]

@[simp] theorem ink_append (ts us : Tokens) : ink (ts ++ us) = ink ts ++ ink us := by
  induction ts with
  | nil => rfl
  | cons t ts ih => rw [List.cons_append, ink_cons, ink_cons, ih, List.append_assoc]

/-- The character that opens a delimiter. -/
def Delimiter.openChar : Delimiter → Char
  | .round => '('
  | .square => '['
  | .curly => '{'

/-- The character that closes a delimiter. -/
def Delimiter.closeChar : Delimiter → Char
  | .round => ')'
  | .square => ']'
  | .curly => '}'

theorem compact_group (d : Delimiter) (ts : Tokens) :
    compact (Token.group d ts).render = d.openChar :: ink ts ++ [d.closeChar] := by
  rw [Token.render]
  cases d with
  | round => simp [Delimiter.enclose, compact, isWhite, Delimiter.openChar, Delimiter.closeChar, ink]
  | square => simp [Delimiter.enclose, compact, isWhite, Delimiter.openChar, Delimiter.closeChar, ink]
  | curly =>
    unfold ink
    cases render ts with
    | nil => rfl
    | cons c cs =>
      have henclose : Delimiter.curly.enclose (c :: cs)
          = ['\x7b', ' '] ++ (c :: cs) ++ [' ', '\x7d'] := by simp [Delimiter.enclose]
      have hopen : compact ['\x7b', ' '] = ['\x7b'] := by decide
      have hclose : compact [' ', '\x7d'] = ['\x7d'] := by decide
      rw [henclose, compact_append, compact_append, hopen, hclose]
      rfl

theorem ink_group (d : Delimiter) (ts : Tokens) :
    ink [.group d ts] = d.openChar :: ink ts ++ [d.closeChar] := by
  rw [ink_cons, ink_nil, List.append_nil, compact_group]

/-! ## The ink of lexemes -/

/-- A lexeme as it is written out, without white space. -/
def Lexeme.ink : Lexeme → Text
  | .token t => compact t.render
  | .enter d => [d.openChar]
  | .leave d => [d.closeChar]

theorem compact_of_spells {t : Text} {ls : List Lexeme} (h : Lexer.Spells isWhite t ls) :
    compact t = (ls.map Lexeme.ink).flatten := by
  induction h with
  | nil => rfl
  | gap hc _ ih => rw [compact, List.filter_cons_of_neg (by simpa using hc)]; exact ih
  | @enter c d t ls hc _ ih =>
    have hopen : c = d.openChar ∧ isWhite c = false := by
      unfold Delimiter.ofOpen? at hc
      split at hc <;> cases hc <;> exact ⟨rfl, by decide⟩
    rw [compact, List.filter_cons_of_pos (by simpa using hopen.2)]
    exact congrArg₂ List.cons hopen.1 ih
  | @leave c d t ls hc _ ih =>
    have hclose : c = d.closeChar ∧ isWhite c = false := by
      unfold Delimiter.ofClose? at hc
      split at hc <;> cases hc <;> exact ⟨rfl, by decide⟩
    rw [compact, List.filter_cons_of_pos (by simpa using hclose.2)]
    exact congrArg₂ List.cons hclose.1 ih
  | token _ _ ih => rw [compact_append, ih]; rfl

mutual

theorem flatten_ink_flat_token (t : Token) :
    (t.flat.map Lexeme.ink).flatten = compact t.render := by
  cases t with
  | group d ts =>
    rw [compact_group, Token.flat, ← flatten_ink_flat ts]
    simp [Lexeme.ink]
  | _ => simp [Token.flat, Lexeme.ink]

theorem flatten_ink_flat (ts : Tokens) : ((flat ts).map Lexeme.ink).flatten = ink ts := by
  cases ts with
  | nil => rfl
  | cons t ts =>
    rw [flat_cons, List.map_append, List.flatten_append, flatten_ink_flat_token t,
      flatten_ink_flat ts, ink_cons]

end

/-! ## Tokens with ink -/

mutual

/-- Whether a token has ink, and all tokens in it. -/
def Token.isInked : Token → Bool
  | .group _ ts => isInked ts
  | t => !(compact t.render).isEmpty

/-- Whether all tokens have ink. -/
def isInked : Tokens → Bool
  | [] => true
  | t :: ts => t.isInked && isInked ts

end

theorem compact_ne_nil {t : Token} (h : t.isInked = true) : compact t.render ≠ [] := by
  cases t with
  | group d ts => rw [compact_group]; simp
  | _ => simpa [Token.isInked] using h

theorem eq_nil_of_ink {ts : Tokens} (h : isInked ts = true) (hink : ink ts = []) : ts = [] := by
  cases ts with
  | nil => rfl
  | cons t ts =>
    rw [isInked, Bool.and_eq_true] at h
    rw [ink_cons, List.append_eq_nil_iff] at hink
    exact absurd hink.1 (compact_ne_nil h.1)

theorem isInked_append {ts us : Tokens} :
    isInked (ts ++ us) = (isInked ts && isInked us) := by
  induction ts with
  | nil => rfl
  | cons t ts ih => rw [List.cons_append, isInked, isInked, ih, Bool.and_assoc]

end RuleFormat

/-!
## Tokens that are written out as they stand

A type is written out from what was read, and a few forms come out in another shape: lifetimes move in
front of other arguments, a colon without bounds is left out, a cast in front of an angle bracket is put
in parentheses, and so on.  `rewritten` lists these forms, each as a test of what stands at one place.
Tokens are *stable* (`Stable`) when none of the forms stands in them at any place, in groups or outside
of them, and when no block among them declares an item.

Whatever is left of stable tokens is stable, and so is the content of their groups.
-/

namespace RuleFormat.Parser

/-! ## Arguments in angle brackets -/

/-- Whether an argument stands ahead that is a lifetime, and no sum of bounds. -/
def isLifetimeItem (ts : Tokens) : Bool := startsLifetime ts && !startsOp "+" (ts.drop 1)

/-- The places of commas and of the closing bracket in what stands behind an opening angle bracket,
inside of `n` further ones.  The angle bracket of an arrow is none. -/
def marks : Nat → Tokens → List Tokens
  | _, [] => []
  | n, .punct '-' true :: .punct '>' _ :: ts => marks n ts
  | n, .punct '<' _ :: ts => marks (n + 1) ts
  | 0, .punct '>' j :: ts => [.punct '>' j :: ts]
  | n + 1, .punct '>' _ :: ts => marks n ts
  | 0, .punct ',' j :: ts => (.punct ',' j :: ts) :: marks 0 ts
  | n, _ :: ts => marks n ts

/-- The places behind the commas between arguments. -/
def laterItems (ts : Tokens) : List Tokens := ((marks 0 ts).filter (startsOp ",")).map (·.drop 1)

/-- What stands behind the closing bracket. -/
def behindAngles (ts : Tokens) : Tokens := (((marks 0 ts).find? (startsOp ">")).getD []).drop 1

/-- Whether no lifetime follows another argument, in what stands behind an opening angle bracket. -/
def isOrdered (ts : Tokens) : Bool :=
  ((ts :: laterItems ts).map isLifetimeItem).Pairwise fun a b => b = true → a = true

/-- Whether an angle bracket stands ahead that a path in front would take for its own. -/
def opensArguments (ts : Tokens) : Bool :=
  startsOp "<" ts && !startsOp "<=" ts && !startsOp "<<=" ts

/-! ## Forms that are written out in another shape -/

/-- Arguments of which lifetimes are not the first. -/
def reordersArguments (ts : Tokens) : Bool := startsOp "<" ts && !isOrdered (ts.drop 1)

/-- A colon without bounds. -/
def dropsColon (ts : Tokens) : Bool := startsOp ":" ts && endsBounds (ts.drop 1)

/-- A double colon, or brackets with nothing between them, in front of parentheses. -/
def dropsMark (ts : Tokens) : Bool :=
  startsGroup .round (ts.drop 2)
    && (startsOp "::" ts || (startsOp "<" ts && startsOp ">" (ts.drop 1)))

/-- Whether a bound that may be missing stands ahead, in parentheses. -/
def startsMaybe : Tokens → Bool
  | .group .round inner :: _ => startsOp "?" inner
  | _ => false

/-- A bound in a sum, in more parentheses than it needs. -/
def dropsParentheses : Tokens → Bool
  | .group .round [.group .round inner] :: rest => startsMaybe [.group .round inner] && startsOp "+" rest
  | _ => false

/-- Three dots in a range. -/
def replacesDots (ts : Tokens) : Bool := startsOp "..." ts && !endsRange (ts.drop 3)

/-- Whether the number of a field is written in other digits. -/
def isRespelled (t : Text) : Bool :=
  match fieldNumber? t with
  | some n => decimal n != t
  | none => false

/-- The number of a field that is written in other digits. -/
def renumbersField : Tokens → Bool
  | .punct '.' _ :: .literal t :: rest =>
    (t.splitOnP (· == '.')).any isRespelled
      || match rest with
        | .literal u :: _ => isRespelled u
        | _ => false
  | .literal t :: .punct ':' _ :: _ => isRespelled t
  | _ => false

/-- Whether a sum of bounds stands ahead that is one wherever it stands. -/
def startsSum (ts : Tokens) : Bool :=
  (startsLifetime ts || startsMaybe ts) && startsOp "+" (ts.drop 1)

/-- Whether a sum of bounds ends in front of an angle bracket that is not its own. -/
def endsSum (ts : Tokens) : Bool :=
  startsOp "+" ts && (opensArguments (ts.drop 1)
    || (startsGroup .round (ts.drop 1) && opensArguments (ts.drop 2)))

/-- Whether a type ends with a path that has no arguments, though an angle bracket follows it. -/
def isBareType (ts : Tokens) : Bool :=
  (startsOneOf bareSegments ts && opensArguments (ts.drop 1))
    || (startsOneOf ["dyn", "impl"] ts && startsGroup .round (ts.drop 1) && opensArguments (ts.drop 2))
    || (startsMaybe ts && opensArguments (ts.drop 1))
    || (startsSum ts && ts.tails.any endsSum)

/-- A cast in front of an angle bracket. -/
def enclosesCast (ts : Tokens) : Bool := startsWord "as" ts && ts.tails.any isBareType

/-- Whether a token may stand in a path without arguments. -/
def isPathToken : Token → Bool
  | .word _ => true
  | .punct c _ => c == ':'
  | _ => false

/-- Names that a `for` introduces, in front of a macro. -/
def dropsNames (ts : Tokens) : Bool :=
  startsWord "for" ts && startsOp "<" (ts.drop 1)
    && startsMacroMark ((behindAngles (ts.drop 2)).dropWhile isPathToken)

/-- An attribute in front of what is taken as it stands. -/
def dropsAttribute (ts : Tokens) : Bool :=
  startsOp "#" ts && startsGroup .square (ts.drop 1)
    && startsOneOf ["box", "become", "builtin"] (ts.drop 2)

/-- Whether the dots of a range stand ahead. -/
def startsDots (ts : Tokens) : Bool := startsOp ".." ts && !startsOp "..." ts

/-- An attribute in front of a range. -/
def enclosesRange (ts : Tokens) : Bool := startsOp "#" ts && ts.tails.any startsDots

/-- Whether an item stands ahead, where a statement may stand. -/
def declares (ts : Tokens) : Bool := macroAhead ts = .item || startsItem ts

/-- An item behind another statement or behind an attribute. -/
def declaresNext (ts : Tokens) : Bool :=
  (startsOp ";" ts || startsGroup .curly ts || startsGroup .square ts) && declares (ts.drop 1)

/-- The forms that are written out in another shape, and items. -/
def rewritten : List (Tokens → Bool) :=
  [reordersArguments, dropsColon, dropsMark, dropsParentheses, replacesDots, renumbersField,
    enclosesCast, dropsNames, dropsAttribute, enclosesRange, declaresNext]

/-! ## Stable tokens -/

mutual

/-- Whether no form of `rewritten` stands in a token, and no block in it begins with an item. -/
def isStableToken : Token → Bool
  | .group d ts => !(d = .curly && declares ts) && isStable ts
  | _ => true

/-- Whether no form of `rewritten` stands among tokens or in them, and no block in them begins with an
item. -/
def isStable : Tokens → Bool
  | [] => true
  | t :: ts => isStableToken t && !rewritten.any (· (t :: ts)) && isStable ts

end

/-- Tokens that are written out as they stand, none of which is without ink. -/
structure Stable (ts : Tokens) : Prop where
  isStable : isStable ts = true
  isInked : isInked ts = true

namespace Stable

variable {t : Token} {ts rest inner : Tokens} {d : Delimiter} {f : Tokens → Bool}

theorem tail (h : Stable (t :: ts)) : Stable ts := by
  obtain ⟨hs, hi⟩ := h
  simp only [Parser.isStable, RuleFormat.isInked, Bool.and_eq_true] at hs hi
  exact ⟨hs.2, hi.2⟩

theorem append_right (h : Stable (ts ++ rest)) : Stable rest := by
  induction ts with
  | nil => exact h
  | cons t ts ih => exact ih h.tail

theorem of_suffix (h : Stable ts) (hs : rest <:+ ts) : Stable rest := by
  obtain ⟨taken, rfl⟩ := hs
  exact h.append_right

/-- None of the forms stands at the front. -/
theorem front (h : Stable ts) (hf : f ∈ rewritten) (hnil : f [] = false) : f ts = false := by
  cases ts with
  | nil => exact hnil
  | cons t ts =>
    have hs := h.isStable
    simp only [Parser.isStable, Bool.and_eq_true, Bool.not_eq_true', List.any_eq_false] at hs
    simpa using hs.1.2 f hf

theorem group (h : Stable (.group d inner :: rest)) : Stable inner := by
  obtain ⟨hs, hi⟩ := h
  simp only [Parser.isStable, isStableToken, RuleFormat.isInked, Token.isInked, Bool.and_eq_true] at hs hi
  exact ⟨hs.1.1.2, hi.1⟩

/-- A block does not begin with an item. -/
theorem block (h : Stable (.group .curly inner :: rest)) : declares inner = false := by
  have hs := h.isStable
  simp only [Parser.isStable, isStableToken, Bool.and_eq_true] at hs
  simpa using hs.1.1.1

/-- Tokens of which nothing has been written out have not been taken. -/
theorem eq_of_ink (h : Stable ts) (hs : rest <:+ ts) (hink : ink ts = ink rest) : rest = ts := by
  obtain ⟨taken, rfl⟩ := hs
  have hi := h.isInked
  rw [isInked_append, Bool.and_eq_true] at hi
  have hnil : ink taken = [] := by simpa using hink
  rw [eq_nil_of_ink hi.1 hnil, List.nil_append]

end Stable

/-! ## Places -/

/-- Whether `p` holds at some place. -/
def Has (p : Tokens → Bool) (ts : Tokens) : Prop := ∃ s, s <:+ ts ∧ p s = true

theorem any_tails {p : Tokens → Bool} {ts : Tokens} : ts.tails.any p = true ↔ Has p ts := by
  simp [Has, List.any_eq_true]

theorem Has.mono {p : Tokens → Bool} {ts us : Tokens} (h : Has p ts) (hs : ts <:+ us) : Has p us := by
  obtain ⟨s, hsuffix, hp⟩ := h
  exact ⟨s, hsuffix.trans hs, hp⟩

theorem Has.here {p : Tokens → Bool} {ts : Tokens} (h : p ts = true) : Has p ts :=
  ⟨ts, List.suffix_refl ts, h⟩

/-- A sum of bounds that is one wherever it stands may end bare. -/
theorem isBareType_of_sum {t : Token} {ts : Tokens} (h : startsSum (t :: ts) = true)
    (hends : Has endsSum ts) : isBareType (t :: ts) = true := by
  have hany : (t :: ts).tails.any endsSum = true := any_tails.2 (hends.mono (List.suffix_cons t ts))
  rw [isBareType, h, hany, Bool.and_self, Bool.or_true]

/-- A bound in parentheses behind `dyn` or `impl` may end bare. -/
theorem isBareType_of_bound {w : Text} (hw : List.contains ["dyn".toList, "impl".toList] w = true)
    {inner ts : Tokens} (hopen : opensArguments ts = true) :
    isBareType (.word w :: .group .round inner :: ts) = true := by
  have hword : startsOneOf ["dyn", "impl"] (.word w :: .group .round inner :: ts) = true := hw
  have hgroup : startsGroup .round (.group .round inner :: ts) = true := rfl
  rw [isBareType, hword, List.drop_one, List.tail_cons, hgroup]
  simp [hopen]

/-! ## The places of arguments -/

theorem marks_token {t : Token} (h : t.isMark = false) (n : Nat) (ts : Tokens) :
    marks n (t :: ts) = marks n ts := by
  cases t with
  | punct c j =>
    simp only [Token.isMark, Bool.or_eq_false_iff, beq_eq_false_iff_ne] at h
    rw [marks] <;> simp_all
  | _ => cases n <;> rfl

theorem marks_minus (n : Nat) (j : Bool) (lit : Text) (ts : Tokens) :
    marks n (.punct '-' j :: .literal lit :: ts) = marks n ts := by
  rw [marks, marks] <;> simp

theorem marks_comma (n : Nat) (j : Bool) (ts : Tokens) :
    marks (n + 1) (.punct ',' j :: ts) = marks (n + 1) ts := by
  rw [marks] <;> simp

/-- There is no mark among tokens whose brackets pair off, and none of them closes a bracket in front. -/
theorem marks_append {b : Bool} {ts : Tokens} (h : Paired b ts) {n : Nat} (hb : b = false ∨ n ≠ 0)
    (us : Tokens) : marks n (ts ++ us) = marks n us := by
  induction h generalizing n us with
  | nil => rfl
  | token ht _ ih => rw [List.cons_append, marks_token ht, ih hb]
  | @comma j ts _ ih =>
    obtain ⟨m, rfl⟩ := Nat.exists_eq_succ_of_ne_zero (hb.resolve_left (by simp))
    rw [List.cons_append, marks_comma, ih (Or.inr (Nat.succ_ne_zero m))]
  | minus _ ih => rw [List.cons_append, List.cons_append, marks_minus, ih hb]
  | arrow _ ih => rw [List.cons_append, List.cons_append, marks, ih hb]
  | @angle b j j' inside ts _ _ ihin ih =>
    rw [List.cons_append, List.append_assoc, marks, ihin (Or.inr (Nat.succ_ne_zero n)),
      List.cons_append, marks, ih hb]

/-- Where a comma follows an argument, the next argument stands behind it. -/
theorem laterItems_comma {taken ts : Tokens} {j : Bool} (h : Paired false taken) :
    laterItems (taken ++ .punct ',' j :: ts) = ts :: laterItems ts := by
  unfold laterItems
  rw [marks_append h (Or.inl rfl), marks, List.filter_cons_of_pos (by rfl), List.map_cons,
    List.drop_one, List.tail_cons]

theorem find_marks_append {b : Bool} {ts : Tokens} (h : Paired b ts) (us : Tokens) :
    (marks 0 (ts ++ us)).find? (startsOp ">") = (marks 0 us).find? (startsOp ">") := by
  induction h with
  | nil => rfl
  | token ht _ ih => rw [List.cons_append, marks_token ht, ih]
  | comma _ ih => rw [List.cons_append, marks, List.find?_cons_of_neg (by simp [startsOp]), ih]
  | minus _ ih => rw [List.cons_append, List.cons_append, marks_minus, ih]
  | arrow _ ih => rw [List.cons_append, List.cons_append, marks, ih]
  | angle hin _ _ ih =>
    rw [List.cons_append, List.append_assoc, marks, marks_append hin (Or.inr Nat.one_ne_zero),
      List.cons_append, marks, ih]

/-- Behind the closing bracket stands what follows it. -/
theorem behindAngles_close {b : Bool} {inside ts : Tokens} {j : Bool} (h : Paired b inside) :
    behindAngles (inside ++ .punct '>' j :: ts) = ts := by
  unfold behindAngles
  rw [find_marks_append h, marks]
  rfl

end RuleFormat.Parser
