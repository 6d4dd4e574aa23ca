import RuleFormat.Parameter
import RuleFormat.Proofs.Layout
import RuleFormat.Proofs.Pairing

/-!
# Blocks and parameters

The reader of a block cuts a text into fragments, and the reader of a parameter makes a parameter of a
fragment.  They do not know the same language: to the first, `<` and `>` are brackets wherever they
stand, and character literals and raw strings are code.

They agree up to that.  When each of some texts is a parameter, then a block that lists the texts has
them as its fragments exactly when the brackets of each are even in the eyes of the first
(`readBlock_joinWith`).  Outside of groups angle brackets pair off in every parameter, by its grammar.  So
where the literals of a text are whole, one by one, its brackets are even exactly when the angle brackets
in every group pair off and no literal outside of all brackets has a comma in code.
-/

namespace RuleFormat

/-! ## Texts of parameters -/

/-- Whether a text is made of tokens and gaps, with no comment. -/
def isCommentFree (f : Text) : Bool := Lexer.isSpelledFrom Lexer.isGap 0 (dropByteOrderMark f)

/-- Whether a text closes all that it opens, its literals taken as a block reader takes them, and has
no comma outside of its brackets. -/
def hasEvenBrackets (f : Text) : Bool := (lex f).all fun ts => fits .code [] (flat ts)

/-- Whether a block reader keeps each literal of a text together inside of brackets. -/
def hasWholeLiterals (f : Text) : Bool := (lex f).all fun ts => (flat ts).all Lexeme.isWhole

/-- Whether the angle brackets in each group of a text pair off, and no literal outside of all
brackets is cut by a comma in it. -/
def hasEvenGroups (f : Text) : Bool :=
  (lex f).all fun ts => ts.all Token.isEven && uncutFrom 0 ts

/-- The tokens of a parameter are paired. -/
theorem paired_of_read {f : Text} {p : Parameter} (h : Parameter.read f = .ok p) :
    ∃ ts, lex f = some ts ∧ Paired false ts := by
  unfold Parameter.read at h
  split at h
  · cases h
  · cases h
  · rename_i name type hdecl
    unfold Declaration.read? at hdecl
    split at hdecl
    · cases hdecl
    · rename_i ts hlex
      split at hdecl
      · rename_i d hparse
        obtain rfl := Option.some.inj hdecl
        exact ⟨ts, hlex, Parser.paired_of_declaration hparse⟩
      · cases hdecl

theorem verbatim_dropByteOrderMark (inner : List Bracket) (f : Text) :
    Verbatim .code inner (dropByteOrderMark f) ↔ Verbatim .code inner f := by
  cases f with
  | nil => rfl
  | cons c cs =>
    rw [dropByteOrderMark]
    split
    · rename_i hc
      have hordinary : isOrdinary c = true :=
        isOrdinary_of_marks (p := fun c => c.toNat == 0xFEFF) (by decide) (by simpa using hc)
      exact ((passes_cons hordinary cs).code inner).symm
    · rfl

/-- The text of a parameter is a fragment exactly when its brackets are even. -/
theorem isFragment_iff {f : Text} {p : Parameter} (hcollapsed : collapse f = f)
    (hcomment : isCommentFree f = true) (hread : Parameter.read f = .ok p) :
    IsFragment f ↔ hasEvenBrackets f = true := by
  obtain ⟨ts, hlex, -⟩ := paired_of_read hread
  have hspells := spells_of_lex (fun _ => id) hcomment hlex
  have hverbatim : Verbatim .code [] f ↔ hasEvenBrackets f = true := by
    rw [← verbatim_dropByteOrderMark, hspells.verbatim_iff (fun _ => id) (.inl rfl), hasEvenBrackets,
      hlex, Option.all_some]
  have hne : f ≠ [] := by
    rintro rfl
    cases hread
  exact ⟨fun h => hverbatim.1 h.verbatim, fun h => ⟨hne, hcollapsed, hverbatim.2 h⟩⟩

/-- In a parameter with whole literals, the brackets are even exactly when its groups are. -/
theorem hasEvenBrackets_eq {f : Text} {p : Parameter} (hread : Parameter.read f = .ok p)
    (hliterals : hasWholeLiterals f = true) : hasEvenBrackets f = hasEvenGroups f := by
  obtain ⟨ts, hlex, hpaired⟩ := paired_of_read hread
  rw [hasWholeLiterals, hlex, Option.all_some] at hliterals
  have hfits : fits .code [] (flat ts ++ []) = _ := hpaired.fits_append hliterals (Or.inl rfl) []
  rw [List.append_nil] at hfits
  rw [hasEvenBrackets, hasEvenGroups, hlex, Option.all_some, Option.all_some, hfits]
  simp [fits]

/-! ## Listing parameters -/

theorem joinWith_cons_cons (sep f g : Text) (fs : List Text) :
    joinWith sep (f :: g :: fs) = f ++ (sep ++ joinWith sep (g :: fs)) := by
  simp [joinWith, List.intercalate]

theorem lists_joinWith {fs : List Text} (h : ∀ f ∈ fs, IsFragment f) :
    Lists (joinWith ", " fs ++ [')']) fs [] := by
  induction fs with
  | nil => exact Lists.done []
  | cons f fs ih =>
    have hf := h f (by simp)
    cases fs with
    | nil =>
      have hlast := Lists.last hf (Lists.done []) inert_close
      simpa [joinWith] using hlast
    | cons g fs =>
      have hrest := (ih fun g hg => h g (by simp [hg])).blank_append (s := [' '])
        (List.all_eq_true.1 (by decide))
      have hcomma := Lists.comma hf hrest
      rw [joinWith_cons_cons, List.append_assoc, List.append_assoc]
      exact hcomma

theorem readBlock_joinWith_iff {fs : List Text} :
    readBlock (joinWith ", " fs ++ [')']) = .ok ⟨fs, joinWith ", " fs, []⟩ ↔ ∀ f ∈ fs, IsFragment f :=
  ⟨fun h _ hf => isFragment_of_readBlock h hf, fun h => (lists_joinWith h).readBlock⟩

/-- **What a block lists.**  Let each of some texts be the text of a parameter: free of comments,
trimmed, and with single blanks for its white space.  Then a block that lists these texts is closed at
its end and has just them as its fragments if and only if the brackets of each are even.  In a text with
literals that a block reader keeps together, they are so exactly when the angle brackets in every group
pair off and no literal outside of all brackets is cut. -/
theorem readBlock_joinWith (fs : List Text)
    (hcomment : ∀ f ∈ fs, isCommentFree f = true) (hcollapsed : ∀ f ∈ fs, collapse f = f)
    (hread : ∀ f ∈ fs, ∃ p, Parameter.read f = .ok p) :
    (readBlock (joinWith ", " fs ++ [')']) = .ok ⟨fs, joinWith ", " fs, []⟩ ↔
      ∀ f ∈ fs, hasEvenBrackets f = true) ∧
    ∀ f ∈ fs, hasWholeLiterals f = true → hasEvenBrackets f = hasEvenGroups f := by
  constructor
  · rw [readBlock_joinWith_iff]
    refine forall₂_congr fun f hf => ?_
    obtain ⟨p, hp⟩ := hread f hf
    exact isFragment_iff (hcollapsed f hf) (hcomment f hf) hp
  · intro f hf hliterals
    obtain ⟨p, hp⟩ := hread f hf
    exact hasEvenBrackets_eq hp hliterals

/-- Texts of parameters: with an arrow, commas, brackets and quotes in arguments, groups and literals.
In the last one, the literals are not whole but balance each other. -/
def knottyParameters : List Text :=
  ["f: fn(&'a u8) -> V<'a, b',', (c, d)>".toList,
    "#[doc = \"), // <\"] s: &[u8; b'x' as usize]".toList,
    "x: A<'(', ')', b'\"', '\"'>".toList]

theorem readBlock_joinWith_knottyParameters :
    (∀ f ∈ knottyParameters, isCommentFree f = true ∧ collapse f = f ∧
      (∃ p, Parameter.read f = .ok p) ∧ hasEvenBrackets f = true) ∧
    readBlock (joinWith ", " knottyParameters ++ [')']) =
      .ok ⟨knottyParameters, joinWith ", " knottyParameters, []⟩ ∧
    knottyParameters.map hasWholeLiterals = [true, true, false] ∧
    ∀ f ∈ knottyParameters, hasWholeLiterals f = true → hasEvenGroups f = true := by
  have hread : ∀ f ∈ knottyParameters, ∃ p, Parameter.read f = .ok p := by
    have hall : ∀ f ∈ knottyParameters, (Parameter.read f).toOption.isSome = true := by decide +kernel
    intro f hf
    have hsome := hall f hf
    cases hp : Parameter.read f with
    | ok p => exact ⟨p, rfl⟩
    | error e =>
      rw [hp] at hsome
      cases hsome
  have hcomment : ∀ f ∈ knottyParameters, isCommentFree f = true := by decide +kernel
  have hcollapsed : ∀ f ∈ knottyParameters, collapse f = f := by decide +kernel
  have heven : ∀ f ∈ knottyParameters, hasEvenBrackets f = true := by decide +kernel
  obtain ⟨hlists, hgroups⟩ := readBlock_joinWith knottyParameters hcomment hcollapsed hread
  refine ⟨fun f hf => ⟨hcomment f hf, hcollapsed f hf, hread f hf, heven f hf⟩, hlists.2 heven,
    by decide +kernel, fun f hf hliterals => ?_⟩
  rw [← hgroups f hf hliterals]
  exact heven f hf

/-- Texts of parameters that a block does not have as its fragments: one with a shift in a group, one
with the literal of a quote, and one with the literal of a comma. -/
def unlistedParameters : List Text :=
  ["a: [u8; 1 << 2]".toList, "a: [u8; b'\"' as usize]".toList, "',': char".toList]

theorem readBlock_unlistedParameters :
    (∀ f ∈ unlistedParameters, isCommentFree f = true ∧ collapse f = f ∧
      (Parameter.read f).toOption.isSome = true) ∧
    unlistedParameters.map (fun f => readBlock (joinWith ", " [f] ++ [')'])) =
      [.error (.unbalanced ']'), .error .unclosedString,
        .ok ⟨["'".toList, "': char".toList], "',': char", []⟩] := by
  constructor <;> decide +kernel

end RuleFormat
