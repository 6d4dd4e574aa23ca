import RuleFormat.Proofs.Pieces
import RuleFormat.Proofs.Reorder

/-!
# String literals

The reader of a block takes string literals as a whole, so that brackets, commas and comment marks in
them have no meaning.  Their white space is not spared: a fragment is collapsed from end to end, and
the literals in it with it.  Since a literal begins and ends with quotes, it is collapsed by itself,
and nothing else in it changes (`string_literals_collapsed`).  So a literal can be found in its
fragment as it was written exactly when it is `Tight`, and a literal with two blanks in a row cannot
(`spacedText_literal_lost`).
-/

namespace RuleFormat

variable {t u : Text} {b : Block} {as p : List Atom} {ps : List (List Atom)}

/-! ## Literals in fragments -/

@[simp] theorem visible_append (as us : List Atom) : visible (as ++ us) = visible as ++ visible us :=
  List.flatMap_append

/-- What a piece shows around one of its literals. -/
theorem exists_visible_eq (hu : .string u ∈ p) :
    ∃ front back, visible p = front ++ '"' :: (u ++ '"' :: back) := by
  obtain ⟨us, vs, rfl⟩ := List.append_of_mem hu
  refine ⟨visible us, visible vs, ?_⟩
  simp [Atom.shown, Atom.text]

theorem isWhite_quote : isWhite '"' = false := by decide

theorem collapse_literal_isInfix (hu : .string u ∈ p) :
    collapse (Atom.string u).text <:+: collapse (visible p) := by
  obtain ⟨front, back, hp⟩ := exists_visible_eq hu
  rw [hp]
  exact collapse_isInfix isWhite_quote isWhite_quote front u back

theorem literal_infix_iff (hu : .string u ∈ p) :
    (Atom.string u).text <:+: collapse (visible p) ↔ Tight (Atom.string u).text := by
  obtain ⟨front, back, hp⟩ := exists_visible_eq hu
  rw [hp]
  exact infix_collapse_iff isWhite_quote isWhite_quote front u back

/-- A piece with a literal makes a fragment. -/
theorem Grammatical.collapse_mem_fragments (h : Grammatical t b as ps) (hp : p ∈ ps)
    (hu : .string u ∈ p) : collapse (visible p) ∈ b.fragments := by
  obtain ⟨front, back, hvisible⟩ := exists_visible_eq hu
  have hne : collapse (visible p) ≠ [] := by
    rw [hvisible]
    exact collapse_append_ne_nil isWhite_quote _ _
  rw [h.fragments, List.mem_filter]
  exact ⟨List.mem_map_of_mem hp, by simpa using hne⟩

/-! ## Fragments in headers -/

theorem infix_writeEntries {f : Text} {es : List Entry} (indent : Nat) (newline : Text)
    (hf : .param f ∈ es) : f <:+: writeEntries indent newline es := by
  induction es with
  | nil => cases hf
  | cons e es ih =>
    rcases List.mem_cons.1 hf with rfl | hf
    · rw [writeEntries]
      exact ⟨pad indent, _, by simp only [List.append_assoc]; rfl⟩
    · refine (ih hf).trans ?_
      cases e with
      | comment c => exact (List.suffix_append _ _).isInfix
      | param c => exact (List.suffix_append _ _).isInfix

/-- The text of a parameter that is kept stands in the header as it is. -/
theorem infix_writeHeader {f : Text} {g : Groups} (l : Layout) (newline name : Text)
    (hf : f ∈ g.texts) : f <:+: writeHeader l newline name g := by
  have hmem : f ∈ g.entries.filterMap Entry.param? := by
    rw [filterMap_param?_entries]
    exact List.mem_cons_of_mem _ hf
  obtain ⟨e, he, hparam⟩ := List.mem_filterMap.1 hmem
  obtain rfl : e = .param f := by
    cases e with
    | comment c => cases hparam
    | param c => rw [Option.some.inj hparam]
  have hlines := List.infix_append
    (Opening.text ⟨newline ++ pad l.headerIndent, name⟩ ++ newline)
    (writeEntries l.paramIndent newline g.entries) (pad l.headerIndent ++ ") \x7b".toList)
  rw [← List.append_assoc] at hlines
  exact (infix_writeEntries l.paramIndent newline he).trans hlines

theorem infix_step {f : Text} {s : Settings} {newline : Text} {line : Nat} {h : Header}
    {qs : List Parameter} (hqs : Parameter.readAll h.fragments = .ok qs)
    (hf : f ∈ (sortParameters s.tables s.policy qs).texts) :
    f <:+: (step s newline line (.header h)).text := by
  rw [text_step, Segment.reordered, Segment.text, Header.reordered_of_ok hqs, text_writtenHeader]
  exact infix_writeHeader _ _ _ hf

/-- A header has the fragments of its block. -/
theorem fragments_of_readHeader {o : Opening} {h : Header} (hb : readBlock t = .ok b)
    (hh : readHeader o t = .ok h) : h.fragments = b.fragments := by
  rw [readHeader, hb] at hh
  simp only at hh
  split at hh
  · rw [← Except.ok.inj hh]
  · cases hh

/-- Each fragment declares one of the parameters that are read. -/
theorem exists_read_of_readAll {fs : List Text} {qs : List Parameter} {f : Text}
    (hqs : Parameter.readAll fs = .ok qs) (hf : f ∈ fs) : ∃ q ∈ qs, Parameter.read f = .ok q := by
  have hmap := map_text_of_readAll hqs
  rw [← hmap] at hf
  obtain ⟨q, hq, rfl⟩ := List.mem_map.1 hf
  exact ⟨q, hq, read_text_of_readAll hqs q hq⟩

/-! ## Literals in a text -/

/-- **String literals are kept up to white space.**  Behind the first `byteLength before` bytes of a
text, let a block be read.  It has pieces, and each string literal of a piece is found in the fragment
of the piece with its white space collapsed, and as it is written exactly when the white space in it
is single blanks.  If the block is that of a header whose parameters can be read, then the fragment
declares one of them, and if a pass keeps this parameter, the literal is found in the same form in
the header that the pass writes. -/
theorem string_literals_collapsed (before t : Text) (b : Block)
    (hb : readBlock (dropBytes (byteLength before) (before ++ t)) = .ok b) :
    (∃ as ps, Grammatical t b as ps) ∧
      ∀ as ps, Grammatical t b as ps → ∀ p ∈ ps, ∀ u, .string u ∈ p →
        ∃ f ∈ b.fragments, f = collapse (visible p) ∧
          collapse (Atom.string u).text <:+: f ∧
          ((Atom.string u).text <:+: f ↔ Tight (Atom.string u).text) ∧
          ∀ o h qs, readHeader o t = .ok h → Parameter.readAll h.fragments = .ok qs →
            ∃ q ∈ qs, Parameter.read f = .ok q ∧
              ∀ (s : Settings) (newline : Text) (line : Nat),
                q ∈ (sortParameters s.tables s.policy qs).kept →
                collapse (Atom.string u).text <:+: (step s newline line (.header h)).text := by
  rw [dropBytes_append] at hb
  refine ⟨readBlock_eq_ok_iff_grammatical.1 hb, ?_⟩
  intro as ps hg p hp u hu
  have hpart := collapse_literal_isInfix hu
  have hmem := hg.collapse_mem_fragments hp hu
  refine ⟨_, hmem, rfl, hpart, literal_infix_iff hu, ?_⟩
  intro o h qs hh hqs
  rw [← fragments_of_readHeader hb hh] at hmem
  obtain ⟨q, hq, hread⟩ := exists_read_of_readAll hqs hmem
  refine ⟨q, hq, hread, ?_⟩
  intro s newline line hkept
  rw [← read_text hread] at hpart
  exact hpart.trans (infix_step hqs (List.mem_map_of_mem hkept))

/-! ## A literal with two blanks in a row -/

/-- The opening of a rule. -/
def spacedOpening : Opening := ⟨[' '], ['a']⟩

/-- A block with a string literal that is not tight, and the brace behind it. -/
def spacedBlock : Block where
  fragments := ["#[doc = \"a b\"] value: bool".toList]
  body := "#[doc = \"a  b\"] value: bool"
  rest := " \x7b \x7d"

/-- The atoms of the block. -/
def spacedAtoms : List Atom :=
  "#[doc = ".toList.map .char ++ .string "a  b".toList :: "] value: bool".toList.map .char

/-- The text that the block is read from. -/
def spacedText : Text := spacedBlock.body ++ ')' :: spacedBlock.rest

theorem balanced_of_forall {as : List Atom} (h : ∀ a ∈ as, a.isBracket = false) : Balanced as := by
  induction as with
  | nil => exact .nil
  | cons a as ih =>
    obtain ⟨ha, has⟩ := List.forall_mem_cons.1 h
    exact .cons ha (ih has)

theorem stand_map_char {cs ahead : Text} {as : List Atom}
    (hcs : cs.all (fun c => c != '"' && c != '/' && c != '-') = true) (h : Stand as ahead) :
    Stand (cs.map .char ++ as) ahead := by
  induction cs with
  | nil => exact h
  | cons c cs ih =>
    simp only [List.all_cons, Bool.and_eq_true, bne_iff_ne] at hcs
    obtain ⟨⟨⟨hquote, hslash⟩, hdash⟩, hcs⟩ := hcs
    exact ⟨⟨hquote, fun d _ => by simp [joins, hslash, hdash]⟩, ih hcs⟩

theorem grammatical_spacedText : Grammatical spacedText spacedBlock spacedAtoms [spacedAtoms] := by
  have hinside : Balanced ("doc = ".toList.map .char ++ [.string "a  b".toList]) :=
    balanced_of_forall (by decide)
  have hbehind : Balanced (" value: bool".toList.map .char) := balanced_of_forall (by decide)
  have hbalanced : Balanced spacedAtoms :=
    .cons rfl (.group (c := '[') (b := .square) rfl hinside hbehind)
  have hliteral : StringBody "a  b".toList :=
    .char (by decide) (by decide) (.char (by decide) (by decide)
      (.char (by decide) (by decide) (.char (by decide) (by decide) .nil)))
  have hend : Stand ("] value: bool".toList.map .char ++ []) (')' :: spacedBlock.rest) :=
    stand_map_char (by decide) trivial
  have hcomma : Atom.comma ∉ spacedAtoms := by decide
  exact
    { text := rfl
      body := rfl
      stand := stand_map_char (by decide) ⟨hliteral, hend⟩
      balanced := hbalanced
      ne_nil := by simp
      joined := (joinPieces_singleton _).symm
      pieces := by
        intro p hp
        obtain rfl := List.mem_singleton.1 hp
        exact ⟨hbalanced, fun us vs hsplit => absurd (by simp [hsplit]) hcomma⟩
      fragments := by decide }

theorem readBlock_spacedText :
    readBlock (dropBytes (byteLength spacedOpening.text) (spacedOpening.text ++ spacedText))
      = .ok spacedBlock := by
  rw [dropBytes_append]
  exact readBlock_eq_ok_iff_grammatical.2 ⟨_, _, grammatical_spacedText⟩

theorem mem_spacedAtoms : .string "a  b".toList ∈ spacedAtoms := by decide

theorem string_literals_collapsed_spacedText :
    readBlock (dropBytes (byteLength spacedOpening.text) (spacedOpening.text ++ spacedText))
        = .ok spacedBlock ∧
      ∃ f ∈ spacedBlock.fragments, "\"a b\"".toList <:+: f ∧ ¬"\"a  b\"".toList <:+: f ∧
        ∃ h q, readHeader spacedOpening spacedText = .ok h ∧
          Parameter.readAll h.fragments = .ok [q] ∧ Parameter.read f = .ok q ∧
          q ∈ (sortParameters .builtin .drop [q]).kept ∧
          "\"a b\"".toList <:+: (step ⟨.builtin, .builtin, .drop⟩ ['\n'] 1 (.header h)).text := by
  obtain ⟨-, hliterals⟩ :=
    string_literals_collapsed spacedOpening.text spacedText spacedBlock readBlock_spacedText
  obtain ⟨f, hf, -, hpart, hiff, hheader⟩ :=
    hliterals _ _ grammatical_spacedText spacedAtoms (by simp) _ mem_spacedAtoms
  have hspaced : ¬Tight (Atom.string "a  b".toList).text := by decide
  have hread : readHeader spacedOpening spacedText
      = .ok ⟨spacedOpening, spacedBlock.body, [' '], spacedBlock.fragments⟩ := by decide +kernel
  have hall : Parameter.readAll spacedBlock.fragments
      = .ok [⟨"#[doc = \"a b\"] value: bool", "value", "bool"⟩] := by decide +kernel
  obtain ⟨q, hq, hdeclares, hstep⟩ := hheader _ _ _ hread hall
  obtain rfl := List.mem_singleton.1 hq
  have hkept := hstep ⟨.builtin, .builtin, .drop⟩ ['\n'] 1 (by decide)
  exact ⟨readBlock_spacedText, f, hf, hpart, fun h => hspaced (hiff.1 h), _, _, hread, hall,
    hdeclares, by decide, hkept⟩

/-- Literals are not kept as they are: two blanks in a row become one in the fragment, and in the
header that a pass writes for the rule. -/
theorem spacedText_literal_lost :
    (∃ b as ps p u,
      readBlock (dropBytes (byteLength spacedOpening.text) (spacedOpening.text ++ spacedText))
        = .ok b ∧
      Grammatical spacedText b as ps ∧ p ∈ ps ∧ .string u ∈ p ∧
      ∀ f ∈ b.fragments, ¬(Atom.string u).text <:+: f) ∧
    "\"a  b\"".toList <:+: spacedText ∧
      (reorder ⟨.builtin, .builtin, .drop⟩ (spacedOpening.text ++ spacedText)).report.diagnostics
        = [] ∧
      ¬"\"a  b\"".toList
        <:+: (reorder ⟨.builtin, .builtin, .drop⟩ (spacedOpening.text ++ spacedText)).text := by
  refine ⟨⟨spacedBlock, spacedAtoms, [spacedAtoms], spacedAtoms, "a  b".toList,
    readBlock_spacedText, grammatical_spacedText, by simp, mem_spacedAtoms, by decide⟩, by decide,
    ?_, ?_⟩
  · decide +kernel
  · decide +kernel

end RuleFormat
