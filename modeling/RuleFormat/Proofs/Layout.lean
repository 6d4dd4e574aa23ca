import RuleFormat.Proofs.Atom
import RuleFormat.Proofs.Fragment
import RuleFormat.Proofs.Groups
import RuleFormat.Proofs.Scan
import RuleFormat.Reorder

/-!
# Reading what is written

The lines inside a written header read as the fragments that were written, one for each parameter
(`lists_writeEntries`): comment lines show as white space, and each comma cuts where a parameter
ends.  So `writeHeader` writes a valid header, `writtenHeader`, with the fragments of its groups
behind the environment parameter (`isValid_writtenHeader`).  Scanning finds this header first,
whatever stands behind it (`scan_writeHeader`).
-/

namespace RuleFormat

/-! ## Line endings -/

/-- One of the two line endings. -/
def IsLineEnding (newline : Text) : Prop := newline = ['\n'] ∨ newline = ['\r', '\n']

theorem isLineEnding_lineEnding (t : Text) : IsLineEnding (lineEnding t) := by
  unfold lineEnding
  split
  · exact Or.inr rfl
  · exact Or.inl rfl

theorem IsLineEnding.white {newline : Text} (h : IsLineEnding newline) :
    ∀ c ∈ newline, isWhite c = true := by
  rcases h with rfl | rfl <;> exact List.all_eq_true.1 (by decide)

theorem IsLineEnding.inert {newline : Text} (h : IsLineEnding newline) (t : Text) :
    ∀ d, (newline ++ t).head? = some d → Inert d := by
  intro d hd
  rcases h with rfl | rfl
  all_goals
    cases hd
    unfold Inert
    decide

theorem IsLineEnding.ne_nil {newline : Text} (h : IsLineEnding newline) : newline ≠ [] := by
  rcases h with rfl | rfl <;> simp

theorem pad_white (n : Nat) : ∀ c ∈ pad n, isWhite c = true := by
  intro c hc
  rw [List.eq_of_mem_replicate hc]
  decide

/-! ## White space and comment lines in a block -/

theorem Reads.blank_append {inner : List Bracket} {s t : Text} {w : Walk}
    (hs : ∀ c ∈ s, isWhite c = true) (h : Reads .code inner t w) :
    Reads .code inner (s ++ t) (w.put s s) := by
  induction s with
  | nil => exact h
  | cons c s ih =>
    have hrest := ih fun d hd => hs d (by simp [hd])
    have hk := Reads.keep (Keeps.white (hs c (by simp)) inner (s ++ t)) hrest
    rwa [Walk.put_put] at hk

theorem Reads.line_append {inner : List Bracket} {u t : Text} {w : Walk} (hu : '\n' ∉ u)
    (h : Reads .code inner t w) :
    Reads .line inner (u ++ '\n' :: t) (w.put ['\n'] (u ++ ['\n'])) := by
  have hread := (Reads.hide .lineEnd h).line_chars hu
  rwa [Walk.put_put] at hread

/-- A line with a comment shows as a blank and a line feed. -/
theorem Reads.comment_append {u newline t : Text} {inner : List Bracket} {w : Walk} (hu : '\n' ∉ u)
    (hnl : IsLineEnding newline) (h : Reads .code inner t w) :
    Reads .code inner ('/' :: '/' :: u ++ newline ++ t)
      (w.put [' ', '\n'] ('/' :: '/' :: u ++ newline)) := by
  rcases hnl with rfl | rfl
  · have hh := Reads.hide Hides.lineStart (h.line_append hu)
    simpa [Walk.put_put] using hh
  · have hur : '\n' ∉ u ++ ['\r'] := by simpa using hu
    have hh := Reads.hide Hides.lineStart (h.line_append hur)
    simpa [Walk.put_put] using hh

/-! ## Texts that list fragments -/

theorem fragments_cons (p : Text) (ps : List Text) :
    fragments (p :: ps) = if collapse p = [] then fragments ps else collapse p :: fragments ps := by
  by_cases hp : collapse p = [] <;> simp [fragments, hp]

/-- From the beginning of a piece on, a block has the fragments `fs`, and `rest` follows it.  When
there are none, the piece is blank and the last one. -/
def Lists (t : Text) (fs : List Text) (rest : Text) : Prop :=
  ∃ w, Reads .code [] t w ∧ w.rest = rest ∧ fragments (w.piece :: w.pieces) = fs ∧
    (fs = [] → w.pieces = [] ∧ ∀ c ∈ w.piece, isWhite c = true)

theorem Lists.done (rest : Text) : Lists (')' :: rest) [] rest :=
  ⟨_, .done, rfl, rfl, fun _ => ⟨rfl, by simp [Walk.done]⟩⟩

/-- What shows as white space in front of a piece does not matter. -/
theorem Lists.put {t u shown raw rest : Text} {fs : List Text}
    (hshown : ∀ c ∈ shown, isWhite c = true)
    (hput : ∀ w, Reads .code [] t w → Reads .code [] u (w.put shown raw))
    (h : Lists t fs rest) : Lists u fs rest := by
  obtain ⟨w, hw, hrest, hfs, hnil⟩ := h
  refine ⟨w.put shown raw, hput w hw, hrest, ?_, fun hfs => ⟨(hnil hfs).1, fun c hc => ?_⟩⟩
  · rw [← hfs, Walk.put, fragments_cons, fragments_cons, collapse_blank_append hshown]
  · rcases List.mem_append.1 hc with hc | hc
    · exact hshown c hc
    · exact (hnil hfs).2 c hc

theorem Lists.blank_append {s t rest : Text} {fs : List Text} (hs : ∀ c ∈ s, isWhite c = true)
    (h : Lists t fs rest) : Lists (s ++ t) fs rest :=
  h.put hs fun _ hw => hw.blank_append hs

theorem Lists.comment_append {u newline t rest : Text} {fs : List Text} (hu : '\n' ∉ u)
    (hnl : IsLineEnding newline) (h : Lists t fs rest) :
    Lists ('/' :: '/' :: u ++ newline ++ t) fs rest :=
  h.put (List.all_eq_true.1 (by decide)) fun _ hw => hw.comment_append hu hnl

/-- A fragment and a comma in front of a piece. -/
theorem Lists.comma {f t rest : Text} {fs : List Text} (hf : IsFragment f) (h : Lists t fs rest) :
    Lists (f ++ ',' :: t) (f :: fs) rest := by
  obtain ⟨w, hw, hrest, hfs, -⟩ := h
  have hhead : ∀ d, (',' :: t).head? = some d → Inert d := by
    intro d hd
    cases hd
    unfold Inert
    decide
  refine ⟨w.cut.put f f, hf.verbatim.reads_append (.cut hw) hhead, hrest, ?_, by simp⟩
  have hpiece : (w.cut.put f f).piece = f := List.append_nil f
  rw [hpiece, fragments_cons, hf.collapsed, if_neg hf.ne_nil, ← hfs]
  rfl

/-- A fragment in front of white space, with which the block ends. -/
theorem Lists.last {f t rest : Text} (hf : IsFragment f) (h : Lists t [] rest)
    (hhead : ∀ d, t.head? = some d → Inert d) : Lists (f ++ t) [f] rest := by
  obtain ⟨w, hw, hrest, -, hnil⟩ := h
  obtain ⟨hpieces, hpiece⟩ := hnil rfl
  refine ⟨w.put f f, hf.verbatim.reads_append hw hhead, hrest, ?_, by simp⟩
  rw [Walk.put, hpieces, fragments_cons, collapse_append_blank hpiece, hf.collapsed,
    if_neg hf.ne_nil]
  rfl

theorem Lists.readBlock {t rest : Text} {fs : List Text} (h : Lists (t ++ ')' :: rest) fs rest) :
    readBlock (t ++ ')' :: rest) = .ok ⟨fs, t, rest⟩ := by
  obtain ⟨w, hw, rfl, rfl, -⟩ := h
  have hbody : w.body = t := (List.append_cancel_right hw.eq_append).symm
  exact readBlock_eq_ok_iff.2 ⟨w, hw, by rw [hbody]⟩

/-! ## The lines inside a header -/

/-- The text of a parameter line. -/
def Entry.param? : Entry → Option Text
  | .comment _ => none
  | .param t => some t

/-- A comment that ends with its line, or a fragment. -/
def Entry.IsSound : Entry → Prop
  | .comment t => ∃ u, t = '/' :: '/' :: u ∧ '\n' ∉ u
  | .param t => IsFragment t

theorem filterMap_param?_eq_nil {es : List Entry} (h : es.any Entry.isParam = false) :
    es.filterMap Entry.param? = [] := by
  rw [List.filterMap_eq_nil_iff]
  intro e he
  cases e with
  | comment t => rfl
  | param t => exact absurd rfl (List.any_eq_false.1 h _ he)

/-- The lines inside a header list the parameters that they are written from. -/
theorem lists_writeEntries {newline t rest : Text} (hnl : IsLineEnding newline) (indent : Nat)
    (ht : Lists t [] rest) {es : List Entry} (hes : ∀ e ∈ es, e.IsSound) :
    Lists (writeEntries indent newline es ++ t) (es.filterMap Entry.param?) rest := by
  induction es with
  | nil => exact ht
  | cons e es ih =>
    have hrest := ih fun e he => hes e (by simp [he])
    cases e with
    | comment c =>
      obtain ⟨u, rfl, hu⟩ := hes (.comment c) (by simp)
      have h := (hrest.comment_append hu hnl).blank_append (pad_white indent)
      rw [List.filterMap_cons_none rfl]
      simpa [writeEntries] using h
    | param f =>
      have hf : IsFragment f := hes (.param f) (by simp)
      have hline := hrest.blank_append hnl.white
      by_cases hany : es.any Entry.isParam = true
      · have h := (hline.comma hf).blank_append (pad_white indent)
        simpa [writeEntries, hany, Entry.param?] using h
      · have hany : es.any Entry.isParam = false := by simpa using hany
        rw [filterMap_param?_eq_nil hany] at hline
        have h := (hline.last hf (hnl.inert _)).blank_append (pad_white indent)
        simpa [writeEntries, hany, Entry.param?, filterMap_param?_eq_nil hany] using h

/-! ## Written headers -/

/-- The fragments that groups are written as, the environment parameter left aside. -/
def Groups.texts (g : Groups) : List Text := g.kept.map (·.text)

theorem filterMap_param?_groupEntries (comment : Text) (ps : List Parameter) :
    (groupEntries comment ps).filterMap Entry.param? = ps.map (·.text) := by
  unfold groupEntries
  cases ps with
  | nil => rfl
  | cons p ps =>
    rw [if_neg (by simp), List.filterMap_cons_none rfl, List.filterMap_map]
    exact congrFun List.filterMap_eq_map' (p :: ps)

theorem filterMap_param?_entries (g : Groups) :
    g.entries.filterMap Entry.param? = Parameter.envText :: g.texts := by
  have henv : Entry.param? (.param Parameter.envText) = some Parameter.envText := rfl
  rw [Groups.entries, List.filterMap_cons_some henv, List.filterMap_append, List.filterMap_append]
  simp only [filterMap_param?_groupEntries, Groups.texts, Groups.kept, List.map_append]

theorem isFragment_envText : IsFragment Parameter.envText :=
  isFragment_of_readBlock (t := Parameter.envText ++ [')'])
    (b := ⟨[Parameter.envText], Parameter.envText, []⟩) rfl (by simp)

theorem mem_groupEntries {comment : Text} {ps : List Parameter} {e : Entry}
    (he : e ∈ groupEntries comment ps) : e = .comment comment ∨ ∃ p ∈ ps, e = .param p.text := by
  unfold groupEntries at he
  split at he
  · cases he
  · rcases List.mem_cons.1 he with rfl | he
    · exact Or.inl rfl
    · obtain ⟨p, hp, rfl⟩ := List.mem_map.1 he
      exact Or.inr ⟨p, hp, rfl⟩

/-- The comments of the layout. -/
def groupComments : List Text := [parametricComment, ghostComment, unclassifiedComment]

/-- The lines inside a header are comments of the layout and the parameters. -/
theorem mem_entries {g : Groups} {e : Entry} (he : e ∈ g.entries) :
    (∃ c ∈ groupComments, e = .comment c) ∨
      ∃ f ∈ Parameter.envText :: g.texts, e = .param f := by
  have hgroup : ∀ {comment ps}, comment ∈ groupComments → (∀ p ∈ ps, p ∈ g.kept) →
      e ∈ groupEntries comment ps → (∃ c ∈ groupComments, e = .comment c) ∨
        ∃ f ∈ Parameter.envText :: g.texts, e = .param f := by
    intro comment ps hc hps h
    rcases mem_groupEntries h with h | ⟨p, hp, h⟩
    · exact Or.inl ⟨comment, hc, h⟩
    · exact Or.inr ⟨p.text, List.mem_cons_of_mem _ (List.mem_map_of_mem (hps p hp)), h⟩
  rcases List.mem_cons.1 he with he | he
  · exact Or.inr ⟨_, List.mem_cons_self, he⟩
  · rcases List.mem_append.1 he with he | he
    · rcases List.mem_append.1 he with he | he
      · exact hgroup (by simp [groupComments]) (fun p hp => by simp [Groups.kept, hp]) he
      · exact hgroup (by simp [groupComments]) (fun p hp => by simp [Groups.kept, hp]) he
    · exact hgroup (by simp [groupComments]) (fun p hp => by simp [Groups.kept, hp]) he

theorem isSound_entries {g : Groups} (hg : ∀ f ∈ g.texts, IsFragment f) :
    ∀ e ∈ g.entries, e.IsSound := by
  intro e he
  rcases mem_entries he with ⟨c, hc, rfl⟩ | ⟨f, hf, rfl⟩
  · have hline : ∀ c ∈ groupComments, c = '/' :: '/' :: c.drop 2 ∧ '\n' ∉ c.drop 2 := by decide
    exact ⟨c.drop 2, hline c hc⟩
  · rcases List.mem_cons.1 hf with rfl | hf
    · exact isFragment_envText
    · exact hg f hf

/-- The header that groups are written as. -/
def writtenHeader (l : Layout) (newline name : Text) (g : Groups) : Header where
  opening := ⟨newline ++ pad l.headerIndent, name⟩
  body := newline ++ writeEntries l.paramIndent newline g.entries ++ pad l.headerIndent
  gap := [' ']
  fragments := Parameter.envText :: g.texts

theorem text_writtenHeader (l : Layout) (newline name : Text) (g : Groups) :
    (writtenHeader l newline name g).text = writeHeader l newline name g := by
  simp [writtenHeader, Header.text, writeHeader]

/-- What is written for groups of fragments is a valid header, which lists these fragments. -/
theorem isValid_writtenHeader {l : Layout} {newline name : Text} {g : Groups}
    (hnl : IsLineEnding newline) (hname : name ≠ []) (hword : ∀ c ∈ name, isWord c = true)
    (hg : ∀ f ∈ g.texts, IsFragment f) : (writtenHeader l newline name g).IsValid := by
  refine ⟨⟨?_, ?_, hname, hword⟩, ?_, ?_⟩
  · simp [writtenHeader, hnl.ne_nil]
  · intro c hc
    rcases List.mem_append.1 hc with hc | hc
    · exact hnl.white c hc
    · exact pad_white _ c hc
  · have hend : Lists (pad l.headerIndent ++ [')']) [] [] :=
      (Lists.done []).blank_append (pad_white _)
    have hlines := lists_writeEntries hnl l.paramIndent hend (isSound_entries hg)
    have h := hlines.blank_append hnl.white
    rw [filterMap_param?_entries, ← List.append_assoc, ← List.append_assoc] at h
    exact h.readBlock
  · show ∀ c ∈ [' '], isWhite c = true
    exact List.all_eq_true.1 (by decide)

/-! ## Scanning what is written -/

/-- **Scanning undoes writing.**  When each parameter of the groups has the text of a fragment of some
block, then whatever the layout and whatever follows, the first item of the scan is the header that
was written: with its name, in the first line, from the first byte to the last, and with the texts of
the groups, in their order, as fragments behind the environment parameter.  What follows is scanned
as if it stood there alone. -/
theorem scan_writeHeader (l : Layout) (newline name : Text) (g : Groups) (rest : Text)
    (hnl : newline = ['\n'] ∨ newline = ['\r', '\n']) (hname : name ≠ [])
    (hword : ∀ c ∈ name, isWord c = true)
    (hg : ∀ p ∈ g.parametric ++ g.ghost ++ g.unclassified,
      ∃ t b, readBlock t = .ok b ∧ p.text ∈ b.fragments) :
    ∃ i is h, scan (writeHeader l newline name g ++ rest) = i :: is ∧
      i.found = .header h ∧ h.opening.name = name ∧ i.place.line = 1 ∧ i.place.offset = 0 ∧
      i.stop = byteLength (writeHeader l newline name g) ∧
      h.text = writeHeader l newline name g ∧
      h.fragments = "e: Env".toList ::
        (g.parametric.map (·.text) ++ g.ghost.map (·.text) ++ g.unclassified.map (·.text)) ∧
      is = itemsFrom (Place.start.after (writeHeader l newline name g)) (segments rest) := by
  have hfragments : ∀ f ∈ g.texts, IsFragment f := by
    intro f hf
    obtain ⟨p, hp, rfl⟩ := List.mem_map.1 hf
    obtain ⟨t, b, hb, hmem⟩ := hg p hp
    exact isFragment_of_readBlock hb hmem
  have hvalid : (writtenHeader l newline name g).IsValid :=
    isValid_writtenHeader hnl hname hword hfragments
  have hscan := hvalid.scan_append rest
  have htext := text_writtenHeader l newline name g
  have hstop : ScanItem.stop ⟨.start, .header (writtenHeader l newline name g)⟩
      = byteLength (writeHeader l newline name g) := by
    rw [ScanItem.stop, Found.text, htext]
    exact Nat.zero_add _
  rw [htext] at hscan
  refine ⟨_, _, _, hscan, rfl, rfl, rfl, rfl, hstop, htext, ?_, rfl⟩
  show Parameter.envText :: g.texts = _
  rw [Groups.texts, Groups.kept, List.map_append, List.map_append]
  rfl

/-- A block whose fragments hold arrows, brackets, quotes and comment marks. -/
def knottyBlock : Block where
  fragments := ["f: fn(u8) -> V<(a, b)>".toList, "#[doc = \"), // \\\"\"] s: &[u8]".toList,
    "x: a /".toList]
  body := "f: fn(u8) -> V<(a, b)>, #[doc = \"), // \\\"\"] s: &[u8] /* , */, x: a /"
  rest := []

/-- Groups of the fragments of `knottyBlock`; the ghost group is empty. -/
def knottyGroups : Groups where
  parametric := [⟨"x: a /", "x", "a"⟩, ⟨"f: fn(u8) -> V<(a, b)>", "f", "fn"⟩]
  ghost := []
  unclassified := [⟨"#[doc = \"), // \\\"\"] s: &[u8]", "s", "& [u8]"⟩]
  dropped := []

theorem scan_writeHeader_knottyGroups :
    (∀ p ∈ knottyGroups.parametric ++ knottyGroups.ghost ++ knottyGroups.unclassified,
      ∃ t b, readBlock t = .ok b ∧ p.text ∈ b.fragments) ∧
    ∃ i is h,
      scan (writeHeader ⟨0, 0⟩ ['\r', '\n'] "a_1" knottyGroups ++ "/ \x7d".toList) = i :: is ∧
      i.found = .header h ∧ h.opening.name = "a_1".toList ∧ i.place = ⟨0, 1⟩ ∧
      i.stop = byteLength (writeHeader ⟨0, 0⟩ ['\r', '\n'] "a_1" knottyGroups) ∧
      h.fragments = ["e: Env".toList, "x: a /".toList, "f: fn(u8) -> V<(a, b)>".toList,
        "#[doc = \"), // \\\"\"] s: &[u8]".toList] := by
  have hblock : readBlock (knottyBlock.body ++ [')']) = .ok knottyBlock := by decide +kernel
  have hmem : ∀ p ∈ knottyGroups.parametric ++ knottyGroups.ghost ++ knottyGroups.unclassified,
      p.text ∈ knottyBlock.fragments := by decide
  have hg : ∀ p ∈ knottyGroups.parametric ++ knottyGroups.ghost ++ knottyGroups.unclassified,
      ∃ t b, readBlock t = .ok b ∧ p.text ∈ b.fragments :=
    fun p hp => ⟨_, _, hblock, hmem p hp⟩
  obtain ⟨i, is, h, hscan, hfound, hname, hline, hoffset, hstop, -, hfragments, -⟩ :=
    scan_writeHeader ⟨0, 0⟩ ['\r', '\n'] "a_1" knottyGroups "/ \x7d" (Or.inr rfl) (by decide)
      (List.all_eq_true.1 (by decide)) hg
  have hplace : i.place = ⟨0, 1⟩ := by
    rw [← hoffset, ← hline]
  exact ⟨hg, i, is, h, hscan, hfound, hname, hplace, hstop, hfragments⟩

/-!
## Line endings

A carriage return with a line feed behind it is found in a text that is put together from two parts
when it is in one of them, or when the parts meet in it (`hasReturnFeed_append`).  A written header
has it exactly when the line ending that it is written with has it (`hasReturnFeed_writeHeader`),
since neither names nor fragments hold a carriage return.
-/

theorem hasReturnFeed_append (s t : Text) :
    hasReturnFeed (s ++ t) = (hasReturnFeed s
      || (s.getLast? == some '\r' && t.head? == some '\n') || hasReturnFeed t) := by
  induction s with
  | nil => simp [hasReturnFeed]
  | cons c s ih =>
    rw [List.cons_append, hasReturnFeed, ih, hasReturnFeed]
    cases s with
    | nil => simp [hasReturnFeed]
    | cons d s => simp [Bool.or_assoc, List.getLast?_cons_cons]

theorem hasReturnFeed_eq_false {t : Text} (h : '\r' ∉ t) : hasReturnFeed t = false := by
  induction t with
  | nil => rfl
  | cons c t ih =>
    have hc : c ≠ '\r' := fun hc => h (by simp [hc])
    rw [hasReturnFeed, ih fun hmem => h (by simp [hmem])]
    simp [hc]

theorem hasReturnFeed_lineEnding (t : Text) : hasReturnFeed (lineEnding t) = hasReturnFeed t := by
  unfold lineEnding
  cases h : hasReturnFeed t <;> rfl

/-! ## Written headers -/

/-- The text of a line. -/
def Entry.text : Entry → Text
  | .comment t => t
  | .param t => t

theorem mem_writeEntries {indent : Nat} {newline : Text} {es : List Entry} {c : Char}
    (hc : c ∈ writeEntries indent newline es) :
    c = ' ' ∨ c = ',' ∨ c ∈ newline ∨ ∃ e ∈ es, c ∈ e.text := by
  induction es with
  | nil => cases hc
  | cons e es ih =>
    have htail : c ∈ writeEntries indent newline es →
        c = ' ' ∨ c = ',' ∨ c ∈ newline ∨ ∃ e' ∈ e :: es, c ∈ e'.text := by
      intro h
      rcases ih h with h | h | h | ⟨e', he', h⟩
      · exact Or.inl h
      · exact Or.inr (Or.inl h)
      · exact Or.inr (Or.inr (Or.inl h))
      · exact Or.inr (Or.inr (Or.inr ⟨e', by simp [he'], h⟩))
    have hpad : c ∈ pad indent → c = ' ' := List.eq_of_mem_replicate
    cases e with
    | comment t =>
      simp only [writeEntries, List.mem_append] at hc
      rcases hc with ((h | h) | h) | h
      · exact Or.inl (hpad h)
      · exact Or.inr (Or.inr (Or.inr ⟨.comment t, by simp, h⟩))
      · exact Or.inr (Or.inr (Or.inl h))
      · exact htail h
    | param t =>
      simp only [writeEntries, List.mem_append] at hc
      rcases hc with (((h | h) | h) | h) | h
      · exact Or.inl (hpad h)
      · exact Or.inr (Or.inr (Or.inr ⟨.param t, by simp, h⟩))
      · refine Or.inr (Or.inl ?_)
        split at h
        · simpa using h
        · cases h
      · exact Or.inr (Or.inr (Or.inl h))
      · exact htail h

theorem IsFragment.not_mem {f : Text} (hf : IsFragment f) {c : Char} (hc : isWhite c = true)
    (hne : c ≠ ' ') : c ∉ f := by
  intro h
  rw [← hf.collapsed] at h
  exact hne (eq_blank_of_mem_collapse h hc)

/-- The only white characters inside the lines of a header are blanks. -/
theorem not_mem_entries {g : Groups} (hg : ∀ f ∈ g.texts, IsFragment f) {c : Char}
    (hc : isWhite c = true) (hne : c ≠ ' ') : ∀ e ∈ g.entries, c ∉ e.text := by
  intro e he hmem
  rcases mem_entries he with ⟨comment, hcomment, rfl⟩ | ⟨f, hf, rfl⟩
  · have hblank : ∀ comment ∈ groupComments, comment.all (fun d => !isWhite d || d == ' ') := by
      decide
    have hd := List.all_eq_true.1 (hblank comment hcomment) c hmem
    simp [hc, hne] at hd
  · have hfrag : IsFragment f := by
      rcases List.mem_cons.1 hf with rfl | hf
      · exact isFragment_envText
      · exact hg f hf
    exact hfrag.not_mem hc hne hmem

/-- The only carriage returns of a written header are those of its line ending. -/
theorem return_mem_writeHeader {l : Layout} {newline name : Text} {g : Groups}
    (hword : ∀ c ∈ name, isWord c = true) (hg : ∀ f ∈ g.texts, IsFragment f)
    (h : '\r' ∈ writeHeader l newline name g) : '\r' ∈ newline := by
  have hpad : ∀ n, '\r' ∉ pad n := fun n h => absurd (List.eq_of_mem_replicate h) (by decide)
  have hname : '\r' ∉ name := fun h => absurd (hword _ h) (by decide)
  have hentries : '\r' ∈ writeEntries l.paramIndent newline g.entries → '\r' ∈ newline := by
    intro h
    rcases mem_writeEntries h with h | h | h | ⟨e, he, h⟩
    · exact absurd h (by decide)
    · exact absurd h (by decide)
    · exact h
    · exact absurd h (not_mem_entries hg (by decide) (by decide) e he)
  have h₁ : '\r' ∉ ruleAttribute := by decide
  have h₂ : '\r' ∉ beforeName := by decide
  have h₃ : '\r' ∉ afterName := by decide
  have h₄ : '\r' ∉ ") \x7b".toList := by decide
  simp only [writeHeader, Opening.text, List.mem_append, h₁, h₂, h₃, h₄, hname, hpad,
    false_or, or_false] at h
  rcases h with (h | h) | h
  · exact h
  · exact h
  · exact hentries h

theorem hasReturnFeed_writeHeader {l : Layout} {newline name : Text} {g : Groups}
    (hnl : IsLineEnding newline) (hword : ∀ c ∈ name, isWord c = true)
    (hg : ∀ f ∈ g.texts, IsFragment f) :
    hasReturnFeed (writeHeader l newline name g) = hasReturnFeed newline := by
  rcases hnl with rfl | rfl
  · refine hasReturnFeed_eq_false fun h => ?_
    have hmem := return_mem_writeHeader hword hg h
    exact absurd hmem (by decide)
  · rw [writeHeader, Opening.text]
    simp only [List.append_assoc, hasReturnFeed_append]
    simp [hasReturnFeed]

end RuleFormat
