import RuleFormat.Proofs.Reorder

/-!
# What a pass keeps

Two things are kept.  Of each header that is put in order a pass keeps the parameters: those of the
new header, those that a diagnostic names, and the plain environment parameters are together the
parameters that were there (`parameters_conserved`).  And it keeps every byte outside of these
headers: with all headers cut out of a text, the gaps between them stay (`reorder_between_gaps`).
-/

namespace RuleFormat

variable {s : Settings} {newline : Text}

/-! ## One header -/

/-- A valid header alone is found as the only item. -/
theorem Header.IsValid.scan {h : Header} (hh : h.IsValid) :
    scan h.text = [⟨.start, .header h⟩] := by
  have hscan := hh.scan_append []
  rwa [List.append_nil] at hscan

/-- A test of fragments that agrees with a test of the parameters that they read as. -/
theorem filter_of_readAll {fs : List Text} {ps : List Parameter}
    (hps : Parameter.readAll fs = .ok ps) {q : Text → Bool} {test : Parameter → Bool}
    (hq : ∀ p, Parameter.read p.text = .ok p → q p.text = test p) :
    fs.filter q = (ps.filter test).map (·.text) := by
  rw [← map_text_of_readAll hps, List.filter_map]
  congr 1
  exact List.filter_congr fun p hp => hq p (read_text_of_readAll hps p hp)

theorem perm_fragments {h : Header} {ps : List Parameter}
    (hps : Parameter.readAll h.fragments = .ok ps) (t : Tables) (policy : Policy) :
    ((sortParameters t policy ps).texts
      ++ (sortParameters t policy ps).dropped.map (·.parameter.text)
      ++ h.fragments.filter (readsAs (·.isPlainEnv))).Perm h.fragments := by
  have hplain : h.fragments.filter (readsAs (·.isPlainEnv))
      = (ps.filter (·.isPlainEnv)).map (·.text) :=
    filter_of_readAll hps fun p hp => readsAs_eq hp _
  have hperm := (perm_sortParameters t policy ps).map (·.text)
  rw [map_text_of_readAll hps, List.map_append, List.map_append, List.map_map, ← hplain] at hperm
  exact hperm

/-- The parameters that the diagnostics of a step name, with the reasons. -/
theorem diagnostics_step {h : Header} {ps : List Parameter}
    (hps : Parameter.readAll h.fragments = .ok ps) (line : Nat) :
    (step s newline line (.header h)).diagnostics
      = (sortParameters s.tables s.policy ps).dropped.map
        fun d => .dropped h.opening.name line d.parameter.text d.reason := by
  rw [step, hps]
  rfl

theorem not_isEnv_of_mem_texts {fs : List Text} {ps : List Parameter}
    (hps : Parameter.readAll fs = .ok ps) (t : Tables) (policy : Policy) :
    ∀ f ∈ (sortParameters t policy ps).texts, readsAs (·.isEnv) f = false := by
  intro f hf
  obtain ⟨p, hp, rfl⟩ := List.mem_map.1 hf
  obtain ⟨hmem, henv⟩ := mem_kept t policy ps hp
  rw [readsAs_eq (read_text_of_readAll hps p hmem), henv]

/-- An item that is a header is stepped over as such, between the segments before and behind it. -/
theorem reorder_eq_of_mem_scan {t : Text} {i : ScanItem} (hi : i ∈ scan t) {h : Header}
    (hf : i.found = .header h) : ∃ pre post,
      segments t = pre ++ .header h :: post ∧ i.place = Place.start.after (written pre) ∧
      reorder s t = .ofSteps (steps s (lineEnding t) 1 pre
        ++ step s (lineEnding t) i.place.line (.header h)
          :: steps s (lineEnding t) (i.place.after h.text).line post) := by
  obtain ⟨pre, seg, post, hseg, hfound, hplace⟩ := mem_scan_iff.1 hi
  obtain rfl : seg = .header h := by
    rw [hf] at hfound
    cases seg <;> cases hfound
    rfl
  refine ⟨pre, post, hseg, hplace, ?_⟩
  rw [reorder, hseg, steps_append, steps, hplace]
  rfl

/-- **No parameter is lost silently, and none is made up.**  The step over a header whose parameters
can be read writes a text that is one header of the same name, with the plain environment parameter
in front of parameters that are none.  These, the parameters that its diagnostics name, and the
plain environment parameters are the parameters that were there. -/
theorem parameters_conserved (s : Settings) (t : Text) (i : ScanItem) (hi : i ∈ scan t)
    (h : Header) (hf : i.found = .header h)
    (hread : ∀ f ∈ h.fragments, ∃ p, Parameter.read f = .ok p) :
    ∃ pre post st, st = step s (lineEnding t) i.place.line (.header h) ∧
      segments t = pre ++ .header h :: post ∧ i.place = Place.start.after (written pre) ∧
      reorder s t = .ofSteps (steps s (lineEnding t) 1 pre
        ++ st :: steps s (lineEnding t) (i.place.after h.text).line post) ∧
      ∃ (h' : Header) (rest : List Text) (lost : List (Text × DropReason)),
        scan st.text = [⟨.start, .header h'⟩] ∧ h'.text = st.text ∧
        h'.opening.name = h.opening.name ∧ h'.fragments = Parameter.envText :: rest ∧
        (∀ f ∈ rest, readsAs (·.isEnv) f = false) ∧
        st.diagnostics
          = lost.map (fun d => .dropped h.opening.name i.place.line d.1 d.2) ∧
        (rest ++ lost.map (·.1) ++ h.fragments.filter (readsAs (·.isPlainEnv))).Perm
          h.fragments := by
  obtain ⟨pre, post, hseg, hplace, hreorder⟩ := reorder_eq_of_mem_scan (s := s) hi hf
  obtain ⟨ps, hps⟩ := exists_readAll hread
  have hcoherent := (coherent_segments t).2
  rw [hseg] at hcoherent
  have hh : h.IsValid := hcoherent.leads
  have hvalid := hh.reordered (s := s) (isLineEnding_lineEnding t)
  have htext : (step s (lineEnding t) i.place.line (.header h)).text
      = (h.reordered s (lineEnding t)).text := text_step _ _
  refine ⟨pre, post, _, rfl, hseg, hplace, hreorder, h.reordered s (lineEnding t),
    (sortParameters s.tables s.policy ps).texts,
    (sortParameters s.tables s.policy ps).dropped.map (fun d => (d.parameter.text, d.reason)),
    ?_, htext.symm, ?_, ?_, not_isEnv_of_mem_texts hps _ _, ?_, ?_⟩
  · rw [htext]
    exact hvalid.scan
  · rw [Header.reordered_of_ok hps]
    rfl
  · rw [Header.reordered_of_ok hps]
    rfl
  · rw [diagnostics_step hps, List.map_map]
    rfl
  · rw [List.map_map]
    exact perm_fragments hps _ _

/-- The first of the rules in `unsortedRules`. -/
def unsortedHeader : Header where
  opening := ⟨"\r\n", "a"⟩
  body := "mut e: Env, b: u8 /* , */, role_name: Symbol, b: u8"
  gap := " "
  fragments := ["mut e: Env".toList, "b: u8".toList, "role_name: Symbol".toList, "b: u8".toList]

theorem parameters_conserved_unsortedRules :
    ⟨⟨4, 2⟩, .header unsortedHeader⟩ ∈ scan unsortedRules ∧
      (∀ f ∈ unsortedHeader.fragments, ∃ p, Parameter.read f = .ok p) ∧
      ∃ (h' : Header) (rest : List Text) (lost : List (Text × DropReason)),
        scan (step overlappingSettings (lineEnding unsortedRules) 2 (.header unsortedHeader)).text
          = [⟨.start, .header h'⟩] ∧
        h'.fragments = Parameter.envText :: rest ∧
        (rest ++ lost.map (·.1) ++ unsortedHeader.fragments.filter (readsAs (·.isPlainEnv))).Perm
          unsortedHeader.fragments := by
  have hmem : ⟨⟨4, 2⟩, .header unsortedHeader⟩ ∈ scan unsortedRules := by decide +kernel
  have htest : ∀ f ∈ unsortedHeader.fragments, readsAs (fun _ => true) f = true := by
    decide +kernel
  have hread : ∀ f ∈ unsortedHeader.fragments, ∃ p, Parameter.read f = .ok p :=
    fun f hf => exists_read_iff.2 (htest f hf)
  obtain ⟨_, _, st, hst, _, _, _, h', rest, lost, hscan, _, _, hfragments, _, _, hperm⟩ :=
    parameters_conserved overlappingSettings unsortedRules _ hmem unsortedHeader rfl hread
  rw [hst] at hscan
  exact ⟨hmem, hread, h', rest, lost, hscan, hfragments, hperm⟩

/-! ## Between the headers -/

/-- What stands in the place of a header after a pass with a line ending. -/
inductive Header.Becomes (s : Settings) (newline : Text) (h : Header) : Text → Prop where
  /-- A header with a parameter that cannot be read stays as it is. -/
  | left {f : Text} {e : ParameterFault} (hf : f ∈ h.fragments)
      (he : Parameter.read f = .error e) : Becomes s newline h h.text
  /-- All other headers are written anew. -/
  | sorted {ps : List Parameter}
      (hps : List.Forall₂ (fun f p => Parameter.read f = .ok p) h.fragments ps) :
      Becomes s newline h
        (writeHeader s.layout newline h.opening.name (sortParameters s.tables s.policy ps))

theorem Header.becomes_reordered (h : Header) :
    h.Becomes s newline (h.reordered s newline).text := by
  cases hps : Parameter.readAll h.fragments with
  | error e =>
    obtain ⟨f, hf, e', he⟩ := readAll_eq_error_iff.1 ⟨e, hps⟩
    rw [Header.reordered_of_error hps]
    exact .left hf he
  | ok ps =>
    rw [Header.reordered_of_ok hps, text_writtenHeader]
    exact .sorted (readAll_eq_ok_iff.1 hps)

/-- The bytes of an item are its text. -/
theorem slice_of_mem_scan {t : Text} {i : ScanItem} (hi : i ∈ scan t) :
    slice t i.place.offset i.stop = i.found.text := by
  obtain ⟨pre, seg, post, hseg, hfound, hplace⟩ := mem_scan_iff.1 hi
  have htext : seg.text = i.found.text := (text_eq_of_ofSegment? hfound).symm
  have ht : t = written pre ++ (i.found.text ++ written post) := by
    rw [← htext, ← written_cons, ← written_append, ← hseg, written_segments]
  have hstart : i.place.offset = byteLength (written pre) := by
    rw [hplace, Place.after]
    exact Nat.zero_add _
  have hstop : i.stop = byteLength (written pre ++ i.found.text) := by
    rw [ScanItem.stop, hstart, byteLength_append]
  rw [hstart, hstop, ht]
  exact slice_append _ _ _

theorem weave_gaps_text (t : Text) : weave (gaps t) ((headers t).map (·.text)) = t := by
  have hsame : Segment.replaced Header.text = Segment.text := by
    funext seg
    cases seg <;> rfl
  have hw := weave_gaps Header.text t
  rw [hsame] at hw
  exact hw.trans (written_segments t)

theorem text_reorder_eq_weave (s : Settings) (t : Text) :
    (reorder s t).text
      = weave (gaps t) ((headers t).map fun h => (h.reordered s (lineEnding t)).text) := by
  rw [weave_gaps, text_reorder, written, List.flatMap_map]
  congr 1
  funext seg
  cases seg <;> rfl

/-- **A pass keeps every byte outside of the headers that it puts in order.**  The headers of a text
are what stands at their places, and with the gaps between them they make up the text; with the same
gaps between them, the texts that the headers become make up the text after a pass. -/
theorem reorder_between_gaps (s : Settings) (t : Text) :
    (gaps t).length = (headers t).length + 1 ∧
      (∀ i ∈ scan t, ∀ h, i.found = .header h → slice t i.place.offset i.stop = h.text) ∧
      weave (gaps t) ((headers t).map (·.text)) = t ∧
      ∃ rs, List.Forall₂ (Header.Becomes s (lineEnding t)) (headers t) rs ∧
        (reorder s t).text = weave (gaps t) rs := by
  refine ⟨length_gapsFrom t 0 (scan t), ?_, weave_gaps_text t, _, ?_, text_reorder_eq_weave s t⟩
  · intro i hi h hf
    rw [slice_of_mem_scan hi, hf]
    rfl
  · rw [List.forall₂_map_right_iff, List.forall₂_same]
    exact fun h _ => h.becomes_reordered

end RuleFormat
