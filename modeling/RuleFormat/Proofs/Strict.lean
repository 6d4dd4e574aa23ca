import RuleFormat.Proofs.Conservation
import RuleFormat.Proofs.Idempotence
import RuleFormat.Proofs.Run

/-!
# Strict mode

A pass without diagnostics is one over clean segments: no malformed headers, and headers that are
put in order without a loss (`diagnostics_reorder_eq_nil_iff`).  Clean segments stay clean in order,
so that a second pass has no diagnostics either.  A run in strict mode that does not fail therefore
leaves a file with the same headers and parameters, and running again leaves the store alone
(`strict_run_lossless`).
-/

namespace RuleFormat

variable {s : Settings} {newline : Text}

/-! ## Clean segments -/

/-- There is nothing to say about a segment: it is no malformed header, and a header's parameters
can all be read and are all kept. -/
def Segment.IsClean (s : Settings) : Segment → Prop
  | .plain _ => True
  | .malformed .. => False
  | .header h => ∃ ps, Parameter.readAll h.fragments = .ok ps ∧
      (sortParameters s.tables s.policy ps).dropped = []

theorem diagnostics_step_eq_nil_iff (line : Nat) (seg : Segment) :
    (step s newline line seg).diagnostics = [] ↔ seg.IsClean s := by
  cases seg with
  | plain c => exact iff_of_true rfl trivial
  | malformed o f => exact iff_of_false (by simp [step, Step.leave]) id
  | header h =>
    cases hps : Parameter.readAll h.fragments with
    | error e => simp [step, hps, Step.leave, Segment.IsClean]
    | ok ps => simp [diagnostics_step hps, Segment.IsClean, hps]

theorem flatMap_diagnostics_eq_nil_iff (line : Nat) (ss : List Segment) :
    (steps s newline line ss).flatMap (·.diagnostics) = [] ↔ ∀ seg ∈ ss, seg.IsClean s := by
  induction ss generalizing line with
  | nil => simp [steps]
  | cons seg ss ih =>
    rw [steps, List.flatMap_cons, List.append_eq_nil_iff, diagnostics_step_eq_nil_iff, ih,
      List.forall_mem_cons]

theorem Reordered.diagnostics_sum_eq_nil_iff {sts : List Step} :
    (Reordered.sum sts).report.diagnostics = [] ↔
      sts.flatMap (·.diagnostics) = [] ∧ (Reordered.sum sts).report.rules ≠ [] := by
  show sts.flatMap (·.diagnostics) ++ _ = [] ↔ _ ∧ sts.filterMap (·.rule) ≠ []
  generalize sts.flatMap (·.diagnostics) = ds
  generalize sts.filterMap (·.rule) = rules
  cases ds <;> cases rules <;> simp

/-- A pass has no diagnostics exactly when all segments are clean and there is a rule. -/
theorem diagnostics_reorder_eq_nil_iff {t : Text} :
    (reorder s t).report.diagnostics = [] ↔
      (∀ seg ∈ segments t, seg.IsClean s) ∧ (reorder s t).report.rules ≠ [] := by
  have hclean : (steps s (lineEnding t) 1 (segments t)).flatMap (·.diagnostics) = [] ↔
      ∀ seg ∈ segments t, seg.IsClean s := flatMap_diagnostics_eq_nil_iff 1 (segments t)
  rw [← hclean, reorder_eq_sum]
  exact Reordered.diagnostics_sum_eq_nil_iff

theorem Segment.IsClean.reordered {seg : Segment} (h : seg.IsClean s) :
    (seg.reordered s newline).IsClean s := by
  cases seg with
  | plain c => trivial
  | malformed o f => exact h
  | header h' =>
    obtain ⟨ps, hps, -⟩ := h
    refine ⟨_, readAll_reordered hps, ?_⟩
    rw [sortParameters_kept _ _ _ isPlainEnv_envParameter]

theorem Segment.IsClean.isMalformed {seg : Segment} (h : seg.IsClean s) :
    seg.isMalformed = false := by
  cases seg with
  | plain c => rfl
  | malformed o f => exact h.elim
  | header h' => rfl

section

variable {t : Text} (ht : (reorder s t).report.diagnostics = [])

include ht

/-- There are no malformed headers in a text that a pass says nothing about. -/
theorem isMalformed_of_diagnostics_eq_nil : ∀ i ∈ scan t, i.found.isMalformed = false :=
  forall_isMalformed_segments_iff.1 fun seg hseg =>
    ((diagnostics_reorder_eq_nil_iff.1 ht).1 seg hseg).isMalformed

/-- A second pass has no diagnostics when the first one had none. -/
theorem diagnostics_reorder_reorder :
    (reorder s (reorder s t).text).report.diagnostics = [] := by
  have hfine := isMalformed_of_diagnostics_eq_nil ht
  obtain ⟨hclean, hrules⟩ := diagnostics_reorder_eq_nil_iff.1 ht
  refine diagnostics_reorder_eq_nil_iff.2 ⟨?_, ?_⟩
  · rw [segments_reorder hfine]
    intro seg hseg
    obtain ⟨seg, hmem, rfl⟩ := List.mem_map.1 hseg
    exact (hclean seg hmem).reordered
  · intro hnil
    have hnames := map_name_rules_reorder_reorder (s := s) hfine
    rw [hnil, List.map_nil] at hnames
    exact hrules (List.map_eq_nil_iff.1 hnames.symm)

end

/-! ## The headers after a pass -/

/-- The fragments of a header that do not read as the environment parameter. -/
def Header.others (h : Header) : List Text := h.fragments.filter fun f => !readsAs (·.isEnv) f

/-- A header that is put in order without a loss keeps its other parameters. -/
theorem Header.perm_others {h : Header} (hclean : (Segment.header h).IsClean s) :
    (h.reordered s newline).others.Perm h.others := by
  obtain ⟨ps, hps, hdropped⟩ := hclean
  have hothers : ∀ {fs : List Text} {qs : List Parameter}, Parameter.readAll fs = .ok qs →
      fs.filter (fun f => !readsAs (·.isEnv) f) = (qs.filter fun p => !p.isEnv).map (·.text) :=
    fun hqs => filter_of_readAll hqs fun p hp => by rw [readsAs_eq hp]
  rw [Header.others, Header.others, hothers hps, hothers (readAll_reordered hps)]
  refine List.Perm.map _ ?_
  rw [List.filter_cons_of_neg (by decide), filter_isEnv_kept]
  exact perm_kept _ _ _ hdropped

theorem Segment.header?_reordered (seg : Segment) :
    (seg.reordered s newline).header? = seg.header?.map (·.reordered s newline) := by
  cases seg <;> rfl

theorem Segment.isMalformed_reordered (seg : Segment) :
    (seg.reordered s newline).isMalformed = seg.isMalformed := by
  cases seg <;> rfl

section

variable {t : Text} (ht : ∀ i ∈ scan t, i.found.isMalformed = false)

include ht

theorem headers_reorder :
    headers (reorder s t).text = (headers t).map (·.reordered s (lineEnding t)) := by
  rw [headers_eq_filterMap, headers_eq_filterMap, segments_reorder ht, List.filterMap_map,
    List.map_filterMap]
  congr 1
  funext seg
  exact seg.header?_reordered

/-- A pass makes no malformed headers. -/
theorem isMalformed_reorder : ∀ i ∈ scan (reorder s t).text, i.found.isMalformed = false := by
  refine forall_isMalformed_segments_iff.1 fun seg hseg => ?_
  rw [segments_reorder ht] at hseg
  obtain ⟨seg, hmem, rfl⟩ := List.mem_map.1 hseg
  rw [Segment.isMalformed_reordered]
  exact forall_isMalformed_segments_iff.2 ht seg hmem

end

/-- A pass without diagnostics keeps names and parameters of all headers. -/
theorem forall₂_headers_reorder {t : Text} (ht : (reorder s t).report.diagnostics = []) :
    List.Forall₂ (fun h h' => h'.opening.name = h.opening.name ∧ h'.others.Perm h.others)
      (headers t) (headers (reorder s t).text) := by
  rw [headers_reorder (isMalformed_of_diagnostics_eq_nil ht), List.forall₂_map_right_iff,
    List.forall₂_same]
  intro h hmem
  rw [headers_eq_filterMap] at hmem
  obtain ⟨seg, hseg, hheader⟩ := List.mem_filterMap.1 hmem
  have hclean := (diagnostics_reorder_eq_nil_iff.1 ht).1 seg hseg
  obtain rfl : seg = .header h := by
    cases seg <;> cases hheader
    rfl
  exact ⟨h.name_reordered, Header.perm_others hclean⟩

/-! ## Runs in strict mode -/

theorem runFailure?_eq_none_iff {o : Options} {c : Config}
    (hstrict : (o.strict || c.strict) = true) {content : Text} :
    runFailure? o c content = none ↔ (reorder c.settings content).report.diagnostics = [] := by
  rw [runFailure?, if_pos hstrict, strictFailure?_eq_none_iff]

/-- After a run in write mode, the file is in order. -/
theorem Store.get?_saved {st : Store} {o : Options} {c : Config} {content : Text}
    (hmode : o.mode = .write) (hget : st.get? o.path = some content) :
    (st.saved o c content).get? o.path = some (reorder c.settings content).text := by
  rw [Store.saved, Options.writes, hmode]
  by_cases htext : (reorder c.settings content).text = content
  · simp [htext, hget]
  · simp [htext, Store.get?_write]

/-- A store with a file in order stays as it is. -/
theorem Store.saved_eq_self {st : Store} {o : Options} {c : Config} {content : Text}
    (htext : (reorder c.settings content).text = content) : st.saved o c content = st := by
  simp [Store.saved, Options.writes, htext]

/-- **A run in strict mode that does not fail loses nothing, and need not be repeated.**  The file
has the headers that it had, none malformed, each with the same name and the same parameters but for
the environment; and another run finds nothing to say, to change or to write. -/
theorem strict_run_lossless (st st' : Store) (o : Options) (c : Config) (outcome : Outcome)
    (hmode : o.mode = .write) (hstrict : (o.strict || c.strict) = true)
    (hrun : st.run (reorderFile o c) = (.ok outcome, st')) :
    (∃ before after, st.get? o.path = some before ∧ st'.get? o.path = some after ∧
      (∀ i ∈ scan after, i.found.isMalformed = false) ∧
      List.Forall₂ (fun h h' => h'.opening.name = h.opening.name ∧ h'.others.Perm h.others)
        (headers before) (headers after)) ∧
    ∃ again, st'.run (reorderFile o c) = (.ok again, st') ∧ again.wouldChange = false ∧
      again.written = false ∧ again.report.diagnostics = [] := by
  obtain ⟨content, hget, hfailure, -, rfl⟩ := run_reorderFile_eq_ok_iff.1 hrun
  have hquiet := (runFailure?_eq_none_iff hstrict).1 hfailure
  have hfine := isMalformed_of_diagnostics_eq_nil hquiet
  have hsaved := Store.get?_saved (c := c) hmode hget
  have htwice := text_reorder_reorder (s := c.settings) hfine
  constructor
  · exact ⟨content, _, hget, hsaved, isMalformed_reorder hfine, forall₂_headers_reorder hquiet⟩
  · have hquiet' := diagnostics_reorder_reorder hquiet
    refine ⟨_, run_reorderFile_eq_ok_iff.2 ⟨_, hsaved, (runFailure?_eq_none_iff hstrict).2 hquiet',
      rfl, (Store.saved_eq_self htwice).symm⟩, ?_, ?_, hquiet'⟩
    · simp [runOutcome, htwice]
    · simp [runOutcome, Options.writes, htwice]

/-- A rule whose parameters are out of order. -/
def unsortedRule : Text :=
  "#[rule]\npub fn [< $f _a >](pause: bool, // ,\n  value: bool, e: Env) \x7b\x7d"

/-- A store with the rule in its only file. -/
def unsortedStore : Store := Store.empty.withFile "a.rs" unsortedRule

/-- The options of a run in strict mode that writes this file. -/
def strictOptions : Options := ⟨"a.rs", .write, true⟩

/-- A configuration that keeps all parameters. -/
def keepConfig : Config where
  policy := .keep

theorem strict_run_lossless_unsortedStore :
    (reorder keepConfig.settings unsortedRule).text ≠ unsortedRule ∧
      ∃ outcome st', unsortedStore.run (reorderFile strictOptions keepConfig) = (.ok outcome, st') ∧
        (∃ after, st'.get? strictOptions.path = some after ∧
          List.Forall₂ (fun h h' => h'.opening.name = h.opening.name ∧ h'.others.Perm h.others)
            (headers unsortedRule) (headers after)) ∧
        ∃ again, st'.run (reorderFile strictOptions keepConfig) = (.ok again, st') ∧
          again.written = false := by
  have hget : unsortedStore.get? strictOptions.path = some unsortedRule := by decide
  have hfailure : runFailure? strictOptions keepConfig unsortedRule = none := by decide +kernel
  have hrun := run_reorderFile_eq_ok_iff.2 ⟨_, hget, hfailure, rfl, rfl⟩
  obtain ⟨⟨before, after, hbefore, hafter, -, hheaders⟩, again, hagain, -, hwritten, -⟩ :=
    strict_run_lossless _ _ strictOptions keepConfig _ rfl rfl hrun
  obtain rfl := Option.some.inj (hget.symm.trans hbefore)
  exact ⟨by decide +kernel, _, _, hrun, ⟨after, hafter, hheaders⟩, again, hagain, hwritten⟩

end RuleFormat
