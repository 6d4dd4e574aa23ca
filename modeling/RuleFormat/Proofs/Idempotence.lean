import RuleFormat.Proofs.Reorder

/-!
# A second pass

What a pass has put in order, a second pass leaves alone: each of its steps writes the segment that
it reads and drops no parameter (`isIdle_step_reordered`), and names the rule that the first pass
has named (`ruleName?_reordered`).  Since a text without malformed headers is taken apart into the
segments in order (`segments_reorder`) and has the line ending that it had (`lineEnding_reorder`),
the same is true of the whole text.

A second pass may also have another layout and another policy.  If the first one has kept all
parameters that match no key, it has decided nothing for the second one (`keep_then_drop`).
-/

namespace RuleFormat

variable {s : Settings} {newline : Text}

/-- Whether a diagnostic says that a parameter is left out. -/
def Diagnostic.isDropped : Diagnostic → Bool
  | .dropped .. => true
  | _ => false

/-- A step changes no header and drops no parameter. -/
structure Step.IsIdle (st : Step) : Prop where
  unchanged : ∀ r, st.rule = some r → r.changed = false
  none_dropped : ∀ d ∈ st.diagnostics, d.isDropped = false

theorem Step.isIdle_copy (t : Text) : (Step.copy t).IsIdle := ⟨nofun, nofun⟩

theorem Step.isIdle_leave (t rule : Text) (line : Nat) (reason : Text) :
    (Step.leave t rule line reason).IsIdle := by
  refine ⟨nofun, fun d hd => ?_⟩
  obtain rfl := List.mem_singleton.1 hd
  rfl

/-- A step is idle when it writes the header as it was and drops nothing. -/
theorem Step.isIdle_replace {line : Nat} {h : Header} {ps : List Parameter}
    (htext : (Step.replace s newline line h ps).text = h.text)
    (hdropped : (sortParameters s.tables s.policy ps).dropped = []) :
    (Step.replace s newline line h ps).IsIdle := by
  constructor
  · intro r hr
    obtain rfl := Option.some.inj hr
    exact bne_eq_false_iff_eq.2 htext.symm
  · intro d hd
    simp [Step.replace, hdropped] at hd

/-- A step over a segment in order is idle. -/
theorem isIdle_step_reordered (line : Nat) (seg : Segment) :
    (step s newline line (seg.reordered s newline)).IsIdle := by
  have htext : (step s newline line (seg.reordered s newline)).text
      = (seg.reordered s newline).text := by
    rw [text_step, Segment.reordered_reordered]
  cases seg with
  | plain c => exact Step.isIdle_copy _
  | malformed o f => exact Step.isIdle_leave _ _ _ _
  | header h =>
    rw [Segment.reordered, step] at htext ⊢
    cases hps : Parameter.readAll h.fragments with
    | error e =>
      rw [Header.reordered_of_error hps]
      simp only [hps]
      exact Step.isIdle_leave _ _ _ _
    | ok ps =>
      simp only [readAll_reordered hps] at htext ⊢
      refine Step.isIdle_replace htext ?_
      rw [sortParameters_kept _ _ _ isPlainEnv_envParameter]

/-! ## Rule names -/

/-- The rule that a step over a segment sums up. -/
def Segment.ruleName? : Segment → Option Text
  | .header h =>
    match Parameter.readAll h.fragments with
    | .ok _ => some h.opening.name
    | .error _ => none
  | _ => none

theorem map_name_rule_step (line : Nat) (seg : Segment) :
    (step s newline line seg).rule.map (·.name) = seg.ruleName? := by
  cases seg with
  | plain c => rfl
  | malformed o f => rfl
  | header h =>
    rw [step, Segment.ruleName?]
    cases Parameter.readAll h.fragments <;> rfl

theorem ruleName?_reordered (seg : Segment) :
    (seg.reordered s newline).ruleName? = seg.ruleName? := by
  cases seg with
  | plain c => rfl
  | malformed o f => rfl
  | header h =>
    rw [Segment.reordered, Segment.ruleName?, Segment.ruleName?]
    cases hps : Parameter.readAll h.fragments with
    | error e => rw [Header.reordered_of_error hps, hps]
    | ok ps => simp only [readAll_reordered hps, Header.name_reordered]

theorem map_name_rules_reorder (s : Settings) (t : Text) :
    (reorder s t).report.rules.map (·.name) = (segments t).filterMap Segment.ruleName? := by
  have hnames : (steps s (lineEnding t) 1 (segments t)).map (fun st => st.rule.map (·.name))
      = (segments t).map Segment.ruleName? := map_steps map_name_rule_step 1 (segments t)
  calc (reorder s t).report.rules.map (·.name)
      = (steps s (lineEnding t) 1 (segments t)).filterMap fun st => st.rule.map (·.name) := by
        rw [reorder_eq_sum]
        exact List.map_filterMap
    _ = ((segments t).map Segment.ruleName?).filterMap id := by
        rw [← hnames, List.filterMap_map]
        rfl
    _ = (segments t).filterMap Segment.ruleName? := by
        rw [List.filterMap_map]
        rfl

/-! ## The whole text -/

/-- A pass all of whose steps are idle. -/
theorem Reordered.sum_of_isIdle {sts : List Step} (h : ∀ st ∈ sts, st.IsIdle) :
    (Reordered.sum sts).report.changed = 0 ∧
      ∀ d ∈ (Reordered.sum sts).report.diagnostics, d.isDropped = false := by
  constructor
  · refine List.countP_eq_zero.2 fun r hr => ?_
    obtain ⟨st, hst, hrule⟩ := List.mem_filterMap.1 hr
    simp [(h st hst).unchanged r hrule]
  · intro d hd
    rcases List.mem_append.1 hd with hd | hd
    · obtain ⟨st, hst, hd⟩ := List.mem_flatMap.1 hd
      exact (h st hst).none_dropped d hd
    · split at hd
      · obtain rfl := List.mem_singleton.1 hd
        rfl
      · cases hd

theorem isIdle_of_mem_steps_reordered {line : Nat} {ss : List Segment} {st : Step}
    (h : st ∈ steps s newline line (ss.map (·.reordered s newline))) : st.IsIdle := by
  obtain ⟨line', seg, hseg, rfl⟩ := mem_steps h
  obtain ⟨seg, -, rfl⟩ := List.mem_map.1 hseg
  exact isIdle_step_reordered line' seg

section

variable {t : Text} (h : ∀ i ∈ scan t, i.found.isMalformed = false)

include h

/-- The second pass steps over the segments in order, with the line ending of the first one. -/
theorem reorder_text_reorder :
    reorder s (reorder s t).text = .sum
      (steps s (lineEnding t) 1 ((segments t).map (·.reordered s (lineEnding t)))) := by
  rw [reorder_eq_sum, segments_reorder h, lineEnding_reorder]

theorem text_reorder_reorder : (reorder s (reorder s t).text).text = (reorder s t).text := by
  rw [text_reorder, segments_reorder h, lineEnding_reorder, text_reorder, List.map_map]
  congr 2
  funext seg
  exact seg.reordered_reordered

theorem map_name_rules_reorder_reorder :
    (reorder s (reorder s t).text).report.rules.map (·.name)
      = (reorder s t).report.rules.map (·.name) := by
  rw [map_name_rules_reorder, map_name_rules_reorder, segments_reorder h, List.filterMap_map]
  congr 1
  funext seg
  exact ruleName?_reordered seg

end

theorem matched_reorder (s : Settings) (t : Text) :
    (reorder s t).report.matched = ((reorder s t).report.rules.map (·.name)).length := by
  rw [reorder_eq_sum]
  exact (List.length_map _).symm

/-- **A second pass changes nothing.**  It writes the text that it reads, names the rules that the
first pass has named, and leaves out no parameter. -/
theorem reorder_idempotent (s : Settings) (t : Text)
    (h : ∀ i ∈ scan t, i.found.isMalformed = false) :
    (reorder s (reorder s t).text).text = (reorder s t).text ∧
      (reorder s (reorder s t).text).report.changed = 0 ∧
      (reorder s (reorder s t).text).report.matched = (reorder s t).report.matched ∧
      (reorder s (reorder s t).text).report.rules.map (·.name)
        = (reorder s t).report.rules.map (·.name) ∧
      ∀ d ∈ (reorder s (reorder s t).text).report.diagnostics, d.isDropped = false := by
  have hnames := map_name_rules_reorder_reorder (s := s) h
  have hmatched : (reorder s (reorder s t).text).report.matched = (reorder s t).report.matched := by
    rw [matched_reorder, matched_reorder, hnames]
  obtain ⟨hchanged, hdropped⟩ : (reorder s (reorder s t).text).report.changed = 0 ∧
      ∀ d ∈ (reorder s (reorder s t).text).report.diagnostics, d.isDropped = false := by
    rw [reorder_text_reorder h]
    exact Reordered.sum_of_isIdle fun _ => isIdle_of_mem_steps_reordered
  exact ⟨text_reorder_reorder h, hchanged, hmatched, hnames, hdropped⟩

theorem reorder_idempotent_unsortedRules :
    (headers unsortedRules).map (·.opening.name) = [['a'], ['b']] ∧
      (∀ i ∈ scan unsortedRules, i.found.isMalformed = false) ∧
      (reorder overlappingSettings (reorder overlappingSettings unsortedRules).text).text
        = (reorder overlappingSettings unsortedRules).text ∧
      (reorder overlappingSettings (reorder overlappingSettings unsortedRules).text).report.changed
        = 0 := by
  have h : ∀ i ∈ scan unsortedRules, i.found.isMalformed = false := by decide +kernel
  obtain ⟨htext, hchanged, -⟩ := reorder_idempotent overlappingSettings unsortedRules h
  exact ⟨by decide +kernel, h, htext, hchanged⟩

/-! ## Keeping first -/

/-- Keeping all parameters in a first pass does not show after a second one. -/
theorem Header.reordered_reordered_of_keep (tables : Tables) (l₁ l₂ : Layout) (policy : Policy)
    (h : Header) :
    (h.reordered ⟨tables, l₁, .keep⟩ newline).reordered ⟨tables, l₂, policy⟩ newline
      = h.reordered ⟨tables, l₂, policy⟩ newline := by
  cases hps : Parameter.readAll h.fragments with
  | error e => rw [Header.reordered_of_error hps]
  | ok ps =>
    obtain ⟨lost, hsort⟩ := sortParameters_kept_of_keep tables policy ps isPlainEnv_envParameter
    rw [Header.reordered_of_ok (readAll_reordered hps), hsort, Header.name_reordered,
      Header.reordered_of_ok hps]
    rfl

/-- **Keeping first and dropping later is dropping at once.**  Whatever the two layouts, a pass that
drops the parameters that match no key gives the same text for a text and for what a pass that keeps
them has made of it. -/
theorem keep_then_drop (tables : Tables) (l₁ l₂ : Layout) (t : Text)
    (h : ∀ i ∈ scan t, i.found.isMalformed = false) :
    (reorder ⟨tables, l₂, .drop⟩ (reorder ⟨tables, l₁, .keep⟩ t).text).text
      = (reorder ⟨tables, l₂, .drop⟩ t).text := by
  rw [text_reorder, segments_reorder h, lineEnding_reorder, text_reorder, List.map_map]
  congr 2
  funext seg
  cases seg with
  | header g => exact congrArg Segment.header (g.reordered_reordered_of_keep tables l₁ l₂ .drop)
  | _ => rfl

theorem keep_then_drop_unsortedRules :
    (∀ i ∈ scan unsortedRules, i.found.isMalformed = false) ∧
      (reorder ⟨.builtin, ⟨0, 3⟩, .keep⟩ unsortedRules).text
        ≠ (reorder ⟨.builtin, .builtin, .drop⟩ unsortedRules).text ∧
      (reorder ⟨.builtin, .builtin, .drop⟩
          (reorder ⟨.builtin, ⟨0, 3⟩, .keep⟩ unsortedRules).text).text
        = (reorder ⟨.builtin, .builtin, .drop⟩ unsortedRules).text := by
  have h : ∀ i ∈ scan unsortedRules, i.found.isMalformed = false := by decide +kernel
  exact ⟨h, by decide +kernel, keep_then_drop .builtin ⟨0, 3⟩ .builtin unsortedRules h⟩

end RuleFormat
