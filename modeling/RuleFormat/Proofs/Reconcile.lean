import Mathlib.Algebra.Ring.Nat
import RuleFormat.Proofs.Conservation
import RuleFormat.Proofs.Idempotence
import RuleFormat.Proofs.Malformed

/-!
# The report and the text

The counts of a report come from different places: a step counts its header and compares the text of
it with the text that it writes, the summaries of the rules and the diagnostics are collected beside
the counts, and the whole text is compared once more at the end.  Here they are shown to agree
(`report_reconciles`).

That differences between headers never cancel out needs an argument of its own.  A header that is
written is read back as itself whatever follows it, so two texts that begin with valid headers and
agree begin with the same header (`Header.IsValid.eq_of_append_eq`).  From left to right, a pass
that gives back the text has therefore given back each of its segments
(`written_reordered_eq_iff`).
-/

namespace RuleFormat

variable {s : Settings} {newline : Text}

/-! ## Changes -/

/-- A text begins with one valid header at most. -/
theorem Header.IsValid.eq_of_append_eq {g h : Header} (hg : g.IsValid) (hh : h.IsValid)
    {t u : Text} (heq : g.text ++ t = h.text ++ u) : g = h := by
  have hleft : segments (g.text ++ t) = .header g :: segments t :=
    segments_append (show (Segment.header g).Leads t from hg)
  have hright : segments (h.text ++ u) = .header h :: segments u :=
    segments_append (show (Segment.header h).Leads u from hh)
  rw [heq, hright] at hleft
  exact (Segment.header.inj (List.cons.inj hleft).1).symm

/-- A pass gives back the text exactly when it gives back each segment. -/
theorem written_reordered_eq_iff {ss : List Segment} (hss : Coherent ss)
    (hnl : IsLineEnding newline) :
    written (ss.map (·.reordered s newline)) = written ss ↔
      ∀ seg ∈ ss, (seg.reordered s newline).text = seg.text := by
  induction ss with
  | nil => simp
  | cons seg ss ih =>
    rw [List.map_cons, written_cons, written_cons, List.forall_mem_cons, ← ih hss.2]
    constructor
    · intro heq
      have hseg : (seg.reordered s newline).text = seg.text := by
        cases seg with
        | plain c => rfl
        | malformed o f => rfl
        | header h =>
          have hh : h.IsValid := hss.1
          rw [Segment.reordered, (hh.reordered hnl).eq_of_append_eq hh heq]
      rw [hseg] at heq
      exact ⟨hseg, List.append_cancel_left heq⟩
    · rintro ⟨hseg, hrest⟩
      rw [hseg, hrest]

/-- The summary of a step says whether the step writes another text. -/
theorem changed_rule_step (line : Nat) (seg : Segment) :
    (step s newline line seg).rule.any (·.changed)
      = ((seg.reordered s newline).text != seg.text) := by
  cases seg with
  | plain c => simp [step, Step.copy, Segment.reordered]
  | malformed o f => simp [step, Step.leave, Segment.reordered]
  | header h =>
    rw [Segment.reordered, Segment.text, Segment.text, step]
    cases hps : Parameter.readAll h.fragments with
    | error e => simp [Header.reordered_of_error hps, Step.leave]
    | ok ps =>
      rw [Header.reordered_of_ok hps, text_writtenHeader]
      exact bne_comm

theorem Reordered.changed_sum_pos_iff {sts : List Step} :
    0 < (Reordered.sum sts).report.changed ↔ ∃ st ∈ sts, st.rule.any (·.changed) = true := by
  show 0 < (sts.filterMap (·.rule)).countP (·.changed) ↔ _
  rw [List.countP_pos_iff]
  constructor
  · rintro ⟨r, hr, hchanged⟩
    obtain ⟨st, hst, hrule⟩ := List.mem_filterMap.1 hr
    exact ⟨st, hst, by rw [hrule]; exact hchanged⟩
  · rintro ⟨st, hst, hany⟩
    obtain ⟨r, hrule, hchanged⟩ := (Option.any_eq_true _ _).1 hany
    exact ⟨r, List.mem_filterMap.2 ⟨st, hst, hrule⟩, hchanged⟩

/-- A pass reports a changed header exactly when it changes the text. -/
theorem changed_reorder_pos_iff (s : Settings) (t : Text) :
    0 < (reorder s t).report.changed ↔ (reorder s t).text ≠ t := by
  have hsteps : (steps s (lineEnding t) 1 (segments t)).map (fun st => st.rule.any (·.changed))
      = (segments t).map fun seg => (seg.reordered s (lineEnding t)).text != seg.text :=
    map_steps changed_rule_step 1 (segments t)
  have hany : (∃ st ∈ steps s (lineEnding t) 1 (segments t), st.rule.any (·.changed) = true) ↔
      ∃ seg ∈ segments t, (seg.reordered s (lineEnding t)).text ≠ seg.text := by
    have hmem := congrArg (true ∈ ·) hsteps
    simpa using hmem
  have hback :=
    written_reordered_eq_iff (s := s) (coherent_segments t).2 (isLineEnding_lineEnding t)
  rw [written_segments, ← text_reorder] at hback
  rw [ne_eq, hback, reorder_eq_sum, Reordered.changed_sum_pos_iff, hany]
  push Not
  rfl

/-! ## Counts -/

/-- The headers that a pass counts are those whose rules it sums up. -/
theorem counts_reorder (s : Settings) (t : Text) :
    (reorder s t).report.matched = (reorder s t).report.rules.length ∧
      (reorder s t).report.changed = ((reorder s t).report.rules.filter (·.changed)).length := by
  rw [reorder_eq_sum]
  exact ⟨rfl, List.countP_eq_length_filter⟩

/-- Each item is a rule that is summed up or a header that is left as it is. -/
theorem matched_add_malformed (s : Settings) (t : Text) :
    (reorder s t).report.matched + (reorder s t).report.malformed.length = (scan t).length := by
  have hscan : (scan t).length = ((segments t).filterMap Found.ofSegment?).length := by
    rw [← map_found_scan, List.length_map]
  rw [matched_reorder, map_name_rules_reorder, malformed_reorder, hscan,
    List.filterMap_eq_flatMap_toList, List.filterMap_eq_flatMap_toList]
  induction segments t with
  | nil => rfl
  | cons seg ss ih =>
    have hseg : seg.ruleName?.toList.length + seg.complaint?.toList.length
        = (Found.ofSegment? seg).toList.length := by
      cases seg with
      | plain c => rfl
      | malformed o f => rfl
      | header h =>
        rw [Segment.ruleName?, Segment.complaint?]
        cases Parameter.readAll h.fragments <;> rfl
    simp only [List.flatMap_cons, List.length_append]
    omega

theorem countP_isDropped_step (line : Nat) (seg : Segment) :
    (step s newline line seg).diagnostics.countP (·.isDropped)
      = ((step s newline line seg).rule.toList.map (·.dropped)).sum := by
  cases seg with
  | plain c => rfl
  | malformed o f => rfl
  | header h =>
    rw [step]
    cases Parameter.readAll h.fragments with
    | error e => rfl
    | ok ps =>
      simp [Step.replace, List.countP_map, Function.comp_def, Diagnostic.isDropped]

theorem sum_dropped_rules (s : Settings) (t : Text) :
    ((reorder s t).report.rules.map (·.dropped)).sum
      = (reorder s t).report.diagnostics.countP (·.isDropped) := by
  have hsteps : ∀ line ss, (((steps s (lineEnding t) line ss).filterMap (·.rule)).map
        (·.dropped)).sum
      = ((steps s (lineEnding t) line ss).flatMap (·.diagnostics)).countP (·.isDropped) := by
    intro line ss
    induction ss generalizing line with
    | nil => rfl
    | cons seg ss ih =>
      rw [steps, List.flatMap_cons, List.countP_append, countP_isDropped_step, ← ih]
      cases hrule : (step s (lineEnding t) line seg).rule <;> simp [hrule]
  have hidle : ∀ b : Bool,
      (if b then [Diagnostic.noMatches] else []).countP (·.isDropped) = 0 := by decide
  rw [reorder_eq_sum]
  show _ = List.countP _ (_ ++ _)
  rw [List.countP_append, hidle, Nat.add_zero]
  exact hsteps 1 (segments t)

/-! ## Rules and their headers -/

/-- Whether a header was found whose parameters can all be read. -/
def Found.isReadable : Found → Bool
  | .header h => (Parameter.readAll h.fragments).isOk
  | .malformed .. => false

/-- `r.SumsUp i`: the item is a header, and the summary names it and accounts for each of its
parameters.  The plain environment parameters are in no group and are not dropped. -/
def RuleSummary.SumsUp (r : RuleSummary) (i : ScanItem) : Prop :=
  ∃ h, i.found = .header h ∧ r.name = h.opening.name ∧ r.line = i.place.line ∧
    r.parametric + r.ghost + r.unclassified + r.dropped
      + (h.fragments.filter (readsAs (·.isPlainEnv))).length = h.fragments.length

theorem length_groups {h : Header} {ps : List Parameter}
    (hps : Parameter.readAll h.fragments = .ok ps) (t : Tables) (policy : Policy) :
    let g := sortParameters t policy ps
    g.parametric.length + g.ghost.length + g.unclassified.length + g.dropped.length
      + (h.fragments.filter (readsAs (·.isPlainEnv))).length = h.fragments.length := by
  have hlength := (perm_fragments hps t policy).length_eq
  simpa only [Groups.texts, Groups.kept, List.length_append, List.length_map] using hlength

/-- The rules that steps sum up are the readable headers among the items, in order. -/
theorem forall₂_rules_steps (p : Place) (ss : List Segment) :
    List.Forall₂ RuleSummary.SumsUp ((steps s newline p.line ss).filterMap (·.rule))
      ((itemsFrom p ss).filter (·.found.isReadable)) := by
  induction ss generalizing p with
  | nil => exact .nil
  | cons seg ss ih =>
    have hrest := ih (p.after seg.text)
    rw [steps, List.filterMap_cons, itemsFrom_cons, List.filter_append]
    cases seg with
    | plain c => exact hrest
    | malformed o f => exact hrest
    | header h =>
      have hitem : (Found.ofSegment? (.header h)).map (ScanItem.mk p) = some ⟨p, .header h⟩ := rfl
      cases hps : Parameter.readAll h.fragments with
      | error e =>
        have hnot : (Found.header h).isReadable = false := by rw [Found.isReadable, hps]; rfl
        simp only [step, hps, Step.leave, hitem, Option.toList_some, List.filter_singleton, hnot]
        exact hrest
      | ok ps =>
        have hread : (Found.header h).isReadable = true := by rw [Found.isReadable, hps]; rfl
        simp only [step, hps, Step.replace, hitem, Option.toList_some, List.filter_singleton, hread]
        exact .cons ⟨h, rfl, rfl, rfl, length_groups hps s.tables s.policy⟩ hrest

/-- **The report reconciles with the text.**  A pass changes the text exactly when it reports a
changed header.  Its counts of headers are those of the rules, each item of the scan is a rule or is
reported as malformed, and the rules together have dropped as many parameters as diagnostics say.
The rules are the readable headers in order, and each accounts for all parameters of its header. -/
theorem report_reconciles (s : Settings) (t : Text) :
    ((reorder s t).text ≠ t ↔ 0 < (reorder s t).report.changed) ∧
      (reorder s t).report.changed = ((reorder s t).report.rules.filter (·.changed)).length ∧
      (reorder s t).report.matched = (reorder s t).report.rules.length ∧
      (reorder s t).report.matched + (reorder s t).report.malformed.length = (scan t).length ∧
      ((reorder s t).report.rules.map (·.dropped)).sum
        = (reorder s t).report.diagnostics.countP (·.isDropped) ∧
      List.Forall₂ RuleSummary.SumsUp (reorder s t).report.rules
        ((scan t).filter (·.found.isReadable)) := by
  obtain ⟨hmatched, hchanged⟩ := counts_reorder s t
  refine ⟨(changed_reorder_pos_iff s t).symm, hchanged, hmatched, matched_add_malformed s t,
    sum_dropped_rules s t, ?_⟩
  rw [reorder_eq_sum]
  exact forall₂_rules_steps .start (segments t)

end RuleFormat
