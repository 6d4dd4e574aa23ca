import RuleFormat.Proofs.Reconcile
import RuleFormat.Proofs.Strict

/-!
# What strict mode fails with

In strict mode a run fails with one of two failures, or not at all for the sake of strictness.
Which one it is depends on the items of the scan alone: that there are none, or that some of them
have a fault, of which all are counted (`strict_verdict`).

The diagnostics of a pass over a text with items are one for each fault of an item
(`diagnostics_reorder_cases`), and none of them says that there are no items.  So the two failures
cannot be taken for each other, whatever mixture of items there is.
-/

namespace RuleFormat

variable {s : Settings} {newline : Text}

/-! ## Faults of items -/

/-- Whether a header was found with a fragment that is no parameter. -/
def Found.isRejected : Found → Bool
  | .header h => h.fragments.any fun f => !(Parameter.read f).isOk
  | .malformed .. => false

/-- The parameters that are dropped from what was found, if its parameters can all be read. -/
def Found.dropped (s : Settings) : Found → List Dropped
  | .header h =>
    match Parameter.readAll h.fragments with
    | .error _ => []
    | .ok ps => (sortParameters s.tables s.policy ps).dropped
  | .malformed .. => []

/-- Whether an item is malformed, is rejected, or loses a parameter. -/
def Found.HasFault (s : Settings) (f : Found) : Prop :=
  f.isMalformed = true ∨ f.isRejected = true ∨ f.dropped s ≠ []

/-- The number of faults of items: malformed ones, rejected ones, and dropped parameters. -/
def faultCount (s : Settings) (items : List ScanItem) : Nat :=
  items.countP (·.found.isMalformed) + items.countP (·.found.isRejected)
    + (items.map fun i => (i.found.dropped s).length).sum

theorem faultCount_append (s : Settings) (is js : List ScanItem) :
    faultCount s (is ++ js) = faultCount s is + faultCount s js := by
  simp only [faultCount, List.countP_append, List.map_append, List.sum_append]
  omega

theorem faultCount_pos_iff {items : List ScanItem} :
    0 < faultCount s items ↔ ∃ i ∈ items, i.found.HasFault s := by
  have hsum : 0 < (items.map fun i => (i.found.dropped s).length).sum ↔
      ∃ i ∈ items, i.found.dropped s ≠ [] := by
    induction items with
    | nil => simp
    | cons i items ih =>
      rw [List.map_cons, List.sum_cons, Nat.add_pos_iff_pos_or_pos, ih, List.length_pos_iff,
        List.exists_mem_cons_iff]
  unfold faultCount Found.HasFault
  rw [Nat.add_pos_iff_pos_or_pos, Nat.add_pos_iff_pos_or_pos, List.countP_pos_iff,
    List.countP_pos_iff, hsum]
  constructor
  · rintro ((⟨i, hi, h⟩ | ⟨i, hi, h⟩) | ⟨i, hi, h⟩)
    · exact ⟨i, hi, Or.inl h⟩
    · exact ⟨i, hi, Or.inr (Or.inl h)⟩
    · exact ⟨i, hi, Or.inr (Or.inr h)⟩
  · rintro ⟨i, hi, h | h | h⟩
    · exact Or.inl (Or.inl ⟨i, hi, h⟩)
    · exact Or.inl (Or.inr ⟨i, hi, h⟩)
    · exact Or.inr ⟨i, hi, h⟩

/-- A header is rejected exactly when its fragments cannot all be read. -/
theorem Found.isRejected_header (h : Header) :
    (Found.header h).isRejected = !(Parameter.readAll h.fragments).isOk := by
  cases hps : Parameter.readAll h.fragments with
  | error e =>
    obtain ⟨f, hf, e', he⟩ := readAll_eq_error_iff.1 ⟨e, hps⟩
    exact List.any_eq_true.2 ⟨f, hf, by rw [he]; rfl⟩
  | ok ps =>
    refine List.any_eq_false.2 fun f hf => ?_
    cases hread : Parameter.read f with
    | error e =>
      obtain ⟨e', he⟩ := readAll_eq_error_iff.2 ⟨f, hf, e, hread⟩
      rw [hps] at he
      cases he
    | ok p => exact Bool.false_ne_true

/-! ## The diagnostics of a pass -/

/-- A step has a diagnostic for each fault of its item. -/
theorem length_diagnostics_step (p : Place) (seg : Segment) :
    (step s newline p.line seg).diagnostics.length
      = faultCount s ((Found.ofSegment? seg).map (ScanItem.mk p)).toList := by
  cases seg with
  | plain c => rfl
  | malformed o f => rfl
  | header h =>
    have hrejected := Found.isRejected_header h
    cases hps : Parameter.readAll h.fragments with
    | error e =>
      have hdropped : (Found.header h).dropped s = [] := by rw [Found.dropped, hps]
      rw [hps] at hrejected
      simp [step, hps, Step.leave, Found.ofSegment?, faultCount, Found.isMalformed, hrejected,
        hdropped, Except.isOk, Except.toBool]
    | ok ps =>
      have hdropped : (Found.header h).dropped s = (sortParameters s.tables s.policy ps).dropped := by
        rw [Found.dropped, hps]
      rw [hps] at hrejected
      simp [diagnostics_step hps, Found.ofSegment?, faultCount, Found.isMalformed, hrejected,
        hdropped, Except.isOk, Except.toBool]

theorem length_diagnostics_steps (p : Place) (ss : List Segment) :
    ((steps s newline p.line ss).flatMap (·.diagnostics)).length
      = faultCount s (itemsFrom p ss) := by
  induction ss generalizing p with
  | nil => rfl
  | cons seg ss ih =>
    rw [steps, List.flatMap_cons, List.length_append, itemsFrom_cons, faultCount_append,
      length_diagnostics_step, ← ih (p.after seg.text)]
    rfl

/-- No step says that there are no items. -/
theorem noMatches_not_mem_steps (line : Nat) (ss : List Segment) :
    .noMatches ∉ (steps s newline line ss).flatMap (·.diagnostics) := by
  intro hmem
  obtain ⟨st, hst, hmem⟩ := List.mem_flatMap.1 hmem
  obtain ⟨line', seg, -, rfl⟩ := mem_steps hst
  cases seg with
  | plain c => cases hmem
  | malformed o f => cases List.mem_singleton.1 hmem
  | header h =>
    cases hps : Parameter.readAll h.fragments with
    | error e =>
      rw [step, hps] at hmem
      cases List.mem_singleton.1 hmem
    | ok ps =>
      rw [diagnostics_step hps] at hmem
      obtain ⟨d, -, hd⟩ := List.mem_map.1 hmem
      cases hd

/-- A step that neither sums up a rule nor has a diagnostic is one over a plain character. -/
theorem step_idle_iff (line : Nat) (seg : Segment) :
    ((step s newline line seg).rule = none ∧ (step s newline line seg).diagnostics = []) ↔
      Found.ofSegment? seg = none := by
  cases seg with
  | plain c => exact iff_of_true ⟨rfl, rfl⟩ rfl
  | malformed o f => simp [step, Step.leave, Found.ofSegment?]
  | header h =>
    rw [step]
    cases Parameter.readAll h.fragments with
    | error e => simp [Step.leave, Found.ofSegment?]
    | ok ps => simp [Step.replace, Found.ofSegment?]

theorem steps_idle_iff (p : Place) (ss : List Segment) :
    ((steps s newline p.line ss).filterMap (·.rule) = [] ∧
      (steps s newline p.line ss).flatMap (·.diagnostics) = []) ↔ itemsFrom p ss = [] := by
  induction ss generalizing p with
  | nil => exact iff_of_true ⟨rfl, rfl⟩ rfl
  | cons seg ss ih =>
    have hstep : ((step s newline p.line seg).rule = none ∧
        (step s newline p.line seg).diagnostics = []) ↔ Found.ofSegment? seg = none :=
      step_idle_iff p.line seg
    have hrest := ih (p.after seg.text)
    rw [steps, itemsFrom_cons, List.append_eq_nil_iff, ← hrest, List.flatMap_cons,
      List.append_eq_nil_iff]
    have hitem : ((Found.ofSegment? seg).map (ScanItem.mk p)).toList = [] ↔
        Found.ofSegment? seg = none := by
      cases Found.ofSegment? seg <;> simp
    rw [hitem, ← hstep, List.filterMap_cons]
    cases (step s newline p.line seg).rule with
    | none => simp only [true_and, and_left_comm]; rfl
    | some r => simp

/-- The diagnostics of a pass: that there are no items, or one for each of their faults. -/
theorem diagnostics_reorder_cases (s : Settings) (t : Text) :
    (scan t = [] ∧ (reorder s t).report.diagnostics = [.noMatches]) ∨
      (scan t ≠ [] ∧ .noMatches ∉ (reorder s t).report.diagnostics ∧
        (reorder s t).report.diagnostics.length = faultCount s (scan t)) := by
  have hidle : ((steps s (lineEnding t) 1 (segments t)).filterMap (·.rule) = [] ∧
      (steps s (lineEnding t) 1 (segments t)).flatMap (·.diagnostics) = []) ↔ scan t = [] :=
    steps_idle_iff .start (segments t)
  have hlength : ((steps s (lineEnding t) 1 (segments t)).flatMap (·.diagnostics)).length
      = faultCount s (scan t) := length_diagnostics_steps .start (segments t)
  have hnot : .noMatches ∉ (steps s (lineEnding t) 1 (segments t)).flatMap (·.diagnostics) :=
    noMatches_not_mem_steps 1 (segments t)
  have hdiagnostics : (reorder s t).report.diagnostics
      = (steps s (lineEnding t) 1 (segments t)).flatMap (·.diagnostics)
        ++ if scan t = [] then [.noMatches] else [] := by
    rw [reorder_eq_sum]
    show _ ++ _ = _ ++ _
    congr 2
    rw [Bool.and_eq_true, List.isEmpty_iff, List.isEmpty_iff, hidle]
  by_cases hscan : scan t = []
  · refine Or.inl ⟨hscan, ?_⟩
    rw [hdiagnostics, (hidle.2 hscan).2, if_pos hscan]
    rfl
  · rw [hdiagnostics, if_neg hscan, List.append_nil]
    exact Or.inr ⟨hscan, hnot, hlength⟩

/-! ## Runs in strict mode -/

/-- What strict mode makes of the items of a text. -/
theorem runFailure?_eq {o : Options} {c : Config} (hstrict : (o.strict || c.strict) = true)
    (content : Text) :
    runFailure? o c content =
      if scan content = [] then some (.noMatches o.path)
      else if 0 < faultCount c.settings (scan content) then
        some (.strict o.path (faultCount c.settings (scan content)))
      else none := by
  rw [runFailure?, if_pos hstrict]
  rcases diagnostics_reorder_cases c.settings content with
    ⟨hscan, hdiagnostics⟩ | ⟨hscan, hnot, hlength⟩
  · rw [hdiagnostics, if_pos hscan]
    rfl
  · rw [if_neg hscan, ← hlength]
    generalize (reorder c.settings content).report.diagnostics = ds at hnot ⊢
    unfold strictFailure?
    split
    · rfl
    · exact absurd List.mem_cons_self hnot
    · rename_i hne _
      rw [if_pos (List.length_pos_of_ne_nil hne)]

/-- **Strict mode reports the right error.**  A run on a file that can be read says that there are
no headers exactly when the scan finds none, and it says how many faults there are exactly when an
item has one.  Otherwise strictness is not in its way, and it ends as saving the file does. -/
theorem strict_verdict {σ : Type} [Files (StateM σ)] (s s' : σ) (o : Options) (c : Config)
    (content : Text) (saved : Except Failure Unit) (hstrict : (o.strict || c.strict) = true)
    (hread : (Files.read o.path : Action (StateM σ) Text).Ends s (.ok content) s)
    (hsave : Saves o ((reorder c.settings content).text != content)
      (reorder c.settings content).text s saved s')
    (hio : ∀ failure, saved = .error failure → ∃ path fault, failure = .io path fault) :
    ∃ result after, (reorderFile o c : Action (StateM σ) Outcome).Ends s result after ∧
      (∀ path, result = .error (.noMatches path) ↔ path = o.path ∧ scan content = []) ∧
      (∀ path n, result = .error (.strict path n) ↔ path = o.path ∧
        n = faultCount c.settings (scan content) ∧
        ∃ i ∈ scan content, i.found.HasFault c.settings) ∧
      (scan content ≠ [] → (∀ i ∈ scan content, ¬i.found.HasFault c.settings) →
        result = saved.map fun _ => runOutcome o c content) := by
  have hends := ends_reorderFile hread hsave
  have hfailure := runFailure?_eq hstrict content
  have hpos : 0 < faultCount c.settings (scan content) ↔
      ∃ i ∈ scan content, i.found.HasFault c.settings := faultCount_pos_iff
  by_cases hscan : scan content = []
  · rw [if_pos hscan] at hfailure
    rw [hfailure] at hends
    refine ⟨_, _, hends, ?_, ?_, fun hne => absurd hscan hne⟩
    · simp [hscan, eq_comm]
    · simp [hscan]
  rw [if_neg hscan] at hfailure
  by_cases hfault : ∃ i ∈ scan content, i.found.HasFault c.settings
  · rw [if_pos (hpos.2 hfault)] at hfailure
    rw [hfailure] at hends
    refine ⟨_, _, hends, ?_, ?_, fun _ hnone => ?_⟩
    · simp [hscan]
    · intro path n
      simp only [hfault, and_true, Except.error.injEq, Failure.strict.injEq, eq_comm]
    · obtain ⟨i, hi, hfound⟩ := hfault
      exact absurd hfound (hnone i hi)
  · rw [if_neg fun h => hfault (hpos.1 h)] at hfailure
    rw [hfailure] at hends
    -- what is left to fail is the file system, which knows nothing of strictness
    have hstays : ∀ failure, (saved.map fun _ => runOutcome o c content) = .error failure →
        ∃ path fault, failure = .io path fault := fun failure h => hio failure (map_eq_error h)
    refine ⟨_, _, hends, fun path => iff_of_false (fun h => ?_) fun h => hscan h.2,
      fun path n => iff_of_false (fun h => ?_) fun h => hfault h.2.2, fun _ _ => rfl⟩
    · obtain ⟨_, _, h⟩ := hstays _ h
      cases h
    · obtain ⟨_, _, h⟩ := hstays _ h
      cases h

/-- Rules with faults of all kinds: one loses three parameters, one has parameters that cannot be
read, and one is never closed. -/
def faultyRules : Text := unsortedRules ++ "#[rule] pub fn [< $f _c >](d: u8".toList

/-- A store with these rules in its only file. -/
def faultyStore : Store := Store.empty.withFile "a.rs" faultyRules

theorem strict_verdict_faultyStore :
    faultyStore.get? strictOptions.path = some faultyRules ∧
      (faultyStore.run (reorderFile strictOptions {})).1 = .error (.strict strictOptions.path 5) := by
  have hget : faultyStore.get? strictOptions.path = some faultyRules := by decide +kernel
  have hread := faultyStore.ends_read strictOptions.path
  rw [hget] at hread
  have hcount : 5 = faultCount ({} : Config).settings (scan faultyRules) := by decide +kernel
  have hfault : ∃ i ∈ scan faultyRules, i.found.HasFault ({} : Config).settings :=
    faultCount_pos_iff.1 (by rw [← hcount]; decide)
  obtain ⟨result, after, hends, -, hstrict, -⟩ := strict_verdict faultyStore _ strictOptions {}
    faultyRules (.ok ()) rfl hread (faultyStore.saves strictOptions {} faultyRules) nofun
  rw [Store.run_eq_of_ends hends]
  exact ⟨hget, (hstrict _ _).2 ⟨rfl, hcount, hfault⟩⟩

end RuleFormat
