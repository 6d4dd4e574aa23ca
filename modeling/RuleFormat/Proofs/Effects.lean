import RuleFormat.Proofs.Run

/-!
# Effects of runs in a store

What a run of the reordering command answers, and what it does to a store (`Store.Reorders`): no
failure and no mode that only reports leaves a trace, and all modes find the same.  A session is any
sequence of commands and accesses; its store counts exactly the steps that wrote
(`writes_session`).
-/

namespace RuleFormat

/-! ## One run -/

/-- What a run of the reordering command answers in a store, and which store it leaves. -/
structure Store.Reorders (s : Store) (o : Options) (c : Config) (r : Except Failure Outcome)
    (s' : Store) : Prop where
  /-- The file system fails exactly when there is no file. -/
  io_iff : (∃ path fault, r = .error (.io path fault)) ↔ s.get? o.path = none
  /-- With a file, strictness fails exactly when there is something to say. -/
  strict_iff : ∀ content, s.get? o.path = some content →
    (r = .error (.noMatches o.path) ∨
        r = .error (.strict o.path (reorder c.settings content).report.diagnostics.length) ↔
      (o.strict || c.strict) = true ∧ (reorder c.settings content).report.diagnostics ≠ [])
  /-- Else the answer is what one pass over the file finds. -/
  answers : ∀ content, s.get? o.path = some content →
    ¬((o.strict || c.strict) = true ∧ (reorder c.settings content).report.diagnostics ≠ []) →
    r = .ok {
      path := o.path
      report := (reorder c.settings content).report
      wouldChange := decide ((reorder c.settings content).text ≠ content)
      written := decide (o.mode = .write ∧ (reorder c.settings content).text ≠ content) }
  /-- A failure leaves the store alone. -/
  fails : ∀ failure, r = .error failure → s' = s
  /-- So does a run that does not write. -/
  reports : ∀ outcome, r = .ok outcome → outcome.written = false → s' = s
  /-- A run that writes puts the file in order, and nothing else. -/
  writes : ∀ outcome, r = .ok outcome → outcome.written = true →
    s'.writes = s.writes + 1 ∧
    (∃ content, s.get? o.path = some content ∧
      s'.get? o.path = some (reorder c.settings content).text) ∧
    ∀ path, Path.location path ≠ Path.location o.path → s'.get? path = s.get? path

theorem runOutcome_eq (o : Options) (c : Config) (content : Text) :
    runOutcome o c content = {
      path := o.path
      report := (reorder c.settings content).report
      wouldChange := decide ((reorder c.settings content).text ≠ content)
      written := decide (o.mode = .write ∧ (reorder c.settings content).text ≠ content) } := by
  have hchange : ((reorder c.settings content).text != content) =
      decide ((reorder c.settings content).text ≠ content) := by
    rw [Bool.eq_iff_iff, bne_iff_ne, decide_eq_true_iff]
  rw [runOutcome, Options.writes, hchange, Bool.decide_and]

section

variable {s : Store} {o : Options} {c : Config}

theorem reorders_of_absent (hget : s.get? o.path = none) :
    s.Reorders o c (.error (.io o.path .absent)) s where
  io_iff := iff_of_true ⟨_, _, rfl⟩ hget
  strict_iff _ hcontent := by simp [hget] at hcontent
  answers _ hcontent := by simp [hget] at hcontent
  fails _ _ := rfl
  reports _ h := nomatch h
  writes _ h := nomatch h

variable {content : Text} (hget : s.get? o.path = some content)

include hget

theorem reorders_of_strict {failure : Failure}
    (hstrict : (o.strict || c.strict) = true ∧
      (reorder c.settings content).report.diagnostics ≠ [])
    (hfailure : failure = .noMatches o.path ∨
      failure = .strict o.path (reorder c.settings content).report.diagnostics.length) :
    s.Reorders o c (.error failure) s where
  io_iff := by
    refine iff_of_false ?_ (by simp [hget])
    rintro ⟨path, fault, h⟩
    rcases hfailure with rfl | rfl <;> cases h
  strict_iff content' hcontent' := by
    obtain rfl := Option.some.inj (hget.symm.trans hcontent')
    refine iff_of_true ?_ hstrict
    exact hfailure.imp (congrArg Except.error) (congrArg Except.error)
  answers content' hcontent' hlenient := by
    obtain rfl := Option.some.inj (hget.symm.trans hcontent')
    exact absurd hstrict hlenient
  fails _ _ := rfl
  reports _ h := nomatch h
  writes _ h := nomatch h

theorem reorders_of_lenient
    (hlenient : ¬((o.strict || c.strict) = true ∧
      (reorder c.settings content).report.diagnostics ≠ [])) :
    s.Reorders o c (.ok (runOutcome o c content)) (s.saved o c content) where
  io_iff := iff_of_false (by rintro ⟨path, fault, h⟩; cases h) (by simp [hget])
  strict_iff content' hcontent' := by
    obtain rfl := Option.some.inj (hget.symm.trans hcontent')
    exact iff_of_false (by rintro (h | h) <;> cases h) hlenient
  answers content' hcontent' _ := by
    obtain rfl := Option.some.inj (hget.symm.trans hcontent')
    rw [runOutcome_eq]
  fails _ h := nomatch h
  reports outcome houtcome hwritten := by
    obtain rfl := Except.ok.inj houtcome
    have hwrites : o.writes ((reorder c.settings content).text != content) = false := hwritten
    rw [Store.saved, hwrites]
    rfl
  writes outcome houtcome hwritten := by
    obtain rfl := Except.ok.inj houtcome
    have hwrites : o.writes ((reorder c.settings content).text != content) = true := hwritten
    rw [Store.saved, hwrites, if_pos rfl]
    refine ⟨rfl, ⟨content, hget, Store.get?_write _ _ _⟩, ?_⟩
    intro path hpath
    rw [Store.get?_write_eq, if_neg hpath]

end

/-- A run does what `Store.Reorders` says. -/
theorem reorders_run (s : Store) (o : Options) (c : Config) :
    s.Reorders o c (s.run (reorderFile o c)).1 (s.run (reorderFile o c)).2 := by
  rw [run_reorderFile]
  cases hget : s.get? o.path with
  | none => exact reorders_of_absent hget
  | some content =>
    dsimp only
    rcases runFailure?_cases o c content with ⟨hstrict, hfailure | hfailure⟩ | ⟨hlenient, hnone⟩
    · rw [hfailure]
      exact reorders_of_strict hget hstrict (.inl rfl)
    · rw [hfailure]
      exact reorders_of_strict hget hstrict (.inr rfl)
    · rw [hnone]
      exact reorders_of_lenient hget hlenient

/-- What all modes have to agree on: the report, and whether the file would change. -/
def Outcome.finding (outcome : Outcome) : Report × Bool := (outcome.report, outcome.wouldChange)

theorem map_finding_run (s : Store) (o : Options) (c : Config) (mode : WriteMode) :
    (s.run (reorderFile { o with mode } c)).1.map Outcome.finding =
      (s.run (reorderFile o c)).1.map Outcome.finding := by
  rw [run_reorderFile, run_reorderFile]
  cases s.get? o.path with
  | none => rfl
  | some content =>
    have hmode : runFailure? { o with mode } c content = runFailure? o c content := rfl
    dsimp only
    rw [hmode]
    cases runFailure? o c content <;> rfl

/-! ## Sessions -/

/-- A step of a session. -/
inductive Job where
  | reorder (o : Options) (c : Config)
  | init (dir : Bytes) (force : Bool)
  | read (path : Bytes)
  | write (path : Bytes) (content : Text)
  | isThere (path : Bytes)

/-- What a step answers that does not fail. -/
inductive Answer where
  | outcome (outcome : Outcome)
  | content (t : Text)
  | isThere (b : Bool)
  | done

/-- Carries a step out. -/
def Job.act : Job → Action (StateM Store) Answer
  | reorder o c => return .outcome (← reorderFile o c)
  | init dir force => do
    initConfig dir force
    return .done
  | read path => return .content (← Files.read path)
  | write path content => do
    Files.write path content
    return .done
  | isThere path => return .isThere (← (Files.isThere path : StateM Store Bool))

/-- Carries steps out one after another, also behind a failure, and gives all answers. -/
def Store.session : Store → List Job → List (Job × Except Failure Answer) × Store
  | s, [] => ([], s)
  | s, j :: js =>
    let (answer, s₁) := s.run j.act
    let (answers, s') := s₁.session js
    ((j, answer) :: answers, s')

/-- Whether a step wrote, by its answer. -/
def Job.wrote : Job × Except Failure Answer → Bool
  | (.reorder .., .ok (.outcome outcome)) => outcome.written
  | (.init .., .ok _) => true
  | (.write .., .ok _) => true
  | _ => false

theorem writes_run_reorder (s : Store) (o : Options) (c : Config) :
    (s.run (Job.reorder o c).act).2.writes = s.writes +
      if Job.wrote (.reorder o c, (s.run (Job.reorder o c).act).1) then 1 else 0 := by
  have hrun := reorders_run s o c
  rw [Job.act, Store.run_map]
  dsimp only
  cases hanswer : (s.run (reorderFile o c)).1 with
  | error failure => rw [hrun.fails failure hanswer]; rfl
  | ok outcome =>
    show _ = s.writes + if outcome.written then 1 else 0
    cases hwritten : outcome.written with
    | false => rw [hrun.reports outcome hanswer hwritten]; rfl
    | true => exact (hrun.writes outcome hanswer hwritten).1

theorem writes_run_init (s : Store) (dir : Bytes) (force : Bool) :
    (s.run (Job.init dir force).act).2.writes = s.writes +
      if Job.wrote (.init dir force, (s.run (Job.init dir force).act).1) then 1 else 0 := by
  have hends := ends_initConfig force (s.run_isThere (Path.join dir configName))
    (s.ends_write _ Config.defaultText)
  rw [Job.act, Store.run_map]
  cases hrefused : (s.get? (Path.join dir configName)).isSome && !force with
  | true =>
    rw [hrefused] at hends
    rw [Store.run_eq_of_ends hends]
    rfl
  | false =>
    rw [hrefused] at hends
    rw [Store.run_eq_of_ends hends]
    rfl

/-- Each step that wrote is counted, and no other. -/
theorem writes_run_act (s : Store) (j : Job) :
    (s.run j.act).2.writes = s.writes + if Job.wrote (j, (s.run j.act).1) then 1 else 0 := by
  cases j with
  | reorder o c => exact writes_run_reorder s o c
  | init dir force => exact writes_run_init s dir force
  | read path =>
    rw [Job.act, Store.run_map, Store.run_eq_of_ends (s.ends_read path)]
    rfl
  | write path content =>
    rw [Job.act, Store.run_map, Store.run_eq_of_ends (s.ends_write path content)]
    rfl
  | isThere path => rfl

/-- **A store counts the steps that wrote.** -/
theorem writes_session (s : Store) (js : List Job) :
    (s.session js).2.writes = s.writes + (s.session js).1.countP Job.wrote := by
  induction js generalizing s with
  | nil => rfl
  | cons j js ih =>
    rw [Store.session, List.countP_cons, ih, writes_run_act]
    omega

/-- **The effects of the reordering command in a store.**  A run answers and leaves what
`Store.Reorders` says; all modes fail alike or find the same; and over any session the store counts
the reordering steps that wrote and the other steps that made or wrote a file. -/
theorem reorderFile_effects (s : Store) (o : Options) (c : Config) :
    s.Reorders o c (s.run (reorderFile o c)).1 (s.run (reorderFile o c)).2 ∧
    (∀ mode, (s.run (reorderFile { o with mode } c)).1.map Outcome.finding =
      (s.run (reorderFile o c)).1.map Outcome.finding) ∧
    ∀ js : List Job, (s.session js).2.writes = s.writes + (s.session js).1.countP Job.wrote :=
  ⟨reorders_run s o c, map_finding_run s o c, writes_session s⟩

end RuleFormat
