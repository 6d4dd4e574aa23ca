import RuleFormat.Proofs.Replace

/-!
# Exit statuses

What the program does on a disk when it is asked to reorder a file.  Eight causes can make its exit
status differ from 0; the first of them that applies decides (`Cause.exitStatus`).  A run that does
not end with 0, or that was only to report, leaves the disk as it was; else the target holds its old
content in order, and nothing else has changed (`exit_runProgram`).

Two of the causes have nothing to do with what stands in files.  The directory in which the program
runs may be unknown, and then there is no place to look for a configuration.  And a path that is no
text cannot be reported in JSON: the report comes last, so this is the one cause that is found when
the target has been written (`strayPath_rewritten`).
-/

namespace RuleFormat

/-! ## Causes -/

/-- Why the exit status of a request is not 0. -/
inductive Cause where
  /-- The configuration file that is named cannot be read. -/
  | configUnreadable
  /-- The configuration file that is named is not right. -/
  | configRefused
  /-- No configuration file is named, and it is unknown where to look for one. -/
  | directoryUnknown
  /-- The target cannot be read. -/
  | targetUnreadable
  /-- Strictness is asked for, and there is something to say about the target. -/
  | strictness
  /-- The target is to be written, but cannot be replaced. -/
  | writeFails
  /-- A report in JSON is asked for, and the path of the target is no text. -/
  | reportFails
  /-- The target is checked, and not in order. -/
  | outOfOrder
  deriving DecidableEq, Repr

namespace Cause

/-- All causes, those first that decide before others. -/
def all : List Cause :=
  [configUnreadable, configRefused, directoryUnknown, targetUnreadable, strictness, writeFails,
    reportFails, outOfOrder]

/-- The causes that lie in the files and in what is asked of them. -/
def ofFiles : List Cause :=
  [configUnreadable, configRefused, targetUnreadable, strictness, writeFails, outOfOrder]

/-- The exit status that a cause leads to. -/
def status : Cause → Nat
  | configRefused => 2
  | strictness => 2
  | _ => 1

/-- Whether a cause applies to a request that is made on a disk. -/
def applies (d : Disk) (r : Request) : Cause → Bool
  | configUnreadable => r.config.any fun path => (d.text? path).isNone
  | configRefused => (r.config.bind d.text?).any fun content => !(Config.read content).isOk
  | directoryUnknown => r.config.isNone && !d.directory.isOk
  | targetUnreadable => (d.text? r.options.path).isNone
  | strictness =>
    let c := r.configIn d.text? d.directory
    (d.text? r.options.path).any fun content =>
      (r.options.strict || c.strict) && !(reorder c.settings content).report.diagnostics.isEmpty
  | writeFails =>
    let c := r.configIn d.text? d.directory
    (d.text? r.options.path).any fun content =>
      r.options.mode = .write && (reorder c.settings content).text != content &&
        !(d.replaceFile r.options.path (reorder c.settings content).text).1.isOk
  | reportFails => r.format = .json && (toText? r.options.path).isNone
  | outOfOrder =>
    let c := r.configIn d.text? d.directory
    (d.text? r.options.path).any fun content =>
      r.options.mode = .check && (reorder c.settings content).text != content

/-- The first of some causes that applies to a request. -/
def first? (causes : List Cause) (d : Disk) (r : Request) : Option Cause :=
  causes.find? fun cause => cause.applies d r

/-- The exit status when these causes decide it. -/
def exitStatus (causes : List Cause) (d : Disk) (r : Request) : Nat :=
  ((first? causes d r).map status).getD 0

end Cause

/-- Runs the program on a disk. -/
def Disk.runProgram (d : Disk) (environment : Option Bytes) (args : List Bytes) : Finish × Disk :=
  StateT.run (Program.run environment args : StateM Disk Finish) d

/-- The text of the file at a path is what another function makes of it, and nothing else has
changed. -/
def Disk.OnlyRewritten (d : Disk) (path : Bytes) (f : Text → Text) (d' : Disk) : Prop :=
  ∃ source mode content, d.find path = .ok (source, .file mode (.text content)) ∧
    (f content = content ∧ d' = d ∨
      ∃ target, d.Takes path target ∧ d.Replaced path (f content) target mode d')

/-- The target of a request holds its old content in order, and nothing else has changed. -/
def Disk.OnlyReordered (d : Disk) (r : Request) (d' : Disk) : Prop :=
  d.OnlyRewritten r.options.path
    (fun content => (reorder (r.configIn d.text? d.directory).settings content).text) d'

/-- What a request comes to on a disk: how the program finishes, and which disk it leaves. -/
structure Disk.Answers (d : Disk) (r : Request) (finish : Finish) (d' : Disk) : Prop where
  /-- The first cause that applies decides the exit status. -/
  exit_eq : finish.exit = Cause.exitStatus Cause.all d r
  /-- A run that does not end well, but for its report, or that is only to report, changes
  nothing. -/
  unchanged : finish.exit ≠ 0 ∧ Cause.first? Cause.all d r ≠ some .reportFails ∨
    r.options.mode ≠ .write → d' = d
  /-- A run that ends well, but perhaps for its report, and may write leaves the target in order, and
  changes nothing else. -/
  reordered : finish.exit = 0 ∨ Cause.first? Cause.all d r = some .reportFails →
    r.options.mode = .write → d.OnlyReordered r d'

/-- The directory is known to a request that needs it, and the path of its target is a text if the
report needs that. -/
structure Disk.Suits (d : Disk) (r : Request) : Prop where
  known : r.config = none → ∃ path, d.directory = .ok path
  text : r.format = .json → ∃ path, utf8 path = r.options.path

section

variable {d d' : Disk} {r : Request}

/-! ## Requests that fail for their configuration -/

/-- A request fails, by a fault of the operator or not, and leaves the disk alone. -/
def Fails (d : Disk) (r : Request) (isUserFixable : Bool) : Prop :=
  ∃ failure, Failure.isUserFixable failure = isUserFixable ∧
    (Program.reorderAction d.directory r : Action (StateM Disk) Outcome).Ends d (.error failure) d

theorem fails_of_configUnreadable (h : Cause.configUnreadable.applies d r = true) :
    Fails d r false := by
  obtain ⟨path, hconfig, htext⟩ := (Option.any_eq_true _ _).1 h
  obtain ⟨fault, hload⟩ := ends_load_of_unreadable d.holds (Option.isNone_iff_eq_none.1 htext)
  exact ⟨.io path fault, rfl, (ends_resolveConfig_of_error hconfig hload).bind_error⟩

theorem fails_of_configRefused (h : Cause.configRefused.applies d r = true) :
    Fails d r true := by
  obtain ⟨content, hcontent, hrefused⟩ := (Option.any_eq_true _ _).1 h
  obtain ⟨path, hconfig, htext⟩ := Option.bind_eq_some_iff.1 hcontent
  cases hread : Config.read content with
  | ok c => simp [hread, Except.isOk, Except.toBool] at hrefused
  | error fault =>
    have hload := ends_load_of_refused d.holds htext hread
    exact ⟨_, rfl, (ends_resolveConfig_of_error hconfig hload).bind_error⟩

theorem fails_of_directoryUnknown (h : Cause.directoryUnknown.applies d r = true) :
    Fails d r false := by
  obtain ⟨hconfig, hunknown⟩ := Bool.and_eq_true_iff.1 h
  cases hdirectory : d.directory with
  | ok path => simp [hdirectory, Except.isOk, Except.toBool] at hunknown
  | error fault =>
    refine ⟨.io [Path.dot] fault, rfl, ?_⟩
    rw [hdirectory]
    exact (ends_resolveConfig_of_unknown (Option.isNone_iff_eq_none.1 hconfig)).bind_error

theorem exists_directory (h : Cause.directoryUnknown.applies d r = false)
    (hconfig : r.config = none) : ∃ path, d.directory = .ok path := by
  cases hdirectory : d.directory with
  | ok path => exact ⟨path, rfl⟩
  | error fault => simp [Cause.applies, hconfig, hdirectory, Except.isOk, Except.toBool] at h

/-- A configuration file that is named can be used when none of the causes applies. -/
theorem isSome_usable? (hread : Cause.configUnreadable.applies d r = false)
    (hright : Cause.configRefused.applies d r = false) {path : Bytes}
    (hconfig : r.config = some path) : (Config.usable? d.text? path).isSome := by
  unfold Config.usable?
  cases htext : d.text? path with
  | none => simp [Cause.applies, hconfig, htext] at hread
  | some content =>
    cases hc : Config.read content with
    | error fault => simp [Cause.applies, hconfig, htext, hc, Except.isOk, Except.toBool] at hright
    | ok c => simp [hc, Except.toOption]

/-! ## Requests with a configuration -/

/-- What a request does to a disk once nothing is in its way. -/
def Disk.saved (d : Disk) (o : Options) (c : Config) (content : Text) :
    Except Failure Unit × Disk :=
  if o.writes ((reorder c.settings content).text != content) then
    d.replaceFile o.path (reorder c.settings content).text
  else (.ok (), d)

theorem Disk.saves (d : Disk) (o : Options) (c : Config) (content : Text) :
    Saves o ((reorder c.settings content).text != content) (reorder c.settings content).text d
      (d.saved o c content).1 (d.saved o c content).2 := by
  unfold Disk.saved
  cases hwrites : o.writes ((reorder c.settings content).text != content) with
  | true => exact .write hwrites (d.ends_write _ _)
  | false => exact .leave hwrites

/-- A write that fails leaves the disk alone. -/
theorem Disk.saved_eq_of_error {o : Options} {c : Config} {content : Text} {failure : Failure}
    (h : (d.saved o c content).1 = .error failure) :
    failure.isUserFixable = false ∧ (d.saved o c content).2 = d := by
  unfold Disk.saved at h ⊢
  split at h
  · rename_i hwrites
    rw [if_pos hwrites]
    rcases d.replaceFile_cases o.path (reorder c.settings content).text with
      ⟨place, fault, -, hreplace⟩ | ⟨target, -, -, hreplace⟩
    · rw [hreplace] at h ⊢
      obtain rfl := Except.error.inj h
      exact ⟨rfl, rfl⟩
    · rw [hreplace] at h
      cases h
  · cases h

theorem Disk.saved_eq_of_mode_ne {o : Options} {c : Config} {content : Text}
    (hmode : o.mode ≠ .write) : d.saved o c content = (.ok (), d) := by
  simp [Disk.saved, Options.writes, hmode]

/-- A write that succeeds leaves the target in order, and changes nothing else. -/
theorem Disk.onlyRewritten_saved {o : Options} {c : Config} {content : Text}
    (hmode : o.mode = .write) (htext : d.text? o.path = some content)
    (hsaved : (d.saved o c content).1 = .ok ()) :
    d.OnlyRewritten o.path (fun content => (reorder c.settings content).text)
      (d.saved o c content).2 := by
  obtain ⟨source, mode, hfind, -⟩ := Disk.text?_eq_some_iff.1 htext
  refine ⟨source, mode, content, hfind, ?_⟩
  unfold Disk.saved at hsaved ⊢
  split at hsaved
  · rename_i hwrites
    rw [if_pos hwrites]
    rcases d.replaceFile_cases o.path (reorder c.settings content).text with
      ⟨place, fault, -, hreplace⟩ | ⟨target, htakes, -, hreplace⟩
    · rw [hreplace] at hsaved
      cases hsaved
    · have hmodeAt : d.modeAt o.path = mode := by rw [Disk.modeAt, hfind]; rfl
      have hreplaced := htakes.replaced (reorder c.settings content).text
      rw [hmodeAt] at hreplaced
      rw [hreplace, hmodeAt]
      exact .inr ⟨target, htakes, hreplaced⟩
  · rename_i hwrites
    have hsame : (reorder c.settings content).text = content := by
      simpa [Options.writes, hmode] using hwrites
    rw [if_neg hwrites]
    exact .inl ⟨hsame, rfl⟩

section

variable (hnamed : ∀ path, r.config = some path → (Config.usable? d.text? path).isSome)
  (hknown : r.config = none → ∃ path, d.directory = .ok path)

include hnamed hknown

theorem fails_of_targetUnreadable (h : Cause.targetUnreadable.applies d r = true) :
    Fails d r false := by
  have hread := d.holds r.options.path
  rw [Option.isNone_iff_eq_none.1 h] at hread
  obtain ⟨fault, hread⟩ := hread
  exact ⟨.io r.options.path fault, rfl,
    (ends_resolveConfig d.holds hnamed hknown).bind_ok (ends_reorderFile_of_unreadable hread)⟩

variable {content : Text} (htext : d.text? r.options.path = some content)

include htext

theorem ends_reorderAction :
    match runFailure? r.options (r.configIn d.text? d.directory) content with
    | some failure => (Program.reorderAction d.directory r : Action (StateM Disk) Outcome).Ends d
        (.error failure) d
    | none => (Program.reorderAction d.directory r : Action (StateM Disk) Outcome).Ends d
        ((d.saved r.options (r.configIn d.text? d.directory) content).1.map fun _ =>
          runOutcome r.options (r.configIn d.text? d.directory) content)
        (d.saved r.options (r.configIn d.text? d.directory) content).2 := by
  have hread := d.holds r.options.path
  rw [htext] at hread
  have hconfig := ends_resolveConfig d.holds hnamed hknown
  have hends := ends_reorderFile hread
    (d.saves r.options (r.configIn d.text? d.directory) content)
  cases hfailure : runFailure? r.options (r.configIn d.text? d.directory) content with
  | some failure =>
    rw [hfailure] at hends
    exact hconfig.bind_ok hends
  | none =>
    rw [hfailure] at hends
    exact hconfig.bind_ok hends

omit hnamed hknown in
theorem strictness_applies_iff : Cause.strictness.applies d r = true ↔
    (r.options.strict || (r.configIn d.text? d.directory).strict) = true ∧
      (reorder (r.configIn d.text? d.directory).settings content).report.diagnostics ≠ [] := by
  simp [Cause.applies, htext]

omit hnamed hknown in
theorem writeFails_applies_eq : Cause.writeFails.applies d r =
    !(d.saved r.options (r.configIn d.text? d.directory) content).1.isOk := by
  unfold Cause.applies Disk.saved Options.writes
  rw [htext]
  split_ifs with hwrites <;> simp_all [Except.isOk, Except.toBool]

theorem fails_of_strictness (h : Cause.strictness.applies d r = true) :
    Fails d r true := by
  have hstrict := (strictness_applies_iff htext).1 h
  have hends := ends_reorderAction hnamed hknown htext
  rcases runFailure?_cases r.options (r.configIn d.text? d.directory) content with
    ⟨-, hfailure | hfailure⟩ | ⟨hlenient, -⟩
  · rw [hfailure] at hends
    exact ⟨_, rfl, hends⟩
  · rw [hfailure] at hends
    exact ⟨_, rfl, hends⟩
  · exact absurd hstrict hlenient

/-- Without a cause from strictness, a request does what can be done to the disk. -/
theorem ends_reorderAction_of_lenient (h : Cause.strictness.applies d r = false) :
    (Program.reorderAction d.directory r : Action (StateM Disk) Outcome).Ends d
      ((d.saved r.options (r.configIn d.text? d.directory) content).1.map fun _ =>
        runOutcome r.options (r.configIn d.text? d.directory) content)
      (d.saved r.options (r.configIn d.text? d.directory) content).2 := by
  have hends := ends_reorderAction hnamed hknown htext
  rcases runFailure?_cases r.options (r.configIn d.text? d.directory) content with
    ⟨hstrict, -⟩ | ⟨-, hnone⟩
  · rw [(strictness_applies_iff htext).2 hstrict] at h
    cases h
  · rwa [hnone] at hends

theorem fails_of_writeFails (hlenient : Cause.strictness.applies d r = false)
    (h : Cause.writeFails.applies d r = true) : Fails d r false := by
  have hends := ends_reorderAction_of_lenient hnamed hknown htext hlenient
  rw [writeFails_applies_eq htext] at h
  cases hsaved : (d.saved r.options (r.configIn d.text? d.directory) content).1 with
  | ok u => simp [hsaved, Except.isOk, Except.toBool] at h
  | error failure =>
    obtain ⟨hfixable, hdisk⟩ := Disk.saved_eq_of_error hsaved
    rw [hsaved, hdisk] at hends
    exact ⟨failure, hfixable, hends⟩

end

/-! ## The program -/

variable {environment : Option Bytes} {args : List Bytes} {verbosity : Nat}
  (hparse : Invocation.parse args = .ok ⟨.reorder r, verbosity⟩)

include hparse

variable (environment) in
theorem runProgram_of_ends {result : Except Failure Outcome}
    (h : (Program.reorderAction d.directory r : Action (StateM Disk) Outcome).Ends d result d') :
    ∃ log, d.runProgram environment args = (Program.reorderFinish r log result, d') := by
  obtain ⟨events, hperform⟩ := h.perform
  refine ⟨logUpTo (Program.logLimit verbosity environment) events, ?_⟩
  have hdirectory : StateT.run (Machine.directory : StateM Disk (Except FileFault Bytes)) d =
      (pure (d.directory, d) : Id _) := rfl
  unfold Disk.runProgram Program.run
  rw [hparse]
  dsimp only
  rw [StateT.run_bind, hdirectory, pure_bind, StateT.run_bind, hperform]
  rfl

theorem answers_of_fails {isUserFixable : Bool} (cause : Cause) (h : Fails d r isUserFixable)
    (hcause : cause ≠ .reportFails) (hstatus : cause.status = if isUserFixable then 2 else 1)
    (hfirst : Cause.first? Cause.all d r = some cause) :
    d.Answers r (d.runProgram environment args).1 (d.runProgram environment args).2 := by
  obtain ⟨failure, rfl, hends⟩ := h
  obtain ⟨log, hrun⟩ := runProgram_of_ends environment hparse hends
  have hne : (if failure.isUserFixable then 2 else 1) ≠ 0 := by split <;> decide
  rw [hrun]
  refine ⟨?_, fun _ => rfl, fun hends => ?_⟩
  · rw [Cause.exitStatus, hfirst]
    exact hstatus.symm
  · rcases hends with hzero | hreport
    · exact absurd hzero hne
    · exact absurd (Option.some.inj (hfirst.symm.trans hreport)) hcause

omit hparse in
theorem isNone_render (o : Outcome) (color : Bool) (format : Format) :
    (o.render color format).isNone = (format = .json && (toText? o.path).isNone) := by
  cases format <;> simp [Outcome.render, Outcome.jsonText?, Outcome.toJson?]

omit hparse in
/-- The exit status of a request that has been carried out. -/
theorem exit_reorderFinish (c : Config) {content : Text}
    (htext : d.text? r.options.path = some content) (hc : c = r.configIn d.text? d.directory)
    (log : Text) :
    (Program.reorderFinish r log (.ok (runOutcome r.options c content))).exit =
      if Cause.reportFails.applies d r || Cause.outOfOrder.applies d r then 1 else 0 := by
  subst hc
  have hnone := isNone_render (runOutcome r.options (r.configIn d.text? d.directory) content) false
    r.format
  rw [Program.reorderFinish]
  cases hrender : (runOutcome r.options (r.configIn d.text? d.directory) content).render false
      r.format with
  | none =>
    have hreport : Cause.reportFails.applies d r = true := by
      rw [hrender] at hnone
      exact hnone.symm
    rw [hreport]
    rfl
  | some report =>
    have hreport : Cause.reportFails.applies d r = false := by
      rw [hrender] at hnone
      exact hnone.symm
    rw [hreport]
    simp [runOutcome, Cause.applies, htext]

theorem answers_of_saved
    (hnamed : ∀ path, r.config = some path → (Config.usable? d.text? path).isSome)
    (hknown : r.config = none → ∃ path, d.directory = .ok path) {content : Text}
    (htext : d.text? r.options.path = some content)
    (hlenient : Cause.strictness.applies d r = false)
    (hwrite : Cause.writeFails.applies d r = false)
    (hfirst : Cause.first? Cause.all d r = Cause.first? [.reportFails, .outOfOrder] d r) :
    d.Answers r (d.runProgram environment args).1 (d.runProgram environment args).2 := by
  have hends := ends_reorderAction_of_lenient hnamed hknown htext hlenient
  rw [writeFails_applies_eq htext] at hwrite
  cases hsaved : (d.saved r.options (r.configIn d.text? d.directory) content).1 with
  | error failure => simp [hsaved, Except.isOk, Except.toBool] at hwrite
  | ok u =>
    rw [hsaved] at hends
    obtain ⟨log, hrun⟩ := runProgram_of_ends environment hparse hends
    have hexit := exit_reorderFinish _ htext rfl log
    rw [hrun]
    refine ⟨?_, fun hreports => ?_, fun _ hmode => Disk.onlyRewritten_saved hmode htext hsaved⟩
    · refine hexit.trans ?_
      rw [Cause.exitStatus, hfirst]
      cases hreport : Cause.reportFails.applies d r <;>
        cases horder : Cause.outOfOrder.applies d r <;>
        simp [Cause.first?, hreport, horder, Cause.status]
    · have hmode : r.options.mode ≠ .write := by
        refine hreports.elim (fun hbad hmode => ?_) id
        -- a file that is written is not checked, so that only the report can have failed
        have horder : Cause.outOfOrder.applies d r = false := by
          simp [Cause.applies, htext, hmode]
        cases hreport : Cause.reportFails.applies d r with
        | true => exact hbad.2 (by rw [hfirst]; simp [Cause.first?, hreport])
        | false => exact hbad.1 (hexit.trans (by simp [hreport, horder]))
      rw [Disk.saved_eq_of_mode_ne hmode]

end

/-- Where the directory is known and the path is a text, the causes that lie in the files decide. -/
theorem Cause.first?_all_eq {d : Disk} {r : Request} (h : d.Suits r) :
    first? all d r = first? ofFiles d r := by
  have hunknown : directoryUnknown.applies d r = false := by
    cases hconfig : r.config with
    | some path => simp [applies, hconfig]
    | none =>
      obtain ⟨path, hpath⟩ := h.known hconfig
      simp [applies, hpath, Except.isOk, Except.toBool]
  have hreport : reportFails.applies d r = false := by
    by_cases hformat : r.format = .json
    · obtain ⟨path, hpath⟩ := h.text hformat
      simp [applies, ← hpath]
    · simp [applies, hformat]
  simp only [first?, all, ofFiles, List.find?_cons, hunknown, hreport]

theorem answers_runProgram (d : Disk) (environment : Option Bytes) {args : List Bytes} {r : Request}
    {verbosity : Nat} (hparse : Invocation.parse args = .ok ⟨.reorder r, verbosity⟩) :
    d.Answers r (d.runProgram environment args).1 (d.runProgram environment args).2 := by
  -- the causes in the order in which they decide, each where none before it applies
  by_cases hunreadable : Cause.configUnreadable.applies d r = true
  · refine answers_of_fails hparse .configUnreadable (fails_of_configUnreadable hunreadable)
      (by decide) rfl ?_
    simp [Cause.first?, Cause.all, hunreadable]
  rw [Bool.not_eq_true] at hunreadable
  by_cases hrefused : Cause.configRefused.applies d r = true
  · refine answers_of_fails hparse .configRefused (fails_of_configRefused hrefused)
      (by decide) rfl ?_
    simp [Cause.first?, Cause.all, hunreadable, hrefused]
  rw [Bool.not_eq_true] at hrefused
  have hnamed (path : Bytes) (hconfig : r.config = some path) :
      (Config.usable? d.text? path).isSome := isSome_usable? hunreadable hrefused hconfig
  by_cases hunknown : Cause.directoryUnknown.applies d r = true
  · refine answers_of_fails hparse .directoryUnknown (fails_of_directoryUnknown hunknown)
      (by decide) rfl ?_
    simp [Cause.first?, Cause.all, hunreadable, hrefused, hunknown]
  rw [Bool.not_eq_true] at hunknown
  have hknown := exists_directory hunknown
  by_cases htarget : Cause.targetUnreadable.applies d r = true
  · refine answers_of_fails hparse .targetUnreadable
      (fails_of_targetUnreadable hnamed hknown htarget) (by decide) rfl ?_
    simp [Cause.first?, Cause.all, hunreadable, hrefused, hunknown, htarget]
  rw [Bool.not_eq_true] at htarget
  obtain ⟨content, htext⟩ : ∃ content, d.text? r.options.path = some content := by
    simpa [Cause.applies, Option.isSome_iff_exists] using htarget
  by_cases hstrict : Cause.strictness.applies d r = true
  · refine answers_of_fails hparse .strictness (fails_of_strictness hnamed hknown htext hstrict)
      (by decide) rfl ?_
    simp [Cause.first?, Cause.all, hunreadable, hrefused, hunknown, htarget, hstrict]
  rw [Bool.not_eq_true] at hstrict
  by_cases hwrite : Cause.writeFails.applies d r = true
  · refine answers_of_fails hparse .writeFails
      (fails_of_writeFails hnamed hknown htext hstrict hwrite) (by decide) rfl ?_
    simp [Cause.first?, Cause.all, hunreadable, hrefused, hunknown, htarget, hstrict, hwrite]
  rw [Bool.not_eq_true] at hwrite
  refine answers_of_saved hparse hnamed hknown htext hstrict hwrite ?_
  simp only [Cause.first?, Cause.all, List.find?_cons, hunreadable, hrefused, hunknown, htarget,
    hstrict, hwrite]

/-- A rule whose parameters are out of order. -/
def looseRule : Text := "#[rule]\npub fn [< $f _a >](value: bool, e: Env) \x7b\x7d"

/-- The rule in a file, below a directory that asks for strictness. -/
def strictDisk : Disk where
  nodes := [
    ([utf8 configName], .file 0o644 (.text "[policy]\nstrict = true\n")),
    ([utf8 "p"], .directory),
    ([utf8 "p", utf8 "a.rs"], .file 0o640 (.text looseRule))]
  current := [utf8 "p"]

/-- The request to reorder this file and to keep all parameters. -/
def keepRequest : Request where
  options := ⟨"a.rs", .write, false⟩
  config := none
  keepUnclassified := true
  format := .terminal

/-- How this is asked for. -/
def keepArguments : List Bytes := [utf8 "a.rs", utf8 "--keep-unclassified"]

/-- A name that is no text. -/
def strayPath : Bytes := [0x61, 0xE9]

/-- The rule in a file with this name. -/
def strayDisk : Disk where
  nodes := [([strayPath], .file 0o640 (.text looseRule))]
  current := []

/-- The file is in order, and yet the exit status is 1: there is no report in JSON about it. -/
theorem strayPath_rewritten :
    (strayDisk.runProgram none [utf8 "-f", utf8 "json", strayPath]).1.exit = 1 ∧
    (strayDisk.runProgram none [utf8 "-f", utf8 "json", strayPath]).2.text? strayPath =
      some (reorder ({} : Config).settings looseRule).text ∧
    (reorder ({} : Config).settings looseRule).text ≠ looseRule := by
  decide +kernel

end RuleFormat
