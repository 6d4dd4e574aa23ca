import RuleFormat.Command
import RuleFormat.Files.Basic

/-!
# What actions end with

`Action.Runs` says how an action ends that begins with a log and a state of the files: with which
result, log and state.  `Action.Ends` says the same whatever the log holds before it.  There is one
rule for each way in which actions are put together, so that no proof about a command opens the
monads it is written in.
-/

namespace RuleFormat

variable {σ α β : Type}

/-- An action that begins with a log in a state `s` ends with the result `r` and another log in the
state `s'`. -/
def Action.Runs (a : Action (StateM σ) α) (log : List Event) (s : σ) (r : Except Failure α)
    (log' : List Event) (s' : σ) : Prop :=
  StateT.run (StateT.run (ExceptT.run a) log) s = ((r, log'), s')

namespace Action.Runs

variable {s s₁ s' : σ} {log log₁ log' : List Event} {a : Action (StateM σ) α}
  {f : α → Action (StateM σ) β}

theorem bind_ok {x : α} {r : Except Failure β} (ha : a.Runs log s (.ok x) log₁ s₁)
    (hf : (f x).Runs log₁ s₁ r log' s') : (a >>= f).Runs log s r log' s' := by
  unfold Runs at ha hf ⊢
  show StateT.run (StateT.run (ExceptT.run (ExceptT.bind a f)) log) s = _
  rw [ExceptT.run] at ha
  simp only [ExceptT.run, ExceptT.bind, ExceptT.mk, StateT.run_bind, ha]
  exact hf

theorem bind_error {e : Failure} (ha : a.Runs log s (.error e) log' s') :
    (a >>= f).Runs log s (.error e) log' s' := by
  unfold Runs at ha ⊢
  show StateT.run (StateT.run (ExceptT.run (ExceptT.bind a f)) log) s = _
  rw [ExceptT.run] at ha
  simp only [ExceptT.run, ExceptT.bind, ExceptT.mk, StateT.run_bind, ha]
  rfl

/-- A sequence that ends well has a first part that ends well. -/
theorem exists_of_bind_ok {y : β} (h : (a >>= f).Runs log s (.ok y) log' s') :
    ∃ x log₁ s₁, a.Runs log s (.ok x) log₁ s₁ ∧ (f x).Runs log₁ s₁ (.ok y) log' s' := by
  obtain ⟨⟨⟨r, log₁⟩, s₁⟩, hr⟩ :
      ∃ p, StateT.run (StateT.run (ExceptT.run a) log) s = p := ⟨_, rfl⟩
  cases r with
  | error e =>
    have herror := bind_error (f := f) hr
    have hresult := congrArg (fun p => p.1.1) (h.symm.trans herror)
    cases hresult
  | ok x =>
    obtain ⟨⟨⟨r, log₂⟩, s₂⟩, hx⟩ :
        ∃ p, StateT.run (StateT.run (ExceptT.run (f x)) log₁) s₁ = p := ⟨_, rfl⟩
    obtain hsame : ((r, log₂), s₂) = ((.ok y, log'), s') := (bind_ok hr hx).symm.trans h
    exact ⟨x, log₁, s₁, hr, hx.trans hsame⟩

theorem tryCatch_ok {x : α} {g : Failure → Action (StateM σ) α}
    (ha : a.Runs log s (.ok x) log' s') : (tryCatch a g).Runs log s (.ok x) log' s' := by
  unfold Runs at ha ⊢
  show StateT.run (StateT.run (ExceptT.run (ExceptT.tryCatch a g)) log) s = _
  rw [ExceptT.run] at ha
  simp only [ExceptT.run, ExceptT.tryCatch, ExceptT.mk, StateT.run_bind, ha]
  rfl

theorem tryCatch_error {e : Failure} {g : Failure → Action (StateM σ) α} {r : Except Failure α}
    (ha : a.Runs log s (.error e) log₁ s₁) (hg : (g e).Runs log₁ s₁ r log' s') :
    (tryCatch a g).Runs log s r log' s' := by
  unfold Runs at ha hg ⊢
  show StateT.run (StateT.run (ExceptT.run (ExceptT.tryCatch a g)) log) s = _
  rw [ExceptT.run] at ha
  simp only [ExceptT.run, ExceptT.tryCatch, ExceptT.mk, StateT.run_bind, ha]
  exact hg

end Action.Runs

/-- An action that begins in a state `s` ends with the result `r` in the state `s'`. -/
def Action.Ends (a : Action (StateM σ) α) (s : σ) (r : Except Failure α) (s' : σ) : Prop :=
  ∀ log, ∃ log', StateT.run (StateT.run (ExceptT.run a) log) s = ((r, log'), s')

namespace Action.Ends

variable {s s₁ s' : σ} {a : Action (StateM σ) α} {f : α → Action (StateM σ) β}

theorem pure (x : α) : (Pure.pure x : Action (StateM σ) α).Ends s (.ok x) s :=
  fun log => ⟨log, rfl⟩

theorem throw (e : Failure) : (MonadExcept.throw e : Action (StateM σ) α).Ends s (.error e) s :=
  fun log => ⟨log, rfl⟩

theorem note (e : Event) : (Action.note e : Action (StateM σ) Unit).Ends s (.ok ()) s :=
  fun log => ⟨log ++ [e], rfl⟩

theorem noteAll (es : List Event) :
    (Action.noteAll es : Action (StateM σ) Unit).Ends s (.ok ()) s :=
  fun log => ⟨log ++ es, rfl⟩

theorem get : (getThe σ : Action (StateM σ) σ).Ends s (.ok s) s :=
  fun log => ⟨log, rfl⟩

theorem set (s' : σ) : (MonadStateOf.set s' : Action (StateM σ) Unit).Ends s (.ok ()) s' :=
  fun log => ⟨log, rfl⟩

theorem bind_ok {x : α} {r : Except Failure β} (ha : a.Ends s (.ok x) s₁)
    (hf : (f x).Ends s₁ r s') : (a >>= f).Ends s r s' := by
  intro log
  obtain ⟨log₁, ha⟩ := ha log
  obtain ⟨log', hf⟩ := hf log₁
  exact ⟨log', Runs.bind_ok ha hf⟩

theorem bind_error {e : Failure} (ha : a.Ends s (.error e) s') :
    (a >>= f).Ends s (.error e) s' := by
  intro log
  obtain ⟨log', ha⟩ := ha log
  exact ⟨log', Runs.bind_error ha⟩

theorem tryCatch_ok {x : α} {g : Failure → Action (StateM σ) α} (ha : a.Ends s (.ok x) s') :
    (tryCatch a g).Ends s (.ok x) s' := by
  intro log
  obtain ⟨log', ha⟩ := ha log
  exact ⟨log', Runs.tryCatch_ok ha⟩

theorem tryCatch_error {e : Failure} {g : Failure → Action (StateM σ) α} {r : Except Failure α}
    (ha : a.Ends s (.error e) s₁) (hg : (g e).Ends s₁ r s') : (tryCatch a g).Ends s r s' := by
  intro log
  obtain ⟨log₁, ha⟩ := ha log
  obtain ⟨log', hg⟩ := hg log₁
  exact ⟨log', Runs.tryCatch_error ha hg⟩

theorem lift {x : StateM σ α} {v : α} (h : StateT.run x s = (v, s')) :
    (liftM x : Action (StateM σ) α).Ends s (.ok v) s' := by
  intro log
  refine ⟨log, ?_⟩
  show (match StateT.run x s with | (v, s') => ((Except.ok v, log), s')) = _
  rw [h]

/-- An action that ends begins with any log, also with the empty one. -/
theorem perform {r : Except Failure α} (h : a.Ends s r s') :
    ∃ events, StateT.run a.perform s = ((r, events), s') :=
  h []

end Action.Ends

/-!
## Commands over any files

The commands are written once for all file systems, and so is what they do: all that counts is what
a file system answers when it is asked to read or to write.  `ends_reorderFile` takes the reordering
command apart, `ends_initConfig` the making of a configuration file.
-/

/-! ## What a run comes to -/

theorem strictFailure?_eq_none_iff {path : Bytes} {ds : List Diagnostic} :
    strictFailure? path ds = none ↔ ds = [] := by
  constructor
  · intro h
    unfold strictFailure? at h
    split at h
    · rfl
    · cases h
    · cases h
  · rintro rfl
    rfl

/-- Whether a run writes a file that would change. -/
def Options.writes (o : Options) (wouldChange : Bool) : Bool := o.mode = .write && wouldChange

/-- The failure that a run ends with when it could read the file. -/
def runFailure? (o : Options) (c : Config) (content : Text) : Option Failure :=
  if o.strict || c.strict then
    strictFailure? o.path (reorder c.settings content).report.diagnostics
  else none

/-- A run of which strictness is asked fails exactly when there is something to say. -/
theorem runFailure?_cases (o : Options) (c : Config) (content : Text) :
    (((o.strict || c.strict) = true ∧ (reorder c.settings content).report.diagnostics ≠ []) ∧
      (runFailure? o c content = some (.noMatches o.path) ∨ runFailure? o c content =
        some (.strict o.path (reorder c.settings content).report.diagnostics.length))) ∨
    ¬((o.strict || c.strict) = true ∧ (reorder c.settings content).report.diagnostics ≠ []) ∧
      runFailure? o c content = none := by
  unfold runFailure?
  generalize (reorder c.settings content).report.diagnostics = ds
  cases o.strict || c.strict with
  | false => exact .inr ⟨fun h => Bool.false_ne_true h.1, rfl⟩
  | true =>
    rw [if_pos rfl]
    unfold strictFailure?
    split
    · exact .inr ⟨fun h => h.2 rfl, rfl⟩
    · exact .inl ⟨⟨rfl, List.cons_ne_nil _ _⟩, .inl rfl⟩
    · exact .inl ⟨⟨rfl, ‹_›⟩, .inr rfl⟩

/-- The outcome of a run that does not fail. -/
def runOutcome (o : Options) (c : Config) (content : Text) : Outcome where
  path := o.path
  report := (reorder c.settings content).report
  wouldChange := (reorder c.settings content).text != content
  written := o.writes ((reorder c.settings content).text != content)

section

variable {σ : Type} [Files (StateM σ)] {s s' : σ}

/-- What a run does to the files once nothing is in its way: it writes the text in order, or leaves
them alone. -/
inductive Saves (o : Options) (wouldChange : Bool) (text : Text) (s : σ) :
    Except Failure Unit → σ → Prop
  | write {r : Except Failure Unit} {s' : σ} : o.writes wouldChange = true →
      (Files.write o.path text : Action (StateM σ) Unit).Ends s r s' →
      Saves o wouldChange text s r s'
  | leave : o.writes wouldChange = false → Saves o wouldChange text s (.ok ()) s

/-! ## The reordering command -/

omit [Files (StateM σ)] in
theorem ends_enforceStrict (s : σ) (path : Bytes) (r : Report) :
    (enforceStrict path r : Action (StateM σ) Unit).Ends s
      (match strictFailure? path r.diagnostics with
        | some failure => .error failure
        | none => .ok ()) s := by
  refine (Action.Ends.noteAll _).bind_ok ?_
  cases strictFailure? path r.diagnostics with
  | some failure => exact .throw failure
  | none => exact .pure ()

theorem ends_save {o : Options} {headers : Nat} {wouldChange : Bool} {text : Text}
    {r : Except Failure Unit} (h : Saves o wouldChange text s r s') :
    (save o headers wouldChange text : Action (StateM σ) Bool).Ends s
      (r.map fun _ => o.writes wouldChange) s' := by
  cases h with
  | write hwrites hwrite =>
    rw [hwrites]
    obtain ⟨hmode, rfl⟩ : o.mode = .write ∧ wouldChange = true := by
      simpa [Options.writes] using hwrites
    unfold save
    rw [hmode]
    cases r with
    | error e => exact hwrite.bind_error
    | ok x => exact hwrite.bind_ok ((Action.Ends.note _).bind_ok (.pure true))
  | leave hwrites =>
    rw [hwrites]
    unfold Options.writes at hwrites
    unfold save
    cases hmode : o.mode with
    | write =>
      obtain rfl : wouldChange = false := by simpa [hmode] using hwrites
      exact (Action.Ends.note _).bind_ok (.pure false)
    | dryRun => exact .pure false
    | check => exact .pure false

theorem ends_reorderFile_of_unreadable {o : Options} {c : Config} {e : Failure}
    (hread : (Files.read o.path : Action (StateM σ) Text).Ends s (.error e) s) :
    (reorderFile o c : Action (StateM σ) Outcome).Ends s (.error e) s :=
  hread.bind_error

theorem ends_saved {o : Options} {c : Config} {content : Text} {r : Except Failure Unit}
    (hsave : Saves o ((reorder c.settings content).text != content)
      (reorder c.settings content).text s r s') :
    (do
      let written ← save o (reorder c.settings content).report.changed
        ((reorder c.settings content).text != content) (reorder c.settings content).text
      return (⟨o.path, (reorder c.settings content).report,
        (reorder c.settings content).text != content, written⟩ : Outcome)
      : Action (StateM σ) Outcome).Ends s (r.map fun _ => runOutcome o c content) s' := by
  cases r with
  | error e => exact (ends_save hsave).bind_error
  | ok x => exact (ends_save hsave).bind_ok (.pure _)

/-- **What the reordering command does** with a file that can be read.  It fails in strict mode when
there are diagnostics, and then leaves the files alone; else it saves the file in order. -/
theorem ends_reorderFile {o : Options} {c : Config} {content : Text} {r : Except Failure Unit}
    (hread : (Files.read o.path : Action (StateM σ) Text).Ends s (.ok content) s)
    (hsave : Saves o ((reorder c.settings content).text != content)
      (reorder c.settings content).text s r s') :
    match runFailure? o c content with
    | some failure => (reorderFile o c : Action (StateM σ) Outcome).Ends s (.error failure) s
    | none => (reorderFile o c : Action (StateM σ) Outcome).Ends s
        (r.map fun _ => runOutcome o c content) s' := by
  have hchecked := ends_enforceStrict s o.path (reorder c.settings content).report
  unfold runFailure?
  cases hstrict : o.strict || c.strict with
  | false =>
    refine hread.bind_ok ((Action.Ends.note _).bind_ok ((Action.Ends.noteAll _).bind_ok ?_))
    rw [hstrict]
    exact ends_saved hsave
  | true =>
    rw [if_pos rfl]
    cases hfailure : strictFailure? o.path (reorder c.settings content).report.diagnostics with
    | some failure =>
      rw [hfailure] at hchecked
      refine hread.bind_ok ((Action.Ends.note _).bind_ok ((Action.Ends.noteAll _).bind_ok ?_))
      rw [hstrict]
      exact hchecked.bind_error
    | none =>
      rw [hfailure] at hchecked
      refine hread.bind_ok ((Action.Ends.note _).bind_ok ((Action.Ends.noteAll _).bind_ok ?_))
      rw [hstrict]
      exact hchecked.bind_ok (ends_saved hsave)

/-! ## The making of a configuration file -/

theorem ends_initConfig {dir : Bytes} (force : Bool) {isThere : Bool} {r : Except Failure Unit}
    (hthere : StateT.run (Files.isThere (Path.join dir configName) : StateM σ Bool) s
      = (isThere, s))
    (hwrite : (Files.write (Path.join dir configName) Config.defaultText :
      Action (StateM σ) Unit).Ends s r s') :
    match isThere && !force with
    | true => (initConfig dir force : Action (StateM σ) Unit).Ends s (.error .configExists) s
    | false => (initConfig dir force : Action (StateM σ) Unit).Ends s r s' := by
  cases hrefused : isThere && !force with
  | true =>
    refine (Action.Ends.lift hthere).bind_ok ?_
    rw [hrefused]
    exact (Action.Ends.throw _).bind_error
  | false =>
    refine (Action.Ends.lift hthere).bind_ok ?_
    rw [hrefused]
    exact hwrite

end

/-!
## Runs in a store

`run_reorderFile` tells what the reordering command does in a store as a whole: which failure or
outcome it ends with, and which store it leaves.
-/

namespace Store

variable {α β : Type}

/-- The result of an action that begins with an empty log, and the store after it. -/
def run (s : Store) (a : Action (StateM Store) α) : Except Failure α × Store :=
  let ((result, _), s) := StateT.run a.perform s
  (result, s)

theorem run_eq_of_ends {s s' : Store} {a : Action (StateM Store) α} {r : Except Failure α}
    (h : a.Ends s r s') : s.run a = (r, s') := by
  obtain ⟨events, h⟩ := h.perform
  rw [run, h]

theorem run_map (s : Store) (a : Action (StateM Store) α) (f : α → β) :
    s.run (do return f (← a)) = ((s.run a).1.map f, (s.run a).2) := by
  show s.run (ExceptT.bind a fun x => ExceptT.pure (f x)) = _
  simp only [run, Action.perform, ExceptT.run, ExceptT.bind, ExceptT.mk, StateT.run_bind]
  generalize StateT.run (StateT.run a []) s = r
  obtain ⟨⟨x | x, log⟩, s'⟩ := r
  · rfl
  · rfl

theorem ends_read (s : Store) (path : Bytes) :
    (Files.read path : Action (StateM Store) Text).Ends s (match s.get? path with
      | none => .error (.io path .absent)
      | some content => .ok content) s := by
  refine Action.Ends.get.bind_ok ?_
  cases s.get? path with
  | none => exact .throw _
  | some content => exact .pure content

theorem ends_write (s : Store) (path : Bytes) (content : Text) :
    (Files.write path content : Action (StateM Store) Unit).Ends s (.ok ())
      (s.write path content) :=
  fun log => ⟨log, rfl⟩

theorem run_isThere (s : Store) (path : Bytes) :
    StateT.run (Files.isThere path : StateM Store Bool) s = ((s.get? path).isSome, s) :=
  rfl

/-! ## What is in a store -/

theorem get?_write_eq (s : Store) (path : Bytes) (content : Text) (path' : Bytes) :
    (s.write path content).get? path' =
      if Path.location path' = Path.location path then some content else s.get? path' :=
  Table.lookup_insert _ _ _ _

theorem get?_write (s : Store) (path : Bytes) (content : Text) :
    (s.write path content).get? path = some content := by
  rw [get?_write_eq, if_pos rfl]

end Store

/-! ## The reordering command -/

/-- The store that a run leaves which does not fail. -/
def Store.saved (s : Store) (o : Options) (c : Config) (content : Text) : Store :=
  if o.writes ((reorder c.settings content).text != content) then
    s.write o.path (reorder c.settings content).text
  else s

theorem Store.saves (s : Store) (o : Options) (c : Config) (content : Text) :
    Saves o ((reorder c.settings content).text != content) (reorder c.settings content).text s
      (.ok ()) (s.saved o c content) := by
  unfold Store.saved
  cases hwrites : o.writes ((reorder c.settings content).text != content) with
  | true => exact .write hwrites (s.ends_write _ _)
  | false => exact .leave hwrites

/-- **What the reordering command does.**  It fails when there is no file, or in strict mode when
there are diagnostics, and then leaves the store alone; else it saves the file in order. -/
theorem run_reorderFile (s : Store) (o : Options) (c : Config) :
    s.run (reorderFile o c) = match s.get? o.path with
      | none => (.error (.io o.path .absent), s)
      | some content =>
        match runFailure? o c content with
        | some failure => (.error failure, s)
        | none => (.ok (runOutcome o c content), s.saved o c content) := by
  have hread := s.ends_read o.path
  cases hget : s.get? o.path with
  | none =>
    rw [hget] at hread
    exact Store.run_eq_of_ends (ends_reorderFile_of_unreadable hread)
  | some content =>
    rw [hget] at hread
    have hends := ends_reorderFile hread (s.saves o c content)
    dsimp only
    cases hfailure : runFailure? o c content with
    | some failure =>
      rw [hfailure] at hends
      exact Store.run_eq_of_ends hends
    | none =>
      rw [hfailure] at hends
      exact Store.run_eq_of_ends hends

/-- The runs that do not fail. -/
theorem run_reorderFile_eq_ok_iff {s s' : Store} {o : Options} {c : Config} {outcome : Outcome} :
    s.run (reorderFile o c) = (.ok outcome, s') ↔ ∃ content, s.get? o.path = some content ∧
      runFailure? o c content = none ∧ outcome = runOutcome o c content ∧
      s' = s.saved o c content := by
  rw [run_reorderFile]
  cases hget : s.get? o.path with
  | none => simp
  | some content =>
    cases hfailure : runFailure? o c content with
    | some failure => simp [hfailure]
    | none => simp [hfailure, eq_comm]

end RuleFormat
