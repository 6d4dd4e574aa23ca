import RuleFormat.Proofs.Reorder

/-!
# Warnings

What an operator should see is said twice: as a diagnostic of the report, and as a warning in the
log.  The two are made in different places: a sorting warns when it leaves a parameter out, and the
diagnostics are made from its groups later on.  They agree for each sorting (`log_run`), hence for
each step of a pass (`warnings_step`), and in number and order over a whole pass
(`warnings_reorder`).

In the log as a text, an event is one line and no more: names are made of word characters, fragments
have no white space but blanks, and a fault shows at most a bracket (`not_mem_message`).  So the
lines that are marked as warnings are those of the diagnostics (`warnings_mirror_diagnostics`).
-/

namespace RuleFormat

variable {s : Settings} {newline : Text}

/-! ## Events -/

/-- The event by which a pass logs a diagnostic. -/
def Diagnostic.warning : Diagnostic → Event
  | noMatches => .nothingMatched
  | malformed rule line reason => .headerSkipped rule line reason
  | dropped _ _ parameter reason => reason.warning parameter

/-- The warnings among events. -/
def warnings (es : List Event) : List Event := es.filter fun e => e.level = .warn

theorem warnings_append (es fs : List Event) : warnings (es ++ fs) = warnings es ++ warnings fs :=
  List.filter_append ..

theorem warnings_map_warning (ds : List Dropped) :
    warnings (ds.map Dropped.warning) = ds.map Dropped.warning := by
  refine List.filter_eq_self.2 fun e he => ?_
  obtain ⟨⟨p, reason⟩, -, rfl⟩ := List.mem_map.1 he
  cases reason <;> rfl

/-- A step warns of each of its diagnostics. -/
theorem warnings_step (line : Nat) (seg : Segment) :
    warnings (step s newline line seg).events
      = (step s newline line seg).diagnostics.map Diagnostic.warning := by
  cases seg with
  | plain c => rfl
  | malformed o f => rfl
  | header h =>
    rw [step]
    cases Parameter.readAll h.fragments with
    | error e => rfl
    | ok ps =>
      simp only [Step.replace, warnings_append, List.map_map, log_run, Sorting.toGroups_run]
      have hdone : ∀ changed, warnings [.headerDone h.opening.name line changed] = [] := fun _ => rfl
      rw [hdone, List.append_nil, warnings_map_warning]
      rfl

theorem warnings_steps (line : Nat) (ss : List Segment) :
    warnings ((steps s newline line ss).flatMap (·.events))
      = ((steps s newline line ss).flatMap (·.diagnostics)).map Diagnostic.warning := by
  induction ss generalizing line with
  | nil => rfl
  | cons seg ss ih =>
    rw [steps, List.flatMap_cons, List.flatMap_cons, warnings_append, List.map_append,
      warnings_step, ih]

theorem warnings_reorder (s : Settings) (t : Text) :
    warnings (reorder s t).events = (reorder s t).report.diagnostics.map Diagnostic.warning := by
  rw [reorder_eq_sum]
  show warnings (_ ++ _) = List.map _ (_ ++ _)
  rw [warnings_append, List.map_append, warnings_steps]
  congr 1
  split <;> rfl

/-! ## Faults without line feeds -/

/-- A character that is found unbalanced closes some bracket. -/
theorem isClose_of_walk {m : Mode} {inner : List Bracket} {t : Text} {c : Char}
    (h : walk m inner t = .error (.unbalanced c)) : isClose c = true := by
  fun_induction walk m inner t with
  | case1 | case7 | case13 | case16 | case21 | case23 => cases h
  | case8 d cs _ _ _ _ _ hclose =>
    cases h
    exact hclose
  | case10 d cs _ _ _ _ _ hclose =>
    cases h
    exact hclose
  | _ =>
    -- in all other turns the reader goes on, and the fault is found later
    rename_i ih
    exact ih (map_eq_error h)

theorem HeaderFault.not_mem_message {o : Opening} {t : Text} {fault : HeaderFault}
    (h : readHeader o t = .error fault) : '\n' ∉ fault.message := by
  unfold readHeader at h
  cases hb : readBlock t with
  | error f =>
    rw [hb] at h
    obtain rfl := Except.error.inj h
    have hwalk := map_eq_error hb
    cases f with
    | unbalanced c =>
      have hc : '\n' ≠ c := by
        rintro rfl
        exact absurd (isClose_of_walk hwalk) (by decide)
      unfold HeaderFault.message BlockFault.message
      simp only [quoted, List.mem_append, List.mem_singleton, hc, or_false]
      decide
    | _ => decide
  | ok b =>
    rw [hb] at h
    dsimp only at h
    split at h
    · cases h
    · obtain rfl := Except.error.inj h
      decide

theorem ParameterFault.not_mem_message {fs : List Text} {fault : ParameterFault}
    (h : Parameter.readAll fs = .error fault) (hfs : ∀ f ∈ fs, '\n' ∉ f) :
    '\n' ∉ fault.message := by
  induction fs with
  | nil => cases h
  | cons f fs ih =>
    have hf : '\n' ∉ f := hfs f (by simp)
    rw [Parameter.readAll] at h
    cases hp : Parameter.read f with
    | ok p =>
      rw [hp] at h
      exact ih (map_eq_error h) fun g hg => hfs g (by simp [hg])
    | error e =>
      rw [hp] at h
      obtain rfl := Except.error.inj h
      unfold Parameter.read at hp
      split at hp
      · obtain rfl := Except.error.inj hp
        unfold ParameterFault.message
        simp only [quoted, List.mem_append, hf, or_false]
        decide
      · obtain rfl := Except.error.inj hp
        unfold ParameterFault.message
        simp only [quoted, List.mem_append, hf, or_false]
        decide
      · cases hp

/-! ## One line for each event -/

theorem not_mem_decimal (n : Nat) : '\n' ∉ decimal n := by
  intro h
  exact absurd (Nat.isDigit_of_mem_toDigits (by decide) (by decide) h) (by decide)

theorem not_mem_of_isWord {name : Text} (h : ∀ c ∈ name, isWord c = true) : '\n' ∉ name :=
  fun hmem => absurd (h _ hmem) (by decide)

theorem Header.IsValid.not_mem_fragment {h : Header} (hh : h.IsValid) :
    ∀ f ∈ h.fragments, '\n' ∉ f :=
  fun _ hf => (isFragment_of_readBlock hh.block hf).not_mem (by decide) (by decide)

theorem not_mem_headerSkipped {rule reason : Text} (hrule : '\n' ∉ rule) (hreason : '\n' ∉ reason)
    (line : Nat) : '\n' ∉ (Event.headerSkipped rule line reason).message := by
  unfold Event.message
  simp only [quoted, List.mem_append, hrule, hreason, not_mem_decimal, or_false]
  decide

theorem not_mem_warning {p : Text} (hp : '\n' ∉ p) (reason : DropReason) :
    '\n' ∉ (reason.warning p).message := by
  cases reason <;> unfold DropReason.warning Event.message <;>
    simp only [quoted, List.mem_append, hp, or_false] <;> decide

theorem not_mem_headerDone {rule : Text} (hrule : '\n' ∉ rule) (line : Nat) (changed : Bool) :
    '\n' ∉ (Event.headerDone rule line changed).message := by
  have htruth : '\n' ∉ Event.truth changed := by cases changed <;> decide
  unfold Event.message
  simp only [List.mem_append, hrule, not_mem_decimal, htruth, or_false]
  decide

/-- What is dropped was a fragment. -/
theorem mem_of_mem_dropped {fs : List Text} {ps : List Parameter}
    (hps : Parameter.readAll fs = .ok ps) {t : Tables} {policy : Policy} {d : Dropped}
    (hd : d ∈ (sortParameters t policy ps).dropped) : d.parameter.text ∈ fs := by
  rw [← map_text_of_readAll hps]
  refine List.mem_map_of_mem ?_
  refine (perm_sortParameters t policy ps).subset ?_
  have hmem := List.mem_map_of_mem (f := (·.parameter)) hd
  simp [hmem]

/-- No event of a step has a line feed in its words. -/
theorem not_mem_message_step {seg : Segment} {rest : Text} (hseg : seg.Leads rest) (line : Nat) :
    ∀ e ∈ (step s newline line seg).events, '\n' ∉ e.message := by
  intro e he
  cases seg with
  | plain c => cases he
  | malformed o f =>
    obtain rfl := List.mem_singleton.1 he
    exact not_mem_headerSkipped (not_mem_of_isWord hseg.1.name_word)
      (HeaderFault.not_mem_message hseg.2) line
  | header h =>
    have hh : h.IsValid := hseg
    have hname := not_mem_of_isWord hh.opening.name_word
    rw [step] at he
    cases hps : Parameter.readAll h.fragments with
    | error fault =>
      rw [hps] at he
      obtain rfl := List.mem_singleton.1 he
      exact not_mem_headerSkipped hname
        (ParameterFault.not_mem_message hps hh.not_mem_fragment) line
    | ok ps =>
      rw [hps] at he
      rcases List.mem_append.1 he with he | he
      · rw [log_run] at he
        obtain ⟨d, hd, rfl⟩ := List.mem_map.1 he
        refine not_mem_warning (hh.not_mem_fragment _ ?_) d.reason
        exact mem_of_mem_dropped hps hd
      · obtain rfl := List.mem_singleton.1 he
        exact not_mem_headerDone hname line _

theorem not_mem_message_steps {ss : List Segment} (hss : Coherent ss) (line : Nat) :
    ∀ e ∈ (steps s newline line ss).flatMap (·.events), '\n' ∉ e.message := by
  induction ss generalizing line with
  | nil => intro e he; cases he
  | cons seg ss ih =>
    intro e he
    rw [steps, List.flatMap_cons] at he
    rcases List.mem_append.1 he with he | he
    · exact not_mem_message_step hss.1 line e he
    · exact ih hss.2 _ e he

/-- No event of a pass has a line feed in its words. -/
theorem not_mem_message (s : Settings) (t : Text) :
    ∀ e ∈ (reorder s t).events, '\n' ∉ e.message := by
  intro e he
  rw [reorder_eq_sum] at he
  rcases List.mem_append.1 he with he | he
  · exact not_mem_message_steps (coherent_segments t).2 1 e he
  · split at he
    · obtain rfl := List.mem_singleton.1 he
      decide
    · cases he

/-! ## The log as a text -/

/-- Showing a character makes no line feed. -/
theorem mem_shown {c : Char} (h : '\n' ∈ Event.shown c) : c = '\n' := by
  have hdigits : ∀ n < 0xA0, '\n' ∉ Nat.toDigits 16 n := by decide +kernel
  unfold Event.shown at h
  dsimp only at h
  split_ifs at h
  -- five characters with a spelling of their own, then those that are spelled in digits
  iterate 5 exact absurd h (by decide)
  · have hhex := hdigits c.toNat (by omega)
    simp only [List.mem_append, hhex, or_false] at h
    exact absurd h (by decide)
  · exact (List.mem_singleton.1 h).symm

/-- The line of an event, without its line feed. -/
def Event.body (e : Event) : Text := e.level.tag ++ [' '] ++ e.message.flatMap Event.shown

theorem Event.not_mem_body {e : Event} (h : '\n' ∉ e.message) : '\n' ∉ e.body := by
  have htag : '\n' ∉ e.level.tag := by cases e.level <;> decide
  have hshown : '\n' ∉ e.message.flatMap Event.shown := by
    intro hmem
    obtain ⟨c, hc, hmem⟩ := List.mem_flatMap.1 hmem
    rw [mem_shown hmem] at hc
    exact h hc
  simp only [Event.body, List.mem_append, htag, hshown, or_false]
  decide

/-- The lines of a log are those of its events. -/
theorem splitOn_logText {es : List Event} (h : ∀ e ∈ es, '\n' ∉ e.message) :
    (logText es).splitOn '\n' = es.map Event.body ++ [[]] := by
  induction es with
  | nil => rfl
  | cons e es ih =>
    have hline : logText (e :: es) = e.body ++ '\n' :: logText es := by
      simp [logText, Event.line, Event.body]
    rw [hline, List.splitOn_append_cons_self_of_not_mem (Event.not_mem_body (h e (by simp))),
      ih fun e he => h e (by simp [he])]
    rfl

/-- What the lines of warnings begin with. -/
def warnMark : Text := " WARN "

theorem isPrefixOf_body (e : Event) : warnMark.isPrefixOf e.body = decide (e.level = .warn) := by
  unfold Event.body
  cases e.level <;> rfl

/-- The lines of a log that are marked as warnings. -/
def warnLines (log : Text) : List Text := (log.splitOn '\n').filter fun l => warnMark.isPrefixOf l

theorem warnLines_logText {es : List Event} (h : ∀ e ∈ es, '\n' ∉ e.message) :
    warnLines (logText es) = (warnings es).map Event.body := by
  rw [warnLines, splitOn_logText h, List.filter_append, List.filter_map, warnings]
  have hbody : (fun l => warnMark.isPrefixOf l) ∘ Event.body = fun e => decide (e.level = .warn) := by
    funext e
    exact isPrefixOf_body e
  rw [hbody]
  exact List.append_nil _

/-- **Every diagnostic is logged as a warning, once and in order.**  The warnings among the events
of a pass are those of the diagnostics, and the lines of its log that are marked as warnings say
what these have to say. -/
theorem warnings_mirror_diagnostics (s : Settings) (t : Text) :
    warnings (reorder s t).events = (reorder s t).report.diagnostics.map Diagnostic.warning ∧
      warnLines (logText (reorder s t).events) = (reorder s t).report.diagnostics.map fun d =>
        warnMark ++ d.warning.message.flatMap Event.shown := by
  refine ⟨warnings_reorder s t, ?_⟩
  rw [warnLines_logText (not_mem_message s t), warnings_reorder, List.map_map]
  refine List.map_congr_left fun d _ => ?_
  rcases d with _ | _ | ⟨_, _, _, _ | _ | _⟩ <;> rfl

example : warnLines (logText (reorder overlappingSettings unsortedRules).events)
    = [" WARN Replacing `mut e: Env` with the plain env parameter".toList,
      " WARN Rule `b` at line 5 not rewritten: `1` is not a `name: Type` parameter".toList] := by
  decide +kernel

end RuleFormat
