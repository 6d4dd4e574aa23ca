import Mathlib.Data.List.Basic
import Mathlib.Tactic.SplitIfs
import RuleFormat.Proofs.Run
import RuleFormat.Proofs.Warnings
import RuleFormat.Report

/-!
# One line for each fact

A report for a terminal shows what stands in the file: names of rules, texts of parameters, and
reasons why a header cannot be read.  None of it can break a line.  A name is made of word
characters, a parameter is a fragment and has no white space but blanks, and a reason quotes a
fragment or a bracket (`isPlain_step`).  So the report of any run has three lines of its own, one
for each rule that changes and one for each diagnostic (`terminal_one_line_each`).
-/

namespace RuleFormat

variable {s : Settings} {newline : Text}

/-! ## What a pass reports -/

/-- A report in which no name and no diagnostic has a line feed. -/
structure Report.IsPlain (r : Report) : Prop where
  rules : ∀ rule ∈ r.rules, '\n' ∉ rule.name
  diagnostics : ∀ d ∈ r.diagnostics, '\n' ∉ d.message

/-- A step that adds nothing with a line feed to a report. -/
structure Step.IsPlain (st : Step) : Prop where
  rule : ∀ rule, st.rule = some rule → '\n' ∉ rule.name
  diagnostics : ∀ d ∈ st.diagnostics, '\n' ∉ d.message

theorem not_mem_ruleAtLine {rule : Text} (hrule : '\n' ∉ rule) (line : Nat) :
    '\n' ∉ ruleAtLine rule line := by
  unfold ruleAtLine
  simp only [quoted, List.mem_append, hrule, not_mem_decimal, or_false]
  decide

theorem isPlain_leave {t rule reason : Text} (hrule : '\n' ∉ rule) (hreason : '\n' ∉ reason)
    (line : Nat) : (Step.leave t rule line reason).IsPlain where
  rule _ h := nomatch h
  diagnostics d hd := by
    obtain rfl := List.mem_singleton.1 hd
    have hhead := not_mem_ruleAtLine hrule line
    unfold Diagnostic.message
    simp only [List.mem_append, hreason, hhead, or_false, false_or]
    decide

theorem isPlain_replace {h : Header} (hh : h.IsValid) {ps : List Parameter}
    (hps : Parameter.readAll h.fragments = .ok ps) (line : Nat) :
    (Step.replace s newline line h ps).IsPlain where
  rule rule hrule := by
    obtain rfl := Option.some.inj hrule
    exact not_mem_of_isWord hh.opening.name_word
  diagnostics d hd := by
    obtain ⟨dropped, hdropped, rfl⟩ := List.mem_map.1 hd
    have hrule := not_mem_ruleAtLine (not_mem_of_isWord hh.opening.name_word) line
    have hparameter := hh.not_mem_fragment _ (mem_of_mem_dropped hps hdropped)
    have hwords : '\n' ∉ dropped.reason.words := by cases dropped.reason <;> decide
    unfold Diagnostic.message
    simp only [quoted, List.mem_append, hrule, hparameter, hwords, or_false, false_or]
    decide

/-- No step adds a line feed, whatever its segment holds. -/
theorem isPlain_step {seg : Segment} {rest : Text} (hseg : seg.Leads rest) (line : Nat) :
    (step s newline line seg).IsPlain := by
  cases seg with
  | plain c => exact ⟨fun _ h => (nomatch h), fun _ h => (nomatch h)⟩
  | malformed o fault =>
    exact isPlain_leave (not_mem_of_isWord hseg.1.name_word)
      (HeaderFault.not_mem_message hseg.2) line
  | header h =>
    have hh : h.IsValid := hseg
    rw [step]
    cases hps : Parameter.readAll h.fragments with
    | error fault =>
      exact isPlain_leave (not_mem_of_isWord hh.opening.name_word)
        (ParameterFault.not_mem_message hps hh.not_mem_fragment) line
    | ok ps => exact isPlain_replace hh hps line

theorem isPlain_of_mem_steps {ss : List Segment} (hss : Coherent ss) {line : Nat} {st : Step}
    (hst : st ∈ steps s newline line ss) : st.IsPlain := by
  obtain ⟨line', seg, hseg, rfl⟩ := mem_steps hst
  obtain ⟨pre, post, rfl⟩ := List.append_of_mem hseg
  exact isPlain_step hss.leads line'

/-- No pass reports a line feed. -/
theorem isPlain_report_reorder (s : Settings) (t : Text) : (reorder s t).report.IsPlain where
  rules rule hrule := by
    rw [reorder_eq_sum] at hrule
    obtain ⟨st, hst, hsome⟩ := List.mem_filterMap.1 hrule
    exact (isPlain_of_mem_steps (coherent_segments t).2 hst).rule rule hsome
  diagnostics d hd := by
    rw [reorder_eq_sum] at hd
    rcases List.mem_append.1 hd with hd | hd
    · obtain ⟨st, hst, hd⟩ := List.mem_flatMap.1 hd
      exact (isPlain_of_mem_steps (coherent_segments t).2 hst).diagnostics d hd
    · split at hd
      · obtain rfl := List.mem_singleton.1 hd
        decide
      · cases hd

/-! ## The lines of a report -/

theorem lineFeeds_append (t u : Text) : lineFeeds (t ++ u) = lineFeeds t + lineFeeds u :=
  List.count_append

theorem lineFeeds_eq_zero {t : Text} (h : '\n' ∉ t) : lineFeeds t = 0 := List.count_eq_zero.2 h

theorem lineFeeds_flatMap {α : Type} {f : α → Text} {l : List α}
    (h : ∀ a ∈ l, lineFeeds (f a) = 1) : lineFeeds (l.flatMap f) = l.length := by
  induction l with
  | nil => rfl
  | cons a l ih =>
    obtain ⟨ha, hl⟩ := List.forall_mem_cons.1 h
    rw [List.flatMap_cons, lineFeeds_append, ha, ih hl, List.length_cons, Nat.add_comm]

theorem lineFeeds_styled {t : Text} (ht : '\n' ∉ t) (color : Bool) (style : Style) :
    lineFeeds (styled color style t) = 0 := by
  have hcode : '\n' ∉ style.code := by cases style <;> decide
  refine lineFeeds_eq_zero ?_
  unfold styled
  split
  · simp only [List.cons_append, List.mem_cons, List.mem_append, ht, hcode, or_false, false_or]
    decide
  · exact ht

theorem RuleSummary.lineFeeds_terminalLine {r : RuleSummary} (hname : '\n' ∉ r.name)
    (color : Bool) : lineFeeds (r.terminalLine color) = 1 := by
  have hmark := lineFeeds_styled (t := "~") (by decide) color .cyan
  have hdecimal := fun n => lineFeeds_eq_zero (not_mem_decimal n)
  unfold RuleSummary.terminalLine
  simp only [lineFeeds_append, hmark, hdecimal, lineFeeds_eq_zero hname]
  decide

theorem Diagnostic.lineFeeds_terminalLine {d : Diagnostic} (hd : '\n' ∉ d.message) (color : Bool) :
    lineFeeds (d.terminalLine color) = 1 := by
  have hmark := lineFeeds_styled (t := "warning:") (by decide) color .warning
  unfold Diagnostic.terminalLine
  simp only [lineFeeds_append, hmark, lineFeeds_eq_zero hd]
  decide

/-- The verdict is one line. -/
theorem Outcome.verdict_eq (color : Bool) (o : Outcome) :
    ∃ t, o.verdict color = t ++ ['\n'] ∧ lineFeeds t = 0 := by
  refine ⟨_, rfl, ?_⟩
  split_ifs
  · exact lineFeeds_styled (by decide) color .green
  · exact lineFeeds_styled (by decide) color .yellow
  · exact lineFeeds_styled (by decide) color .green

theorem Outcome.lineFeeds_terminalText {o : Outcome} (hpath : '\n' ∉ display o.path)
    (hreport : o.report.IsPlain) (color : Bool) :
    lineFeeds (o.terminalText color)
      = 3 + o.report.rules.countP (·.changed) + o.report.diagnostics.length := by
  have htitle := lineFeeds_styled (t := "Rule headers:") (by decide) color .bold
  have hdecimal := fun n => lineFeeds_eq_zero (not_mem_decimal n)
  have hrules := lineFeeds_flatMap (f := RuleSummary.terminalLine color)
    (l := o.report.rules.filter (·.changed)) fun r hr =>
      r.lineFeeds_terminalLine (hreport.rules r (List.mem_of_mem_filter hr)) color
  have hdiagnostics := lineFeeds_flatMap (f := Diagnostic.terminalLine color)
    (l := o.report.diagnostics) fun d hd =>
      d.lineFeeds_terminalLine (hreport.diagnostics d hd) color
  obtain ⟨verdict, hverdict, hfeeds⟩ := o.verdict_eq color
  have hfeed : lineFeeds ['\n'] = 1 := rfl
  have hblank : lineFeeds [' '] = 0 := rfl
  have hmatched : lineFeeds "  matched: ".toList = 0 := by decide
  have hchanged : lineFeeds "  changed: ".toList = 0 := by decide
  unfold Outcome.terminalText
  simp only [lineFeeds_append, htitle, hblank, lineFeeds_eq_zero hpath, hfeed, hmatched, hchanged,
    hdecimal, hrules, hdiagnostics, hverdict, hfeeds, List.countP_eq_length_filter]
  omega

theorem Outcome.getLast?_terminalText (o : Outcome) (color : Bool) :
    (o.terminalText color).getLast? = some '\n' := by
  obtain ⟨verdict, hverdict, -⟩ := o.verdict_eq color
  rw [Outcome.terminalText, hverdict, ← List.append_assoc, List.getLast?_concat]

/-! ## Paths as they are shown -/

/-- A character that has begun and cannot become one of a single byte. -/
def Begun.IsLong (g : Begun) : Prop :=
  0x80 ≤ (g.upper * 64 + (g.least - 0x80)) * Nat.pow 64 g.owed

theorem eq_ten_of_ofNat_eq {n : Nat} (h : Char.ofNat n = '\n') : n = 10 := by
  by_cases hvalid : n.isValidChar
  · rw [Char.ofNat, dif_pos hvalid] at h
    exact congrArg Char.toNat h
  · rw [Char.ofNat, dif_neg hvalid] at h
    exact absurd h (by decide)

/-- The first byte of a character is a line feed, or begins a character that is none. -/
theorem firstByte_lineFeed (b : UInt8) :
    (.char '\n' ∈ (firstByte b).1 → b = 10) ∧ ∀ g ∈ (firstByte b).2, g.IsLong := by
  unfold firstByte Begun.IsLong
  dsimp only
  split_ifs with hone
  all_goals simp
  · intro h
    exact UInt8.toNat_inj.1 (eq_ten_of_ofNat_eq h.symm)
  all_goals omega

theorem Begun.further_lineFeed {g : Begun} (hg : g.IsLong) (b : UInt8) :
    (.char '\n' ∈ (g.further b).1 → b = 10) ∧ ∀ g' ∈ (g.further b).2, g'.IsLong := by
  obtain ⟨hmem, hlong⟩ := firstByte_lineFeed b
  unfold Begun.further
  dsimp only
  split
  · rename_i hbounds
    have hupper : 0x80 ≤ (g.upper * 64 + (b.toNat - 0x80)) * Nat.pow 64 g.owed :=
      Nat.le_trans hg (Nat.mul_le_mul_right _ (by omega))
    split
    · rename_i howed
      rw [howed] at hupper
      refine ⟨fun h => ?_, fun _ h => by cases h⟩
      have := eq_ten_of_ofNat_eq (Decoded.char.inj (List.mem_singleton.1 h)).symm
      simp only [Nat.pow] at hupper
      omega
    · rename_i k howed
      refine ⟨fun h => (by cases h), fun g' hg' => ?_⟩
      obtain rfl := Option.some.inj hg'
      have hpow : Nat.pow 64 (k + 1) = 64 * Nat.pow 64 k := Nat.pow_succ'
      rw [howed, hpow, ← Nat.mul_assoc] at hupper
      rwa [Begun.IsLong, Nat.sub_self, Nat.add_zero]
  · refine ⟨fun h => ?_, hlong⟩
    rcases List.mem_cons.1 h with h | h
    · cases h
    · exact hmem h

theorem lineFeed_mem_decodeFrom {s : Option Begun} (hs : ∀ g ∈ s, g.IsLong) {bytes : Bytes}
    (h : .char '\n' ∈ decodeFrom s bytes) : 10 ∈ bytes := by
  induction bytes generalizing s with
  | nil => cases s <;> simp [decodeFrom] at h
  | cons b bytes ih =>
    have hstep : (.char '\n' ∈ (decodeByte s b).1 → b = 10) ∧ ∀ g ∈ (decodeByte s b).2, g.IsLong := by
      cases s with
      | none => exact firstByte_lineFeed b
      | some g => exact Begun.further_lineFeed (hs g rfl) b
    rw [decodeFrom_cons] at h
    rcases List.mem_append.1 h with h | h
    · exact List.mem_cons.2 (Or.inl (hstep.1 h).symm)
    · exact List.mem_cons_of_mem _ (ih hstep.2 h)

/-- A line feed is shown only where its byte stands. -/
theorem not_mem_display {bytes : Bytes} (h : 10 ∉ bytes) : '\n' ∉ display bytes := by
  intro hmem
  obtain ⟨c | stray, hdecoded, hshown⟩ := List.mem_map.1 hmem
  · obtain rfl : c = '\n' := hshown
    exact h (lineFeed_mem_decodeFrom (by simp) hdecoded)
  · exact absurd (show Char.ofNat 0xFFFD = '\n' from hshown) (by decide)

/-! ## The report of a run -/

section

variable {σ : Type} [Files (StateM σ)] {o : Options} {c : Config} {outcome : Outcome} {st st' : σ}
  {log log' : List Event}

/-- A run that does not fail reports on the file that it was asked for, and what one pass over some
content finds. -/
theorem exists_content_of_runs
    (hrun : (reorderFile o c : Action (StateM σ) Outcome).Runs log st (.ok outcome) log' st') :
    outcome.path = o.path ∧ ∃ content, outcome.report = (reorder c.settings content).report := by
  obtain ⟨content, _, _, -, hrun⟩ := hrun.exists_of_bind_ok
  obtain ⟨_, _, _, -, hrun⟩ := hrun.exists_of_bind_ok
  obtain ⟨_, _, _, -, hrun⟩ := hrun.exists_of_bind_ok
  dsimp only at hrun
  -- with strictness or without, what is left is to save the file
  split at hrun
  · obtain ⟨_, _, _, -, hrun⟩ := hrun.exists_of_bind_ok
    obtain ⟨_, _, _, -, hdone⟩ := hrun.exists_of_bind_ok
    obtain rfl := Except.ok.inj (congrArg (fun p => p.1.1) hdone)
    exact ⟨rfl, content, rfl⟩
  · obtain ⟨_, _, _, -, hdone⟩ := hrun.exists_of_bind_ok
    obtain rfl := Except.ok.inj (congrArg (fun p => p.1.1) hdone)
    exact ⟨rfl, content, rfl⟩

end

/-- **A report for a terminal has one line for each fact.**  Over any files, the report of a run
that does not fail on a path without line feeds has three lines, one for each rule that changes and
one for each diagnostic, and ends with the last of them, whatever stands in the file. -/
theorem terminal_one_line_each {σ : Type} [Files (StateM σ)] (st st' : σ) (log log' : List Event)
    (o : Options) (c : Config) (outcome : Outcome) (color : Bool) (hpath : 10 ∉ o.path)
    (hrun : (reorderFile o c : Action (StateM σ) Outcome).Runs log st (.ok outcome) log' st') :
    ∃ t, outcome.render color .terminal = some t ∧
      lineFeeds t = 3 + outcome.report.rules.countP (·.changed) + outcome.report.diagnostics.length ∧
      t.getLast? = some '\n' := by
  obtain ⟨hsame, content, hreport⟩ := exists_content_of_runs hrun
  have hplain : outcome.report.IsPlain := hreport ▸ isPlain_report_reorder c.settings content
  have hshown : '\n' ∉ display outcome.path := hsame ▸ not_mem_display hpath
  exact ⟨_, rfl, outcome.lineFeeds_terminalText hshown hplain color,
    outcome.getLast?_terminalText color⟩

/-- Rules with line feeds in a string literal, in a comment, between the tokens of a parameter that
cannot be read, and in front of an unbalanced bracket. -/
def tornRules : Text :=
  "#[rule]\npub fn [< $f _a >](\n#[doc = \"\n\"] b:\nu8 /*\n*/) \x7b\x7d\n".toList
    ++ "#[rule] pub fn [< $f _b >](1\n+ 1) \x7b#[rule] pub fn [< $f _c >](\n]".toList

/-- A store with these rules in its only file. -/
def tornStore : Store := Store.empty.withFile "a.rs" tornRules

theorem terminal_one_line_each_tornStore :
    10 ∉ utf8 "a.rs" ∧ ∃ log outcome st t,
      (reorderFile ⟨"a.rs", .check, false⟩ {} : Action (StateM Store) Outcome).Runs [] tornStore
        (.ok outcome) log st ∧
      outcome.render true .terminal = some t ∧ lineFeeds t = 7 := by
  have hget : tornStore.get? "a.rs" = some tornRules := by decide +kernel
  have hread := tornStore.ends_read "a.rs"
  rw [hget] at hread
  have hends := ends_reorderFile (o := ⟨"a.rs", .check, false⟩) (c := {}) hread
    (tornStore.saves _ _ tornRules)
  obtain ⟨log, hrun⟩ := hends []
  have hcounts : (reorder ({} : Config).settings tornRules).report.rules.countP (·.changed) = 1 ∧
      (reorder ({} : Config).settings tornRules).report.diagnostics.length = 3 := by
    decide +kernel
  have hpath : 10 ∉ utf8 "a.rs" := by decide
  obtain ⟨t, hrender, hlines, -⟩ := terminal_one_line_each _ _ _ _ _ _ _ true hpath hrun
  refine ⟨hpath, log, _, _, t, hrun, hrender, hlines.trans ?_⟩
  rw [runOutcome]
  dsimp only
  rw [hcounts.1, hcounts.2]

end RuleFormat
