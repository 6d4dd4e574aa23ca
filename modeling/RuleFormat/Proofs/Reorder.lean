import Mathlib.Data.List.Forall2
import RuleFormat.Proofs.Layout
import RuleFormat.Proofs.Scan
import RuleFormat.Reorder

/-!
# What a pass does to a text

A pass puts a header in the place of each header whose parameters can be read, `Header.reordered`,
and copies all other segments (`text_reorder`).  The new headers are valid where the old ones were
(`Header.IsValid.reordered`), so that a text without malformed headers is taken apart, after the
pass, into the new segments (`segments_reorder`); and its line ending is the same as before
(`lineEnding_reorder`).
-/

namespace RuleFormat

/-! ## Reading parameters -/

theorem read_text {f : Text} {p : Parameter} (h : Parameter.read f = .ok p) : p.text = f := by
  unfold Parameter.read at h
  split at h
  · cases h
  · cases h
  · cases h
    rfl

theorem readAll_eq_ok_iff {fs : List Text} {ps : List Parameter} :
    Parameter.readAll fs = .ok ps ↔ List.Forall₂ (fun f p => Parameter.read f = .ok p) fs ps := by
  induction fs generalizing ps with
  | nil =>
    rw [List.forall₂_nil_left_iff, Parameter.readAll]
    exact ⟨fun h => (Except.ok.inj h).symm, fun h => by rw [h]⟩
  | cons f fs ih =>
    rw [List.forall₂_cons_left_iff, Parameter.readAll]
    constructor
    · intro h
      cases hp : Parameter.read f with
      | error e => simp [hp] at h
      | ok p =>
        simp only [hp] at h
        obtain ⟨qs, hqs, rfl⟩ := map_eq_ok h
        exact ⟨p, qs, rfl, ih.1 hqs, rfl⟩
    · rintro ⟨p, qs, hp, hqs, rfl⟩
      simp only [hp, ih.2 hqs]
      rfl

theorem readAll_eq_error_iff {fs : List Text} :
    (∃ e, Parameter.readAll fs = .error e) ↔ ∃ f ∈ fs, ∃ e, Parameter.read f = .error e := by
  induction fs with
  | nil => simp [Parameter.readAll]
  | cons f fs ih =>
    rw [Parameter.readAll]
    cases hp : Parameter.read f with
    | error e => simp [hp]
    | ok p =>
      cases hfs : Parameter.readAll fs with
      | error e => simpa [hp, hfs, Except.map] using ih
      | ok ps => simpa [hp, hfs, Except.map] using ih

theorem map_text_of_readAll {fs : List Text} {ps : List Parameter}
    (h : Parameter.readAll fs = .ok ps) : ps.map (·.text) = fs := by
  rw [readAll_eq_ok_iff] at h
  induction h with
  | nil => rfl
  | cons hp _ ih => rw [List.map_cons, read_text hp, ih]

theorem read_text_of_readAll {fs : List Text} {ps : List Parameter}
    (h : Parameter.readAll fs = .ok ps) : ∀ p ∈ ps, Parameter.read p.text = .ok p := by
  rw [readAll_eq_ok_iff] at h
  induction h with
  | nil => simp
  | cons hp _ ih =>
    intro p hmem
    rcases List.mem_cons.1 hmem with rfl | hmem
    · rwa [read_text hp]
    · exact ih p hmem

theorem readAll_map_text {ps : List Parameter} (h : ∀ p ∈ ps, Parameter.read p.text = .ok p) :
    Parameter.readAll (ps.map (·.text)) = .ok ps := by
  rw [readAll_eq_ok_iff, List.forall₂_map_left_iff, List.forall₂_same]
  exact h

theorem exists_readAll {fs : List Text} (h : ∀ f ∈ fs, ∃ p, Parameter.read f = .ok p) :
    ∃ ps, Parameter.readAll fs = .ok ps := by
  cases hps : Parameter.readAll fs with
  | ok ps => exact ⟨ps, rfl⟩
  | error e =>
    obtain ⟨f, hf, e', he⟩ := readAll_eq_error_iff.1 ⟨e, hps⟩
    obtain ⟨p, hp⟩ := h f hf
    rw [he] at hp
    cases hp

/-- Whether a text reads as a parameter that passes a test. -/
def readsAs (test : Parameter → Bool) (f : Text) : Bool :=
  match Parameter.read f with
  | .ok p => test p
  | .error _ => false

theorem readsAs_eq {f : Text} {p : Parameter} (h : Parameter.read f = .ok p)
    (test : Parameter → Bool) : readsAs test f = test p := by
  rw [readsAs, h]

theorem exists_read_iff {f : Text} :
    (∃ p, Parameter.read f = .ok p) ↔ readsAs (fun _ => true) f = true := by
  rw [readsAs]
  cases Parameter.read f <;> simp

/-- The environment parameter in its plain form. -/
def envParameter : Parameter := ⟨Parameter.envText, Parameter.envName, Parameter.envType⟩

theorem read_envText : Parameter.read Parameter.envText = .ok envParameter := rfl

theorem isPlainEnv_envParameter : envParameter.isPlainEnv = true := by decide

/-! ## Headers in order -/

/-- The header that a pass puts in the place of a header. -/
def Header.reordered (s : Settings) (newline : Text) (h : Header) : Header :=
  match Parameter.readAll h.fragments with
  | .error _ => h
  | .ok ps => writtenHeader s.layout newline h.opening.name (sortParameters s.tables s.policy ps)

/-- The segment that a pass puts in the place of a segment. -/
def Segment.reordered (s : Settings) (newline : Text) : Segment → Segment
  | .header h => .header (h.reordered s newline)
  | seg => seg

variable {s : Settings} {newline : Text}

theorem Header.reordered_of_ok {h : Header} {ps : List Parameter}
    (hps : Parameter.readAll h.fragments = .ok ps) :
    h.reordered s newline
      = writtenHeader s.layout newline h.opening.name (sortParameters s.tables s.policy ps) := by
  rw [Header.reordered, hps]

theorem Header.reordered_of_error {h : Header} {e : ParameterFault}
    (he : Parameter.readAll h.fragments = .error e) : h.reordered s newline = h := by
  rw [Header.reordered, he]

theorem Header.name_reordered (h : Header) :
    (h.reordered s newline).opening.name = h.opening.name := by
  cases hps : Parameter.readAll h.fragments with
  | error e => rw [Header.reordered_of_error hps]
  | ok ps => rw [Header.reordered_of_ok hps, writtenHeader]

theorem text_step (line : Nat) (seg : Segment) :
    (step s newline line seg).text = (seg.reordered s newline).text := by
  cases seg with
  | plain c => rfl
  | malformed o f => rfl
  | header h =>
    rw [step, Segment.reordered, Segment.text]
    cases hps : Parameter.readAll h.fragments with
    | error e => rw [Header.reordered_of_error hps]; rfl
    | ok ps => rw [Header.reordered_of_ok hps, text_writtenHeader]; rfl

theorem IsFragment.of_sortParameters {h : Header} (hh : h.IsValid) {ps : List Parameter}
    (hps : Parameter.readAll h.fragments = .ok ps) (t : Tables) (policy : Policy) :
    ∀ f ∈ (sortParameters t policy ps).texts, IsFragment f := by
  intro f hf
  obtain ⟨p, hp, rfl⟩ := List.mem_map.1 hf
  have hmem : p.text ∈ ps.map (·.text) := List.mem_map_of_mem (mem_kept t policy ps hp).1
  rw [map_text_of_readAll hps] at hmem
  exact isFragment_of_readBlock hh.block hmem

/-- A header in order can be read back. -/
theorem Header.IsValid.reordered {h : Header} (hh : h.IsValid) (hnl : IsLineEnding newline) :
    (h.reordered s newline).IsValid := by
  cases hps : Parameter.readAll h.fragments with
  | error e => rwa [Header.reordered_of_error hps]
  | ok ps =>
    rw [Header.reordered_of_ok hps]
    exact isValid_writtenHeader hnl hh.opening.name_ne_nil hh.opening.name_word
      (IsFragment.of_sortParameters hh hps _ _)

/-- Reading the parameters of a header in order gives those that were kept. -/
theorem readAll_reordered {h : Header} {ps : List Parameter}
    (hps : Parameter.readAll h.fragments = .ok ps) :
    Parameter.readAll (h.reordered s newline).fragments
      = .ok (envParameter :: (sortParameters s.tables s.policy ps).kept) := by
  rw [Header.reordered_of_ok hps]
  show Parameter.readAll ((envParameter :: _).map (·.text)) = _
  refine readAll_map_text fun p hp => ?_
  rcases List.mem_cons.1 hp with rfl | hp
  · exact read_envText
  · exact read_text_of_readAll hps p (mem_kept _ _ _ hp).1

/-- Putting a header in order a second time changes nothing. -/
theorem Header.reordered_reordered (h : Header) :
    (h.reordered s newline).reordered s newline = h.reordered s newline := by
  cases hps : Parameter.readAll h.fragments with
  | error e => rw [Header.reordered_of_error hps, Header.reordered_of_error hps]
  | ok ps =>
    rw [Header.reordered_of_ok (readAll_reordered hps),
      sortParameters_kept _ _ _ isPlainEnv_envParameter, Header.reordered_of_ok hps]
    rfl

theorem Segment.reordered_reordered (seg : Segment) :
    (seg.reordered s newline).reordered s newline = seg.reordered s newline := by
  cases seg with
  | header h => rw [Segment.reordered, Segment.reordered, h.reordered_reordered]
  | _ => rfl

/-! ## The steps of a pass -/

theorem steps_append (line : Nat) (ss us : List Segment) :
    steps s newline line (ss ++ us)
      = steps s newline line ss ++ steps s newline (line + lineFeeds (written ss)) us := by
  induction ss generalizing line with
  | nil => rfl
  | cons seg ss ih =>
    rw [List.cons_append, steps, steps, ih, List.cons_append, written_cons]
    simp [lineFeeds, Nat.add_assoc]

theorem mem_steps {line : Nat} {ss : List Segment} {st : Step}
    (h : st ∈ steps s newline line ss) : ∃ line', ∃ seg ∈ ss, st = step s newline line' seg := by
  induction ss generalizing line with
  | nil => cases h
  | cons seg ss ih =>
    rcases List.mem_cons.1 h with rfl | h
    · exact ⟨line, seg, by simp, rfl⟩
    · obtain ⟨line', seg', hseg, hst⟩ := ih h
      exact ⟨line', seg', by simp [hseg], hst⟩

/-- What the steps say no matter in which lines they stand. -/
theorem map_steps {α : Type} {f : Step → α} {g : Segment → α}
    (h : ∀ line seg, f (step s newline line seg) = g seg) (line : Nat) (ss : List Segment) :
    (steps s newline line ss).map f = ss.map g := by
  induction ss generalizing line with
  | nil => rfl
  | cons seg ss ih => rw [steps, List.map_cons, List.map_cons, h, ih]

/-! ## The sum of the steps -/

/-- The counts of a step are those of the rule that it sums up. -/
structure Step.Counts (st : Step) : Prop where
  matched : st.matched = st.rule.toList.length
  changed : st.changed = st.rule.toList.countP (·.changed)

theorem counts_step (line : Nat) (seg : Segment) : (step s newline line seg).Counts := by
  cases seg with
  | plain c => exact ⟨rfl, rfl⟩
  | malformed o f => exact ⟨rfl, rfl⟩
  | header h =>
    rw [step]
    cases Parameter.readAll h.fragments with
    | error e => exact ⟨rfl, rfl⟩
    | ok ps => exact ⟨rfl, by simp [Step.replace, List.countP_cons]⟩

/-- What steps come to, one part at a time.  The counts are those of the rules. -/
def Reordered.sum (sts : List Step) : Reordered :=
  let rules := sts.filterMap (·.rule)
  let diagnostics := sts.flatMap (·.diagnostics)
  let idle := rules.isEmpty && diagnostics.isEmpty
  { text := sts.flatMap (·.text)
    report := {
      matched := rules.length
      changed := rules.countP (·.changed)
      rules
      diagnostics := diagnostics ++ if idle then [.noMatches] else [] }
    events := sts.flatMap (·.events) ++ if idle then [.nothingMatched] else [] }

/-- What steps that count come to before they are closed. -/
theorem Reordered.foldr_before {sts : List Step} (h : ∀ st ∈ sts, st.Counts) :
    sts.foldr before empty =
      { text := sts.flatMap (·.text)
        report := {
          matched := (sts.filterMap (·.rule)).length
          changed := (sts.filterMap (·.rule)).countP (·.changed)
          rules := sts.filterMap (·.rule)
          diagnostics := sts.flatMap (·.diagnostics) }
        events := sts.flatMap (·.events) } := by
  induction sts with
  | nil => rfl
  | cons st sts ih =>
    obtain ⟨hmatched, hchanged⟩ := h st List.mem_cons_self
    have hrules : (st :: sts).filterMap (·.rule) = st.rule.toList ++ sts.filterMap (·.rule) := by
      cases hrule : st.rule <;> simp [hrule]
    rw [List.foldr_cons, ih fun st' hst' => h st' (List.mem_cons_of_mem _ hst'), before, hrules,
      hmatched, hchanged, List.length_append, List.countP_append]
    rfl

theorem Reordered.ofSteps_eq_sum {sts : List Step} (h : ∀ st ∈ sts, st.Counts) :
    ofSteps sts = sum sts := by
  rw [ofSteps, foldr_before h, close, sum]
  cases sts.filterMap (·.rule) with
  | nil => cases sts.flatMap (·.diagnostics) <;> simp [Report.hasDiagnostics]
  | cons r rules => simp

theorem reorder_eq_sum (s : Settings) (t : Text) :
    reorder s t = .sum (steps s (lineEnding t) 1 (segments t)) := by
  refine Reordered.ofSteps_eq_sum fun st hst => ?_
  obtain ⟨line, seg, -, rfl⟩ := mem_steps hst
  exact counts_step line seg

theorem flatMap_text_steps (line : Nat) (ss : List Segment) :
    (steps s newline line ss).flatMap (·.text) = written (ss.map (·.reordered s newline)) := by
  rw [written, List.flatMap_map, List.flatMap_def, List.flatMap_def, map_steps text_step]

theorem text_reorder (s : Settings) (t : Text) :
    (reorder s t).text = written ((segments t).map (·.reordered s (lineEnding t))) := by
  rw [reorder_eq_sum]
  exact flatMap_text_steps 1 (segments t)

/-! ## The segments of a pass -/

theorem Segment.head?_reordered (seg : Segment) :
    (seg.reordered s newline).text.head? = seg.text.head? := by
  cases seg <;> rfl

theorem head?_written_reordered (ss : List Segment) :
    (written (ss.map (·.reordered s newline))).head? = (written ss).head? := by
  induction ss with
  | nil => rfl
  | cons seg ss ih =>
    rw [List.map_cons, written_cons, written_cons, List.head?_append, List.head?_append, ih,
      Segment.head?_reordered]

/-- Behind a place, a pass leaves everything as it is up to the next `#`. -/
theorem prefix_of_prefix_reordered {ss : List Segment} {p : Text} (hp : '#' ∉ p)
    (h : p <+: written (ss.map (·.reordered s newline))) : p <+: written ss := by
  induction ss generalizing p with
  | nil => exact h
  | cons seg ss ih =>
    cases p with
    | nil => exact List.nil_prefix
    | cons c p =>
      rw [List.map_cons, written_cons] at h
      rw [written_cons]
      cases seg with
      | plain d =>
        obtain ⟨rfl, htail⟩ := List.cons_prefix_cons.1 h
        have hrest := ih (fun hmem => hp (List.mem_cons_of_mem _ hmem)) htail
        exact List.cons_prefix_cons.2 ⟨rfl, hrest⟩
      | malformed o f =>
        obtain ⟨rfl, -⟩ := List.cons_prefix_cons.1 h
        exact absurd List.mem_cons_self hp
      | header g =>
        obtain ⟨rfl, -⟩ := List.cons_prefix_cons.1 h
        exact absurd List.mem_cons_self hp

/-- The segments in order are coherent again, if the malformed headers among them stay malformed. -/
theorem Coherent.map_reordered {ss : List Segment} (hss : Coherent ss)
    (hstay : ∀ pre o f post, ss = pre ++ .malformed o f :: post → Coherent post →
      readHeader o (written post) = .error f →
      readHeader o (written (post.map (·.reordered s newline))) = .error f)
    (hnl : IsLineEnding newline) : Coherent (ss.map (·.reordered s newline)) := by
  induction ss with
  | nil => trivial
  | cons seg ss ih =>
    refine ⟨?_, ih hss.2 fun pre o f post hsplit =>
      hstay (seg :: pre) o f post (by rw [hsplit]; rfl)⟩
    have hlead := hss.1
    cases seg with
    | plain c =>
      exact readOpening?_cons_eq_none_of_prefix hlead fun p hp h => prefix_of_prefix_reordered hp h
    | malformed o f => exact ⟨hlead.1, hstay [] o f ss rfl hss.2 hlead.2⟩
    | header h => exact Header.IsValid.reordered hlead hnl

/-- A text without malformed headers is taken apart, after a pass, into its segments in order. -/
theorem segments_reorder {t : Text} (hfine : ∀ i ∈ scan t, i.found.isMalformed = false) :
    segments (reorder s t).text = (segments t).map (·.reordered s (lineEnding t)) := by
  have hnone := forall_isMalformed_segments_iff.2 hfine
  refine segments_eq_iff.2 ⟨text_reorder s t, ?_⟩
  refine (coherent_segments t).2.map_reordered (fun pre o f post hsplit => ?_)
    (isLineEnding_lineEnding t)
  cases hnone (.malformed o f) (by simp [hsplit])

/-! ## The line ending of a pass -/

theorem Header.getLast?_text (h : Header) : h.text.getLast? = some '{' := List.getLast?_concat

theorem Segment.getLast?_reordered (seg : Segment) :
    (seg.reordered s newline).text.getLast? = seg.text.getLast? := by
  cases seg with
  | plain c => rfl
  | malformed o f => rfl
  | header h => exact (h.reordered s newline).getLast?_text.trans h.getLast?_text.symm

/-- A segment that agrees with the line ending agrees with it in order, too. -/
theorem Segment.Leads.hasReturnFeed_reordered {seg : Segment} {rest : Text} (hseg : seg.Leads rest)
    (hnl : IsLineEnding newline) (heq : hasReturnFeed seg.text = hasReturnFeed newline) :
    hasReturnFeed (seg.reordered s newline).text = hasReturnFeed newline := by
  cases seg with
  | plain c => exact heq
  | malformed o f => exact heq
  | header h =>
    have hh : h.IsValid := hseg
    rw [Segment.reordered, Segment.text]
    cases hps : Parameter.readAll h.fragments with
    | error e =>
      rw [Header.reordered_of_error hps]
      exact heq
    | ok ps =>
      rw [Header.reordered_of_ok hps, text_writtenHeader]
      exact hasReturnFeed_writeHeader hnl hh.opening.name_word
        (IsFragment.of_sortParameters hh hps _ _)

theorem hasReturnFeed_written_reordered {ss : List Segment} (hss : Coherent ss)
    (hnl : IsLineEnding newline) (heq : hasReturnFeed (written ss) = hasReturnFeed newline) :
    hasReturnFeed (written (ss.map (·.reordered s newline))) = hasReturnFeed newline := by
  induction ss with
  | nil => exact heq
  | cons seg ss ih =>
    -- Both texts meet in the same two characters, so that only what is inside the parts counts.
    rw [written_cons, hasReturnFeed_append] at heq
    rw [List.map_cons, written_cons, hasReturnFeed_append, Segment.getLast?_reordered,
      head?_written_reordered]
    have hseg := hss.1.hasReturnFeed_reordered (s := s) hnl
    have hrest := ih hss.2
    cases hv : hasReturnFeed newline with
    | false =>
      rw [hv] at heq hseg hrest
      simp only [Bool.or_eq_false_iff] at heq ⊢
      exact ⟨⟨hseg heq.1.1, heq.1.2⟩, hrest heq.2⟩
    | true =>
      rw [hv] at heq hseg hrest
      simp only [Bool.or_eq_true] at heq ⊢
      exact heq.imp (Or.imp_left hseg) hrest

theorem hasReturnFeed_reorder (s : Settings) (t : Text) :
    hasReturnFeed (reorder s t).text = hasReturnFeed t := by
  rw [text_reorder, ← hasReturnFeed_lineEnding t]
  refine hasReturnFeed_written_reordered (coherent_segments t).2 (isLineEnding_lineEnding t) ?_
  rw [written_segments, hasReturnFeed_lineEnding]

/-- A pass keeps the line ending of a text. -/
theorem lineEnding_reorder (t : Text) : lineEnding (reorder s t).text = lineEnding t := by
  rw [lineEnding, lineEnding, hasReturnFeed_reorder]

/-! ## Rules to try a pass on -/

/-- Two rules in lines that end in different ways.  The first has an environment parameter that is
not plain and a ghost parameter twice; a parameter of the second cannot be read. -/
def unsortedRules : Text :=
  "//\r\n#[rule]\r\npub fn [< $f _a >](mut e: Env, b: u8 /* , */, role_name: Symbol, b: u8)".toList
    ++ " \x7b\r\n\x7d\n#[rule] pub fn [< $f _b >](1, \"a, (\") \x7b \x7d".toList

/-- Settings whose ghost keys overlap. -/
def overlappingSettings : Settings where
  tables := ⟨Tables.builtin.parametric, [⟨['b'], none⟩, Tables.typed "b" "u8"]⟩
  layout := .builtin
  policy := .keep

end RuleFormat
