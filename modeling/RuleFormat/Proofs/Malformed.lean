import RuleFormat.Proofs.Reorder
import RuleFormat.Proofs.Turns

/-!
# Malformed headers after a pass

A malformed header is left as it is, but what follows it is not: the reader of its block runs on
over later headers, which the same pass puts in order.  Where the reader comes to such a header in
code, this does not matter (`Header.IsValid.turns`).  Where it comes there inside of a comment or of
a string literal, the new text of the header can end the comment or the literal in another place, or
not at all.

So a text is `Untangled` when no reader of a malformed header comes to a header that changes in any
other mode than code.  In such a text the malformed headers stay malformed, for the same reasons
(`malformed_stays`).  In a tangled one a second pass can put in order what the first one could not
read, and lose the headers in it (`tangledRules_second_pass`).
-/

namespace RuleFormat

variable {s : Settings} {newline : Text}

/-- No reader of a malformed header comes to a header that changes but in code. -/
def Untangled (s : Settings) (newline : Text) (ss : List Segment) : Prop :=
  ∀ pre o fault mid h post, ss = pre ++ .malformed o fault :: (mid ++ .header h :: post) →
    (h.reordered s newline).text ≠ h.text →
    ∀ m inner, Turns .code [] (written mid) ['#'] m inner → m = .code

/-! ## The fault of a malformed header -/

theorem head?_text_header (h : Header) (t : Text) : (h.text ++ t).head? = some '#' := rfl

/-- A reader that comes to the headers that change only in code finds the same fault after a pass.
The text `p` has been read already. -/
theorem faultFrom_reordered {ss : List Segment} (hss : Coherent ss) (hnl : IsLineEnding newline)
    {m : Mode} {inner : List Bracket} {p : Text}
    (hcode : ∀ mid h post, ss = mid ++ .header h :: post → (h.reordered s newline).text ≠ h.text →
      ∀ m' inner', Turns m inner (p ++ written mid) ['#'] m' inner' → m' = .code) :
    faultFrom m inner (p ++ written (ss.map (·.reordered s newline)))
      = faultFrom m inner (p ++ written ss) := by
  induction ss generalizing m inner p with
  | nil => rfl
  | cons seg ss ih =>
    rw [List.map_cons, written_cons, written_cons]
    by_cases hsame : (seg.reordered s newline).text = seg.text
    · -- the segment has been read like the text in front of it
      rw [hsame, ← List.append_assoc, ← List.append_assoc]
      refine ih hss.2 fun mid h post hsplit hne m' inner' hturns => ?_
      refine hcode (seg :: mid) h post (by rw [hsplit]; rfl) hne m' inner' ?_
      rwa [written_cons, ← List.append_assoc]
    · cases seg with
      | plain c => exact absurd rfl hsame
      | malformed o f => exact absurd rfl hsame
      | header h =>
        have hh : h.IsValid := hss.1
        rw [Segment.reordered, Segment.text, Segment.text]
        rcases turns_or_settled m inner p with ⟨m₁, inner₁, hp⟩ | ⟨fault, hfault⟩
        · obtain rfl : m₁ = .code :=
            hcode [] h ss rfl hsame m₁ inner₁ (by rwa [written_nil, List.append_nil])
          have hhash : ∀ t : Text, t.head? = some '#' → Turns m inner p t .code inner₁ :=
            fun t ht => hp.of_head fun d hd => Or.inl (ht.symm.trans hd)
          have hnew := (hh.reordered hnl (s := s)).turns inner₁
          have hold := hh.turns inner₁
          rw [faultFrom_turns (hhash _ (head?_text_header _ _)), faultFrom_turns (hnew _),
            faultFrom_turns (hhash _ (head?_text_header _ _)), faultFrom_turns (hold _)]
          refine ih (p := []) hss.2 fun mid h' post hsplit hne m' inner' hturns => ?_
          refine hcode (.header h :: mid) h' post (by rw [hsplit]; rfl) hne m' inner' ?_
          rw [written_cons]
          exact (hhash _ rfl).append ((hold _).append hturns)
        · rw [hfault _ (head?_text_header _ _), hfault _ (head?_text_header _ _)]

/-- The segments in order are coherent again, if they are untangled. -/
theorem Coherent.map_reordered_of_untangled {ss : List Segment} (hss : Coherent ss)
    (hfree : Untangled s newline ss) (hnl : IsLineEnding newline) :
    Coherent (ss.map (·.reordered s newline)) := by
  refine hss.map_reordered (fun pre o f post hsplit hpost hfault => ?_) hnl
  have hsame := faultFrom_reordered (s := s) (p := []) hpost hnl fun mid h rest hmid =>
    hfree pre o f mid h rest (by rw [hsplit, hmid])
  rw [List.nil_append, List.nil_append] at hsame
  rw [readHeader_eq_error_iff, hsame, ← readHeader_eq_error_iff]
  exact hfault

/-! ## Texts without comments and string literals -/

theorem Turn.eq_code {raw ahead : Text} {m' : Mode} {inner inner' : List Bracket}
    (h : Turn .code inner raw ahead m' inner') (hslash : '/' ∉ raw) (hquote : '"' ∉ raw) :
    m' = .code := by
  cases h with
  | cut => rfl
  | keep hk =>
    cases hk with
    | quote => exact absurd List.mem_cons_self hquote
    | _ => rfl
  | hide hh => cases hh <;> exact absurd List.mem_cons_self hslash

theorem Turns.eq_code {t ahead : Text} {m m' : Mode} {inner inner' : List Bracket}
    (h : Turns m inner t ahead m' inner') (hm : m = .code) (hslash : '/' ∉ t) (hquote : '"' ∉ t) :
    m' = .code := by
  induction h with
  | nil => exact hm
  | cons hturn _ ih =>
    subst hm
    rw [List.mem_append, not_or] at hslash hquote
    exact ih (hturn.eq_code hslash.1 hquote.1) hslash.2 hquote.2

/-- A text that can hold neither comments nor string literals is untangled. -/
theorem untangled_of_not_mem {t : Text} (hslash : '/' ∉ t) (hquote : '"' ∉ t) :
    Untangled s newline (segments t) := by
  intro pre o fault mid h post hsplit _ m inner hturns
  have hmem : ∀ c ∈ written mid, c ∈ t := by
    intro c hc
    rw [← written_segments t, hsplit]
    simp [hc]
  exact hturns.eq_code rfl (fun hc => hslash (hmem _ hc)) fun hc => hquote (hmem _ hc)

/-! ## What is said about malformed headers -/

/-- The rule and the reason of a diagnostic that says that a header is left as it is. -/
def Diagnostic.malformed? : Diagnostic → Option (Text × Text)
  | .malformed rule _ reason => some (rule, reason)
  | _ => none

/-- The rules that a pass leaves as they are, with the reasons, in order. -/
def Report.malformed (r : Report) : List (Text × Text) :=
  r.diagnostics.filterMap Diagnostic.malformed?

/-- The rule and the reason for which a pass leaves a segment as it is. -/
def Segment.complaint? : Segment → Option (Text × Text)
  | .plain _ => none
  | .malformed o fault => some (o.name, fault.message)
  | .header h =>
    match Parameter.readAll h.fragments with
    | .error fault => some (h.opening.name, fault.message)
    | .ok _ => none

theorem filterMap_malformed?_step (line : Nat) (seg : Segment) :
    (step s newline line seg).diagnostics.filterMap Diagnostic.malformed?
      = seg.complaint?.toList := by
  cases seg with
  | plain c => rfl
  | malformed o f => rfl
  | header h =>
    rw [step, Segment.complaint?]
    cases Parameter.readAll h.fragments with
    | error e => rfl
    | ok ps =>
      refine List.filterMap_eq_nil_iff.2 fun d hd => ?_
      obtain ⟨dropped, -, rfl⟩ := List.mem_map.1 hd
      rfl

theorem malformed_reorder (s : Settings) (t : Text) :
    (reorder s t).report.malformed = (segments t).flatMap (·.complaint?.toList) := by
  have hsteps : (steps s (lineEnding t) 1 (segments t)).map
        (fun st => st.diagnostics.filterMap Diagnostic.malformed?)
      = (segments t).map (·.complaint?.toList) := map_steps filterMap_malformed?_step 1 (segments t)
  have hidle : ∀ b : Bool, (if b then [Diagnostic.noMatches] else []).filterMap
      Diagnostic.malformed? = [] := by decide
  rw [List.flatMap_def, ← hsteps, ← List.flatMap_def, ← List.filterMap_flatMap, reorder_eq_sum]
  show List.filterMap _ (_ ++ _) = _
  rw [List.filterMap_append, hidle, List.append_nil]

theorem complaint?_reordered (seg : Segment) :
    (seg.reordered s newline).complaint? = seg.complaint? := by
  cases seg with
  | plain c => rfl
  | malformed o f => rfl
  | header h =>
    rw [Segment.reordered, Segment.complaint?, Segment.complaint?]
    cases hps : Parameter.readAll h.fragments with
    | error e => rw [Header.reordered_of_error hps, hps]
    | ok ps => rw [readAll_reordered hps]

/-- **A malformed header stays malformed.**  When no reader of a malformed header comes to a header
that changes but in code, a second pass leaves the same rules as they are, for the same reasons and
in the same order, and it changes nothing. -/
theorem malformed_stays (s : Settings) (t : Text)
    (hfree : Untangled s (lineEnding t) (segments t)) :
    (reorder s (reorder s t).text).report.malformed = (reorder s t).report.malformed ∧
      (reorder s (reorder s t).text).text = (reorder s t).text := by
  have hcoherent := (coherent_segments t).2.map_reordered_of_untangled hfree
    (isLineEnding_lineEnding t)
  have hsegments : segments (reorder s t).text
      = (segments t).map (·.reordered s (lineEnding t)) :=
    segments_eq_iff.2 ⟨text_reorder s t, hcoherent⟩
  constructor
  · rw [malformed_reorder, malformed_reorder, hsegments, List.flatMap_map]
    simp only [complaint?_reordered]
  · rw [text_reorder, hsegments, lineEnding_reorder, text_reorder, List.map_map]
    congr 2
    funext seg
    exact seg.reordered_reordered

/-- The settings without a configuration. -/
def builtinSettings : Settings := ⟨.builtin, .builtin, .drop⟩

/-- A rule whose block is not closed, with another one behind it. -/
def unclosedRules : Text :=
  "#[rule] pub fn [< $f _a >](x: u8;\n#[rule] pub fn [< $f _b >](value: bool) \x7b\x7d"

theorem malformed_stays_unclosedRules :
    Untangled builtinSettings (lineEnding unclosedRules) (segments unclosedRules) ∧
      (reorder builtinSettings unclosedRules).text ≠ unclosedRules ∧
      (reorder builtinSettings unclosedRules).report.malformed
        = [("a".toList, "parameter list is never closed".toList)] ∧
      (reorder builtinSettings (reorder builtinSettings unclosedRules).text).report.malformed
        = [("a".toList, "parameter list is never closed".toList)] := by
  have hfree : Untangled builtinSettings (lineEnding unclosedRules) (segments unclosedRules) :=
    untangled_of_not_mem (by decide) (by decide)
  have hfirst : (reorder builtinSettings unclosedRules).report.malformed
      = [("a".toList, "parameter list is never closed".toList)] := by decide +kernel
  refine ⟨hfree, by decide +kernel, hfirst, ?_⟩
  rw [(malformed_stays builtinSettings unclosedRules hfree).1, hfirst]

/-- A rule with a comment that is closed in a comment of the rule that stands in it. -/
def tangledRules : Text :=
  "#[rule] pub fn [< $f _a >](/* #[rule] pub fn [< $f _b >](// */ ]\n) \x7b\x7d */) \x7b\x7d"

/-- When a comment goes that ended another one, a second pass reads what the first one could not: it
has nothing to say about the rule that was malformed, and the rule inside of it is gone. -/
theorem tangledRules_second_pass :
    (reorder builtinSettings tangledRules).report.malformed
        = [("a".toList, "unbalanced `]` in parameter list".toList)] ∧
      (reorder builtinSettings tangledRules).report.rules.map (·.name) = ["b".toList] ∧
      (reorder builtinSettings (reorder builtinSettings tangledRules).text).report.malformed = [] ∧
      (reorder builtinSettings (reorder builtinSettings tangledRules).text).report.rules.map
        (·.name) = ["a".toList] := by
  decide +kernel

end RuleFormat
