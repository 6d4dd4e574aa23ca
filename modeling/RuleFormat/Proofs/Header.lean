import Mathlib.Data.List.Basic
import Mathlib.Data.List.TakeWhile
import Mathlib.Data.Option.Basic
import RuleFormat.Header
import RuleFormat.Proofs.Block

/-!
# Openings, headers and segments

An opening, a header and a text taken apart are each what they are written as: `readOpening?`,
`segmentAt` and `segments` find exactly the openings, headers and lists of segments that are valid
(`Opening.IsValid`, `Header.IsValid`, `Coherent`) and whose text stands there
(`readOpening?_eq_some_iff`, `segmentAt_eq_iff`, `segments_eq_iff`).

A valid header is found whatever follows it.  A plain character depends on what follows it only
through characters other than `#`, since an opening has none behind its first
(`readOpening?_cons_eq_none_of_prefix`).
-/

namespace RuleFormat

/-! ## Openings -/

/-- An opening that can be read back. -/
structure Opening.IsValid (o : Opening) : Prop where
  gap_ne_nil : o.gap ≠ []
  gap_white : ∀ c ∈ o.gap, isWhite c = true
  name_ne_nil : o.name ≠ []
  name_word : ∀ c ∈ o.name, isWord c = true

theorem takeWhile_append_cons {p : Char → Bool} {s : Text} {c : Char} (hs : ∀ d ∈ s, p d = true)
    (hc : p c = false) (t : Text) :
    (s ++ c :: t).takeWhile p = s ∧ (s ++ c :: t).dropWhile p = c :: t := by
  rw [List.takeWhile_append_of_pos hs, List.dropWhile_append_of_pos hs]
  simp [hc]

theorem Opening.IsValid.read {o : Opening} (ho : o.IsValid) (r : Text) :
    readOpening? (o.text ++ r) = some (o, r) := by
  obtain ⟨hgap, hwhite, hname, hword⟩ := ho
  have hsplit : o.text ++ r
      = ruleAttribute ++ (o.gap ++ (beforeName ++ (o.name ++ (afterName ++ r)))) := by
    simp [Opening.text]
  have h₁ := takeWhile_append_cons hwhite (c := 'p') (by decide)
    ("ub fn [< $f _".toList ++ (o.name ++ (afterName ++ r)))
  have h₂ := takeWhile_append_cons hword (c := ' ') (by decide) (">](".toList ++ r)
  have hp : beforeName ++ (o.name ++ (afterName ++ r))
      = 'p' :: ("ub fn [< $f _".toList ++ (o.name ++ (afterName ++ r))) := rfl
  have ha : afterName ++ r = ' ' :: (">](".toList ++ r) := rfl
  rw [hsplit, readOpening?, List.isPrefixOf?_eq_some_iff_append_eq.2 rfl]
  simp only [Option.bind_eq_bind, Option.bind_some]
  rw [hp, h₁.1, h₁.2, ← hp, List.isPrefixOf?_eq_some_iff_append_eq.2 rfl]
  simp only [Option.bind_some]
  rw [ha, h₂.1, h₂.2, ← ha, List.isPrefixOf?_eq_some_iff_append_eq.2 rfl]
  simp [hgap, hname]

theorem readOpening?_eq_some_iff {t r : Text} {o : Opening} :
    readOpening? t = some (o, r) ↔ o.IsValid ∧ t = o.text ++ r := by
  constructor
  · intro h
    simp only [readOpening?, Option.bind_eq_bind, Option.bind_eq_some_iff,
      List.isPrefixOf?_eq_some_iff_append_eq, Option.guard_eq_some', Option.pure_def,
      Option.some.injEq, Prod.mk.injEq] at h
    obtain ⟨u, hu, -, hgap, v, hv, -, hname, x, hx, rfl, rfl⟩ := h
    refine ⟨⟨by simpa using hgap, fun c hc => List.mem_takeWhile_imp hc, by simpa using hname,
      fun c hc => List.mem_takeWhile_imp hc⟩, ?_⟩
    have hu' : u = u.takeWhile isWhite ++ (beforeName ++ v) := by
      rw [hv, List.takeWhile_append_dropWhile]
    have hv' : v = v.takeWhile isWord ++ (afterName ++ x) := by
      rw [hx, List.takeWhile_append_dropWhile]
    calc t = ruleAttribute ++ u := hu.symm
      _ = ruleAttribute ++ (u.takeWhile isWhite ++ (beforeName ++ v)) := by rw [← hu']
      _ = ruleAttribute ++ (u.takeWhile isWhite ++
            (beforeName ++ (v.takeWhile isWord ++ (afterName ++ x)))) := by rw [← hv']
      _ = Opening.text ⟨u.takeWhile isWhite, v.takeWhile isWord⟩ ++ x := by
        simp [Opening.text]
  · rintro ⟨ho, rfl⟩
    exact ho.read r

/-- Behind its first character, an opening has no `#`. -/
theorem Opening.IsValid.text_eq_cons {o : Opening} (ho : o.IsValid) :
    ∃ u, o.text = '#' :: u ∧ '#' ∉ u := by
  refine ⟨"[rule]".toList ++ o.gap ++ beforeName ++ o.name ++ afterName, rfl, ?_⟩
  have hgap : '#' ∉ o.gap := fun h => absurd (ho.gap_white _ h) (by decide)
  have hname : '#' ∉ o.name := fun h => absurd (ho.name_word _ h) (by decide)
  have h₁ : '#' ∉ "[rule]".toList := by decide
  have h₂ : '#' ∉ beforeName := by decide
  have h₃ : '#' ∉ afterName := by decide
  simp only [List.mem_append, not_or]
  exact ⟨⟨⟨⟨h₁, hgap⟩, h₂⟩, hname⟩, h₃⟩

/-- There is no opening where there was none, if every part without `#` that follows now was there
before. -/
theorem readOpening?_cons_eq_none_of_prefix {c : Char} {t u : Text}
    (h : readOpening? (c :: t) = none) (hu : ∀ p, '#' ∉ p → p <+: u → p <+: t) :
    readOpening? (c :: u) = none := by
  rw [Option.eq_none_iff_forall_ne_some]
  rintro ⟨o, r⟩ hr
  obtain ⟨ho, heq⟩ := readOpening?_eq_some_iff.1 hr
  obtain ⟨p, hp, hmem⟩ := ho.text_eq_cons
  rw [hp, List.cons_append, List.cons.injEq] at heq
  obtain ⟨q, hq⟩ := hu p hmem ⟨r, heq.2.symm⟩
  have hread := ho.read q
  rw [hp, List.cons_append, hq, ← heq.1, h] at hread
  cases hread

/-! ## Headers -/

/-- A header that can be read back. -/
structure Header.IsValid (h : Header) : Prop where
  opening : h.opening.IsValid
  block : readBlock (h.body ++ [')']) = .ok ⟨h.fragments, h.body, []⟩
  gap_white : ∀ c ∈ h.gap, isWhite c = true

theorem Header.IsValid.read {h : Header} (hh : h.IsValid) (r : Text) :
    readHeader h.opening (h.body ++ ')' :: (h.gap ++ '{' :: r)) = .ok h := by
  have hblock := readBlock_move hh.block (h.gap ++ '{' :: r)
  obtain ⟨htake, hdrop⟩ := takeWhile_append_cons hh.gap_white (c := '{') (by decide) r
  rw [readHeader, hblock]
  simp only [hdrop, htake]

theorem readHeader_eq_ok_iff {o : Opening} (ho : o.IsValid) {t : Text} {h : Header} :
    readHeader o t = .ok h ↔
      h.IsValid ∧ h.opening = o ∧ ∃ r, t = h.body ++ ')' :: (h.gap ++ '{' :: r) := by
  constructor
  · intro hr
    unfold readHeader at hr
    cases hb : readBlock t with
    | error f => simp [hb] at hr
    | ok b =>
      simp only [hb] at hr
      split at hr
      · rename_i r hrest
        obtain rfl := Except.ok.inj hr
        refine ⟨⟨ho, readBlock_move hb [], fun c hc => List.mem_takeWhile_imp hc⟩, rfl, r, ?_⟩
        rw [← hrest, List.takeWhile_append_dropWhile]
        exact readBlock_eq_append hb
      · cases hr
  · rintro ⟨hh, rfl, r, rfl⟩
    exact hh.read r

theorem Header.text_append (h : Header) (r : Text) :
    h.text ++ r = h.opening.text ++ (h.body ++ ')' :: (h.gap ++ '{' :: r)) := by
  simp [Header.text]

/-! ## Segments -/

/-- A segment is the first one of its own text with `rest` behind it. -/
def Segment.Leads : Segment → Text → Prop
  | .plain c, rest => readOpening? (c :: rest) = none
  | .header h, _ => h.IsValid
  | .malformed o fault, rest => o.IsValid ∧ readHeader o rest = .error fault

theorem segmentAt_leads (c : Char) (cs : Text) :
    ∃ rest, c :: cs = (segmentAt c cs).text ++ rest ∧ (segmentAt c cs).Leads rest := by
  unfold segmentAt
  cases ho : readOpening? (c :: cs) with
  | none => exact ⟨cs, rfl, ho⟩
  | some p =>
    obtain ⟨o, t⟩ := p
    obtain ⟨hvalid, heq⟩ := readOpening?_eq_some_iff.1 ho
    cases hr : readHeader o t with
    | error f =>
      simp only [hr]
      exact ⟨t, heq, hvalid, hr⟩
    | ok h =>
      simp only [hr]
      obtain ⟨hh, rfl, r, rfl⟩ := (readHeader_eq_ok_iff hvalid).1 hr
      exact ⟨r, heq.trans (h.text_append r).symm, hh⟩

/-- The first segment of a text is the one that leads it. -/
theorem segmentAt_eq_iff {c : Char} {cs : Text} {s : Segment} :
    segmentAt c cs = s ↔ ∃ rest, c :: cs = s.text ++ rest ∧ s.Leads rest := by
  constructor
  · rintro rfl
    exact segmentAt_leads c cs
  · rintro ⟨rest, heq, hs⟩
    cases s with
    | plain d =>
      obtain ⟨rfl, rfl⟩ := List.cons.inj heq
      rw [segmentAt, (show readOpening? (c :: cs) = none from hs)]
    | header h =>
      have hh : h.IsValid := hs
      rw [segmentAt, heq, Segment.text, h.text_append, hh.opening.read]
      simp only [hh.read]
    | malformed o f =>
      obtain ⟨ho, hr⟩ := hs
      rw [segmentAt, heq, Segment.text, ho.read]
      simp only [hr]

theorem Segment.Leads.text_ne_nil {s : Segment} {rest : Text} (hs : s.Leads rest) :
    s.text ≠ [] := by
  cases s with
  | plain c => simp [Segment.text]
  | header h => simp [Segment.text, Header.text]
  | malformed o f =>
    obtain ⟨u, hu, -⟩ := hs.1.text_eq_cons
    simp [Segment.text, hu]

@[simp] theorem segments_nil : segments [] = [] := rfl

theorem segmentsFrom_eq_drop (n : Nat) (t : Text) : segmentsFrom n t = segments (t.drop n) := by
  induction t generalizing n with
  | nil => rw [List.drop_nil]; cases n <;> rfl
  | cons c cs ih =>
    cases n with
    | zero => rfl
    | succ n => exact ih n

/-- The segments of a text that a segment leads. -/
theorem segments_append {s : Segment} {rest : Text} (hs : s.Leads rest) :
    segments (s.text ++ rest) = s :: segments rest := by
  obtain ⟨c, u, hu⟩ := List.exists_cons_of_ne_nil hs.text_ne_nil
  have hat : segmentAt c (u ++ rest) = s :=
    segmentAt_eq_iff.2 ⟨rest, by rw [hu, List.cons_append], hs⟩
  rw [hu, List.cons_append, segments, segmentsFrom]
  simp only [hat, hu]
  rw [segmentsFrom_eq_drop, List.length_cons, Nat.add_sub_cancel, List.drop_left]

/-- What segments are written as, one behind the other. -/
def written (ss : List Segment) : Text := ss.flatMap Segment.text

@[simp] theorem written_nil : written [] = [] := rfl

@[simp] theorem written_cons (s : Segment) (ss : List Segment) :
    written (s :: ss) = s.text ++ written ss := List.flatMap_cons

@[simp] theorem written_append (ss us : List Segment) :
    written (ss ++ us) = written ss ++ written us := List.flatMap_append

/-- Each segment leads the text that it begins together with those behind it. -/
def Coherent : List Segment → Prop
  | [] => True
  | s :: ss => s.Leads (written ss) ∧ Coherent ss

theorem Coherent.segments_written {ss : List Segment} (h : Coherent ss) :
    segments (written ss) = ss := by
  induction ss with
  | nil => rfl
  | cons s ss ih => rw [written_cons, segments_append h.1, ih h.2]

theorem Coherent.leads {pre post : List Segment} {s : Segment} (h : Coherent (pre ++ s :: post)) :
    s.Leads (written post) := by
  induction pre with
  | nil => exact h.1
  | cons _ pre ih => exact ih h.2

theorem coherent_segments (t : Text) : written (segments t) = t ∧ Coherent (segments t) := by
  induction hn : t.length using Nat.strong_induction_on generalizing t with
  | h n ih =>
    cases t with
    | nil => exact ⟨rfl, trivial⟩
    | cons c cs =>
      obtain ⟨rest, heq, hs⟩ := segmentAt_leads c cs
      have hlt : rest.length < n := by
        have hpos := List.length_pos_of_ne_nil hs.text_ne_nil
        have hlen := congrArg List.length heq
        rw [List.length_append] at hlen
        omega
      obtain ⟨hw, hc⟩ := ih rest.length hlt rest rfl
      rw [heq, segments_append hs, written_cons, hw]
      exact ⟨rfl, by rwa [hw], hc⟩

@[simp] theorem written_segments (t : Text) : written (segments t) = t := (coherent_segments t).1

/-- A text is taken apart into the coherent segments that it is written as. -/
theorem segments_eq_iff {t : Text} {ss : List Segment} :
    segments t = ss ↔ t = written ss ∧ Coherent ss := by
  constructor
  · rintro rfl
    exact ⟨(written_segments t).symm, (coherent_segments t).2⟩
  · rintro ⟨rfl, h⟩
    exact h.segments_written

end RuleFormat
