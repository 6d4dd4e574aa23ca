import Mathlib.Data.List.Pairwise
import RuleFormat.Proofs.Scan

/-!
# What a scan finds

A scan goes over a text once and goes on in different places: behind the brace of a header, behind
the opening of a malformed one, one character further where there is neither.  Still it misses no
opening.  Wherever an opening stands (`OpeningAt`), a segment begins there or holds it strictly
inside (`exists_segment_at`); a segment that begins there is an item, and the only segments that can
hold a second opening are headers, since an opening has one `#` only.

`scan_complete` puts this together with the places of the items: they lie in order, none reaches
into the next, and each has the line of its first character.
-/

namespace RuleFormat

/-- An opening stands behind the first `p` bytes of a text. -/
def OpeningAt (t : Text) (p : Nat) : Prop :=
  ∃ (before : Text) (o : Opening) (after : Text),
    t = before ++ (o.text ++ after) ∧ byteLength before = p ∧ o.IsValid

/-! ## Places of items -/

theorem byteLength_pos {t : Text} (h : t ≠ []) : 0 < byteLength t := by
  cases t with
  | nil => exact absurd rfl h
  | cons c t =>
    have hc := c.utf8Size_pos
    rw [byteLength_cons]
    omega

theorem offset_le_of_mem_itemsFrom {p : Place} {ss : List Segment} {i : ScanItem}
    (hi : i ∈ itemsFrom p ss) : p.offset ≤ i.place.offset := by
  obtain ⟨pre, seg, post, -, -, hplace⟩ := mem_itemsFrom_iff.1 hi
  rw [hplace]
  exact Nat.le_add_right _ _

/-- An item ends before the next one begins. -/
theorem pairwise_itemsFrom (p : Place) (ss : List Segment) :
    (itemsFrom p ss).Pairwise fun i j => i.stop ≤ j.place.offset := by
  induction ss generalizing p with
  | nil => exact .nil
  | cons seg ss ih =>
    rw [itemsFrom_cons, List.pairwise_append]
    refine ⟨?_, ih _, fun i hi j hj => ?_⟩
    · cases Found.ofSegment? seg <;> simp
    · obtain ⟨f, hf, rfl⟩ : ∃ f, Found.ofSegment? seg = some f ∧ ScanItem.mk p f = i := by
        simpa using hi
      rw [ScanItem.stop, text_eq_of_ofSegment? hf]
      exact offset_le_of_mem_itemsFrom hj

/-- The text around an item. -/
theorem eq_append_of_mem_scan {t : Text} {i : ScanItem} (hi : i ∈ scan t) :
    ∃ before after, t = before ++ (i.found.text ++ after) ∧
      i.place = Place.start.after before ∧
      ∃ o rest, i.found.text = Opening.text o ++ rest ∧ o.IsValid := by
  obtain ⟨pre, seg, post, hseg, hfound, hplace⟩ := mem_scan_iff.1 hi
  have hcoherent := (coherent_segments t).2
  rw [hseg] at hcoherent
  have hlead := hcoherent.leads
  refine ⟨written pre, written post, ?_, hplace, ?_⟩
  · rw [text_eq_of_ofSegment? hfound, ← written_cons, ← written_append, ← hseg, written_segments]
  · rw [text_eq_of_ofSegment? hfound]
    cases seg with
    | plain c => cases hfound
    | malformed o f => exact ⟨o, [], (List.append_nil _).symm, hlead.1⟩
    | header h =>
      have hh : h.IsValid := hlead
      refine ⟨h.opening, h.body ++ ')' :: (h.gap ++ ['{']), ?_, hh.opening⟩
      rw [← h.text_append, Segment.text, List.append_nil]

/-! ## Segments at a place -/

/-- A place in front of some character lies at the beginning of a segment or inside of one. -/
theorem exists_segment_at {ss : List Segment} {before after : Text}
    (h : written ss = before ++ after) (hne : after ≠ []) :
    ∃ pre seg post inner rest, ss = pre ++ seg :: post ∧ before = written pre ++ inner ∧
      seg.text = inner ++ rest ∧ rest ≠ [] ∧ after = rest ++ written post := by
  induction ss generalizing before with
  | nil => exact absurd (List.append_eq_nil_iff.1 h.symm).2 hne
  | cons seg ss ih =>
    rw [written_cons] at h
    rcases List.append_eq_append_iff.1 h with ⟨u, hbefore, hss⟩ | ⟨u, hseg, hafter⟩
    · -- the place lies behind the first segment
      obtain ⟨pre, seg', post, inner, rest, rfl, rfl, htext, hrest, rfl⟩ := ih hss
      refine ⟨seg :: pre, seg', post, inner, rest, rfl, ?_, htext, hrest, rfl⟩
      rw [hbefore, written_cons, List.append_assoc]
    · by_cases hu : u = []
      · subst hu
        have hss : written ss = [] ++ after := hafter.symm
        obtain ⟨pre, seg', post, inner, rest, rfl, hnil, htext, hrest, hpost⟩ := ih hss
        refine ⟨seg :: pre, seg', post, inner, rest, rfl, ?_, htext, hrest, hpost⟩
        rw [written_cons, List.append_assoc, ← hnil, List.append_nil, hseg, List.append_nil]
      · exact ⟨[], seg, ss, before, u, rfl, rfl, hseg, hu, hafter⟩

/-- Strictly inside of a segment an opening can stand only if the segment is a header. -/
theorem Segment.Leads.eq_header {seg : Segment} {rest inner u after : Text} {o : Opening}
    (hlead : seg.Leads rest) (htext : seg.text = inner ++ u) (hinner : inner ≠ []) (hu : u ≠ [])
    (ho : o.IsValid) (hopen : o.text ++ after = u ++ rest) : ∃ h, seg = .header h := by
  obtain ⟨d, inner, rfl⟩ := List.exists_cons_of_ne_nil hinner
  obtain ⟨c, u, rfl⟩ := List.exists_cons_of_ne_nil hu
  cases seg with
  | plain e =>
    have hlength := congrArg List.length htext
    simp [Segment.text] at hlength
  | header h => exact ⟨h, rfl⟩
  | malformed o' f =>
    obtain ⟨v, hv, -⟩ := ho.text_eq_cons
    obtain ⟨v', hv', hmem⟩ := hlead.1.text_eq_cons
    rw [hv, List.cons_append, List.cons_append, List.cons.injEq] at hopen
    rw [Segment.text, hv', List.cons_append, List.cons.injEq] at htext
    rw [htext.2, ← hopen.1] at hmem
    exact absurd (by simp) hmem

/-- Where an opening stands, an item begins, or a header has begun that is not yet over. -/
theorem exists_item_of_openingAt {t : Text} {p : Nat} (h : OpeningAt t p) :
    (∃ i ∈ scan t, i.place.offset = p) ∨
      ∃ i ∈ scan t, (∃ h, i.found = .header h) ∧ i.place.offset < p ∧ p < i.stop := by
  obtain ⟨before, o, after, ht, rfl, ho⟩ := h
  obtain ⟨v, hv, -⟩ := ho.text_eq_cons
  have hwritten : written (segments t) = before ++ (o.text ++ after) := by
    rw [written_segments, ht]
  obtain ⟨pre, seg, post, inner, rest, hseg, rfl, htext, hrest, hafter⟩ :=
    exists_segment_at hwritten (by simp [hv])
  have hcoherent := (coherent_segments t).2
  rw [hseg] at hcoherent
  have hlead := hcoherent.leads
  have hoffset : (Place.start.after (written pre)).offset = byteLength (written pre) :=
    Nat.zero_add _
  have hitem : ∀ f, Found.ofSegment? seg = some f →
      ⟨Place.start.after (written pre), f⟩ ∈ scan t :=
    fun f hf => mem_scan_iff.2 ⟨pre, seg, post, hseg, hf, rfl⟩
  by_cases hinner : inner = []
  · subst hinner
    rw [List.append_nil]
    refine Or.inl ?_
    cases seg with
    | header h => exact ⟨_, hitem _ rfl, hoffset⟩
    | malformed o' f => exact ⟨_, hitem _ rfl, hoffset⟩
    | plain c =>
      -- no opening stands at a plain character
      have hnone : readOpening? (c :: written post) = none := hlead
      have hread := ho.read after
      rw [hafter, ← List.nil_append rest, ← htext, Segment.text, List.singleton_append,
        hnone] at hread
      cases hread
  · -- behind the first character of a segment, an opening can stand only in a header
    obtain ⟨h, rfl⟩ := hlead.eq_header htext hinner hrest ho hafter
    refine Or.inr ⟨_, hitem _ rfl, ⟨h, rfl⟩, ?_, ?_⟩
    · have hpos := byteLength_pos hinner
      simp only [hoffset, byteLength_append]
      omega
    · have hpos := byteLength_pos hrest
      have hlength : byteLength h.text = byteLength inner + byteLength rest := by
        rw [← byteLength_append, ← htext, Segment.text]
      simp only [ScanItem.stop, hoffset, Found.text, hlength, byteLength_append]
      omega

/-- **A scan misses nothing and reports in order.**  Every item has a span that is not empty and
lies in the text, the line of its first character, and an opening where it begins; it ends before
the next item begins.  And wherever an opening stands, exactly one item begins, or the place lies
strictly inside of a header that is an item. -/
theorem scan_complete (t : Text) :
    (∀ i ∈ scan t, i.place.offset < i.stop ∧ i.stop ≤ byteLength t ∧
      i.place.line = 1 + lineFeeds (takeBytes i.place.offset t) ∧ OpeningAt t i.place.offset) ∧
    (scan t).Pairwise (fun i j => i.place.offset < j.place.offset ∧ i.stop ≤ j.place.offset) ∧
    ∀ p, OpeningAt t p →
      (∃! i, i ∈ scan t ∧ i.place.offset = p) ∨
        ∃ i ∈ scan t, (∃ h, i.found = .header h) ∧ i.place.offset < p ∧ p < i.stop := by
  have hspan : ∀ i ∈ scan t, i.place.offset < i.stop := by
    intro i hi
    obtain ⟨before, after, -, -, o, rest, htext, ho⟩ := eq_append_of_mem_scan hi
    obtain ⟨v, hv, -⟩ := ho.text_eq_cons
    have hpos : 0 < byteLength i.found.text := byteLength_pos (by simp [htext, hv])
    rw [ScanItem.stop]
    omega
  have hpairwise :
      (scan t).Pairwise (fun i j => i.place.offset < j.place.offset ∧ i.stop ≤ j.place.offset) :=
    (pairwise_itemsFrom .start (segments t)).imp_of_mem fun hi _ hij =>
      ⟨Nat.lt_of_lt_of_le (hspan _ hi) hij, hij⟩
  refine ⟨fun i hi => ⟨hspan i hi, ?_⟩, hpairwise, fun p hp => ?_⟩
  · obtain ⟨before, after, ht, hplace, o, rest, htext, ho⟩ := eq_append_of_mem_scan hi
    have hoffset : i.place.offset = byteLength before := by
      rw [hplace]
      exact Nat.zero_add _
    refine ⟨?_, ?_, before, o, rest ++ after, ?_, hoffset.symm, ho⟩
    · rw [ScanItem.stop, hoffset, ht, byteLength_append, byteLength_append]
      omega
    · rw [hoffset, ht, takeBytes_append, hplace]
      rfl
    · rw [ht, htext, List.append_assoc]
  · refine (exists_item_of_openingAt hp).imp_left ?_
    rintro ⟨i, hi, rfl⟩
    refine ⟨i, ⟨hi, rfl⟩, fun j hj => ?_⟩
    by_contra hne
    have hdistinct : (scan t).Pairwise fun i j => i.place.offset ≠ j.place.offset :=
      hpairwise.imp fun hij => Nat.ne_of_lt hij.1
    have : Std.Symm fun i j : ScanItem => i.place.offset ≠ j.place.offset := ⟨fun _ _ h => h.symm⟩
    exact hdistinct.forall hj.1 hi hne hj.2

end RuleFormat
