import RuleFormat.Proofs.Utf8

/-!
# Headers and what follows them

The scanner recognises a header by the bytes up to its brace.  Two texts that agree so far have the
same items up to that header (`scan_agrees_through_header`), if no malformed header stands before
it: whether a header is malformed can depend on the whole rest of the text.

A plain character before the header stays one, since an opening that begins there would have to
run over the `#` of the header.
-/

namespace RuleFormat

/-- What has no `#` and stands in front of a text with one ends before the `#`. -/
theorem prefix_of_prefix_append_hash {p w r : Text} (hp : '#' ∉ p) (h : p <+: w ++ '#' :: r) :
    p <+: w := by
  rcases List.prefix_or_prefix_of_prefix h (List.prefix_append w _) with hshort | hlong
  · exact hshort
  · obtain ⟨q, rfl⟩ := hlong
    have hq : q <+: '#' :: r := (List.prefix_append_right_inj w).1 h
    cases q with
    | nil => rw [List.append_nil]
    | cons c q =>
      obtain ⟨rfl, -⟩ := List.cons_prefix_cons.1 hq
      exact absurd (List.mem_append_right w List.mem_cons_self) hp

/-- A segment that leads a text with a header in it leads it also when what follows the header is
changed. -/
theorem Segment.Leads.change {s : Segment} {w : Text} {h : Header} {r : Text}
    (hs : s.Leads (w ++ (h.text ++ r))) (hfine : s.isMalformed = false) (r' : Text) :
    s.Leads (w ++ (h.text ++ r')) := by
  cases s with
  | header g => exact hs
  | malformed o f => cases hfine
  | plain c =>
    refine readOpening?_cons_eq_none_of_prefix hs fun p hp hpre => ?_
    obtain ⟨u, hu⟩ : ∃ u, h.text = '#' :: u := ⟨_, rfl⟩
    rw [hu] at hpre
    exact (prefix_of_prefix_append_hash hp hpre).trans (List.prefix_append w _)

/-- Up to a header, the segments are the same whatever follows it. -/
theorem Coherent.segments_through_header {pre post : List Segment} {h : Header}
    (hc : Coherent (pre ++ .header h :: post)) (hfine : ∀ s ∈ pre, s.isMalformed = false)
    (r : Text) :
    segments (written pre ++ (h.text ++ r)) = pre ++ .header h :: segments r := by
  induction pre with
  | nil =>
    have hlead : (Segment.header h).Leads r := hc.1
    exact segments_append hlead
  | cons s pre ih =>
    have hlead : s.Leads (written pre ++ (h.text ++ written post)) := by
      have hs : s.Leads (written (pre ++ .header h :: post)) := hc.1
      rwa [written_append, written_cons] at hs
    have hlead' := hlead.change (hfine s List.mem_cons_self) r
    rw [written_cons, List.append_assoc, segments_append hlead',
      ih hc.2 fun u hu => hfine u (List.mem_cons_of_mem _ hu), List.cons_append]

/-- Where items are split, the segments are. -/
theorem exists_split_of_itemsFrom {p : Place} {ss : List Segment} {before after : List ScanItem}
    {i : ScanItem} (h : itemsFrom p ss = before ++ i :: after) :
    ∃ pre s post, ss = pre ++ s :: post ∧ itemsFrom p pre = before ∧
      Found.ofSegment? s = some i.found ∧ i.place = p.after (written pre) := by
  induction ss generalizing p before with
  | nil => cases before <;> cases h
  | cons s ss ih =>
    rw [itemsFrom_cons] at h
    cases hf : Found.ofSegment? s with
    | none =>
      rw [hf] at h
      obtain ⟨pre, s', post, rfl, hpre, hfound, hplace⟩ := ih h
      refine ⟨s :: pre, s', post, rfl, ?_, hfound, ?_⟩
      · rw [itemsFrom_cons, hf]
        exact hpre
      · rw [hplace, Place.after_after, written_cons]
    | some f =>
      rw [hf] at h
      cases before with
      | nil =>
        obtain ⟨rfl, -⟩ := List.cons.inj h
        exact ⟨[], s, ss, rfl, rfl, hf, rfl⟩
      | cons b before =>
        obtain ⟨rfl, hrest⟩ := List.cons.inj h
        obtain ⟨pre, s', post, rfl, rfl, hfound, hplace⟩ := ih hrest
        refine ⟨s :: pre, s', post, rfl, ?_, hfound, ?_⟩
        · rw [itemsFrom_cons, hf]
          rfl
        · rw [hplace, Place.after_after, written_cons]

/-- Segments whose items are all headers have no malformed header among them. -/
theorem isMalformed_of_itemsFrom {p : Place} {ss : List Segment}
    (h : ∀ i ∈ itemsFrom p ss, i.found.isMalformed = false) : ∀ s ∈ ss, s.isMalformed = false := by
  intro s hs
  cases s with
  | plain c => rfl
  | header g => rfl
  | malformed o f =>
    have hmem : Found.malformed o f ∈ (itemsFrom p ss).map (·.found) := by
      rw [map_found_itemsFrom]
      exact List.mem_filterMap.2 ⟨_, hs, rfl⟩
    obtain ⟨i, hi, hfound⟩ := List.mem_map.1 hmem
    have hfalse := h i hi
    rw [hfound] at hfalse
    cases hfalse

/-- Two texts that agree on all bytes up to the end of a header have the same items up to and
including it, if the header is recognised in one of them and no malformed one stands before it. -/
theorem scan_agrees_through_header {t u : Text} {before after : List ScanItem} {i : ScanItem}
    {h : Header} (hscan : scan t = before ++ i :: after) (hheader : i.found = .header h)
    (hfine : ∀ j ∈ before, j.found.isMalformed = false)
    (hagree : (utf8 t).take i.stop = (utf8 u).take i.stop) :
    ∃ after', scan u = before ++ i :: after' := by
  obtain ⟨pre, s, post, hsplit, hbefore, hfound, hplace⟩ := exists_split_of_itemsFrom hscan
  obtain rfl : s = .header h := by
    rw [hheader] at hfound
    cases s with
    | plain c => cases hfound
    | header g => rw [Found.header.inj (Option.some.inj hfound)]
    | malformed o f => cases hfound
  obtain ⟨ht, hcoherent⟩ := segments_eq_iff.1 hsplit
  have hstop : i.stop = byteLength (written pre ++ h.text) := by
    rw [ScanItem.stop, hplace, hheader]
    simp [Place.after, Place.start, Found.text]
  have hfront : written pre ++ h.text <+: t := by
    refine ⟨written post, ?_⟩
    rw [ht, written_append, written_cons, List.append_assoc]
    rfl
  rw [hstop] at hagree
  obtain ⟨r, rfl⟩ := prefix_of_take_utf8_eq hfront hagree
  have hsegments := hcoherent.segments_through_header
    (isMalformed_of_itemsFrom (p := .start) (hbefore ▸ hfine)) r
  refine ⟨itemsFrom ((Place.start.after (written pre)).after h.text) (segments r), ?_⟩
  rw [scan, List.append_assoc, hsegments, itemsFrom_append, hbefore, ← hplace, itemsFrom_cons]
  obtain ⟨place, found⟩ := i
  obtain rfl : found = .header h := hheader
  rfl

/-- Two headers, the first of them with a character of two bytes in it. -/
def twoHeaders : Text :=
  "é #[rule] pub fn [< $f _a >](s: é) \x7b\x7d\n#[rule]\npub fn [< $f _b >](x: u8) \x7b"

theorem scan_agrees_through_header_twoHeaders :
    ∃ a b : ScanItem, a.found.name = ['a'] ∧ b.found.name = ['b'] ∧
      scan (twoHeaders ++ " body \x7d".toList) = [a, b] ∧
      ∃ after,
        scan (twoHeaders ++ "\x7d#[rule] pub fn [< $f _c >](/*".toList) = [a, b] ++ after := by
  have hscan : scan (twoHeaders ++ " body \x7d".toList)
      = [⟨⟨3, 1⟩, .header ⟨⟨[' '], ['a']⟩, "s: é".toList, [' '], ["s: é".toList]⟩⟩]
        ++ ⟨⟨40, 2⟩, .header ⟨⟨['\n'], ['b']⟩, "x: u8".toList, [' '], ["x: u8".toList]⟩⟩ :: [] := by
    decide +kernel
  refine ⟨_, _, rfl, rfl, hscan, ?_⟩
  obtain ⟨after, hafter⟩ := scan_agrees_through_header
    (u := twoHeaders ++ "\x7d#[rule] pub fn [< $f _c >](/*".toList) hscan rfl
    (List.forall_mem_singleton.2 rfl) (by decide +kernel)
  exact ⟨after, hafter⟩

end RuleFormat
