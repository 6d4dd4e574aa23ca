import RuleFormat.Proofs.Header

/-!
# Scan items and the text around them

The items of a scan are the segments that have something to report, each at the place behind the
segments before it (`mem_scan_iff`).  The headers among them cut the text into gaps, and gaps and
headers, laid one after the other, are the text again (`weave_gaps`).
-/

namespace RuleFormat

/-! ## Bytes -/

/-- The first `n` bytes of a text. -/
def takeBytes : Nat → Text → Text
  | 0, _ => []
  | _ + 1, [] => []
  | n + 1, c :: cs => c :: takeBytes (n + 1 - c.utf8Size) cs

/-- The bytes of a text from offset `start` up to offset `stop`. -/
def slice (t : Text) (start stop : Nat) : Text := takeBytes (stop - start) (dropBytes start t)

theorem dropBytes_append (s t : Text) : dropBytes (byteLength s) (s ++ t) = t := by
  induction s with
  | nil => exact dropBytes_zero t
  | cons c s ih =>
    have hpos := c.utf8Size_pos
    obtain ⟨n, hn⟩ : ∃ n, c.utf8Size + byteLength s = n + 1 :=
      ⟨c.utf8Size + byteLength s - 1, by omega⟩
    rw [byteLength_cons, List.cons_append, hn, dropBytes, ← hn, Nat.add_sub_cancel_left, ih]

theorem takeBytes_append (s t : Text) : takeBytes (byteLength s) (s ++ t) = s := by
  induction s with
  | nil => rw [byteLength_nil, takeBytes]
  | cons c s ih =>
    have hpos := c.utf8Size_pos
    obtain ⟨n, hn⟩ : ∃ n, c.utf8Size + byteLength s = n + 1 :=
      ⟨c.utf8Size + byteLength s - 1, by omega⟩
    rw [byteLength_cons, List.cons_append, hn, takeBytes, ← hn, Nat.add_sub_cancel_left, ih]

theorem slice_append (s u t : Text) :
    slice (s ++ (u ++ t)) (byteLength s) (byteLength (s ++ u)) = u := by
  rw [slice, dropBytes_append, byteLength_append, Nat.add_sub_cancel_left, takeBytes_append]

/-! ## Items -/

theorem Place.after_after (p : Place) (s t : Text) : (p.after s).after t = p.after (s ++ t) := by
  simp [Place.after, lineFeeds, Nat.add_assoc]

@[simp] theorem Place.after_nil (p : Place) : p.after [] = p := rfl

theorem itemsFrom_cons (p : Place) (s : Segment) (ss : List Segment) :
    itemsFrom p (s :: ss)
      = ((Found.ofSegment? s).map (ScanItem.mk p)).toList ++ itemsFrom (p.after s.text) ss := by
  cases s <;> rfl

theorem itemsFrom_append (p : Place) (ss us : List Segment) :
    itemsFrom p (ss ++ us) = itemsFrom p ss ++ itemsFrom (p.after (written ss)) us := by
  induction ss generalizing p with
  | nil => rfl
  | cons s ss ih =>
    rw [List.cons_append, itemsFrom_cons, itemsFrom_cons, ih, List.append_assoc,
      Place.after_after, written_cons]

theorem mem_itemsFrom_iff {p : Place} {ss : List Segment} {i : ScanItem} :
    i ∈ itemsFrom p ss ↔ ∃ pre s post, ss = pre ++ s :: post ∧
      Found.ofSegment? s = some i.found ∧ i.place = p.after (written pre) := by
  constructor
  · intro hi
    induction ss generalizing p with
    | nil => cases hi
    | cons s ss ih =>
      rw [itemsFrom_cons] at hi
      rcases List.mem_append.1 hi with hi | hi
      · obtain ⟨f, hf, rfl⟩ : ∃ f, Found.ofSegment? s = some f ∧ ScanItem.mk p f = i := by
          simpa using hi
        exact ⟨[], s, ss, rfl, hf, rfl⟩
      · obtain ⟨pre, s', post, rfl, hf, hp⟩ := ih hi
        refine ⟨s :: pre, s', post, rfl, hf, ?_⟩
        rw [hp, Place.after_after, written_cons]
  · rintro ⟨pre, s, post, rfl, hf, hp⟩
    obtain ⟨place, found⟩ := i
    obtain rfl : place = p.after (written pre) := hp
    rw [itemsFrom_append, itemsFrom_cons, hf]
    simp

/-- An item is a segment that has something to report, behind the segments before it. -/
theorem mem_scan_iff {t : Text} {i : ScanItem} :
    i ∈ scan t ↔ ∃ pre s post, segments t = pre ++ s :: post ∧
      Found.ofSegment? s = some i.found ∧ i.place = Place.start.after (written pre) :=
  mem_itemsFrom_iff

/-- A valid header is the first item, and what follows it is scanned as if nothing stood in front. -/
theorem Header.IsValid.scan_append {h : Header} (hh : h.IsValid) (t : Text) :
    scan (h.text ++ t)
      = ⟨.start, .header h⟩ :: itemsFrom (Place.start.after h.text) (segments t) := by
  have hlead : (Segment.header h).Leads t := hh
  have hseg : segments (h.text ++ t) = .header h :: segments t := segments_append hlead
  rw [scan, hseg]
  rfl

theorem text_eq_of_ofSegment? {s : Segment} {f : Found} (h : Found.ofSegment? s = some f) :
    f.text = s.text := by
  cases s with
  | plain c => cases h
  | header g => rw [← Option.some.inj h]; rfl
  | malformed o fault => rw [← Option.some.inj h]; rfl

theorem map_found_itemsFrom (p : Place) (ss : List Segment) :
    (itemsFrom p ss).map (·.found) = ss.filterMap Found.ofSegment? := by
  induction ss generalizing p with
  | nil => rfl
  | cons s ss ih =>
    rw [itemsFrom_cons, List.map_append, ih, List.filterMap_cons]
    cases Found.ofSegment? s <;> rfl

theorem map_found_scan (t : Text) :
    (scan t).map (·.found) = (segments t).filterMap Found.ofSegment? :=
  map_found_itemsFrom .start (segments t)

/-- The header that was found, unless it is malformed. -/
def Found.header? : Found → Option Header
  | .header h => some h
  | .malformed .. => none

/-- The headers of a text, malformed ones left out. -/
def headers (t : Text) : List Header := (scan t).filterMap (·.found.header?)

/-- The header that a segment is. -/
def Segment.header? : Segment → Option Header
  | .header h => some h
  | _ => none

theorem headers_eq_filterMap (t : Text) : headers t = (segments t).filterMap Segment.header? := by
  have h : headers t = ((scan t).map (·.found)).filterMap Found.header? := by
    rw [List.filterMap_map]
    rfl
  rw [h, map_found_scan, List.filterMap_filterMap]
  congr 1
  funext s
  cases s <;> rfl

/-- Whether a malformed header was found. -/
def Found.isMalformed : Found → Bool
  | .header _ => false
  | .malformed .. => true

/-- Whether a segment is the opening of a malformed header. -/
def Segment.isMalformed : Segment → Bool
  | .malformed .. => true
  | _ => false

theorem forall_isMalformed_segments_iff {t : Text} :
    (∀ s ∈ segments t, s.isMalformed = false) ↔ ∀ i ∈ scan t, i.found.isMalformed = false := by
  have hsame : ∀ s f, Found.ofSegment? s = some f → s.isMalformed = f.isMalformed := by
    intro s f h
    cases s <;> cases h <;> rfl
  constructor
  · intro h i hi
    obtain ⟨pre, s, post, hs, hf, -⟩ := mem_scan_iff.1 hi
    rw [← hsame s _ hf]
    exact h s (by rw [hs]; simp)
  · intro h s hs
    cases hf : Found.ofSegment? s with
    | none =>
      cases s with
      | plain c => rfl
      | header h => cases hf
      | malformed o f => cases hf
    | some f =>
      obtain ⟨pre, post, hsplit⟩ := List.append_of_mem hs
      rw [hsame s f hf]
      exact h ⟨_, f⟩ (mem_scan_iff.2 ⟨pre, s, post, hsplit, hf, rfl⟩)

/-! ## Gaps -/

/-- The texts in front of, between and behind the headers among items, from offset `start` on. -/
def gapsFrom (t : Text) (start : Nat) : List ScanItem → List Text
  | [] => [dropBytes start t]
  | i :: is =>
    match i.found with
    | .header _ => slice t start i.place.offset :: gapsFrom t i.stop is
    | .malformed .. => gapsFrom t start is

/-- The texts in front of, between and behind the headers of a text. -/
def gaps (t : Text) : List Text := gapsFrom t 0 (scan t)

/-- Gaps and other texts in turn, a gap first. -/
def weave : List Text → List Text → Text
  | g :: gs, r :: rs => g ++ r ++ weave gs rs
  | gs, _ => gs.flatten

theorem length_gapsFrom (t : Text) (start : Nat) (is : List ScanItem) :
    (gapsFrom t start is).length = (is.filterMap (·.found.header?)).length + 1 := by
  induction is generalizing start with
  | nil => rfl
  | cons i is ih =>
    obtain ⟨p, f⟩ := i
    cases f with
    | header h => simp [gapsFrom, ih, Found.header?]
    | malformed o f => simp [gapsFrom, ih, Found.header?]

/-- The text that a segment becomes when headers are replaced. -/
def Segment.replaced (r : Header → Text) : Segment → Text
  | .header h => r h
  | s => s.text

/-- Replacements of the headers among items, laid between the gaps. -/
def weaveFrom (r : Header → Text) (t : Text) (start : Nat) (is : List ScanItem) : Text :=
  weave (gapsFrom t start is) ((is.filterMap (·.found.header?)).map r)

/-- Between the gaps of a text, replacements of its headers make the text in which each header is
replaced.  Up to the segments `ss` the gap `g` has been read already, from behind `s` on. -/
theorem weaveFrom_itemsFrom (r : Header → Text) (s g : Text) (line : Nat) (ss : List Segment) :
    weaveFrom r (s ++ (g ++ written ss)) (byteLength s)
        (itemsFrom ⟨byteLength (s ++ g), line⟩ ss)
      = g ++ ss.flatMap (Segment.replaced r) := by
  induction ss generalizing s g line with
  | nil => simp [weaveFrom, itemsFrom, gapsFrom, weave, dropBytes_append]
  | cons seg ss ih =>
    have hafter : Place.after ⟨byteLength (s ++ g), line⟩ seg.text
        = ⟨byteLength (s ++ (g ++ seg.text)), line + lineFeeds seg.text⟩ := by
      simp [Place.after, Nat.add_assoc]
    rw [itemsFrom_cons, hafter, written_cons, List.flatMap_cons]
    cases seg with
    -- only a header ends the gap; every other segment is added to it
    | plain c =>
      have hrest := ih s (g ++ [c]) (line + lineFeeds [c])
      simp only [List.append_assoc] at hrest
      exact hrest
    | malformed o f =>
      have hrest := ih s (g ++ o.text) (line + lineFeeds o.text)
      simp only [List.append_assoc] at hrest
      exact hrest
    | header h =>
      have hrest := ih (s ++ (g ++ h.text)) [] (line + lineFeeds h.text)
      have hstop : ScanItem.stop ⟨⟨byteLength (s ++ g), line⟩, .header h⟩
          = byteLength (s ++ (g ++ h.text)) := by
        simp [ScanItem.stop, Found.text, Nat.add_assoc]
      have hslice : slice (s ++ (g ++ (h.text ++ written ss))) (byteLength s)
          (byteLength (s ++ g)) = g := slice_append _ _ _
      simp only [List.append_nil, List.nil_append, List.append_assoc] at hrest
      calc weaveFrom r (s ++ (g ++ (h.text ++ written ss))) (byteLength s)
            (⟨⟨byteLength (s ++ g), line⟩, .header h⟩ :: itemsFrom _ ss)
          = slice (s ++ (g ++ (h.text ++ written ss))) (byteLength s) (byteLength (s ++ g)) ++ r h
            ++ weaveFrom r (s ++ (g ++ (h.text ++ written ss)))
              (ScanItem.stop ⟨⟨byteLength (s ++ g), line⟩, .header h⟩) (itemsFrom _ ss) := rfl
        _ = g ++ r h ++ ss.flatMap (Segment.replaced r) := by
          rw [hslice, hstop, Segment.text, hrest]
        _ = g ++ (r h ++ ss.flatMap (Segment.replaced r)) := List.append_assoc ..

/-- Replacements of the headers of a text, laid between its gaps. -/
theorem weave_gaps (r : Header → Text) (t : Text) :
    weave (gaps t) ((headers t).map r) = (segments t).flatMap (Segment.replaced r) := by
  have h := weaveFrom_itemsFrom r [] [] 1 (segments t)
  simp only [List.nil_append, written_segments] at h
  exact h

end RuleFormat
