import RuleFormat.Proofs.Bytewise.Block
import RuleFormat.Proofs.Coverage
import RuleFormat.Proofs.Reorder

/-!
# Scanning and reordering byte by byte

`entries` finds the headers of a text, and `reorderText` puts them in order, both by offsets into
the bytes of the text.  As in `blockFrom`, every access is checked, and `none` stands for one that
fails.  None ever does: the results are those of `scan` and `reorder` (`entries_eq`,
`bytewise_in_range`).
-/

namespace RuleFormat.Bytewise

/-! ## The loops -/

/-- The offset behind the brace that follows a closing bracket at offset `close`. -/
def braceEnd (t : Text) (close : Nat) : Option (Except HeaderFault Nat) := do
  let rest ← slice? t (close + 1) (byteLength t)
  let trimmed := rest.dropWhile isWhite
  if trimmed.head? = some '{' then
    let white ← minus? (byteLength rest) (byteLength trimmed)
    return .ok (close + 1 + white + 1)
  else return .error .missingBrace

/-- A header that could be read: the offset behind its brace, and its fragments. -/
structure HeaderEnd where
  stop : Nat
  fragments : List Text
  deriving DecidableEq, Repr

/-- Reads what follows an opening that ends at offset `i`. -/
def headerFrom (t : Text) (i : Nat) : Option (Except HeaderFault HeaderEnd) := do
  match ← blockFrom t [] [] [] i with
  | .error f => return .error (.block f)
  | .ok b =>
    match ← braceEnd t b.close with
    | .error f => return .error f
    | .ok stop => return .ok ⟨stop, b.fragments⟩

/-- The first opening in a text that begins at offset `i`, and the offset of it. -/
def findOpening? : Nat → Text → Option (Nat × Opening)
  | _, [] => none
  | i, c :: cs =>
    match readOpening? (c :: cs) with
    | some (o, _) => some (i, o)
    | none => findOpening? (i + c.utf8Size) cs

/-- The place at offset `i`, which lies behind a place that is known. -/
def moveTo (t : Text) (p : Place) (i : Nat) : Option Place := do
  let passed ← slice? t p.offset i
  return ⟨i, p.line + lineFeeds passed⟩

/-- What is said about one header: its name, from where to where it stands, its line, and its
fragments or why it is malformed. -/
structure Entry where
  name : Text
  start : Nat
  stop : Nat
  line : Nat
  result : Except HeaderFault (List Text)
  deriving DecidableEq, Repr

/-- Reads the header whose opening `o` begins at a place. -/
def entryAt (t : Text) (place : Place) (o : Opening) : Option Entry := do
  let stop := place.offset + byteLength o.text
  match ← headerFrom t stop with
  | .ok h => return ⟨o.name, place.offset, h.stop, place.line, .ok h.fragments⟩
  | .error fault => return ⟨o.name, place.offset, stop, place.line, .error fault⟩

/-- Lists the headers from offset `i` on; `seen` is the place of the header before. -/
def entriesFrom (t : Text) (seen : Place) (i : Nat) : Option (List Entry) := do
  let rest ← slice? t i (byteLength t)
  match findOpening? i rest with
  | none => return []
  | some (start, o) =>
    let place ← moveTo t seen start
    let e ← entryAt t place o
    if i < e.stop ∧ e.stop ≤ byteLength t then
      let more ← entriesFrom t place e.stop
      return e :: more
    else none
termination_by byteLength t - i

/-- All headers of a text, malformed ones included. -/
def entries (t : Text) : Option (List Entry) := entriesFrom t .start 0

/-- The header in order, unless a parameter cannot be read. -/
def replacement? (s : Settings) (newline name : Text) (fragments : List Text) : Option Text :=
  match Parameter.readAll fragments with
  | .error _ => none
  | .ok ps => some (writeHeader s.layout newline name (sortParameters s.tables s.policy ps))

/-- Writes the text from offset `copied` on behind `out`, with the headers in order. -/
def reorderFrom (s : Settings) (newline t : Text) (copied : Nat) (out : Text) :
    List Entry → Option Text
  | [] => do
    let tail ← slice? t copied (byteLength t)
    return out ++ tail
  | e :: es =>
    match e.result with
    | .ok fragments => do
      let original ← slice? t e.start e.stop
      let before ← slice? t copied e.start
      let written := (replacement? s newline e.name fragments).getD original
      reorderFrom s newline t e.stop (out ++ before ++ written) es
    | .error _ => do
      let before ← slice? t copied e.stop
      reorderFrom s newline t e.stop (out ++ before) es

/-- The text with all headers in order. -/
def reorderText (s : Settings) (t : Text) : Option Text := do
  let es ← entries t
  reorderFrom s (lineEnding t) t 0 [] es

/-! ## Headers -/

theorem braceEnd_eq (p rest : Text) :
    braceEnd (p ++ ')' :: rest) (byteLength p)
      = some (if (rest.dropWhile isWhite).head? = some '{' then
          .ok (byteLength (p ++ ')' :: (rest.takeWhile isWhite ++ ['{'])))
        else .error .missingBrace) := by
  have hclose : byteLength p + 1 = byteLength (p ++ [')']) :=
    (byteLength_append_singleton p ')').symm
  have hslice := slice?_to_end (p ++ [')']) rest
  rw [List.append_assoc, List.singleton_append] at hslice
  have hlen : byteLength rest
      = byteLength (rest.takeWhile isWhite) + byteLength (rest.dropWhile isWhite) := by
    rw [← byteLength_append, List.takeWhile_append_dropWhile]
  have hstop : byteLength (p ++ ')' :: (rest.takeWhile isWhite ++ ['{']))
      = byteLength (p ++ [')']) + byteLength (rest.takeWhile isWhite) + 1 := by
    rw [List.append_cons, ← List.append_assoc, byteLength_append_singleton, byteLength_append]
    rfl
  have hwhite : minus? (byteLength rest) (byteLength (rest.dropWhile isWhite))
      = some (byteLength (rest.takeWhile isWhite)) := by
    rw [minus?, if_pos (by omega)]
    congr 1
    omega
  rw [braceEnd, hclose, hslice, hstop]
  simp only [Option.bind_eq_bind, Option.bind_some, hwhite]
  split
  · rfl
  · rfl

/-- What a header behind `p` says, to be found from the end of its opening on. -/
def headerEnd (p : Text) (h : Header) : HeaderEnd :=
  ⟨byteLength (p ++ (h.body ++ ')' :: (h.gap ++ ['{']))), h.fragments⟩

theorem readHeader_of_walk {r : Text} {w : Walk} (h : walk .code [] r = .ok w) (o : Opening) :
    readHeader o r
      = if (w.rest.dropWhile isWhite).head? = some '{' then
          .ok ⟨o, w.body, w.rest.takeWhile isWhite, fragments (w.piece :: w.pieces)⟩
        else .error .missingBrace := by
  rw [readHeader, readBlock, h]
  simp only [Except.map]
  split
  · rename_i hrest
    rw [hrest]
    rfl
  · rename_i hrest
    refine (if_neg fun hhead => ?_).symm
    obtain ⟨tail, htail⟩ := List.head?_eq_some_iff.1 hhead
    exact hrest tail htail

theorem headerFrom_eq (o : Opening) (p r : Text) :
    headerFrom (p ++ r) (byteLength p) = some ((readHeader o r).map (headerEnd p)) := by
  cases hwalk : walk .code [] r with
  | error f =>
    rw [headerFrom, blockFrom_eq, readHeader, readBlock, hwalk]
    rfl
  | ok w =>
    have hr : r = w.body ++ ')' :: w.rest := (walk_eq_ok_iff.1 hwalk).eq_append
    have hbrace := braceEnd_eq (p ++ w.body) w.rest
    rw [List.append_assoc, ← hr] at hbrace
    rw [headerFrom, blockFrom_eq, readHeader_of_walk hwalk, hwalk]
    simp only [Except.map, Option.bind_eq_bind, Option.bind_some, blockEnd, hbrace]
    by_cases hopen : (w.rest.dropWhile isWhite).head? = some '{'
    · rw [if_pos hopen, if_pos hopen, List.append_assoc]
      rfl
    · rw [if_neg hopen, if_neg hopen]
      rfl

/-! ## The scan -/

/-- The first opening in a text, and the items before it, of which there are none. -/
theorem findOpening?_cases (i : Nat) (place : Place) (cs : Text) :
    (findOpening? i cs = none ∧ itemsFrom place (segments cs) = []) ∨
      ∃ w o r, cs = w ++ (o.text ++ r) ∧ o.IsValid ∧
        findOpening? i cs = some (i + byteLength w, o) ∧
        itemsFrom place (segments cs) = itemsFrom (place.after w) (segments (o.text ++ r)) := by
  induction cs generalizing i place with
  | nil => exact Or.inl ⟨rfl, rfl⟩
  | cons c cs ih =>
    cases hopen : readOpening? (c :: cs) with
    | some found =>
      obtain ⟨o, r⟩ := found
      obtain ⟨ho, heq⟩ := readOpening?_eq_some_iff.1 hopen
      refine Or.inr ⟨[], o, r, heq, ho, ?_, ?_⟩
      · simp only [findOpening?, hopen]
        rfl
      · rw [heq]
        rfl
    | none =>
      have hlead : (Segment.plain c).Leads cs := hopen
      have hsegments : segments (c :: cs) = .plain c :: segments cs := segments_append hlead
      have hitems : itemsFrom place (segments (c :: cs))
          = itemsFrom (place.after [c]) (segments cs) := by
        rw [hsegments]
        rfl
      have hfind : findOpening? i (c :: cs) = findOpening? (i + c.utf8Size) cs := by
        simp only [findOpening?, hopen]
      rw [hfind, hitems]
      rcases ih (i + c.utf8Size) (place.after [c]) with hnone | ⟨w, o, r, rfl, ho, hfound, hrest⟩
      · exact Or.inl hnone
      · refine Or.inr ⟨c :: w, o, r, rfl, ho, ?_, ?_⟩
        · rw [hfound, byteLength_cons, Nat.add_assoc]
        · rw [hrest, Place.after_after]
          rfl

theorem moveTo_eq (q m r : Text) :
    moveTo (q ++ (m ++ r)) (Place.start.after q) (byteLength (q ++ m))
      = some (Place.start.after (q ++ m)) := by
  have hoffset : (Place.start.after q).offset = byteLength q := Nat.zero_add _
  rw [moveTo, hoffset, slice?_append]
  simp [Place.after, Place.start, lineFeeds, Nat.add_assoc]

/-- What the scanner says about an item. -/
def entry (i : ScanItem) : Entry :=
  { name := i.found.name
    start := i.place.offset
    stop := i.stop
    line := i.place.line
    result :=
      match i.found with
      | .header h => .ok h.fragments
      | .malformed _ fault => .error fault }

theorem stop_entry (a : Text) (f : Found) :
    (entry ⟨Place.start.after a, f⟩).stop = byteLength (a ++ f.text) := by
  simp [entry, ScanItem.stop, Place.after, Place.start]

/-- An opening begins a segment, and reading it by offsets says about the segment what the scan
says. -/
theorem exists_entryAt {o : Opening} (ho : o.IsValid) (a r : Text) :
    ∃ f r', o.text ++ r = f.text ++ r' ∧ f.text ≠ [] ∧
      (∀ place, itemsFrom place (segments (o.text ++ r))
        = ⟨place, f⟩ :: itemsFrom (place.after f.text) (segments r')) ∧
      entryAt (a ++ (o.text ++ r)) (Place.start.after a) o
        = some (entry ⟨Place.start.after a, f⟩) := by
  have hoffset : (Place.start.after a).offset = byteLength a := Nat.zero_add _
  have hheader := headerFrom_eq o (a ++ o.text) r
  rw [List.append_assoc, byteLength_append] at hheader
  cases hr : readHeader o r with
  | error fault =>
    have hlead : (Segment.malformed o fault).Leads r := ⟨ho, hr⟩
    have hsegments : segments (o.text ++ r) = .malformed o fault :: segments r :=
      segments_append hlead
    refine ⟨.malformed o fault, r, rfl, hlead.text_ne_nil, fun place => by rw [hsegments]; rfl, ?_⟩
    rw [entryAt, hoffset, hheader, hr]
    simp [entry, Except.map, ScanItem.stop, Found.text, Found.name, hoffset]
  | ok h =>
    obtain ⟨hh, rfl, r', rfl⟩ := (readHeader_eq_ok_iff ho).1 hr
    have hlead : (Segment.header h).Leads r' := hh
    have hsegments : segments (h.text ++ r') = .header h :: segments r' := segments_append hlead
    have htext := h.text_append r'
    refine ⟨.header h, r', htext.symm, hlead.text_ne_nil, fun place => ?_, ?_⟩
    · rw [← htext, hsegments]
      rfl
    · rw [entryAt, hoffset, hheader, hr]
      simp [entry, Except.map, ScanItem.stop, Found.text, Found.name, hoffset, headerEnd,
        Header.text]

/-- Behind what is read, the scan is further on and still in the text. -/
theorem moves_on {i : Nat} {a read : Text} (hi : i ≤ byteLength a) (hread : read ≠ []) (r : Text) :
    i < byteLength (a ++ read) ∧ byteLength (a ++ read) ≤ byteLength (a ++ (read ++ r)) := by
  have hpos := byteLength_pos hread
  simp only [byteLength_append]
  omega

/-- From behind `q ++ m` on, the headers are those of the segments that follow, if `q` is what
stands in front of the last one before. -/
theorem entriesFrom_eq (q m cs : Text) :
    entriesFrom (q ++ (m ++ cs)) (Place.start.after q) (byteLength (q ++ m))
      = some ((itemsFrom (Place.start.after (q ++ m)) (segments cs)).map entry) := by
  induction hn : cs.length using Nat.strongRecOn generalizing q m cs with
  | ind n ih =>
    have hslice := slice?_to_end (q ++ m) cs
    rw [List.append_assoc] at hslice
    rw [entriesFrom, hslice]
    simp only [Option.bind_eq_bind, Option.bind_some]
    rcases findOpening?_cases (byteLength (q ++ m)) (Place.start.after (q ++ m)) cs with
      ⟨hfind, hitems⟩ | ⟨w, o, r, rfl, ho, hfind, hitems⟩
    · rw [hfind, hitems]
      rfl
    · have hstart : byteLength (q ++ m) + byteLength w = byteLength (q ++ (m ++ w)) := by
        simp [Nat.add_assoc]
      have hfront : byteLength (q ++ m) ≤ byteLength (q ++ (m ++ w)) := by omega
      have htext : q ++ (m ++ (w ++ (o.text ++ r))) = q ++ (m ++ w) ++ (o.text ++ r) := by simp
      have hplace := moveTo_eq q (m ++ w) (o.text ++ r)
      rw [← List.append_assoc] at hplace
      rw [hfind, hitems, hstart, htext, Place.after_after, List.append_assoc q m w]
      -- only the text `a` in front of the opening counts from here on
      generalize q ++ (m ++ w) = a at hplace hfront
      obtain ⟨f, r', hread, hne, hfirst, hentry⟩ := exists_entryAt ho a r
      have hlt : r'.length < n := by
        have hlen := congrArg List.length hread
        have hpos := List.length_pos_of_ne_nil hne
        simp only [List.length_append] at hlen hn
        omega
      have hrest := ih r'.length hlt a f.text r' rfl
      rw [hfirst, Place.after_after, List.map_cons]
      simp only [hplace, hentry, Option.bind_some, stop_entry]
      rw [hread, if_pos (moves_on hfront hne r'), hrest]
      rfl

/-- The headers that are found by offsets are the items of the scan. -/
theorem entries_eq (t : Text) : entries t = some ((scan t).map entry) :=
  entriesFrom_eq [] [] t

/-! ## The pass -/

theorem replacement?_getD (s : Settings) (newline : Text) (line : Nat) (h : Header) :
    (replacement? s newline h.opening.name h.fragments).getD h.text
      = (step s newline line (.header h)).text := by
  rw [replacement?, step]
  cases Parameter.readAll h.fragments <;> rfl

section Pass

variable (s : Settings) (newline p g r out : Text) (line : Nat) (es : List Entry)

theorem reorderFrom_malformed (o : Opening) (f : HeaderFault) :
    reorderFrom s newline (p ++ (g ++ (o.text ++ r))) (byteLength p) out
        (entry ⟨⟨byteLength (p ++ g), line⟩, .malformed o f⟩ :: es)
      = reorderFrom s newline (p ++ (g ++ (o.text ++ r))) (byteLength (p ++ (g ++ o.text)))
          (out ++ (g ++ o.text)) es := by
  have hresult : (entry ⟨⟨byteLength (p ++ g), line⟩, .malformed o f⟩).result = .error f := rfl
  have hstop : (entry ⟨⟨byteLength (p ++ g), line⟩, .malformed o f⟩).stop
      = byteLength (p ++ (g ++ o.text)) := by
    simp [entry, ScanItem.stop, Found.text, Nat.add_assoc]
  have hbefore := slice?_append p (g ++ o.text) r
  rw [List.append_assoc g] at hbefore
  rw [reorderFrom, hresult, hstop, hbefore]
  rfl

theorem reorderFrom_header (h : Header) :
    reorderFrom s newline (p ++ (g ++ (h.text ++ r))) (byteLength p) out
        (entry ⟨⟨byteLength (p ++ g), line⟩, .header h⟩ :: es)
      = reorderFrom s newline (p ++ (g ++ (h.text ++ r))) (byteLength (p ++ (g ++ h.text)))
          (out ++ (g ++ (step s newline line (.header h)).text)) es := by
  have hresult : (entry ⟨⟨byteLength (p ++ g), line⟩, .header h⟩).result = .ok h.fragments := rfl
  have hname : (entry ⟨⟨byteLength (p ++ g), line⟩, .header h⟩).name = h.opening.name := rfl
  have hstart : (entry ⟨⟨byteLength (p ++ g), line⟩, .header h⟩).start = byteLength (p ++ g) := rfl
  have hstop : (entry ⟨⟨byteLength (p ++ g), line⟩, .header h⟩).stop
      = byteLength (p ++ (g ++ h.text)) := by
    simp [entry, ScanItem.stop, Found.text, Nat.add_assoc]
  have horiginal := slice?_append (p ++ g) h.text r
  rw [List.append_assoc, List.append_assoc] at horiginal
  have hbefore := slice?_append p g (h.text ++ r)
  rw [reorderFrom, hresult, hname, hstart, hstop, horiginal, hbefore, ← replacement?_getD,
    ← List.append_assoc out]
  rfl

end Pass

/-- From behind `p` on, the headers among segments are put in order; `g` is the text in front of
them that is still to be copied. -/
theorem reorderFrom_eq (s : Settings) (newline p g out : Text) (line : Nat) (ss : List Segment) :
    reorderFrom s newline (p ++ (g ++ written ss)) (byteLength p) out
        ((itemsFrom ⟨byteLength (p ++ g), line⟩ ss).map entry)
      = some (out ++ (g ++ (steps s newline line ss).flatMap (·.text))) := by
  induction ss generalizing p g out line with
  | nil =>
    simp only [itemsFrom, List.map_nil, reorderFrom, written_nil, List.append_nil, steps,
      List.flatMap_nil, slice?_to_end]
    rfl
  | cons seg ss ih =>
    have hafter : Place.after ⟨byteLength (p ++ g), line⟩ seg.text
        = ⟨byteLength (p ++ (g ++ seg.text)), line + lineFeeds seg.text⟩ := by
      simp [Place.after, Nat.add_assoc]
    rw [itemsFrom_cons, hafter, written_cons, steps, List.flatMap_cons]
    cases seg with
    | plain c =>
      have hrest := ih p (g ++ [c]) out (line + lineFeeds [c])
      simp only [List.append_assoc] at hrest
      exact hrest
    | malformed o f =>
      have hrest := ih (p ++ (g ++ o.text)) [] (out ++ (g ++ o.text)) (line + lineFeeds o.text)
      simp only [List.append_assoc, List.append_nil, List.nil_append] at hrest
      exact (reorderFrom_malformed ..).trans hrest
    | header h =>
      have hrest := ih (p ++ (g ++ h.text)) []
        (out ++ (g ++ (step s newline line (.header h)).text)) (line + lineFeeds h.text)
      simp only [List.append_assoc, List.append_nil, List.nil_append] at hrest
      exact (reorderFrom_header ..).trans hrest

/-- No access to a text by offsets fails: the headers that are found and the text that is written
are those of the scan and of the pass.  A block that begins behind the end of the text is unclosed,
which is a fault and no failure. -/
theorem bytewise_in_range (s : Settings) (t : Text) (n : Nat) :
    entries t = some ((scan t).map entry) ∧ reorderText s t = some (reorder s t).text ∧
      blockFrom t [] [] [] (byteLength t + n) = some (.error .unclosedList) := by
  refine ⟨entries_eq t, ?_, blockFrom_past_end t [] [] [] n⟩
  have hpass := reorderFrom_eq s (lineEnding t) [] [] [] 1 (segments t)
  simp only [List.nil_append, written_segments] at hpass
  rw [reorderText, entries_eq]
  rw [reorder_eq_sum]
  exact hpass

end RuleFormat.Bytewise
