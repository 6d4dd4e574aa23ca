import Mathlib.Data.List.Chain
import RuleFormat.Proofs.Reorder

/-!
# Line feeds and carriage returns

A pass never mixes line endings.  In a text in which every line feed has a carriage return in front
of it, the same is true after a pass; and a pass makes no such pair in a text that has none
(`line_endings_preserved`).

A pair can be cut in two where segments meet, so the first half is followed along the neighbours in
a text (`feedsReturned_iff`).  The segments before and after a pass begin and end with the same
characters, and so they meet in the same neighbours.
-/

namespace RuleFormat

variable {s : Settings} {t u : Text}

/-! ## Texts in which line feeds are returned -/

/-- Every line feed of a text has a carriage return in front of it. -/
def FeedsReturned (t : Text) : Prop := ∀ u v, t = u ++ '\n' :: v → u.getLast? = some '\r'

/-- Of two neighbours, the second is a line feed only if the first is a carriage return. -/
def Returned (c d : Char) : Prop := d = '\n' → c = '\r'

instance : DecidableRel Returned := fun c d => inferInstanceAs (Decidable (d = '\n' → c = '\r'))

/-- Line feeds are returned when the text does not begin with one and all its neighbours agree. -/
theorem feedsReturned_iff : FeedsReturned t ↔ t.head? ≠ some '\n' ∧ t.IsChain Returned := by
  rw [List.isChain_iff_forall_rel_of_append_cons_cons]
  constructor
  · intro h
    refine ⟨fun hhead => ?_, ?_⟩
    · obtain ⟨v, rfl⟩ := List.head?_eq_some_iff.1 hhead
      exact absurd (h [] v rfl) (by simp)
    · rintro c d u v rfl rfl
      have hlast := h (u ++ [c]) v (by simp)
      simpa using hlast
  · rintro ⟨hhead, hchain⟩ u v rfl
    rcases List.eq_nil_or_concat u with rfl | ⟨u, c, rfl⟩
    · exact absurd rfl hhead
    · obtain rfl : c = '\r' := @hchain c '\n' u v (by simp) rfl
      simp

instance (t : Text) : Decidable (FeedsReturned t) := decidable_of_iff _ feedsReturned_iff.symm

theorem FeedsReturned.append (ht : FeedsReturned t) (hu : FeedsReturned u) :
    FeedsReturned (t ++ u) := by
  rw [feedsReturned_iff] at ht hu ⊢
  constructor
  · rw [List.head?_append]
    cases hhead : t.head? with
    | none => simpa using hu.1
    | some c => simpa [hhead] using ht.1
  · refine List.isChain_append.2 ⟨ht.2, hu.2, fun c _ d hd hfeed => ?_⟩
    subst hfeed
    exact absurd hd hu.1

theorem feedsReturned_of_not_mem (h : '\n' ∉ t) : FeedsReturned t := by
  rintro u v rfl
  exact absurd (by simp) h

/-! ## Written headers -/

theorem feedsReturned_pad (n : Nat) : FeedsReturned (pad n) :=
  feedsReturned_of_not_mem fun h => absurd (List.eq_of_mem_replicate h) (by decide)

theorem feedsReturned_writeEntries (indent : Nat) {es : List Entry}
    (hes : ∀ e ∈ es, '\n' ∉ e.text) : FeedsReturned (writeEntries indent ['\r', '\n'] es) := by
  have hpad := feedsReturned_pad indent
  have hnewline : FeedsReturned ['\r', '\n'] := by decide
  induction es with
  | nil => exact feedsReturned_of_not_mem (by simp [writeEntries])
  | cons e es ih =>
    obtain ⟨he, hes⟩ := List.forall_mem_cons.1 hes
    have hrest := ih hes
    cases e with
    | comment text =>
      have htext : FeedsReturned text := feedsReturned_of_not_mem he
      exact ((hpad.append htext).append hnewline).append hrest
    | param text =>
      have htext : FeedsReturned text := feedsReturned_of_not_mem he
      have hcomma : FeedsReturned (if es.any Entry.isParam then [','] else []) := by
        split <;> exact feedsReturned_of_not_mem (by decide)
      exact (((hpad.append htext).append hcomma).append hnewline).append hrest

/-- In a header that is written with carriage returns, all line feeds are returned. -/
theorem feedsReturned_writeHeader (l : Layout) {name : Text} {g : Groups}
    (hword : ∀ c ∈ name, isWord c = true) (hg : ∀ f ∈ g.texts, IsFragment f) :
    FeedsReturned (writeHeader l ['\r', '\n'] name g) := by
  have hpad := feedsReturned_pad l.headerIndent
  have hnewline : FeedsReturned ['\r', '\n'] := by decide
  have hname : FeedsReturned name :=
    feedsReturned_of_not_mem fun h => absurd (hword _ h) (by decide)
  have hopening : FeedsReturned (Opening.text ⟨['\r', '\n'] ++ pad l.headerIndent, name⟩) := by
    have hattribute : FeedsReturned ruleAttribute := by decide
    have hbefore : FeedsReturned beforeName := by decide
    have hafter : FeedsReturned afterName := by decide
    exact (((hattribute.append (hnewline.append hpad)).append hbefore).append hname).append hafter
  have hentries := feedsReturned_writeEntries l.paramIndent
    (not_mem_entries hg (c := '\n') (by decide) (by decide))
  have hend : FeedsReturned ") \x7b".toList := by decide
  exact (((hopening.append hnewline).append hentries).append hpad).append hend

/-! ## A whole text -/

theorem Segment.Leads.isChain_reordered {seg : Segment} {rest : Text} (hseg : seg.Leads rest)
    (h : seg.text.IsChain Returned) :
    (seg.reordered s ['\r', '\n']).text.IsChain Returned := by
  cases seg with
  | plain c => exact h
  | malformed o f => exact h
  | header g =>
    have hh : g.IsValid := hseg
    rw [Segment.reordered, Segment.text]
    cases hps : Parameter.readAll g.fragments with
    | error e =>
      rw [Header.reordered_of_error hps]
      exact h
    | ok ps =>
      rw [Header.reordered_of_ok hps, text_writtenHeader]
      have hreturned := feedsReturned_writeHeader s.layout hh.opening.name_word
        (IsFragment.of_sortParameters hh hps s.tables s.policy)
      exact (feedsReturned_iff.1 hreturned).2

theorem isChain_written_reordered {ss : List Segment} (hss : Coherent ss)
    (h : (written ss).IsChain Returned) :
    (written (ss.map (·.reordered s ['\r', '\n']))).IsChain Returned := by
  induction ss with
  | nil => exact h
  | cons seg ss ih =>
    rw [written_cons, List.isChain_append] at h
    rw [List.map_cons, written_cons, List.isChain_append, Segment.getLast?_reordered,
      head?_written_reordered]
    exact ⟨hss.1.isChain_reordered h.1, ih hss.2 h.2.1, h.2.2⟩

theorem feedsReturned_reorder (hpair : hasReturnFeed t = true) (h : FeedsReturned t) :
    FeedsReturned (reorder s t).text := by
  have hnewline : lineEnding t = ['\r', '\n'] := by rw [lineEnding, if_pos hpair]
  have hcoherent := (coherent_segments t).2
  rw [← written_segments t, feedsReturned_iff] at h
  rw [text_reorder, hnewline, feedsReturned_iff, head?_written_reordered]
  exact ⟨h.1, isChain_written_reordered hcoherent h.2⟩

theorem hasReturnFeed_iff : hasReturnFeed t = true ↔ ['\r', '\n'] <:+: t := by
  induction t with
  | nil => simp [hasReturnFeed]
  | cons c t ih =>
    have hfront : (c == '\r' && t.head? == some '\n') = true ↔ ['\r', '\n'] <+: c :: t := by
      cases t with
      | nil => simp
      | cons d t => simp [@eq_comm Char '\r', @eq_comm Char '\n']
    rw [hasReturnFeed, Bool.or_eq_true, hfront, ih, List.infix_cons_iff]

/-- **A pass preserves line endings.**  If a text has a carriage return with a line feed behind it,
and every line feed has a carriage return in front of it, then so has every line feed after a pass.
If a text has no such pair, then it has none after a pass, wherever carriage returns stand alone. -/
theorem line_endings_preserved (s : Settings) (t : Text) :
    (['\r', '\n'] <:+: t → FeedsReturned t → FeedsReturned (reorder s t).text) ∧
      (¬['\r', '\n'] <:+: t → ¬['\r', '\n'] <:+: (reorder s t).text) := by
  simp only [← hasReturnFeed_iff]
  refine ⟨feedsReturned_reorder, fun hnone => ?_⟩
  rwa [hasReturnFeed_reorder]

/-- A rule in lines that all end in a carriage return and a line feed, with a comment and a string
literal that run over two lines. -/
def returnedRules : Text :=
  "//\r\n#[rule] pub fn [< $f _a >](b: u8 /*\r\n*/, #[doc = \"\r\n\"] c: u8)\r\n\x7b\r\n\x7d"

/-- A rule between carriage returns that stand alone. -/
def bareRules : Text := "\r#[rule]\rpub fn [< $f _a >](b: u8,\r c: u8) \x7b\r \n\x7d"

theorem line_endings_preserved_rules :
    (['\r', '\n'] <:+: returnedRules ∧ FeedsReturned returnedRules ∧
      (reorder overlappingSettings returnedRules).report.changed = 1 ∧
      FeedsReturned (reorder overlappingSettings returnedRules).text) ∧
    ¬['\r', '\n'] <:+: bareRules ∧ (reorder overlappingSettings bareRules).report.changed = 1 ∧
      ¬['\r', '\n'] <:+: (reorder overlappingSettings bareRules).text := by
  have hpair : ['\r', '\n'] <:+: returnedRules := hasReturnFeed_iff.1 (by decide)
  have hfeeds : FeedsReturned returnedRules := by decide +kernel
  have hnone : ¬['\r', '\n'] <:+: bareRules := by
    rw [← hasReturnFeed_iff]
    decide
  obtain ⟨hreturned, -⟩ := line_endings_preserved overlappingSettings returnedRules
  obtain ⟨-, hbare⟩ := line_endings_preserved overlappingSettings bareRules
  exact ⟨⟨hpair, hfeeds, by decide +kernel, hreturned hpair hfeeds⟩, hnone, by decide +kernel,
    hbare hnone⟩

end RuleFormat
