import RuleFormat.Proofs.Block

/-!
# Fragments

A text is *verbatim* when all turns over it keep what they read: it has no comment, no comma outside
of its brackets, and every bracket and string literal that it opens is closed in it.  Such a text
shows in a block just as it is written, wherever it is put (`Verbatim.reads_append`).

The pieces of a block, comments taken out, are verbatim (`Reads.verbatim`), and they stay so when
white space is collapsed (`Verbatim.collapse`).  So a fragment of one block is a fragment of every
block that it is written into (`isFragment_of_readBlock`).
-/

namespace RuleFormat

/-! ## Verbatim texts -/

/-- All turns over a text, from a mode inside some brackets, keep what they read, and at its end the
reader stands in code outside of all brackets. -/
inductive Verbatim : Mode → List Bracket → Text → Prop where
  | nil : Verbatim .code [] []
  | keep {m m' : Mode} {inner inner' : List Bracket} {raw t : Text}
      (hk : Keeps m inner raw t m' inner') (h : Verbatim m' inner' t) : Verbatim m inner (raw ++ t)

/-- A verbatim text begins with a turn that keeps its first character. -/
theorem Verbatim.exists_keeps {m : Mode} {inner : List Bracket} {c : Char} {t : Text}
    (h : Verbatim m inner (c :: t)) :
    ∃ raw ahead m' inner', c :: t = c :: raw ++ ahead ∧ Keeps m inner (c :: raw) ahead m' inner' ∧
      Verbatim m' inner' ahead := by
  generalize hu : c :: t = u at h
  cases h with
  | nil => cases hu
  | @keep _ m' _ inner' raw v hk hv =>
    cases raw with
    | nil => exact absurd rfl hk.ne_nil
    | cons d raw =>
      obtain ⟨rfl, -⟩ := List.cons.inj hu
      exact ⟨raw, v, m', inner', hu ▸ rfl, hk, hv⟩

/-- A verbatim text can be written in front of what is read in code, if no mark comes about where
they meet. -/
theorem Verbatim.reads_append {m : Mode} {inner : List Bracket} {f t : Text} {w : Walk}
    (hf : Verbatim m inner f) (ht : Reads .code [] t w)
    (hhead : ∀ d, t.head? = some d → Inert d) : Reads m inner (f ++ t) (w.put f f) := by
  induction hf with
  | nil => exact ht
  | @keep m m' inner inner' raw f hk _ ih =>
    have hk' : Keeps m inner raw (f ++ t) m' inner' := by
      refine hk.of_head fun d hd => ?_
      cases f with
      | nil => exact Or.inr (hhead d hd)
      | cons c f => exact Or.inl hd
    have h := Reads.keep hk' ih
    rw [← List.append_assoc] at h
    simpa [Walk.put] using h

/-! ## White space in verbatim texts -/

/-- White characters are no brackets, quotes or commas, and make no marks. -/
theorem Keeps.white {c : Char} (hc : isWhite c = true) (inner : List Bracket) (t : Text) :
    Keeps .code inner [c] t .code inner := by
  have hne : ∀ d, isWhite d = false → c ≠ d := fun _ hd => ne_of_isWhite hc hd
  have h₁ := hne '(' (by decide)
  have h₂ := hne '[' (by decide)
  have h₃ := hne '{' (by decide)
  have h₄ := hne '<' (by decide)
  refine .other ?_ ?_ (hne '"' (by decide)) (fun h => hne ',' (by decide) h.1) fun d _ => ?_
  · unfold Bracket.ofOpen?
    split <;> simp_all
  · simp [isClose, hne ')' (by decide), hne ']' (by decide), hne '}' (by decide),
      hne '>' (by decide)]
  · simp [joins, hne '/' (by decide), hne '-' (by decide)]

theorem Keeps.string_white {c : Char} (hc : isWhite c = true) (inner : List Bracket) (t : Text) :
    Keeps .string inner [c] t .string inner := by
  have hk : Keeps .string inner [c] t _ inner := .string
  have hquote : c ≠ '"' := ne_of_isWhite hc (by decide)
  have hescape : c ≠ '\\' := ne_of_isWhite hc (by decide)
  rwa [if_neg hquote, if_neg hescape] at hk

/-- The mode behind white space: an escape is over. -/
def Mode.afterWhite : Mode → Mode
  | .escape => .string
  | m => m

theorem Mode.afterWhite_idem (m : Mode) : m.afterWhite.afterWhite = m.afterWhite := by
  cases m <;> rfl

theorem Keeps.afterWhite {m m' : Mode} {inner inner' : List Bracket} {c : Char} {raw t : Text}
    (hk : Keeps m inner (c :: raw) t m' inner') (hc : isWhite c = true) :
    raw = [] ∧ m' = m.afterWhite ∧ inner' = inner := by
  cases hk with
  | quote => exact absurd hc (by decide)
  | arrow => exact absurd hc (by decide)
  | opens hb =>
    cases Keeps.white hc inner t with
    | other hopen => rw [hb] at hopen; cases hopen
  | @closes outer _ b => exact absurd hc (by cases b <;> decide)
  | other => exact ⟨rfl, rfl, rfl⟩
  | string =>
    have hquote : c ≠ '"' := ne_of_isWhite hc (by decide)
    have hescape : c ≠ '\\' := ne_of_isWhite hc (by decide)
    exact ⟨rfl, by rw [if_neg hquote, if_neg hescape]; rfl, rfl⟩
  | escape => exact ⟨rfl, rfl, rfl⟩

/-- A white character in front of a verbatim text only ends an escape. -/
theorem verbatim_white_cons {c : Char} (hc : isWhite c = true) {m : Mode} {inner : List Bracket}
    {t : Text} : Verbatim m inner (c :: t) ↔ Verbatim m.afterWhite inner t := by
  constructor
  · intro h
    obtain ⟨raw, v, m', inner', heq, hk, hv⟩ := h.exists_keeps
    obtain ⟨rfl, rfl, rfl⟩ := hk.afterWhite hc
    obtain rfl := List.cons.inj heq |>.2
    exact hv
  · intro h
    have hk : Keeps m inner [c] t m.afterWhite inner := by
      cases m with
      | code => exact .white hc inner t
      | line => cases h with | keep hk _ => cases hk
      | comment d => cases h with | keep hk _ => cases hk
      | string => exact .string_white hc inner t
      | escape => exact .escape
    exact .keep hk h

theorem verbatim_nil_iff {m : Mode} {inner : List Bracket} :
    Verbatim m inner [] ↔ m = .code ∧ inner = [] := by
  constructor
  · intro h
    generalize hu : ([] : Text) = u at h
    cases h with
    | nil => exact ⟨rfl, rfl⟩
    | keep hk _ => exact absurd (List.append_eq_nil_iff.1 hu.symm).1 hk.ne_nil
  · rintro ⟨rfl, rfl⟩
    exact .nil

theorem Keeps.not_white {m m' : Mode} {inner inner' : List Bracket} {c : Char} {raw t : Text}
    (hk : Keeps m inner (c :: raw) t m' inner') (hc : isWhite c = false) :
    ∀ d ∈ c :: raw, isWhite d = false := by
  cases hk with
  | arrow =>
    have hany : ['-', '>'].any isWhite = false := by decide
    simpa using hany
  | _ => simpa using hc

theorem Keeps.squeeze {m m' : Mode} {inner inner' : List Bracket} {raw t : Text}
    (hk : Keeps m inner raw t m' inner') : Keeps m inner raw (squeeze t) m' inner' := by
  refine hk.of_head fun d hd => ?_
  rcases head?_squeeze hd with rfl | ht
  · exact Or.inr (by unfold Inert; decide)
  · exact Or.inl ht

/-- Squeezing the white space of a verbatim text leaves it verbatim.  Each run of white space leads
to the mode that a single blank leads to. -/
theorem Verbatim.squeeze {m : Mode} {inner : List Bracket} {t : Text} (h : Verbatim m inner t) :
    Verbatim m inner (squeeze t) := by
  induction h with
  | nil => exact .nil
  | @keep m m' inner inner' raw t hk _ ih =>
    obtain ⟨c, raw, rfl⟩ := List.exists_cons_of_ne_nil hk.ne_nil
    by_cases hc : isWhite c = true
    · obtain ⟨rfl, rfl, rfl⟩ := hk.afterWhite hc
      rw [List.singleton_append, squeeze_cons_of_white hc]
      by_cases ht : collapse t = []
      · have hnil : RuleFormat.squeeze t = [] := by simp [RuleFormat.squeeze, ht]
        rw [hnil, verbatim_nil_iff] at ih
        obtain ⟨hm, rfl⟩ := ih
        rw [if_pos ht, verbatim_nil_iff]
        exact ⟨by cases m <;> simp_all [Mode.afterWhite], rfl⟩
      · rw [if_neg ht, verbatim_white_cons (by decide)]
        rcases squeeze_eq_or t with hs | hs
        · rwa [hs] at ih
        · rwa [hs, verbatim_white_cons (by decide), Mode.afterWhite_idem] at ih
    · have hraw := hk.not_white (by simpa using hc)
      rw [squeeze_append_of_not_white hraw]
      exact .keep hk.squeeze ih

theorem Verbatim.collapse {inner : List Bracket} {t : Text} (h : Verbatim .code inner t) :
    Verbatim .code inner (collapse t) := by
  have hs := h.squeeze
  rcases squeeze_eq_or t with ht | ht
  · rwa [ht] at hs
  · rwa [ht, verbatim_white_cons (by decide)] at hs

/-! ## The pieces of a block -/

/-- The mode in which the piece goes on: a comment is over where it shows. -/
def Mode.outside : Mode → Mode
  | .line => .code
  | .comment _ => .code
  | m => m

theorem Keeps.outside {m m' : Mode} {inner inner' : List Bracket} {raw t : Text}
    (hk : Keeps m inner raw t m' inner') : m.outside = m ∧ m'.outside = m' := by
  cases hk with
  | string =>
    refine ⟨rfl, ?_⟩
    split
    · rfl
    · split <;> rfl
  | _ => exact ⟨rfl, rfl⟩

theorem Hides.outside {m m' : Mode} {raw shown t : Text} (hh : Hides m raw shown t m') :
    m.outside = .code ∧ m'.outside = .code ∧ ∀ c ∈ shown, isWhite c = true := by
  cases hh <;> exact ⟨rfl, rfl, List.all_eq_true.1 (by decide)⟩

/-- Outside of comments, a piece begins with the character that is read, or with a blank. -/
theorem Reads.head?_piece {m : Mode} {inner : List Bracket} {t : Text} {w : Walk}
    (h : Reads m inner t w) (hm : m.outside = m) {d : Char} (hd : w.piece.head? = some d) :
    t.head? = some d ∨ Inert d := by
  cases h with
  | done => cases hd
  | cut => cases hd
  | @keep _ _ _ _ raw t w hk _ =>
    obtain ⟨c, raw, rfl⟩ := List.exists_cons_of_ne_nil hk.ne_nil
    exact Or.inl hd
  | hide hh =>
    cases hh with
    | lineStart => exact Or.inr (by cases hd; unfold Inert; decide)
    | commentStart => exact Or.inr (by cases hd; unfold Inert; decide)
    | _ => cases hm

theorem Verbatim.blank_append {s t : Text} {inner : List Bracket}
    (hs : ∀ c ∈ s, isWhite c = true) (h : Verbatim .code inner t) :
    Verbatim .code inner (s ++ t) := by
  induction s with
  | nil => exact h
  | cons c s ih =>
    rw [List.cons_append, verbatim_white_cons (hs c (by simp))]
    exact ih fun d hd => hs d (by simp [hd])

/-- The pieces of a block are verbatim. -/
theorem Reads.verbatim {m : Mode} {inner : List Bracket} {t : Text} {w : Walk}
    (h : Reads m inner t w) :
    Verbatim m.outside inner w.piece ∧ ∀ p ∈ w.pieces, Verbatim .code [] p := by
  induction h with
  | done => exact ⟨.nil, by simp [Walk.done]⟩
  | @cut t w _ ih =>
    refine ⟨.nil, fun p hp => ?_⟩
    rcases List.mem_cons.1 hp with rfl | hp
    · exact ih.1
    · exact ih.2 p hp
  | @keep m m' inner inner' raw t w hk ht ih =>
    obtain ⟨hm, hm'⟩ := hk.outside
    rw [hm'] at ih
    rw [hm]
    exact ⟨.keep (hk.of_head fun d hd => ht.head?_piece hm' hd) ih.1, ih.2⟩
  | @hide m m' inner raw shown t w hh _ ih =>
    obtain ⟨hm, hm', hshown⟩ := hh.outside
    rw [hm'] at ih
    rw [hm]
    exact ⟨ih.1.blank_append hshown, ih.2⟩

/-! ## Fragments -/

/-- A text that a block can have as a fragment. -/
structure IsFragment (f : Text) : Prop where
  ne_nil : f ≠ []
  collapsed : collapse f = f
  verbatim : Verbatim .code [] f

theorem isFragment_of_mem_fragments {ps : List Text} (h : ∀ p ∈ ps, Verbatim .code [] p) {f : Text}
    (hf : f ∈ fragments ps) : IsFragment f := by
  obtain ⟨hmem, hne⟩ := List.mem_filter.1 hf
  obtain ⟨p, hp, rfl⟩ := List.mem_map.1 hmem
  exact ⟨by simpa using hne, collapse_idem p, (h p hp).collapse⟩

/-- The fragments of a block can be written into any other. -/
theorem isFragment_of_readBlock {t f : Text} {b : Block} (h : readBlock t = .ok b)
    (hf : f ∈ b.fragments) : IsFragment f := by
  obtain ⟨w, hw, rfl⟩ := readBlock_eq_ok_iff.1 h
  refine isFragment_of_mem_fragments (fun p hp => ?_) hf
  rcases List.mem_cons.1 hp with rfl | hp
  · exact hw.verbatim.1
  · exact hw.verbatim.2 p hp

end RuleFormat
