import Mathlib.Data.List.Chain
import Mathlib.Data.List.Infix
import RuleFormat.Text.Basic

/-!
# White space: words, collapsing and squeezing

What `words` and `collapse` do to a text that is put together from parts.  A white character parts
the words on its two sides (`words_append_white`), blank texts at either end do not matter
(`collapse_blank_append`, `collapse_append_blank`), and collapsing a second time changes nothing
(`collapse_idem`).

`squeeze` is what `collapse` does behind a character that is not white: a run of white space at the
front becomes one blank and does not go away.  With it `collapse` can be followed from character to
character (`collapse_cons_of_not_white`, `squeeze_cons_of_white`).

A part between two characters that are not white is collapsed by itself (`collapse_isInfix`).  It comes
out as it was exactly when its white space is single blanks, when it is `Tight`
(`infix_collapse_iff`).
-/

namespace RuleFormat

theorem ne_of_isWhite {c d : Char} (hc : isWhite c = true) (hd : isWhite d = false) : c ≠ d := by
  rintro rfl
  rw [hc] at hd
  cases hd

/-! ## Words -/

@[simp] theorem words_nil : words [] = [] := rfl

/-- A white character parts the words on its two sides. -/
theorem words_append_white {c : Char} (hc : isWhite c = true) (s t : Text) :
    words (s ++ c :: t) = words s ++ words t := by
  unfold words
  rw [List.splitOnP_append_cons s t hc, List.filter_append]

theorem words_cons_white {c : Char} (hc : isWhite c = true) (t : Text) :
    words (c :: t) = words t := by
  simpa using words_append_white hc [] t

theorem words_blank_append {s : Text} (hs : ∀ c ∈ s, isWhite c = true) (t : Text) :
    words (s ++ t) = words t := by
  induction s with
  | nil => rfl
  | cons c s ih =>
    rw [List.cons_append, words_cons_white (hs c (by simp)), ih fun d hd => hs d (by simp [hd])]

theorem words_blank {s : Text} (hs : ∀ c ∈ s, isWhite c = true) : words s = [] := by
  simpa using words_blank_append hs []

theorem words_append_blank {s : Text} (hs : ∀ c ∈ s, isWhite c = true) (t : Text) :
    words (t ++ s) = words t := by
  cases s with
  | nil => rw [List.append_nil]
  | cons c s =>
    have hnil : words s = [] := words_blank fun d hd => hs d (by simp [hd])
    rw [words_append_white (hs c (by simp)), hnil, List.append_nil]

theorem words_of_not_white {w : Text} (hne : w ≠ []) (h : ∀ c ∈ w, isWhite c = false) :
    words w = [w] := by
  rw [words, List.splitOnP_eq_singleton h]
  simp [hne]

/-- Two neighbours that are not white stand in one word. -/
theorem words_cons_cons {c d : Char} (hc : isWhite c = false) (hd : isWhite d = false) (t : Text) :
    ∃ w ws, words (d :: t) = w :: ws ∧ words (c :: d :: t) = (c :: w) :: ws := by
  obtain ⟨r, rs, hr⟩ := List.exists_cons_of_ne_nil (List.splitOnP_ne_nil isWhite t)
  refine ⟨d :: r, rs.filter fun w => !w.isEmpty, ?_, ?_⟩
  · simp [words, List.splitOnP_cons_eq_if_modifyHead, hd, hr]
  · simp [words, List.splitOnP_cons_eq_if_modifyHead, hc, hd, hr]

/-- A character between a word's end and a white one is a word by itself. -/
theorem words_cons_white_cons {c d : Char} (hc : isWhite c = false) (hd : isWhite d = true)
    (t : Text) : words (c :: d :: t) = [c] :: words t := by
  have hone : words [c] = [[c]] := words_of_not_white (by simp) (by simpa using hc)
  have h := words_append_white hd [c] t
  rw [hone] at h
  exact h

/-- Words are not empty, and nothing in them is white. -/
theorem mem_words {t w : Text} (hw : w ∈ words t) : w ≠ [] ∧ ∀ c ∈ w, isWhite c = false := by
  induction t generalizing w with
  | nil => simp at hw
  | cons c t ih =>
    by_cases hc : isWhite c = true
    · rw [words_cons_white hc] at hw
      exact ih hw
    have hc : isWhite c = false := by simpa using hc
    -- the word that `c` begins ends where the text does, at a white character, or later
    cases t with
    | nil =>
      rw [words_of_not_white (by simp) (by simpa using hc), List.mem_singleton] at hw
      subst hw
      exact ⟨by simp, by simpa using hc⟩
    | cons d t =>
      by_cases hd : isWhite d = true
      · rw [words_cons_white_cons hc hd] at hw
        rcases List.mem_cons.1 hw with rfl | hw
        · exact ⟨by simp, by simpa using hc⟩
        · exact ih (by rwa [words_cons_white hd])
      · have hd : isWhite d = false := by simpa using hd
        obtain ⟨v, vs, h₁, h₂⟩ := words_cons_cons hc hd t
        rw [h₁] at ih
        rw [h₂] at hw
        rcases List.mem_cons.1 hw with rfl | hw
        · have hv := (ih (w := v) (by simp)).2
          exact ⟨by simp, by simpa using ⟨hc, hv⟩⟩
        · exact ih (by simp [hw])

/-- Words that are joined by blanks can be told apart again. -/
theorem words_joinWith {ws : List Text} (h : ∀ w ∈ ws, w ≠ [] ∧ ∀ c ∈ w, isWhite c = false) :
    words (joinWith [' '] ws) = ws := by
  induction ws with
  | nil => rfl
  | cons w ws ih =>
    have hw : words w = [w] := words_of_not_white (h w (by simp)).1 (h w (by simp)).2
    have hws := ih fun v hv => h v (by simp [hv])
    cases ws with
    | nil => simpa [joinWith] using hw
    | cons v vs =>
      have hjoin : joinWith [' '] (w :: v :: vs) = w ++ ' ' :: joinWith [' '] (v :: vs) := by
        simp [joinWith, List.intercalate_cons_cons]
      rw [hjoin, words_append_white (by decide), hw, hws]
      rfl

/-! ## Collapsing -/

@[simp] theorem words_collapse (t : Text) : words (collapse t) = words t :=
  words_joinWith fun _ hw => mem_words hw

/-- Collapsing a second time changes nothing. -/
theorem collapse_idem (t : Text) : collapse (collapse t) = collapse t := by
  rw [collapse, words_collapse, ← collapse]

theorem collapse_blank_append {s : Text} (hs : ∀ c ∈ s, isWhite c = true) (t : Text) :
    collapse (s ++ t) = collapse t := by
  rw [collapse, words_blank_append hs, ← collapse]

theorem collapse_append_blank {s : Text} (hs : ∀ c ∈ s, isWhite c = true) (t : Text) :
    collapse (t ++ s) = collapse t := by
  rw [collapse, words_append_blank hs, ← collapse]

theorem collapse_cons_white {c : Char} (hc : isWhite c = true) (t : Text) :
    collapse (c :: t) = collapse t := by
  rw [collapse, words_cons_white hc, ← collapse]

theorem collapse_eq_nil_iff {t : Text} : collapse t = [] ↔ words t = [] := by
  constructor
  · intro h
    rw [← words_collapse t, h, words_nil]
  · intro h
    rw [collapse, h]
    rfl

/-! ## Squeezing -/

/-- A text with each run of white space made one blank, but for a run at its end, which goes. -/
def squeeze (t : Text) : Text :=
  if t.head?.any isWhite ∧ collapse t ≠ [] then ' ' :: collapse t else collapse t

@[simp] theorem squeeze_nil : squeeze [] = [] := rfl

theorem squeeze_cons_of_white {c : Char} (hc : isWhite c = true) (t : Text) :
    squeeze (c :: t) = if collapse t = [] then [] else ' ' :: collapse t := by
  rw [squeeze, collapse_cons_white hc]
  by_cases h : collapse t = [] <;> simp [hc, h]

theorem squeeze_cons_of_not_white {c : Char} (hc : isWhite c = false) (t : Text) :
    squeeze (c :: t) = collapse (c :: t) := by
  simp [squeeze, hc]

/-- Behind a character that is not white, collapsing is squeezing. -/
theorem collapse_cons_of_not_white {c : Char} (hc : isWhite c = false) (t : Text) :
    collapse (c :: t) = c :: squeeze t := by
  cases t with
  | nil =>
    rw [collapse, words_of_not_white (by simp) (by simpa using hc)]
    rfl
  | cons d t =>
    by_cases hd : isWhite d = true
    · rw [squeeze_cons_of_white hd]
      have hwords := words_cons_white_cons hc hd t
      by_cases ht : words t = []
      · rw [if_pos (collapse_eq_nil_iff.2 ht), collapse, hwords, ht]
        rfl
      · rw [if_neg fun h => ht (collapse_eq_nil_iff.1 h), collapse, hwords, joinWith,
          List.intercalate_cons_of_ne_nil ht]
        rfl
    · have hd : isWhite d = false := by simpa using hd
      obtain ⟨w, ws, h₁, h₂⟩ := words_cons_cons hc hd t
      rw [squeeze_cons_of_not_white hd, collapse, collapse, h₁, h₂, joinWith,
        List.intercalate_cons_cons_left]
      rfl

theorem squeeze_append_of_not_white {s : Text} (hs : ∀ c ∈ s, isWhite c = false) (t : Text) :
    squeeze (s ++ t) = s ++ squeeze t := by
  induction s with
  | nil => rfl
  | cons c s ih =>
    have hc : isWhite c = false := hs c (by simp)
    rw [List.cons_append, squeeze_cons_of_not_white hc, collapse_cons_of_not_white hc,
      ih fun d hd => hs d (by simp [hd]), List.cons_append]

theorem squeeze_eq_or (t : Text) : squeeze t = collapse t ∨ squeeze t = ' ' :: collapse t := by
  unfold squeeze
  split
  · exact Or.inr rfl
  · exact Or.inl rfl

theorem mem_squeeze_of_mem_collapse {t : Text} {c : Char} (hc : c ∈ collapse t) :
    c ∈ squeeze t := by
  rcases squeeze_eq_or t with ht | ht
  · rwa [ht]
  · rw [ht]
    exact List.mem_cons_of_mem _ hc

/-- The only white characters of a squeezed text are blanks. -/
theorem eq_blank_of_mem_squeeze {t : Text} {c : Char} (hc : c ∈ squeeze t)
    (hw : isWhite c = true) : c = ' ' := by
  induction t with
  | nil => cases hc
  | cons d t ih =>
    by_cases hd : isWhite d = true
    · rw [squeeze_cons_of_white hd] at hc
      split at hc
      · cases hc
      · rcases List.mem_cons.1 hc with rfl | hc
        · rfl
        · exact ih (mem_squeeze_of_mem_collapse hc)
    · have hd : isWhite d = false := by simpa using hd
      rw [squeeze_cons_of_not_white hd, collapse_cons_of_not_white hd] at hc
      rcases List.mem_cons.1 hc with rfl | hc
      · rw [hw] at hd
        cases hd
      · exact ih hc

theorem eq_blank_of_mem_collapse {t : Text} {c : Char} (hc : c ∈ collapse t)
    (hw : isWhite c = true) : c = ' ' :=
  eq_blank_of_mem_squeeze (mem_squeeze_of_mem_collapse hc) hw

/-- What a squeezed text begins with is what the text begins with, or a blank. -/
theorem head?_squeeze {t : Text} {c : Char} (h : (squeeze t).head? = some c) :
    c = ' ' ∨ t.head? = some c := by
  cases t with
  | nil => simp at h
  | cons d t =>
    by_cases hd : isWhite d = true
    · rw [squeeze_cons_of_white hd] at h
      by_cases ht : collapse t = []
      · simp [ht] at h
      · rw [if_neg ht] at h
        exact Or.inl (by simpa using h.symm)
    · have hd : isWhite d = false := by simpa using hd
      rw [squeeze_cons_of_not_white hd, collapse_cons_of_not_white hd] at h
      exact Or.inr (by simpa using h)

/-! ## In between

What becomes of a part of a text that begins and ends with characters that are not white: it is
collapsed by itself, whatever stands on its two sides. -/

theorem collapse_append_ne_nil {c : Char} (hc : isWhite c = false) (s t : Text) :
    collapse (s ++ c :: t) ≠ [] := by
  induction s with
  | nil => simp [collapse_cons_of_not_white hc]
  | cons d s ih =>
    by_cases hd : isWhite d = true
    · rwa [List.cons_append, collapse_cons_white hd]
    · simp [collapse_cons_of_not_white (by simpa using hd)]

/-- Behind a character that is not white, a text is squeezed by itself. -/
theorem collapse_append_cons {c : Char} (hc : isWhite c = false) (s t : Text) :
    collapse (s ++ c :: t) = collapse (s ++ [c]) ++ squeeze t ∧
      squeeze (s ++ c :: t) = squeeze (s ++ [c]) ++ squeeze t := by
  induction s with
  | nil =>
    simp [collapse_cons_of_not_white hc, squeeze_cons_of_not_white hc]
  | cons d s ih =>
    rw [List.cons_append, List.cons_append]
    by_cases hd : isWhite d = true
    · rw [collapse_cons_white hd, collapse_cons_white hd, squeeze_cons_of_white hd,
        squeeze_cons_of_white hd, if_neg (collapse_append_ne_nil hc s t),
        if_neg (collapse_append_ne_nil hc s []), ih.1]
      exact ⟨rfl, rfl⟩
    · have hd : isWhite d = false := by simpa using hd
      rw [squeeze_cons_of_not_white hd, squeeze_cons_of_not_white hd,
        collapse_cons_of_not_white hd, collapse_cons_of_not_white hd, ih.2]
      exact ⟨rfl, rfl⟩

/-- In front of a character that is not white, a text leaves what follows as it is. -/
theorem collapse_suffix {c : Char} (hc : isWhite c = false) (s t : Text) :
    collapse (c :: t) <:+ collapse (s ++ c :: t) ∧ collapse (c :: t) <:+ squeeze (s ++ c :: t) := by
  induction s with
  | nil =>
    rw [List.nil_append, squeeze_cons_of_not_white hc]
    exact ⟨List.suffix_rfl, List.suffix_rfl⟩
  | cons d s ih =>
    rw [List.cons_append]
    by_cases hd : isWhite d = true
    · rw [collapse_cons_white hd, squeeze_cons_of_white hd, if_neg (collapse_append_ne_nil hc s t)]
      exact ⟨ih.1, ih.1.trans (List.suffix_cons ' ' _)⟩
    · have hd : isWhite d = false := by simpa using hd
      rw [squeeze_cons_of_not_white hd, collapse_cons_of_not_white hd]
      have hsuffix := ih.2.trans (List.suffix_cons d _)
      exact ⟨hsuffix, hsuffix⟩

theorem collapse_isInfix {c d : Char} (hc : isWhite c = false) (hd : isWhite d = false)
    (s u t : Text) :
    collapse (c :: (u ++ [d])) <:+: collapse (s ++ c :: (u ++ d :: t)) := by
  have hfront := (collapse_suffix hc s (u ++ d :: t)).1
  have hback := (collapse_append_cons hd (c :: u) t).1
  rw [List.cons_append, List.cons_append] at hback
  rw [hback] at hfront
  exact (List.prefix_append _ _).isInfix.trans hfront.isInfix

/-! ## Texts that collapsing leaves alone -/

/-- White space is single blanks only. -/
def Tight (t : Text) : Prop :=
  (∀ c ∈ t, isWhite c = true → c = ' ') ∧
    t.IsChain fun c d => isWhite c = true → isWhite d = false

instance (t : Text) : Decidable (Tight t) :=
  decidable_of_iff (t.all (fun c => !isWhite c || c == ' ') = true ∧
    t.IsChain fun c d => isWhite c = true → isWhite d = false) (by
      simp [Tight, Bool.or_eq_true, imp_iff_not_or])

theorem Tight.of_isInfix {s t : Text} (ht : Tight t) (h : s <:+: t) : Tight s :=
  ⟨fun c hc => ht.1 c (h.subset hc), List.IsChain.infix ht.2 h⟩

theorem head?_collapse {t : Text} {c : Char} (h : (collapse t).head? = some c) :
    isWhite c = false := by
  induction t with
  | nil => cases h
  | cons d t ih =>
    by_cases hd : isWhite d = true
    · rw [collapse_cons_white hd] at h
      exact ih h
    · have hd : isWhite d = false := by simpa using hd
      rw [collapse_cons_of_not_white hd] at h
      obtain rfl := Option.some.inj h
      exact hd

theorem isChain_collapse (t : Text) :
    (collapse t).IsChain (fun c d => isWhite c = true → isWhite d = false) ∧
      (squeeze t).IsChain fun c d => isWhite c = true → isWhite d = false := by
  induction t with
  | nil => exact ⟨.nil, .nil⟩
  | cons d t ih =>
    by_cases hd : isWhite d = true
    · rw [collapse_cons_white hd, squeeze_cons_of_white hd]
      refine ⟨ih.1, ?_⟩
      split
      · exact .nil
      · exact List.isChain_cons.2 ⟨fun c hc _ => head?_collapse hc, ih.1⟩
    · have hd : isWhite d = false := by simpa using hd
      rw [squeeze_cons_of_not_white hd, collapse_cons_of_not_white hd]
      have hchain : (d :: squeeze t).IsChain fun c d => isWhite c = true → isWhite d = false :=
        List.isChain_cons.2 ⟨fun c _ hwhite => absurd hwhite (by simp [hd]), ih.2⟩
      exact ⟨hchain, hchain⟩

theorem tight_collapse (t : Text) : Tight (collapse t) :=
  ⟨fun _ hc hw => eq_blank_of_mem_collapse hc hw, (isChain_collapse t).1⟩

theorem squeeze_eq_collapse {t : Text} (h : ∀ c, t.head? = some c → isWhite c = false) :
    squeeze t = collapse t := by
  cases t with
  | nil => rfl
  | cons c t => exact squeeze_cons_of_not_white (h c rfl) t

/-- A tight text stays as it is, if it does not end with white space. -/
theorem Tight.squeeze_eq {c : Char} (hc : isWhite c = false) {s : Text} (h : Tight (s ++ [c])) :
    squeeze (s ++ [c]) = s ++ [c] := by
  induction s with
  | nil => simp [squeeze_cons_of_not_white hc, collapse_cons_of_not_white hc]
  | cons d s ih =>
    have hrest := ih (h.of_isInfix (List.suffix_cons d _).isInfix)
    obtain ⟨hblank, hchain⟩ := h
    rw [List.cons_append] at hchain ⊢
    by_cases hd : isWhite d = true
    · -- the blank is followed by a character that is not white
      obtain rfl := hblank d (by simp) hd
      have hhead : squeeze (s ++ [c]) = collapse (s ++ [c]) :=
        squeeze_eq_collapse fun e he => (List.isChain_cons.1 hchain).1 e he hd
      rw [squeeze_cons_of_white hd, if_neg (collapse_append_ne_nil hc s []), ← hhead, hrest]
    · have hd : isWhite d = false := by simpa using hd
      rw [squeeze_cons_of_not_white hd, collapse_cons_of_not_white hd, hrest]

/-- A part that begins and ends with characters that are not white is still there after collapsing
exactly when it is tight. -/
theorem infix_collapse_iff {c d : Char} (hc : isWhite c = false) (hd : isWhite d = false)
    (s u t : Text) :
    c :: (u ++ [d]) <:+: collapse (s ++ c :: (u ++ d :: t)) ↔ Tight (c :: (u ++ [d])) := by
  constructor
  · exact fun h => (tight_collapse _).of_isInfix h
  · intro h
    have hsame : collapse (c :: (u ++ [d])) = c :: (u ++ [d]) := by
      rw [← squeeze_cons_of_not_white hc]
      exact Tight.squeeze_eq (s := c :: u) hd h
    have hpart := collapse_isInfix hc hd s u t
    rwa [hsame] at hpart

end RuleFormat
