import RuleFormat.Proofs.Lexing
import RuleFormat.Proofs.Turns

/-!
# What a block reader passes

The reader of a block has no choice: after each turn, what follows is verbatim exactly when the whole
is (`Keeps.verbatim_iff`).  So it passes a part of a text, in the sense of `Passes`, when the part is
read as code and leaves nothing open.  It passes words and numbers, and it knows the plain string
literals that the lexer knows: it stands in an escape exactly when the lexer does, and leaves the
string with it (`afterString?_passes`).
-/

namespace RuleFormat

variable {m m' : Mode} {inner inner' : List Bracket} {t u rest : Text}

/-! ## Verbatim texts, turn by turn -/

theorem inert_close : ∀ d, [')'].head? = some d → Inert d := by
  intro d hd
  cases hd
  unfold Inert
  decide

theorem Verbatim.walk_eq (h : Verbatim m inner t) :
    walk m inner (t ++ [')']) = .ok ⟨t, [], t, []⟩ := by
  have hread := h.reads_append (.done (t := [])) inert_close
  rw [walk_of_reads hread]
  simp [Walk.put, Walk.done]

theorem verbatim_of_walk (hm : m.outside = m) {w : Walk} (h : walk m inner (t ++ [')']) = .ok w)
    (hpiece : w.piece = t) : Verbatim m inner t := by
  have hverbatim := (reads_of_walk h).verbatim.1
  rwa [hm, hpiece] at hverbatim

/-- The reader has no choice: what follows a turn is verbatim exactly when the whole is. -/
theorem Keeps.verbatim_iff {raw : Text} (hk : Keeps m inner raw t m' inner') :
    Verbatim m inner (raw ++ t) ↔ Verbatim m' inner' t := by
  refine ⟨fun h => ?_, .keep hk⟩
  have hk' : Keeps m inner raw (t ++ [')']) m' inner' := by
    refine hk.of_head fun d hd => ?_
    cases t with
    | nil => exact Or.inr (inert_close d hd)
    | cons c t => exact Or.inl hd
  have hwalk := h.walk_eq
  rw [List.append_assoc, walk_keeps hk'] at hwalk
  obtain ⟨w, hw, heq⟩ := map_eq_ok hwalk
  have hpiece : raw ++ t = raw ++ w.piece := congrArg Walk.piece heq
  exact verbatim_of_walk hk.outside.2 hw (List.append_cancel_left hpiece).symm

theorem close_injective {b b' : Bracket} (h : b.close = b'.close) : b = b' := by
  cases b <;> cases b' <;> first | rfl | exact absurd h (by decide)

theorem verbatim_close_cons (b : Bracket) :
    Verbatim .code inner (b.close :: t) ↔ ∃ outer, inner = b :: outer ∧ Verbatim .code outer t := by
  constructor
  · intro h
    obtain ⟨raw, ahead, m', inner', heq, hk, hv⟩ := h.exists_keeps
    generalize hc : b.close = c at hk heq
    cases hk with
    | quote => cases b <;> cases hc
    | arrow => cases b <;> cases hc
    | opens hb =>
      rw [← hc, ofOpen?_close] at hb
      cases hb
    | @closes outer _ b' =>
      obtain rfl := close_injective hc
      obtain ⟨-, rfl⟩ := List.cons.inj heq
      exact ⟨_, rfl, hv⟩
    | other _ hclose =>
      rw [← hc, isClose_close] at hclose
      cases hclose
  · rintro ⟨outer, rfl, h⟩
    exact .keep .closes h

theorem verbatim_comma_cons :
    Verbatim .code inner (',' :: t) ↔ inner ≠ [] ∧ Verbatim .code inner t := by
  have hkeep : inner ≠ [] → Keeps .code inner [','] t .code inner := fun hne =>
    .other rfl rfl (by decide) (fun h => hne h.2) fun d _ => by simp [joins]
  constructor
  · intro h
    have hne : inner ≠ [] := by
      rintro rfl
      obtain ⟨raw, ahead, m', inner', heq, hk, -⟩ := h.exists_keeps
      cases hk with
      | opens hb => cases hb
      | other _ _ _ hcut => exact hcut ⟨rfl, rfl⟩
    exact ⟨hne, (hkeep hne).verbatim_iff.1 h⟩
  · rintro ⟨hne, h⟩
    exact .keep (hkeep hne) h

/-! ## Texts that are passed -/

/-- A text without quotes and backslashes, which goes on with a string literal where it stands in
one. -/
def Calm (s : Text) : Prop := '"' ∉ s ∧ '\\' ∉ s

theorem Calm.append {s s' : Text} (h : Calm s) (h' : Calm s') : Calm (s ++ s') := by
  simp only [Calm, List.mem_append] at h h' ⊢
  tauto

/-- What is in front of `rest` in `t` is calm and, wherever it stands in code, is read as code with
nothing left open behind it. -/
structure Passes (t rest : Text) : Prop where
  code : ∀ inner, Verbatim .code inner t ↔ Verbatim .code inner rest
  calm : ∃ s, t = s ++ rest ∧ Calm s

theorem Passes.refl (t : Text) : Passes t t :=
  ⟨fun _ => Iff.rfl, [], rfl, List.not_mem_nil, List.not_mem_nil⟩

theorem Passes.trans (h : Passes t u) (h' : Passes u rest) : Passes t rest := by
  obtain ⟨s, rfl, hs⟩ := h.calm
  obtain ⟨s', rfl, hs'⟩ := h'.calm
  exact ⟨fun inner => (h.code inner).trans (h'.code inner), s ++ s', by simp, hs.append hs'⟩

theorem calm_of_isOrdinary {c : Char} (hc : isOrdinary c = true) : Calm [c] := by
  constructor <;> (rintro hmem; rw [← List.mem_singleton.1 hmem] at hc; cases hc)

theorem passes_cons {c : Char} (hc : isOrdinary c = true) (t : Text) : Passes (c :: t) t :=
  ⟨fun inner => (Keeps.ordinary hc inner t).verbatim_iff, [c], rfl, calm_of_isOrdinary hc⟩

theorem passes_append {s : Text} (hs : ∀ c ∈ s, isOrdinary c = true) (t : Text) :
    Passes (s ++ t) t := by
  induction s with
  | nil => exact .refl t
  | cons c s ih =>
    exact (passes_cons (hs c (by simp)) _).trans (ih fun d hd => hs d (by simp [hd]))

theorem passes_dropWhile {p : Char → Bool} (hp : ∀ c, p c = true → isOrdinary c = true) (t : Text) :
    Passes t (t.dropWhile p) := by
  have hs : ∀ c ∈ t.takeWhile p, isOrdinary c = true := fun c hc => hp c (List.mem_takeWhile_imp hc)
  have h := passes_append hs (t.dropWhile p)
  rwa [List.takeWhile_append_dropWhile] at h

namespace Literal

theorem isOrdinary_of_isIdentStart {c : Char} (h : isIdentStart c = true) : isOrdinary c = true :=
  isOrdinary_of_marks (by decide) h

theorem isOrdinary_of_isIdentContinue {c : Char} (h : isIdentContinue c = true) :
    isOrdinary c = true :=
  isOrdinary_of_marks (by decide) h

theorem isOrdinary_of_isDigit {c : Char} (h : isDigit c = true) : isOrdinary c = true :=
  isOrdinary_of_marks (by decide) h

theorem isOrdinary_of_hexValue? {c : Char} {d : Nat} (h : hexValue? c = some d) :
    isOrdinary c = true :=
  isOrdinary_of_marks (p := fun c => (hexValue? c).isSome) (by decide) (by simp [h])

theorem afterIdent?_passes (h : afterIdent? t = some rest) : Passes t rest := by
  cases t with
  | nil => cases h
  | cons c cs =>
    rw [afterIdent?] at h
    split at h
    · rename_i hc
      obtain rfl := Option.some.inj h
      exact (passes_cons (isOrdinary_of_isIdentStart hc) cs).trans
        (passes_dropWhile (fun _ => isOrdinary_of_isIdentContinue) cs)
    · cases h

theorem afterSuffix_passes (t : Text) : Passes t (afterSuffix t) := by
  unfold afterSuffix
  cases h : afterIdent? t with
  | none => exact .refl t
  | some rest => exact afterIdent?_passes h

/-! ## Plain strings -/

/-- The mode in which the reader of a block stands in a plain string literal. -/
def StringState.mode : StringState → Mode
  | .backslash => .escape
  | _ => .string

theorem ne_of_hexValue? {c : Char} {d : Nat} (h : hexValue? c = some d) : c ≠ '"' ∧ c ≠ '\\' := by
  constructor <;> (rintro rfl; cases h)

theorem StringState.mode_of_ne {s : StringState} (hs : s ≠ .backslash) : s.mode = .string := by
  cases s <;> first | rfl | exact absurd rfl hs

/-- Where the reader of a literal goes on in a string, the reader of a block does so, too. -/
def Follows (s : StringState) (c : Char) (s' : StringState) : Prop :=
  if s = .backslash then s' ≠ .backslash else c ≠ '"' ∧ (c = '\\' ↔ s' = .backslash)

theorem plainStep_follows {k : StringKind} {s s' : StringState} {c : Char} (hs : s ≠ .backslash)
    (h : plainStep k c = .go s') : Follows s c s' := by
  rw [Follows, if_neg hs]
  unfold plainStep at h
  split_ifs at h with h₁ h₂ h₃ <;> cases h
  · subst h₂
    exact ⟨by decide, by decide, nofun⟩
  · exact ⟨h₁, fun _ => rfl, fun _ => h₃⟩
  · exact ⟨h₁, fun hc => absurd hc h₃, nofun⟩

theorem stringStep_follows {k : StringKind} {s s' : StringState} {c : Char}
    (h : stringStep k s c = .go s') : Follows s c s' := by
  -- off the backslash, a step that does not come to one is over neither of the two special characters
  have hcalm : ∀ {s s' : StringState}, s ≠ .backslash → s' ≠ .backslash → c ≠ '"' → c ≠ '\\' →
      Follows s c s' := by
    intro s s' hs hs' hquote hslash
    rw [Follows, if_neg hs]
    exact ⟨hquote, fun hc => absurd hc hslash, fun hc => absurd hc hs'⟩
  cases s with
  | plain => exact plainStep_follows nofun h
  | carriage skipping =>
    rw [stringStep] at h
    split at h
    · rename_i hc
      subst hc
      refine hcalm nofun ?_ (by decide) (by decide)
      cases skipping <;> cases h <;> exact nofun
    · cases h
  | backslash =>
    rw [Follows, if_pos rfl]
    rw [stringStep, escapeStep] at h
    split_ifs at h <;> cases h <;> exact nofun
  | hexFirst =>
    rw [stringStep] at h
    split at h
    · rename_i d hd
      cases h
      exact hcalm nofun nofun (ne_of_hexValue? hd).1 (ne_of_hexValue? hd).2
    · cases h
  | hexSecond first =>
    rw [stringStep] at h
    split at h
    · rename_i d hd
      split at h
      · cases h
        exact hcalm nofun nofun (ne_of_hexValue? hd).1 (ne_of_hexValue? hd).2
      · cases h
    · cases h
  | unicodeOpen =>
    rw [stringStep] at h
    split at h
    · rename_i hc
      subst hc
      cases h
      exact hcalm nofun nofun (by decide) (by decide)
    · cases h
  | unicode value digits =>
    rw [stringStep, unicodeStep] at h
    split at h
    · rename_i d hd
      split at h
      · cases h
      · cases h
        exact hcalm nofun nofun (ne_of_hexValue? hd).1 (ne_of_hexValue? hd).2
    · split_ifs at h with h₁ h₂ h₃ <;> cases h
      · subst h₂
        exact hcalm nofun nofun (by decide) (by decide)
      · obtain ⟨rfl, -⟩ := h₃
        exact hcalm nofun nofun (by decide) (by decide)
  | skip =>
    rw [stringStep] at h
    split_ifs at h with h₁ h₂
    · cases h
      rcases h₁ with rfl | rfl | rfl <;> exact hcalm nofun nofun (by decide) (by decide)
    · cases h
      subst h₂
      exact hcalm nofun nofun (by decide) (by decide)
    · exact plainStep_follows nofun h

theorem Follows.keeps {s s' : StringState} {c : Char} (h : Follows s c s') (inner : List Bracket)
    (ahead : Text) : Keeps s.mode inner [c] ahead s'.mode inner := by
  unfold Follows at h
  split at h
  · rename_i hs
    subst hs
    rw [StringState.mode_of_ne h]
    exact .escape
  · rename_i hs
    have hk : Keeps .string inner [c] ahead
        (if c = '"' then .code else if c = '\\' then .escape else .string) inner := .string
    rw [if_neg h.1] at hk
    rw [StringState.mode_of_ne hs]
    by_cases hc : c = '\\'
    · rw [if_pos hc] at hk
      rwa [h.2.1 hc]
    · rw [if_neg hc] at hk
      rwa [StringState.mode_of_ne (mt h.2.2 hc)]

theorem stringStep_close {k : StringKind} {s : StringState} {c : Char}
    (h : stringStep k s c = .close) : s ≠ .backslash ∧ c = '"' := by
  have hplain : plainStep k c = .close → c = '"' := by
    intro h
    unfold plainStep at h
    split_ifs at h
    assumption
  cases s with
  | plain => exact ⟨nofun, hplain h⟩
  | carriage skipping =>
    rw [stringStep] at h
    split at h <;> cases h
  | backslash =>
    rw [stringStep, escapeStep] at h
    split_ifs at h
  | hexFirst =>
    rw [stringStep] at h
    split at h <;> cases h
  | hexSecond first =>
    rw [stringStep] at h
    split at h
    · split at h <;> cases h
    · cases h
  | unicodeOpen =>
    rw [stringStep] at h
    split at h <;> cases h
  | unicode value digits =>
    rw [stringStep, unicodeStep] at h
    split at h
    · split at h <;> cases h
    · split_ifs at h
  | skip =>
    rw [stringStep] at h
    split_ifs at h
    exact ⟨nofun, hplain h⟩

/-- A plain string literal ends for the reader of a block where it ends for the lexer. -/
theorem afterString?_passes {k : StringKind} {s : StringState} (h : afterString? k s t = some rest)
    (inner : List Bracket) : Verbatim s.mode inner t ↔ Verbatim .code inner rest := by
  induction t generalizing s with
  | nil => cases h
  | cons c cs ih =>
    rw [afterString?] at h
    split at h
    · cases h
    · rename_i s' hstep
      exact (((stringStep_follows hstep).keeps inner cs).verbatim_iff).trans (ih h)
    · rename_i hstep
      obtain ⟨hs, rfl⟩ := stringStep_close hstep
      obtain rfl := Option.some.inj h
      rw [StringState.mode_of_ne hs]
      exact (Keeps.string (c := '"')).verbatim_iff

theorem verbatim_quote_cons {k : StringKind} (h : afterString? k .plain t = some rest)
    (inner : List Bracket) : Verbatim .code inner ('"' :: t) ↔ Verbatim .code inner rest :=
  Keeps.quote.verbatim_iff.trans (afterString?_passes h inner)

/-! ## Numbers -/

theorem afterDigits?_passes {base : Nat} {empty : Bool} (h : afterDigits? base empty t = some rest) :
    Passes t rest := by
  induction t generalizing empty with
  | nil =>
    cases empty <;> simp [afterDigits?] at h
    rw [h]
    exact .refl []
  | cons c cs ih =>
    have hgo : ∀ {e : Bool}, isOrdinary c = true → afterDigits? base e cs = some rest →
        Passes (c :: cs) rest := fun hc h' => (passes_cons hc cs).trans (ih h')
    have hstop : (if empty then none else some (c :: cs)) = some rest → Passes (c :: cs) rest := by
      intro h'
      cases empty <;> simp at h'
      exact h' ▸ .refl _
    rw [afterDigits?] at h
    split at h
    · rename_i hc
      split at h
      · exact hgo (isOrdinary_of_isDigit hc) h
      · cases h
    · split at h
      · rename_i hc
        split at h
        · cases h
        · exact hgo (by rw [hc]; decide) h
      · split at h
        · rename_i d hd
          split at h
          · exact hgo (isOrdinary_of_hexValue? hd) h
          · exact hstop h
        · exact hstop h

theorem afterInteger?_passes (h : afterInteger? t = some rest) : Passes t rest := by
  have hprefix : ∀ {c : Char} {cs : Text} {base : Nat}, isOrdinary c = true →
      afterDigits? base true cs = some rest → Passes ('0' :: c :: cs) rest := fun hc h =>
    ((passes_cons (by decide) _).trans (passes_cons hc _)).trans (afterDigits?_passes h)
  unfold afterInteger? at h
  split at h
  · exact hprefix (by decide) h
  · exact hprefix (by decide) h
  · exact hprefix (by decide) h
  · exact afterDigits?_passes h

/-- The sign of an exponent stands in front of a digit, so that it begins no arrow. -/
theorem afterExponent?_passes {sign digit : Bool} (h : afterExponent? sign digit t = some rest) :
    Passes t rest ∧ (digit = false → t.head? ≠ some '>') := by
  induction t generalizing sign digit with
  | nil =>
    cases digit <;> simp [afterExponent?] at h
    rw [h]
    exact ⟨.refl [], fun hdigit => Bool.noConfusion hdigit⟩
  | cons c cs ih =>
    have hhead : ∀ {d : Char}, c ≠ d → (c :: cs).head? ≠ some d := fun hc heq =>
      hc (Option.some.inj heq)
    rw [afterExponent?] at h
    split_ifs at h with h₁ h₂ h₃ h₄ h₅ h₆
    · obtain rfl := Option.some.inj h
      exact ⟨.refl _, fun hd => absurd h₂ (by simp [hd])⟩
    · have hdigit : digit = false := by simpa using h₂
      refine ⟨Passes.trans ⟨fun inner => ?_, [c], rfl, ?_⟩ (ih h).1,
        fun _ => hhead (by rcases h₁ with rfl | rfl <;> decide)⟩
      swap
      · rcases h₁ with rfl | rfl <;> exact ⟨by decide, by decide⟩
      have hapart : Apart c cs := by
        intro d hd
        have hne : d ≠ '>' := by
          rintro rfl
          exact (ih h).2 hdigit hd
        rcases h₁ with rfl | rfl <;> simp [joins, hne]
      have hk : Keeps .code inner [c] cs .code inner := by
        rcases h₁ with rfl | rfl
        · exact .other rfl rfl (by decide) (by simp) hapart
        · exact .other rfl rfl (by decide) (by simp) hapart
      exact hk.verbatim_iff
    · refine ⟨(passes_cons (isOrdinary_of_isDigit h₄) cs).trans (ih h).1, fun _ => hhead ?_⟩
      rintro rfl
      exact absurd h₄ (by decide)
    · subst h₅
      exact ⟨(passes_cons (by decide) cs).trans (ih h).1, fun _ => hhead (by decide)⟩
    · obtain rfl := Option.some.inj h
      exact ⟨.refl _, fun hd => absurd h₆ (by simp [hd])⟩

theorem afterFloatDigits?_passes {point : Bool} (h : afterFloatDigits? point t = some rest) :
    Passes t rest := by
  induction t generalizing point with
  | nil =>
    cases point <;> simp [afterFloatDigits?] at h
    rw [h]
    exact .refl []
  | cons c cs ih =>
    have hexp : c = 'e' ∨ c = 'E' → afterExponent? false false cs = some rest →
        Passes (c :: cs) rest := by
      intro hc h
      have hordinary : isOrdinary c = true := by rcases hc with rfl | rfl <;> decide
      exact (passes_cons hordinary cs).trans (afterExponent?_passes h).1
    rw [afterFloatDigits?] at h
    split_ifs at h with h₁ h₂ h₃ h₄ h₅ h₆
    · have hc : isOrdinary c = true := by
        rcases Bool.or_eq_true_iff.1 h₁ with hc | hc
        · exact isOrdinary_of_isDigit hc
        · rw [eq_of_beq hc]
          decide
      exact (passes_cons hc cs).trans (ih h)
    · exact (passes_cons (by rw [h₂.1]; decide) cs).trans (ih h)
    · rcases Option.or_eq_some_iff.1 h with h | ⟨-, h⟩
      · exact hexp h₄ h
      · obtain rfl := Option.some.inj h
        exact .refl _
    · rw [Option.or_none] at h
      exact hexp h₄ h
    · obtain rfl := Option.some.inj h
      exact .refl _

theorem afterNumberSuffix?_passes (h : afterNumberSuffix? t = some rest) : Passes t rest := by
  have hsuffix := afterSuffix_passes t
  unfold afterNumberSuffix? at h
  split at h
  · rename_i heq
    obtain rfl := Option.some.inj h
    rwa [heq] at hsuffix
  · rename_i c cs heq
    split at h
    · cases h
    · obtain rfl := Option.some.inj h
      rwa [heq] at hsuffix

theorem afterNumber?_passes (h : afterNumber? t = some rest) : Passes t rest := by
  rcases Option.or_eq_some_iff.1 h with h | ⟨-, h⟩
  · unfold afterFloat? at h
    split at h
    · cases h
    · rename_i c cs _
      split at h
      · rename_i hc
        obtain ⟨u, hu, h⟩ := Option.bind_eq_some_iff.1 h
        exact ((passes_cons (isOrdinary_of_isDigit hc) cs).trans (afterFloatDigits?_passes hu)).trans
          (afterNumberSuffix?_passes h)
      · cases h
  · obtain ⟨u, hu, h⟩ := Option.bind_eq_some_iff.1 h
    exact (afterInteger?_passes hu).trans (afterNumberSuffix?_passes h)

end Literal

end RuleFormat
