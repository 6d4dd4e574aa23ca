import RuleFormat.Proofs.CodeLiterals

/-!
# Brackets in tokens

The reader of a block counts the brackets of a text character by character, and the lexer makes tokens
of the same text.  `fits` counts brackets over lexemes, with `<` and `>` as a fourth pair, with the
arrow left aside and with literals as the reader takes them, and a text is verbatim exactly when its
lexemes fit (`Spells.verbatim_iff`).  Where all literals are whole, what fits can be said group by group
(`Paired.fits_append`).
-/

namespace RuleFormat

variable {inner outer : List Bracket} {t rest : Text}

/-! ## Counting brackets over lexemes -/

/-- The bracket that the reader of a block sees in a delimiter. -/
def Delimiter.bracket : Delimiter → Bracket
  | .round => .round
  | .square => .square
  | .curly => .curly

/-- Whether lexemes close all that they open and what is open in front of them, and no comma stands
outside.  An arrow is no bracket, and nothing but a literal counts in a string. -/
def fits : Mode → List Bracket → List Lexeme → Bool
  | m, inner, [] => m = .code && inner.isEmpty
  | m, inner, .token (.literal t) :: ls => (passLiteral m inner t).any fun p => fits p.1 p.2 ls
  | .code, inner, .enter d :: ls => fits .code (d.bracket :: inner) ls
  | .code, [], .leave _ :: _ => false
  | .code, b :: outer, .leave d :: ls => b = d.bracket && fits .code outer ls
  | .code, inner, .token (.punct '-' true) :: .token (.punct '>' _) :: ls => fits .code inner ls
  | .code, inner, .token (.punct '<' _) :: ls => fits .code (.angle :: inner) ls
  | .code, [], .token (.punct '>' _) :: _ => false
  | .code, b :: outer, .token (.punct '>' _) :: ls => b = .angle && fits .code outer ls
  | .code, inner, .token (.punct ',' _) :: ls => !inner.isEmpty && fits .code inner ls
  | m, inner, _ :: ls => fits m inner ls

/-- Whether a token counts among brackets: an angle bracket, a comma, or what may begin an arrow. -/
def Token.isMark : Token → Bool
  | .punct c _ => c == '<' || c == '>' || c == ',' || c == '-'
  | _ => false

section Fits

variable {ls : List Lexeme}

theorem fits_token {tok : Token} (h : tok.isMark = false) (hlit : ∀ lit, tok ≠ .literal lit)
    (inner : List Bracket) (ls : List Lexeme) :
    fits .code inner (.token tok :: ls) = fits .code inner ls := by
  cases tok with
  | word => rw [fits] <;> simp
  | lifetime => rw [fits] <;> simp
  | literal lit => exact absurd rfl (hlit lit)
  | group => rw [fits] <;> simp
  | punct c j =>
    simp only [Token.isMark, Bool.or_eq_false_iff, beq_eq_false_iff_ne] at h
    rw [fits] <;> simp_all

theorem fits_minus {j : Bool} (h : j = true → ∀ j' ls', ls ≠ .token (.punct '>' j') :: ls')
    (inner : List Bracket) :
    fits .code inner (.token (.punct '-' j) :: ls) = fits .code inner ls := by
  cases j with
  | false => rw [fits] <;> simp
  | true =>
    have hne := h rfl
    rw [fits] <;> simp [hne]

theorem fits_arrow (j : Bool) (inner : List Bracket) (ls : List Lexeme) :
    fits .code inner (.token (.punct '-' true) :: .token (.punct '>' j) :: ls) =
      fits .code inner ls := by
  rw [fits]

theorem fits_gt {j : Bool} :
    fits .code inner (.token (.punct '>' j) :: ls) = true ↔
      ∃ outer, inner = .angle :: outer ∧ fits .code outer ls = true := by
  cases inner with
  | nil => simp [fits]
  | cons b outer => simp [fits]

theorem fits_leave {d : Delimiter} :
    fits .code inner (.leave d :: ls) = true ↔
      ∃ outer, inner = d.bracket :: outer ∧ fits .code outer ls = true := by
  cases inner with
  | nil => simp [fits]
  | cons b outer => simp [fits]

theorem fits_string {l : Lexeme} (h : ∀ lit, l ≠ .token (.literal lit)) (inner : List Bracket)
    (ls : List Lexeme) : fits .string inner (l :: ls) = fits .string inner ls := by
  rw [fits] <;> simp_all

theorem fits_literal {m : Mode} {lit : Text} :
    fits m inner (.token (.literal lit) :: ls) = true ↔
      ∃ m' inner', passLiteral m inner lit = some (m', inner') ∧ fits m' inner' ls = true := by
  rw [fits, Option.any_eq_true]
  simp

end Fits

namespace Lexer

theorem identifier?_passes {name : Text} (h : identifier? t = some (name, rest)) : Passes t rest := by
  unfold identifier? at h
  split at h
  · obtain ⟨u, hu, h⟩ := Option.bind_eq_some_iff.1 h
    dsimp only at h
    split at h
    · cases h
    · obtain ⟨-, rfl⟩ := Prod.mk.inj (Option.some.inj h)
      exact ((passes_cons (by decide) _).trans (passes_cons (by decide) _)).trans
        (Literal.afterIdent?_passes hu)
  · obtain ⟨u, hu, h⟩ := Option.bind_eq_some_iff.1 h
    obtain ⟨-, rfl⟩ := Prod.mk.inj (Option.some.inj h)
    exact Literal.afterIdent?_passes hu

theorem lifetime?_passes {name : Text} (h : lifetime? t = some (name, rest)) : Passes t rest := by
  unfold lifetime? at h
  split at h
  · rename_i cs
    refine (passes_cons (by decide) cs).trans ?_
    split at h
    · cases h
    · cases h
    · rename_i hname
      split at h
      · obtain ⟨-, rfl⟩ := Prod.mk.inj (Option.some.inj h)
        exact identifier?_passes hname
      · cases h
    · rename_i hname
      obtain ⟨-, rfl⟩ := Prod.mk.inj (Option.some.inj h)
      exact identifier?_passes hname
  · cases h

/-- The token at the front of a text is a literal, a punctuation character, or passed. -/
theorem leaf?_cases {tok : Token} (h : leaf? t = some (tok, rest)) :
    (∃ lit, tok = .literal lit ∧ Literal.after? t = some rest) ∨
      (∃ c, tok = .punct c (startsPunct rest) ∧ startsPunct (c :: rest) = true) ∨
      (tok.isMark = false ∧ (∀ lit, tok ≠ .literal lit) ∧ Passes t rest) := by
  cases leafAt_of_leaf? h with
  | literal hu => exact Or.inl ⟨_, rfl, hu⟩
  | quote => exact Or.inr (Or.inr ⟨rfl, nofun, passes_cons (by decide) _⟩)
  | lifetime hname => exact Or.inr (Or.inr ⟨rfl, nofun, lifetime?_passes hname⟩)
  | punct hpunct => exact Or.inr (Or.inl ⟨_, rfl, hpunct⟩)
  | word hname => exact Or.inr (Or.inr ⟨rfl, nofun, identifier?_passes hname⟩)

variable {gap : Char → Bool} {ls : List Lexeme}

theorem leaf?_gt (t : Text) : leaf? ('>' :: t) = some (.punct '>' (startsPunct t), t) := by
  unfold leaf?
  rw [Literal.after?_eq_none (by decide) (by decide)]
  rfl

theorem Spells.of_gt (hgap : ∀ c, gap c = true → isGap c = true) (h : Spells gap ('>' :: t) ls) :
    ∃ j ls', ls = .token (.punct '>' j) :: ls' := by
  generalize hu : '>' :: t = u at h
  cases h with
  | nil => cases hu
  | gap hc _ =>
    cases hu
    exact absurd (hgap '>' hc) (by decide)
  | enter hc _ =>
    cases hu
    cases hc
  | leave hc _ =>
    cases hu
    cases hc
  | token htok _ =>
    rw [← hu, leaf?_gt] at htok
    obtain ⟨rfl, -⟩ := Prod.mk.inj (Option.some.inj htok)
    exact ⟨_, _, rfl⟩

/-- Behind a punctuation character that is joint, no gap comes before the next lexeme. -/
theorem Spells.eq_cons_of_joint (hgap : ∀ c, gap c = true → isGap c = true) {c : Char} {j : Bool}
    (h : Spells gap t (.token (.punct c j) :: ls)) (hjoint : startsPunct t = true) :
    ∃ t', t = c :: t' ∧ Spells gap t' ls := by
  cases h with
  | @gap c' t' _ hc' h =>
    have hfirst : isFirst c' = true := by
      unfold startsPunct at hjoint
      split at hjoint
      · cases hjoint
      · cases hjoint
      · rename_i heq
        cases heq
        rw [isFirst, hjoint, Bool.or_true]
      · cases hjoint
    rw [isFirst_of_isGap (hgap c' hc')] at hfirst
    cases hfirst
  | token htok h => exact ⟨_, rfl, h⟩

theorem apart_slash (h : startsPunct ('/' :: t) = true) : Apart '/' t := by
  intro d hd
  obtain ⟨t', rfl⟩ := List.head?_eq_some_iff.1 hd
  have hne : d ≠ '/' ∧ d ≠ '*' := by
    constructor <;> (rintro rfl; cases h)
  simp [joins, hne.1, hne.2]

theorem isOrdinary_of_startsPunct {c : Char} (h : startsPunct (c :: t) = true)
    (hc : c ∉ ['<', '>', ',', '-', '/']) : isOrdinary c = true := by
  have hmem : punctuation.contains c = true := by
    unfold startsPunct at h
    split at h
    · cases h
    · cases h
    · rename_i heq
      cases heq
      exact h
    · cases h
  have hall : ∀ d ∈ punctuation, (['<', '>', ',', '-', '/'].contains d || isOrdinary d) = true :=
    List.all_eq_true.1 (by decide)
  have hone := hall c (by simpa using hmem)
  rwa [List.contains_eq_mem, decide_eq_false hc, Bool.false_or] at hone

/-- What a punctuation character does to the reader of a block in code. -/
theorem verbatim_punct_cons (hgap : ∀ c, gap c = true → isGap c = true) (h : Spells gap t ls)
    (ih : ∀ inner, Verbatim .code inner t ↔ fits .code inner ls = true) {c : Char}
    (hc : startsPunct (c :: t) = true) (inner : List Bracket) :
    Verbatim .code inner (c :: t) ↔
      fits .code inner (.token (.punct c (startsPunct t)) :: ls) = true := by
  by_cases hmark : c ∈ ['<', '>', ',', '-', '/']
  swap
  · have hnone : (Token.punct c (startsPunct t)).isMark = false := by
      simp [Token.isMark] at hmark ⊢
      tauto
    rw [(passes_cons (isOrdinary_of_startsPunct hc hmark) t).code, fits_token hnone (by simp), ih]
  simp only [List.mem_cons, List.not_mem_nil, or_false] at hmark
  rcases hmark with rfl | rfl | rfl | rfl | rfl
  · rw [fits, ← ih]
    exact (Keeps.opens (c := '<') rfl).verbatim_iff
  · have hclose : Verbatim .code inner ('>' :: t) ↔ _ := verbatim_close_cons .angle
    rw [fits_gt]
    simp only [ih] at hclose
    exact hclose
  · rw [verbatim_comma_cons, fits, ih]
    cases inner <;> simp
  · by_cases harrow : ∃ t', t = '>' :: t'
    · -- the reader takes the arrow at once, and closes no bracket with the second half of it
      obtain ⟨t', rfl⟩ := harrow
      obtain ⟨j, ls, rfl⟩ := h.of_gt hgap
      have hclose := ih (.angle :: inner)
      rw [show '>' :: t' = Bracket.angle.close :: t' from rfl, verbatim_close_cons, fits_gt] at hclose
      rw [show startsPunct ('>' :: t') = true from rfl, fits_arrow]
      have harrow : Keeps .code inner ['-', '>'] t' .code inner := .arrow
      refine harrow.verbatim_iff.trans ?_
      simpa using hclose
    · have hapart : Apart '-' t := by
        intro d hd
        obtain ⟨t', rfl⟩ := List.head?_eq_some_iff.1 hd
        have hne : d ≠ '>' := fun heq => harrow ⟨t', by rw [heq]⟩
        simp [joins, hne]
      have hother : Keeps .code inner ['-'] t .code inner :=
        .other rfl rfl (by decide) (by simp) hapart
      rw [fits_minus, ← ih]
      · exact hother.verbatim_iff
      · rintro hjoint j ls rfl
        obtain ⟨t', rfl, -⟩ := h.eq_cons_of_joint hgap hjoint
        exact harrow ⟨t', rfl⟩
  · have hother : Keeps .code inner ['/'] t .code inner :=
      .other rfl rfl (by decide) (by simp) (apart_slash hc)
    rw [fits_token rfl (by simp), ← ih]
    exact hother.verbatim_iff

theorem calm_of_startsPunct {c : Char} (h : startsPunct (c :: t) = true) : Calm [c] := by
  by_cases hc : c ∈ ['<', '>', ',', '-', '/']
  · simp only [List.mem_cons, List.not_mem_nil, or_false] at hc
    rcases hc with rfl | rfl | rfl | rfl | rfl <;> exact ⟨by decide, by decide⟩
  · exact calm_of_isOrdinary (isOrdinary_of_startsPunct h hc)

/-- In a string, a lexeme that is no literal counts neither for the reader nor for its lexemes. -/
theorem verbatim_string_append {l : Lexeme} (hl : ∀ lit, l ≠ .token (.literal lit)) {s : Text}
    (hs : Calm s) (ih : Verbatim .string inner t ↔ fits .string inner ls = true) :
    Verbatim .string inner (s ++ t) ↔ fits .string inner (l :: ls) = true := by
  rw [hs.verbatim_append_iff, fits_string hl, ih]

/-- **Characters and lexemes.**  A spelled text is verbatim exactly when its lexemes fit. -/
theorem Spells.verbatim_iff (hgap : ∀ c, gap c = true → isGap c = true) (h : Spells gap t ls)
    {m : Mode} (hm : m.IsBetween) (inner : List Bracket) :
    Verbatim m inner t ↔ fits m inner ls = true := by
  induction h generalizing m inner with
  | nil => rw [verbatim_nil_iff, fits]; simp
  | @gap c t ls hc _ ih =>
    have hordinary : isOrdinary c = true := by
      have hmark : codeMarks.contains c = false := eq_false_of_isGap (by decide) (hgap c hc)
      rw [isOrdinary, hmark]
      rfl
    rw [← ih hm inner]
    rcases hm with rfl | rfl
    · exact (passes_cons hordinary t).code inner
    · exact (calm_of_isOrdinary hordinary).verbatim_append_iff inner t
  | @enter c d t ls hc _ ih =>
    obtain ⟨hb, hcalm⟩ : Bracket.ofOpen? c = some d.bracket ∧ Calm [c] := by
      unfold Delimiter.ofOpen? at hc
      split at hc <;> cases hc <;> exact ⟨rfl, by decide, by decide⟩
    rcases hm with rfl | rfl
    · rw [fits, ← ih (.inl rfl) (d.bracket :: inner)]
      exact (Keeps.opens hb).verbatim_iff
    · exact verbatim_string_append (by simp) hcalm (ih (.inr rfl) inner)
  | @leave c d t ls hc _ ih =>
    obtain ⟨rfl, hcalm⟩ : c = d.bracket.close ∧ Calm [c] := by
      unfold Delimiter.ofClose? at hc
      split at hc <;> cases hc <;> exact ⟨rfl, by decide, by decide⟩
    rcases hm with rfl | rfl
    · rw [verbatim_close_cons, fits_leave]
      simp only [ih (.inl rfl)]
    · exact verbatim_string_append (by simp) hcalm (ih (.inr rfl) inner)
  | @token tok t ls htok h ih =>
    rcases leaf?_cases htok with ⟨lit, rfl, hlit⟩ | ⟨c, rfl, hpunct⟩ | ⟨hnone, hne, hpass⟩
    · rw [Token.render] at hlit ⊢
      rw [verbatim_literal_append hlit hm, fits_literal]
      exact exists₂_congr fun m' inner' => and_congr_right fun hpass =>
        ih (isBetween_of_passLiteral hlit hm hpass) inner'
    · rcases hm with rfl | rfl
      · exact verbatim_punct_cons hgap h (ih (.inl rfl)) hpunct inner
      · exact verbatim_string_append (by simp) (calm_of_startsPunct hpunct) (ih (.inr rfl) inner)
    · rcases hm with rfl | rfl
      · rw [hpass.code, fits_token hnone hne, ih (.inl rfl)]
      · obtain ⟨s, heq, hcalm⟩ := hpass.calm
        rw [heq]
        exact verbatim_string_append (by simpa using hne) hcalm (ih (.inr rfl) inner)

end Lexer

/-! ## Groups -/

mutual

/-- Whether the angle brackets in a group pair off, and in all groups in it; an arrow is none. -/
def Token.isEven : Token → Bool
  | .group _ ts => evenFrom 0 ts
  | _ => true

/-- Whether angle brackets pair off behind `n` that are open. -/
def evenFrom : Nat → Tokens → Bool
  | n, [] => n == 0
  | n, .punct '-' true :: .punct '>' _ :: ts => evenFrom n ts
  | n, .punct '<' _ :: ts => evenFrom (n + 1) ts
  | 0, .punct '>' _ :: _ => false
  | n + 1, .punct '>' _ :: ts => evenFrom n ts
  | n, t :: ts => t.isEven && evenFrom n ts

end

theorem fits_leave_self (d : Delimiter) (outer : List Bracket) (ls : List Lexeme) :
    fits .code (d.bracket :: outer) (.leave d :: ls) = fits .code outer ls := by
  simp [fits]

theorem head?_flat_ne_gt {ts : Tokens} (h : ∀ j ts', ts ≠ .punct '>' j :: ts') {ls : List Lexeme}
    (hls : ∀ j ls', ls ≠ .token (.punct '>' j) :: ls') :
    ∀ j ls', flat ts ++ ls ≠ .token (.punct '>' j) :: ls' := by
  intro j ls' heq
  cases ts with
  | nil => exact hls j ls' heq
  | cons t ts =>
    rw [flat_cons] at heq
    cases t with
    | punct c j' =>
      obtain ⟨hc, -⟩ := List.cons.inj heq
      cases hc
      exact h _ _ rfl
    | _ => cases heq

/-- Whether a lexeme is none of the literals that are read as code in a block, or one that is whole. -/
def Lexeme.isWhole : Lexeme → Bool
  | .token (.literal t) => !isRawOrCharacter t || RuleFormat.isWhole t
  | _ => true

theorem all_isWhole_cons {t : Token} {ts : Tokens} (h : (flat (t :: ts)).all Lexeme.isWhole = true) :
    t.flat.all Lexeme.isWhole = true ∧ (flat ts).all Lexeme.isWhole = true := by
  rwa [flat_cons, List.all_append, Bool.and_eq_true] at h

theorem all_isWhole_of_group {d : Delimiter} {ts : Tokens}
    (h : (Token.group d ts).flat.all Lexeme.isWhole = true) : (flat ts).all Lexeme.isWhole = true := by
  rw [Token.flat, List.all_append, List.all_cons] at h
  simp only [Bool.and_eq_true] at h
  exact h.1.2

/-- A whole literal changes nothing, unless a comma in it cuts. -/
theorem fits_whole {lit : Text} (h : (Lexeme.token (.literal lit)).isWhole = true)
    (inner : List Bracket) (ls : List Lexeme) :
    fits .code inner (.token (.literal lit) :: ls) =
      ((!inner.isEmpty || isUncut lit) && fits .code inner ls) := by
  rw [fits, passLiteral]
  by_cases hraw : isRawOrCharacter lit = true
  swap
  · simp [isUncut, hraw]
  rw [if_neg (by simp [hraw])]
  have hwhole : Verbatim .code [] (lit.map uncomma) := by
    rw [← isPiece_eq_true_iff]
    simpa [Lexeme.isWhole, RuleFormat.isWhole, hraw] using h
  have hpiece : isUncut lit = isPiece lit := by simp [isUncut, hraw]
  rw [hpiece]
  have hcases := pass_whole hwhole rfl inner
  rw [List.nil_append] at hcases
  rcases hcases with hpass | ⟨rfl, hcut, hpass⟩
  · rw [hpass]
    cases inner with
    | nil =>
      have huncut := (verbatim_append_iff (u := []) (by simp [Apart])).2
        ⟨_, _, hpass, (verbatim_nil_iff ..).2 ⟨rfl, rfl⟩⟩
      rw [List.append_nil] at huncut
      simp [isPiece_eq_true_iff.2 huncut]
    | cons b outer => simp
  · have hcut : isPiece lit = false := by simpa [← isPiece_eq_true_iff] using hcut
    simp [hpass, hcut]

/-- Inside of brackets, a token that is neither a mark nor a group changes nothing. -/
theorem fits_leaf {t : Token} (hleaf : t.isLeaf = true) (h : t.isMark = false)
    (hwhole : t.flat.all Lexeme.isWhole = true) (hne : inner ≠ []) (ls : List Lexeme) :
    fits .code inner (t.flat ++ ls) = fits .code inner ls := by
  rw [Token.flat_of_isLeaf hleaf, List.singleton_append]
  cases t with
  | literal lit =>
    rw [fits_whole (by simpa [Token.flat] using hwhole), List.isEmpty_eq_false_iff.2 hne]
    rfl
  | word => exact fits_token rfl (by simp) inner ls
  | lifetime => exact fits_token rfl (by simp) inner ls
  | punct c j => exact fits_token h (by simp) inner ls
  | group => cases hleaf

/-- Inside of a group, the brackets fit exactly when the angle brackets pair off. -/
theorem fits_flat_leave (n : Nat) (ts : Tokens) (hwhole : (flat ts).all Lexeme.isWhole = true)
    (d : Delimiter) (outer : List Bracket) (ls : List Lexeme) :
    fits .code (List.replicate n .angle ++ d.bracket :: outer) (flat ts ++ .leave d :: ls) =
      (evenFrom n ts && fits .code outer ls) := by
  -- a token that is a group in turn is what the first two cases are about
  induction n, ts using evenFrom.induct
    (fun t => t.isLeaf = false → t.flat.all Lexeme.isWhole = true → ∀ inner ls,
      fits .code inner (t.flat ++ ls) = (t.isEven && fits .code inner ls)) generalizing d outer ls with
  | case1 d ts ih _ hwhole inner ls =>
    rw [Token.flat, List.cons_append, List.cons_append, List.append_assoc, fits, Token.isEven]
    exact ih (all_isWhole_of_group hwhole) d inner ls
  | case2 t hgroup hleaf =>
    cases t with
    | group d ts => exact absurd rfl (hgroup d ts)
    | _ => cases hleaf
  | case3 n =>
    cases n with
    | zero => exact fits_leave_self d outer ls
    | succ n =>
      have hne : Bracket.angle ≠ d.bracket := by cases d <;> decide
      simp [List.replicate_succ, fits, evenFrom, hne]
  | case4 n j ts ih =>
    rw [evenFrom, ← ih (all_isWhole_cons (all_isWhole_cons hwhole).2).2 d outer ls]
    exact fits_arrow j _ _
  | case5 n j ts ih =>
    rw [evenFrom, ← ih (all_isWhole_cons hwhole).2 d outer ls]
    show fits .code _ (.token (.punct '<' j) :: _) = _
    rw [fits]
    rfl
  | case6 j ts =>
    have hne : d.bracket ≠ Bracket.angle := by cases d <;> decide
    show fits .code (d.bracket :: outer) (.token (.punct '>' j) :: _) = _
    simp [fits, evenFrom, hne]
  | case7 n j ts ih =>
    rw [evenFrom, ← ih (all_isWhole_cons hwhole).2 d outer ls]
    show fits .code (.angle :: _) (.token (.punct '>' j) :: _) = _
    simp [fits]
  | case8 n t ts harrow hlt hgt₀ hgt ih₁ ih₂ =>
    have hne : List.replicate n Bracket.angle ++ d.bracket :: outer ≠ [] := by simp
    rw [evenFrom.eq_6 n t ts harrow hlt hgt₀ hgt, flat_cons, List.append_assoc, Bool.and_assoc,
      ← ih₂ (all_isWhole_cons hwhole).2 d outer ls]
    by_cases hleaf : t.isLeaf = true
    swap
    · exact ih₁ (by simpa using hleaf) (all_isWhole_cons hwhole).1 _ _
    have heven : t.isEven = true := by cases t <;> first | rfl | cases hleaf
    rw [heven, Bool.true_and]
    by_cases hmark : t.isMark = true
    swap
    · exact fits_leaf hleaf (by simpa using hmark) (all_isWhole_cons hwhole).1 hne _
    obtain ⟨c, j, rfl⟩ : ∃ c j, t = .punct c j := by
      cases t with
      | punct c j => exact ⟨c, j, rfl⟩
      | _ => cases hmark
    simp only [Token.isMark, Bool.or_eq_true, beq_iff_eq] at hmark
    -- the marks that are left are a comma and a hyphen that begins no arrow
    rcases hmark with ((rfl | rfl) | rfl) | rfl
    · exact absurd rfl (hlt j)
    · cases n with
      | zero => exact absurd rfl (hgt₀ j rfl)
      | succ n => exact absurd rfl (hgt n j rfl)
    · show fits .code _ (.token (.punct ',' j) :: _) = _
      rw [fits, List.isEmpty_eq_false_iff.2 hne]
      rfl
    · refine fits_minus (fun hj => ?_) _
      subst hj
      exact head?_flat_ne_gt (fun j' ts' heq => harrow j' ts' rfl heq) (by simp)

theorem fits_group {d : Delimiter} {ts : Tokens}
    (hwhole : (Token.group d ts).flat.all Lexeme.isWhole = true) (inner : List Bracket)
    (ls : List Lexeme) :
    fits .code inner ((Token.group d ts).flat ++ ls) = ((Token.group d ts).isEven && fits .code inner ls) := by
  rw [Token.flat, List.cons_append, List.cons_append, List.append_assoc, fits, Token.isEven]
  exact fits_flat_leave 0 ts (all_isWhole_of_group hwhole) d inner ls

/-! ## Tokens with paired angle brackets -/

/-- The angle brackets among tokens pair off, arrows left aside, and there is no comma outside of
them unless the flag allows it.  What stands in a group does not matter. -/
inductive Paired : Bool → Tokens → Prop where
  | nil {b : Bool} : Paired b []
  | token {b : Bool} {t : Token} {ts : Tokens} (ht : t.isMark = false) (h : Paired b ts) :
      Paired b (t :: ts)
  | comma {j : Bool} {ts : Tokens} (h : Paired true ts) : Paired true (.punct ',' j :: ts)
  | minus {b j : Bool} {lit : Text} {ts : Tokens} (h : Paired b ts) :
      Paired b (.punct '-' j :: .literal lit :: ts)
  | arrow {b j : Bool} {ts : Tokens} (h : Paired b ts) :
      Paired b (.punct '-' true :: .punct '>' j :: ts)
  | angle {b j j' : Bool} {inside ts : Tokens} (hin : Paired true inside) (h : Paired b ts) :
      Paired b (.punct '<' j :: (inside ++ .punct '>' j' :: ts))

namespace Paired

variable {b : Bool} {ts us : Tokens}

theorem append (h : Paired b ts) (h' : Paired b us) : Paired b (ts ++ us) := by
  induction h with
  | nil => exact h'
  | token ht _ ih => exact .token ht (ih h')
  | comma _ ih => exact .comma (ih h')
  | minus _ ih => exact .minus (ih h')
  | arrow _ ih => exact .arrow (ih h')
  | @angle b j j' inside ts hin _ _ ih =>
    rw [List.cons_append, List.append_assoc, List.cons_append]
    exact .angle hin (ih h')

theorem commas (h : Paired b ts) : Paired true ts := by
  induction h with
  | nil => exact .nil
  | token ht _ ih => exact .token ht ih
  | comma _ ih => exact .comma ih
  | minus _ ih => exact .minus ih
  | arrow _ ih => exact .arrow ih
  | angle hin _ _ ih => exact .angle hin ih

end Paired

/-- Whether no literal outside of all angle brackets is cut by a comma in it, behind `n` brackets that
are open. -/
def uncutFrom : Nat → Tokens → Bool
  | _, [] => true
  | n, .punct '-' true :: .punct '>' _ :: ts => uncutFrom n ts
  | n, .punct '<' _ :: ts => uncutFrom (n + 1) ts
  | n, .punct '>' _ :: ts => uncutFrom (n - 1) ts
  | n, .literal t :: ts => (n != 0 || isUncut t) && uncutFrom n ts
  | n, _ :: ts => uncutFrom n ts

theorem uncutFrom_token {t : Token} (h : t.isMark = false) (hlit : ∀ lit, t ≠ .literal lit) (n : Nat)
    (ts : Tokens) : uncutFrom n (t :: ts) = uncutFrom n ts := by
  cases t with
  | literal lit => exact absurd rfl (hlit lit)
  | punct c j =>
    simp only [Token.isMark, Bool.or_eq_false_iff, beq_eq_false_iff_ne] at h
    rw [uncutFrom] <;> simp_all
  | _ => rw [uncutFrom] <;> simp

theorem uncutFrom_minus (n : Nat) (j : Bool) (lit : Text) (ts : Tokens) :
    uncutFrom n (.punct '-' j :: .literal lit :: ts) = ((n != 0 || isUncut lit) && uncutFrom n ts) := by
  rw [uncutFrom, uncutFrom] <;> simp

theorem Paired.uncutFrom_append {b : Bool} {ts : Tokens} (h : Paired b ts) (n : Nat) (us : Tokens) :
    uncutFrom n (ts ++ us) = ((n != 0 || uncutFrom 0 ts) && uncutFrom n us) := by
  induction h generalizing n us with
  | nil => simp [uncutFrom]
  | @token b t ts ht _ ih =>
    rw [List.cons_append]
    by_cases hlit : ∃ lit, t = .literal lit
    · obtain ⟨lit, rfl⟩ := hlit
      rw [uncutFrom, uncutFrom, ih]
      cases n <;> simp [Bool.and_assoc]
    · have hlit : ∀ lit, t ≠ .literal lit := fun lit h => hlit ⟨lit, h⟩
      rw [uncutFrom_token ht hlit, uncutFrom_token ht hlit, ih]
  | @comma j ts _ ih =>
    rw [List.cons_append, uncutFrom, uncutFrom, ih] <;> simp
  | @minus b j lit ts _ ih =>
    rw [List.cons_append, List.cons_append, uncutFrom_minus, uncutFrom_minus, ih]
    cases n <;> simp [Bool.and_assoc]
  | @arrow b j ts _ ih =>
    rw [List.cons_append, List.cons_append, uncutFrom, uncutFrom, ih]
  | @angle b j j' inside ts _ _ ihin ih =>
    rw [List.cons_append, List.append_assoc, uncutFrom, uncutFrom, ihin, ihin, List.cons_append,
      uncutFrom, uncutFrom, Nat.add_sub_cancel, Nat.add_sub_cancel, ih]
    simp

/-- Over paired tokens with whole literals, the brackets fit exactly when they do in the groups, and no
literal is cut. -/
theorem Paired.fits_append {b : Bool} {ts : Tokens} (h : Paired b ts)
    (hwhole : (flat ts).all Lexeme.isWhole = true) {inner : List Bracket}
    (hb : b = false ∨ inner ≠ []) (ls : List Lexeme) :
    fits .code inner (flat ts ++ ls) =
      (ts.all Token.isEven && (!inner.isEmpty || uncutFrom 0 ts) && fits .code inner ls) := by
  induction h generalizing inner ls with
  | nil => simp [uncutFrom]
  | @token b t ts ht _ ih =>
    obtain ⟨hone, hwhole⟩ := all_isWhole_cons hwhole
    have ih := @ih hwhole inner hb ls
    rw [flat_cons, List.append_assoc, List.all_cons]
    cases t with
    | group d inside =>
      rw [fits_group hone, ih, uncutFrom_token rfl (by simp)]
      simp [Bool.and_assoc]
    | literal lit =>
      show fits .code inner (.token (.literal lit) :: (flat ts ++ ls)) = _
      rw [fits_whole (by simpa [Token.flat] using hone), ih, uncutFrom, Token.isEven]
      · cases inner <;> simp [Bool.and_left_comm, Bool.and_assoc]
      · simp
    | word w =>
      show fits .code inner (.token (.word w) :: (flat ts ++ ls)) = _
      rw [fits_token rfl (by simp), ih, uncutFrom_token rfl (by simp)]
      rfl
    | lifetime w =>
      show fits .code inner (.token (.lifetime w) :: (flat ts ++ ls)) = _
      rw [fits_token rfl (by simp), ih, uncutFrom_token rfl (by simp)]
      rfl
    | punct c j =>
      show fits .code inner (.token (.punct c j) :: (flat ts ++ ls)) = _
      rw [fits_token ht (by simp), ih, uncutFrom_token ht (by simp)]
      rfl
  | @comma j ts _ ih =>
    have hne : inner ≠ [] := hb.resolve_left (by simp)
    show fits .code inner (.token (.punct ',' j) :: (flat ts ++ ls)) = _
    rw [fits, ih (all_isWhole_cons hwhole).2 hb, List.isEmpty_eq_false_iff.2 hne]
    rfl
  | @minus b j lit ts _ ih =>
    have hrest := (all_isWhole_cons hwhole).2
    have hlit := (all_isWhole_cons hrest).1
    show fits .code inner (.token (.punct '-' j) :: .token (.literal lit) :: (flat ts ++ ls)) = _
    rw [fits_minus (by simp), fits_whole (by simpa [Token.flat] using hlit),
      ih (all_isWhole_cons hrest).2 hb, uncutFrom_minus]
    simp only [List.all_cons, Token.isEven]
    cases inner <;> simp [Bool.and_left_comm, Bool.and_assoc]
  | @arrow b j ts _ ih =>
    show fits .code inner (.token (.punct '-' true) :: .token (.punct '>' j) :: (flat ts ++ ls)) = _
    rw [fits_arrow, ih (all_isWhole_cons (all_isWhole_cons hwhole).2).2 hb, uncutFrom]
    rfl
  | @angle b j j' inside ts hin _ ihin ih =>
    obtain ⟨hinside, hrest⟩ : (flat inside).all Lexeme.isWhole = true ∧
        (flat (.punct '>' j' :: ts)).all Lexeme.isWhole = true := by
      have htail := (all_isWhole_cons hwhole).2
      rwa [flat_append, List.all_append, Bool.and_eq_true] at htail
    have hflat : flat (.punct '<' j :: (inside ++ .punct '>' j' :: ts)) ++ ls =
        .token (.punct '<' j) :: (flat inside ++ .token (.punct '>' j') :: (flat ts ++ ls)) := by
      simp [Token.flat]
    have hgt : fits .code (.angle :: inner) (.token (.punct '>' j') :: (flat ts ++ ls))
        = fits .code inner (flat ts ++ ls) := by simp [fits]
    rw [hflat, fits, ihin hinside (Or.inr (by simp)), hgt, ih (all_isWhole_cons hrest).2 hb, uncutFrom,
      hin.uncutFrom_append, uncutFrom]
    simp [Token.isEven, Bool.and_assoc]

end RuleFormat
