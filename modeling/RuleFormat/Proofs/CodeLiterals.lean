import RuleFormat.Proofs.Passing

/-!
# Literals that are read as code

Character literals, byte literals and raw strings are code to the reader of a block, and a quote in one
of them opens a string there.  `pass` says what is open behind a text, and a text in front of another is
kept exactly when the other one closes what is open behind it (`verbatim_append_iff`).

A text that is *whole* leaves nothing open in code and closes nothing there: inside of brackets it
stands in the piece as it is, and outside of them, too, unless a comma in it cuts (`pass_whole`).
-/

namespace RuleFormat

variable {m m' : Mode} {inner inner' : List Bracket} {t u rest : Text}

/-- Whether a literal is a character, a byte or a raw string.  The reader of a block knows no such
literals and takes them for code. -/
def isRawOrCharacter : Text → Bool
  | '\'' :: _ => true
  | 'r' :: _ => true
  | 'b' :: '\'' :: _ => true
  | 'b' :: 'r' :: _ => true
  | 'c' :: 'r' :: _ => true
  | _ => false

/-- Whether a text that stands alone in a block is one piece. -/
def isPiece (t : Text) : Bool := walk .code [] (t ++ [')']) = .ok ⟨t, [], t, []⟩

theorem isPiece_eq_true_iff : isPiece t = true ↔ Verbatim .code [] t := by
  rw [isPiece, decide_eq_true_iff]
  exact ⟨fun h => verbatim_of_walk rfl h rfl, Verbatim.walk_eq⟩

/-! ## What is open behind a text -/

/-- The brackets that are left when a character closes the innermost one. -/
def shut? (c : Char) : List Bracket → Option (List Bracket)
  | [] => none
  | b :: outer => if b.close = c then some outer else none

/-- What is open behind a text that the reader of a block keeps: its mode, and the brackets, the
innermost first.  There is nothing to say where the reader cuts the text, finds a fault in it or
takes a part of it for a comment. -/
def pass : Mode → List Bracket → Text → Option (Mode × List Bracket)
  | m, inner, [] => some (m, inner)
  | .string, inner, c :: t =>
    pass (if c = '"' then .code else if c = '\\' then .escape else .string) inner t
  | .escape, inner, _ :: t => pass .string inner t
  | .line, _, _ :: _ => none
  | .comment _, _, _ :: _ => none
  | .code, inner, '-' :: '>' :: t => pass .code inner t
  | .code, inner, c :: t =>
    if c = '"' then pass .string inner t
    else
      match Bracket.ofOpen? c with
      | some b => pass .code (b :: inner) t
      | none =>
        if isClose c then
          match shut? c inner with
          | some outer => pass .code outer t
          | none => none
        else if c = ',' ∧ inner = [] ∨ (t.head?.any fun d => joins c d) then none
        else pass .code inner t

/-- What a character does in code that begins no arrow. -/
theorem pass_code_cons {c : Char} (h : ∀ t', c = '-' → t ≠ '>' :: t') (inner : List Bracket) :
    pass .code inner (c :: t) =
      if c = '"' then pass .string inner t
      else
        match Bracket.ofOpen? c with
        | some b => pass .code (b :: inner) t
        | none =>
          if isClose c then
            match shut? c inner with
            | some outer => pass .code outer t
            | none => none
          else if c = ',' ∧ inner = [] ∨ (t.head?.any fun d => joins c d) then none
          else pass .code inner t := by
  rw [pass]
  exact h

theorem not_verbatim_line {c : Char} : ¬Verbatim .line inner (c :: t) := by
  intro h
  obtain ⟨_, _, _, _, -, hk, -⟩ := h.exists_keeps
  cases hk

theorem not_verbatim_comment {depth : Nat} {c : Char} :
    ¬Verbatim (.comment depth) inner (c :: t) := by
  intro h
  obtain ⟨_, _, _, _, -, hk, -⟩ := h.exists_keeps
  cases hk

theorem not_verbatim_commentStart {d : Char} (hd : d = '/' ∨ d = '*') :
    ¬Verbatim .code inner ('/' :: d :: t) := by
  intro h
  obtain ⟨raw, ahead, m', inner', heq, hk, -⟩ := h.exists_keeps
  generalize hc : '/' = c at hk heq
  cases hk with
  | quote => cases hc
  | arrow => cases hc
  | opens hb =>
    subst hc
    cases hb
  | @closes _ _ b => cases b <;> cases hc
  | other _ _ _ _ hapart =>
    subst hc
    obtain ⟨-, rfl⟩ := List.cons.inj heq
    have hjoin := hapart d rfl
    rcases hd with rfl | rfl <;> cases hjoin

theorem exists_eq_close {c : Char} (h : isClose c = true) : ∃ b : Bracket, c = b.close := by
  simp only [isClose, Bool.or_eq_true, beq_iff_eq] at h
  rcases h with ((rfl | rfl) | rfl) | rfl
  · exact ⟨.round, rfl⟩
  · exact ⟨.square, rfl⟩
  · exact ⟨.curly, rfl⟩
  · exact ⟨.angle, rfl⟩

theorem shut?_eq_some {c : Char} {outer : List Bracket} (h : shut? c inner = some outer) :
    ∃ b : Bracket, c = b.close ∧ inner = b :: outer := by
  unfold shut? at h
  split at h
  · cases h
  · rename_i b outer'
    split at h
    · rename_i hc
      exact ⟨b, hc.symm, by rw [Option.some.inj h]⟩
    · cases h

/-- A text in front of another is kept as it is, and what is open behind it, the other one closes. -/
theorem verbatim_append_iff (hu : ∀ v d, t = v ++ [d] → Apart d u) :
    Verbatim m inner (t ++ u) ↔
      ∃ m' inner', pass m inner t = some (m', inner') ∧ Verbatim m' inner' u := by
  have htail : ∀ {s t : Text}, (∀ v d, s ++ t = v ++ [d] → Apart d u) →
      ∀ v d, t = v ++ [d] → Apart d u := by
    rintro s t h v d rfl
    exact h (s ++ v) d (List.append_assoc ..).symm
  fun_induction pass m inner t with
  | case1 m inner => simp
  | case2 inner c t ih => exact Keeps.string.verbatim_iff.trans (ih (htail (s := [c]) hu))
  | case3 inner c t ih => exact Keeps.escape.verbatim_iff.trans (ih (htail (s := [c]) hu))
  | case4 inner c t => exact iff_of_false not_verbatim_line (by simp)
  | case5 depth inner c t => exact iff_of_false not_verbatim_comment (by simp)
  | case6 inner t ih => exact Keeps.arrow.verbatim_iff.trans (ih (htail (s := ['-', '>']) hu))
  | case7 inner t _ ih => exact Keeps.quote.verbatim_iff.trans (ih (htail (s := ['"']) hu))
  | case8 inner c t _ _ b hb ih =>
    exact (Keeps.opens hb).verbatim_iff.trans (ih (htail (s := [c]) hu))
  | case9 inner c t _ _ _ hclose outer hshut ih =>
    obtain ⟨b, rfl, rfl⟩ := shut?_eq_some hshut
    exact Keeps.closes.verbatim_iff.trans (ih (htail (s := [b.close]) hu))
  | case10 inner c t _ _ _ hclose hshut =>
    obtain ⟨b, rfl⟩ := exists_eq_close hclose
    refine iff_of_false (fun h => ?_) (by simp)
    obtain ⟨outer, rfl, -⟩ := (verbatim_close_cons b).1 h
    simp [shut?] at hshut
  | case11 inner c t harrow _ _ _ hstop =>
    refine iff_of_false (fun h => ?_) (by simp)
    rcases hstop with ⟨rfl, rfl⟩ | hjoin
    · exact (verbatim_comma_cons.1 h).1 rfl
    · -- the mark is no arrow, so it begins a comment
      obtain ⟨d, hd, hjoin⟩ := (Option.any_eq_true _ _).1 hjoin
      have hjoins : ¬Apart c t := fun hapart => by simp [hapart d hd] at hjoin
      obtain ⟨d, t, rfl, ⟨rfl, hd⟩ | ⟨rfl, rfl⟩⟩ := eq_mark_of_not_apart hjoins
      · exact not_verbatim_commentStart hd h
      · exact harrow t rfl rfl
  | case12 inner c t _ hquote hopen hclose hstop ih =>
    have hapart : Apart c (t ++ u) := by
      cases t with
      | nil => exact hu [] c rfl
      | cons d t =>
        intro d' hd'
        obtain rfl := Option.some.inj hd'
        exact Bool.eq_false_iff.2 fun hjoin => hstop (.inr hjoin)
    have hkeep : Keeps .code inner [c] (t ++ u) .code inner :=
      .other hopen (by simpa using hclose) hquote (fun hcut => hstop (.inl hcut)) hapart
    exact hkeep.verbatim_iff.trans (ih (htail (s := [c]) hu))

theorem Keeps.pass_eq {raw : Text} (hk : Keeps m inner raw t m' inner') :
    pass m inner (raw ++ t) = pass m' inner' t := by
  have harrow : ∀ {c : Char} {t : Text}, Apart c t → ∀ t', c = '-' → t ≠ '>' :: t' := by
    rintro c t hapart t' rfl rfl
    cases hapart '>' rfl
  cases hk with
  | quote => rfl
  | arrow => rfl
  | @opens _ _ c b hb =>
    obtain ⟨hquote, hapart⟩ := apart_bracket (.inl (by rw [hb]; rfl)) t
    rw [List.singleton_append, pass_code_cons (harrow hapart), if_neg hquote, hb]
  | @closes _ _ b =>
    obtain ⟨hquote, hapart⟩ := apart_bracket (.inr (isClose_close b)) t
    rw [List.singleton_append, pass_code_cons (harrow hapart), if_neg hquote, ofOpen?_close]
    simp [isClose_close, shut?]
  | @other _ _ c hopen hclose hquote hcut hapart =>
    have hstop : ¬(c = ',' ∧ inner = [] ∨ (t.head?.any fun d => joins c d) = true) := by
      rintro (hcomma | hjoin)
      · exact hcut hcomma
      · obtain ⟨d, hd, hjoin⟩ := (Option.any_eq_true _ _).1 hjoin
        exact absurd (hapart d hd) (by simp [hjoin])
    rw [List.singleton_append, pass_code_cons (harrow hapart), if_neg hquote, hopen]
    simp [hclose, hstop]
  | string => rfl
  | escape => rfl

/-! ## Whole texts -/

/-- Any other character in place of a comma. -/
def uncomma (c : Char) : Char := if c = ',' then '.' else c

/-- Whether a text leaves nothing open in code and closes nothing there.  Inside of brackets, where
commas do not count, it stands in the piece as it is. -/
def isWhole (t : Text) : Bool := isPiece (t.map uncomma)

/-- Whether no comma in a literal cuts the piece in which it stands, outside of all brackets. -/
def isUncut (t : Text) : Bool := !isRawOrCharacter t || isPiece t

theorem eq_of_uncomma {c d : Char} (hd : d ≠ '.') (h : uncomma c = d) : c = d := by
  unfold uncomma at h
  split at h
  · exact absurd h.symm hd
  · exact h

theorem map_uncomma_singleton {raw : Text} {d : Char} (h : raw.map uncomma = [d]) :
    ∃ c, raw = [c] ∧ uncomma c = d := by
  simpa [List.map_eq_singleton_iff] using h

theorem Apart.of_uncomma {c : Char} (h : Apart (uncomma c) (t.map uncomma)) : Apart c t := by
  intro d hd
  by_contra hne
  have hjoin : joins c d = true := by simpa using hne
  have hc : c ≠ ',' := by
    rintro rfl
    exact absurd hjoin (by simp [joins])
  have hd' : d ≠ ',' := by
    rintro rfl
    exact absurd hjoin (by simp [joins])
  have happ := h (uncomma d) (by simp [hd])
  rw [uncomma, uncomma, if_neg hc, if_neg hd', hjoin] at happ
  cases happ

/-- A comma in code outside of brackets is the only character that is not kept as the one in its
place is. -/
theorem keeps_or_comma {raw : Text}
    (hk : Keeps m inner (raw.map uncomma) (t.map uncomma) m' inner') :
    Keeps m inner raw t m' inner' ∨
      (raw = [','] ∧ m = .code ∧ m' = .code ∧ inner = [] ∧ inner' = []) := by
  generalize hr : raw.map uncomma = raw' at hk
  generalize ht : t.map uncomma = t' at hk
  cases hk with
  | quote =>
    obtain ⟨c, rfl, hc⟩ := map_uncomma_singleton hr
    rw [eq_of_uncomma (by decide) hc]
    exact Or.inl .quote
  | arrow =>
    cases raw with
    | nil => cases hr
    | cons c raw =>
      obtain ⟨hc, hr⟩ := List.cons.inj hr
      obtain ⟨d, rfl, hd⟩ := map_uncomma_singleton hr
      rw [eq_of_uncomma (by decide) hc, eq_of_uncomma (by decide) hd]
      exact Or.inl .arrow
  | @opens _ _ d b hb =>
    obtain ⟨c, rfl, hc⟩ := map_uncomma_singleton hr
    have hne : d ≠ '.' := by
      rintro rfl
      cases hb
    rw [eq_of_uncomma hne hc]
    exact Or.inl (.opens hb)
  | @closes _ _ b =>
    obtain ⟨c, rfl, hc⟩ := map_uncomma_singleton hr
    rw [eq_of_uncomma (by cases b <;> decide) hc]
    exact Or.inl .closes
  | @other _ _ d hopen hclose hquote hcut hapart =>
    obtain ⟨c, rfl, rfl⟩ := map_uncomma_singleton hr
    subst ht
    by_cases hc : c = ','
    · subst hc
      by_cases hinner : inner = []
      · exact Or.inr ⟨rfl, rfl, rfl, hinner, hinner⟩
      · exact Or.inl (.other rfl rfl (by decide) (fun h => hinner h.2) hapart.of_uncomma)
    · have hsame : uncomma c = c := if_neg hc
      have hapart' := hapart.of_uncomma
      rw [hsame] at hopen hclose hquote hcut
      exact Or.inl (.other hopen hclose hquote hcut hapart')
  | @string _ _ d =>
    obtain ⟨c, rfl, rfl⟩ := map_uncomma_singleton hr
    by_cases hc : c = ','
    · subst hc
      exact Or.inl .string
    · have hsame : uncomma c = c := if_neg hc
      rw [hsame]
      exact Or.inl .string
  | @escape _ _ d =>
    obtain ⟨c, rfl, rfl⟩ := map_uncomma_singleton hr
    exact Or.inl .escape

/-- Nothing is open behind a whole text, and in brackets or without a comma that cuts it, it is
kept. -/
theorem pass_whole {s : Text} (hs : Verbatim m inner s) (ht : t.map uncomma = s)
    (outer : List Bracket) :
    pass m (inner ++ outer) t = some (.code, outer) ∨
      (outer = [] ∧ ¬Verbatim m inner t ∧ pass m inner t = none) := by
  induction hs generalizing t with
  | nil =>
    obtain rfl := List.map_eq_nil_iff.1 ht
    exact .inl rfl
  | @keep m m' inner inner' raw' s' hk _ ih =>
    obtain ⟨raw, t, rfl, rfl, rfl⟩ := List.map_eq_append_iff.1 ht
    rcases keeps_or_comma hk with hkeep | ⟨rfl, rfl, rfl, rfl, rfl⟩
    · rw [(hkeep.inside outer).pass_eq, hkeep.pass_eq, hkeep.verbatim_iff]
      exact ih rfl
    · have hcomma : ∀ {outer : List Bracket}, outer ≠ [] →
          pass .code outer (',' :: t) = pass .code outer t := fun hne =>
        Keeps.pass_eq (.other rfl rfl (by decide) (fun h => hne h.2) fun d _ => by simp [joins])
      by_cases houter : outer = []
      · subst houter
        exact .inr ⟨rfl, fun h => (verbatim_comma_cons.1 h).1 rfl, rfl⟩
      · rw [List.nil_append, List.singleton_append, hcomma houter]
        exact .inl ((ih rfl).resolve_right fun h => houter h.1)

/-! ## How such literals end -/

/-- The characters that may make a mark with the next one. -/
def halfMarks : Text := "/-\\"

theorem apart_of_not_mem_halfMarks {d : Char} (hd : d ∉ halfMarks) (t : Text) : Apart d t := by
  intro e _
  have hne : d ≠ '/' ∧ d ≠ '-' := by
    constructor <;> (rintro rfl; exact hd (by decide))
  simp [joins, hne.1, hne.2]

/-- What is in front of `rest` in `t` ends with a character that makes no mark with the next one. -/
def Ends (t rest : Text) : Prop := ∃ v d, t = v ++ d :: rest ∧ d ∉ halfMarks

theorem Ends.append (h : Ends t rest) (s : Text) : Ends (s ++ t) rest := by
  obtain ⟨v, d, rfl, hd⟩ := h
  exact ⟨s ++ v, d, by rw [List.append_assoc], hd⟩

theorem Ends.of_suffix (h : Ends t rest) (hu : t <:+ u) : Ends u rest := by
  obtain ⟨s, rfl⟩ := hu
  exact h.append s

theorem ends_append {s : Text} (hne : s ≠ []) (hs : ∀ c ∈ s, c ∉ halfMarks) (rest : Text) :
    Ends (s ++ rest) rest := by
  refine ⟨s.dropLast, s.getLast hne, ?_, hs _ (List.getLast_mem hne)⟩
  conv_lhs => rw [← List.dropLast_append_getLast hne]
  simp

namespace Literal

theorem afterIdent?_ends (h : afterIdent? t = some rest) : Ends t rest := by
  have hne : ∀ {c : Char}, isOrdinary c = true → c ∉ halfMarks := by
    intro c hc hmem
    have hmarks : ∀ d ∈ halfMarks, (!isOrdinary d) = true := List.all_eq_true.1 (by decide)
    exact absurd (hmarks c hmem) (by simp [hc])
  cases t with
  | nil => cases h
  | cons c cs =>
    rw [afterIdent?] at h
    split at h
    · rename_i hc
      obtain rfl := Option.some.inj h
      have hends := ends_append (s := c :: cs.takeWhile isIdentContinue) (List.cons_ne_nil _ _)
        (by
          intro d hd
          rcases List.mem_cons.1 hd with rfl | hd
          · exact hne (isOrdinary_of_isIdentStart hc)
          · exact hne (isOrdinary_of_isIdentContinue (List.mem_takeWhile_imp hd)))
        (cs.dropWhile isIdentContinue)
      rwa [List.cons_append, List.takeWhile_append_dropWhile] at hends
    · cases h

theorem afterSuffix_ends (h : Ends t u) : Ends t (afterSuffix u) := by
  unfold afterSuffix
  cases hu : afterIdent? u with
  | none => exact h
  | some rest =>
    obtain ⟨v, d, rfl, -⟩ := h
    exact (afterIdent?_ends hu).of_suffix ((List.suffix_cons d u).trans (List.suffix_append _ _))

theorem afterRaw?_ends {k : StringKind} {hashes : Nat} (h : afterRaw? k hashes t = some rest) :
    Ends t rest := by
  fun_induction afterRaw? k hashes t with
  | case1 => cases h
  | case2 cs hprefix =>
    obtain rfl := Option.some.inj h
    obtain ⟨w, rfl⟩ := List.isPrefixOf_iff_prefix.1 hprefix
    have hdrop : (List.replicate hashes '#' ++ w).drop hashes = w := by simp
    rw [hdrop]
    refine ends_append (s := '"' :: List.replicate hashes '#') (List.cons_ne_nil _ _) ?_ w
    intro c hc
    rcases List.mem_cons.1 hc with rfl | hc
    · decide
    · rw [List.eq_of_mem_replicate hc]
      decide
  | case3 cs _ ih => exact (ih h).append ['"']
  | case4 cs ih => exact (ih h).append ['\r', '\n']
  | case5 => cases h
  | case6 => cases h
  | case7 c cs _ _ _ _ ih => exact (ih h).append [c]

theorem afterRawOpen?_ends {k : StringKind} (h : afterRawOpen? k t = some rest) : Ends t rest := by
  unfold afterRawOpen? at h
  dsimp only at h
  split at h
  · rename_i cs hdrop
    split at h
    · cases h
    · refine (afterRaw?_ends h).of_suffix ((List.suffix_cons '"' cs).trans ?_)
      rw [← hdrop]
      exact List.dropWhile_suffix _
  · cases h

theorem afterQuoted?_ends {k : StringKind} (h : afterQuoted? k t = some rest) : Ends t rest := by
  unfold afterQuoted? at h
  split at h
  · rename_i cs hone
    obtain rfl := Option.some.inj h
    obtain ⟨v, rfl⟩ := afterOneChar?_suffix hone
    exact ⟨v, '\'', rfl, by decide⟩
  · cases h

theorem afterString?_ends {k : StringKind} {s : StringState} (h : afterString? k s t = some rest) :
    Ends t rest := by
  induction t generalizing s with
  | nil => cases h
  | cons c cs ih =>
    rw [afterString?] at h
    split at h
    · cases h
    · exact (ih h).append [c]
    · rename_i hstep
      obtain ⟨-, rfl⟩ := stringStep_close hstep
      obtain rfl := Option.some.inj h
      exact ⟨[], '"', rfl, by decide⟩

theorem exists_append_of_suffix {s lit : Text} (h : rest <:+ t) (heq : s ++ t = lit ++ rest) :
    ∃ v, lit = s ++ v := by
  obtain ⟨v, rfl⟩ := h
  exact ⟨v, (List.append_cancel_right (by rw [List.append_assoc, heq])).symm⟩

theorem isRawOrCharacter_of_isDigit {c : Char} (hc : isDigit c = true) (v : Text) :
    isRawOrCharacter (c :: v) = false := by
  unfold isRawOrCharacter
  split <;> first | rfl | (rename_i heq; cases heq; cases hc)

/-- A literal ends in a way that makes no mark. -/
def EndsWell (lit : Text) : Prop := ∀ v d, lit = v ++ [d] → d ∉ halfMarks

theorem endsWell_of_ends {s lit : Text} (heq : s ++ t = lit ++ rest) (h : Ends t rest) :
    EndsWell lit ∧ ∃ v, lit = s ++ v := by
  obtain ⟨v, d, rfl, hd⟩ := h
  have hlit : lit = s ++ (v ++ [d]) := List.append_cancel_right (by rw [← heq]; simp)
  refine ⟨fun v' d' heq' => ?_, v ++ [d], hlit⟩
  have hlast := congrArg List.getLast? (hlit.symm.trans heq')
  simp at hlast
  exact hlast ▸ hd

/-- A literal is passed, or it ends in a way that makes no mark.  Those that are not read as code have
nothing open behind them. -/
theorem after?_cases {lit : Text} (h : after? t = some rest) (heq : t = lit ++ rest) :
    (isRawOrCharacter lit = false ∧ Passes t rest) ∨
      (EndsWell lit ∧ (isRawOrCharacter lit = false →
        ∀ inner, Verbatim .code inner t ↔ Verbatim .code inner rest)) := by
  -- of raw strings and characters, all that counts is how they end
  have hcode : ∀ {s u v : Text}, (∀ w, isRawOrCharacter (s ++ w) = true) → s ++ u = t →
      Ends u v → afterSuffix v = rest → EndsWell lit ∧ (isRawOrCharacter lit = false →
        ∀ inner, Verbatim .code inner t ↔ Verbatim .code inner rest) := by
    rintro s u v hs hu hends rfl
    obtain ⟨hwell, w, rfl⟩ := endsWell_of_ends (hu.trans heq) (afterSuffix_ends hends)
    exact ⟨hwell, fun hraw => by cases (hs w).symm.trans hraw⟩
  -- other strings are hidden from the reader, behind letters that mean nothing to it
  have hplain : ∀ {s u v : Text} {k : StringKind}, (∀ c ∈ s, isOrdinary c = true) →
      s ++ '"' :: u = t → afterString? k .plain u = some v → afterSuffix v = rest →
      EndsWell lit ∧ (isRawOrCharacter lit = false →
        ∀ inner, Verbatim .code inner t ↔ Verbatim .code inner rest) := by
    rintro s u v k hordinary rfl hstring rfl
    have hends : Ends ('"' :: u) v := (afterString?_ends hstring).append ['"']
    refine ⟨(endsWell_of_ends heq (afterSuffix_ends hends)).1, fun _ inner => ?_⟩
    rw [(passes_append hordinary _).code, verbatim_quote_cons hstring, (afterSuffix_passes v).code]
  rcases Option.or_eq_some_iff.1 h with h | ⟨-, h⟩
  · obtain ⟨u, hu, hsuffix⟩ := Option.map_eq_some_iff.1 h
    right
    unfold afterAnyString? at hu
    split at hu
    · exact hplain (s := []) (by simp) rfl hu hsuffix
    · exact hcode (s := ['r']) (fun _ => rfl) rfl (afterRawOpen?_ends hu) hsuffix
    · exact hplain (s := ['b']) (by simp; decide) rfl hu hsuffix
    · exact hcode (s := ['b', 'r']) (fun _ => rfl) rfl (afterRawOpen?_ends hu) hsuffix
    · exact hplain (s := ['c']) (by simp; decide) rfl hu hsuffix
    · exact hcode (s := ['c', 'r']) (fun _ => rfl) rfl (afterRawOpen?_ends hu) hsuffix
    · cases hu
  rcases Option.or_eq_some_iff.1 h with h | ⟨-, h⟩
  · obtain ⟨u, hu, hsuffix⟩ := Option.map_eq_some_iff.1 h
    right
    unfold afterCharacter? at hu
    split at hu
    · exact hcode (s := ['\'']) (fun _ => rfl) rfl (afterQuoted?_ends hu) hsuffix
    · exact hcode (s := ['b', '\'']) (fun _ => rfl) rfl (afterQuoted?_ends hu) hsuffix
    · cases hu
  · obtain ⟨c, cs, rfl, hsuffix⟩ := afterNumber?_suffix h
    obtain ⟨v, rfl⟩ := exists_append_of_suffix (s := [c]) hsuffix heq
    exact .inl ⟨isRawOrCharacter_of_isDigit (afterNumber?_head h) v, afterNumber?_passes h⟩

end Literal

/-! ## Literals between tokens -/

/-- The modes in which the reader of a block may stand between two tokens. -/
def Mode.IsBetween (m : Mode) : Prop := m = .code ∨ m = .string

/-- What is open behind a literal.  The reader of a block knows plain strings and numbers where they
stand in code, and reads all others character by character. -/
def passLiteral (m : Mode) (inner : List Bracket) (lit : Text) : Option (Mode × List Bracket) :=
  if m = .code ∧ isRawOrCharacter lit = false then some (.code, inner) else pass m inner lit

theorem Keeps.calm {c : Char} (hquote : c ≠ '"') (hslash : c ≠ '\\') (inner : List Bracket)
    (t : Text) : Keeps .string inner [c] t .string inner := by
  have hk : Keeps .string inner [c] t
      (if c = '"' then .code else if c = '\\' then .escape else .string) inner := .string
  rwa [if_neg hquote, if_neg hslash] at hk

theorem Calm.of_cons {c : Char} {s : Text} (h : Calm (c :: s)) : (c ≠ '"' ∧ c ≠ '\\') ∧ Calm s := by
  simp only [Calm, List.mem_cons, not_or] at h ⊢
  exact ⟨⟨Ne.symm h.1.1, Ne.symm h.2.1⟩, h.1.2, h.2.2⟩

/-- A calm text in a string literal goes on with it. -/
theorem Calm.verbatim_append_iff {s : Text} (hs : Calm s) (inner : List Bracket) (t : Text) :
    Verbatim .string inner (s ++ t) ↔ Verbatim .string inner t := by
  induction s with
  | nil => rfl
  | cons c s ih =>
    obtain ⟨⟨hquote, hslash⟩, hs⟩ := hs.of_cons
    exact (Keeps.calm hquote hslash inner (s ++ t)).verbatim_iff.trans (ih hs)

theorem Calm.pass_eq {s : Text} (hs : Calm s) (inner : List Bracket) :
    pass .string inner s = some (.string, inner) := by
  induction s with
  | nil => rfl
  | cons c s ih =>
    obtain ⟨⟨hquote, hslash⟩, hs⟩ := hs.of_cons
    exact (Keeps.calm hquote hslash inner s).pass_eq.trans (ih hs)

/-- Only a backslash at its end leaves an escape open behind a text. -/
theorem isBetween_of_pass (h : pass m inner t = some (m', inner'))
    (hm : m.IsBetween ∨ (m = .escape ∧ t ≠ [])) (ht : ∀ v, t ≠ v ++ ['\\']) : m'.IsBetween := by
  have htail : ∀ {s t : Text}, (∀ v, s ++ t ≠ v ++ ['\\']) → ∀ v, t ≠ v ++ ['\\'] := by
    rintro s t h v rfl
    exact h (s ++ v) (List.append_assoc ..).symm
  fun_induction pass m inner t with
  | case1 m inner =>
    obtain ⟨rfl, -⟩ := Prod.mk.inj (Option.some.inj h)
    exact hm.resolve_right fun h => h.2 rfl
  | case2 inner c t ih =>
    refine ih h ?_ (htail (s := [c]) ht)
    split_ifs with hquote hslash
    · exact .inl (.inl rfl)
    · refine .inr ⟨rfl, ?_⟩
      rintro rfl
      exact ht [] (by rw [hslash, List.nil_append])
    · exact .inl (.inr rfl)
  | case3 inner c t ih => exact ih h (.inl (.inr rfl)) (htail (s := [c]) ht)
  | case4 => cases h
  | case5 => cases h
  | case6 inner t ih => exact ih h (.inl (.inl rfl)) (htail (s := ['-', '>']) ht)
  | case7 inner t _ ih => exact ih h (.inl (.inr rfl)) (htail (s := ['"']) ht)
  | case8 inner c t _ _ b _ ih => exact ih h (.inl (.inl rfl)) (htail (s := [c]) ht)
  | case9 inner c t _ _ _ _ outer _ ih => exact ih h (.inl (.inl rfl)) (htail (s := [c]) ht)
  | case10 => cases h
  | case11 => cases h
  | case12 inner c t _ _ _ _ _ ih => exact ih h (.inl (.inl rfl)) (htail (s := [c]) ht)

/-- Behind a literal, the reader of a block stands in code or in a string. -/
theorem isBetween_of_passLiteral {lit : Text} (h : Literal.after? (lit ++ rest) = some rest)
    (hm : m.IsBetween) (hpass : passLiteral m inner lit = some (m', inner')) : m'.IsBetween := by
  unfold passLiteral at hpass
  split at hpass
  · obtain ⟨rfl, -⟩ := Prod.mk.inj (Option.some.inj hpass)
    exact .inl rfl
  · rename_i hplain
    rcases Literal.after?_cases h rfl with ⟨hraw, hcalm⟩ | ⟨hwell, -⟩
    · obtain rfl : m = .string := hm.resolve_left fun hcode => hplain ⟨hcode, hraw⟩
      obtain ⟨s, heq, hcalm⟩ := hcalm.calm
      obtain rfl := List.append_cancel_right heq
      rw [hcalm.pass_eq] at hpass
      obtain ⟨rfl, -⟩ := Prod.mk.inj (Option.some.inj hpass)
      exact .inr rfl
    · exact isBetween_of_pass hpass (.inl hm) fun v heq => hwell v '\\' heq (by decide)

/-- A literal in front of a text is kept as it is, and what is open behind it, the text closes. -/
theorem verbatim_literal_append {lit : Text} (h : Literal.after? (lit ++ rest) = some rest)
    (hm : m.IsBetween) (inner : List Bracket) :
    Verbatim m inner (lit ++ rest) ↔
      ∃ m' inner', passLiteral m inner lit = some (m', inner') ∧ Verbatim m' inner' rest := by
  by_cases hplain : m = .code ∧ isRawOrCharacter lit = false
  · obtain ⟨rfl, hraw⟩ := hplain
    have hcode : Verbatim .code inner (lit ++ rest) ↔ Verbatim .code inner rest := by
      rcases Literal.after?_cases h rfl with ⟨-, hpass⟩ | ⟨-, hpass⟩
      · exact hpass.code inner
      · exact hpass hraw inner
    simp [passLiteral, hraw, hcode]
  rw [passLiteral, if_neg hplain]
  rcases Literal.after?_cases h rfl with ⟨hraw, hpass⟩ | ⟨hwell, -⟩
  · obtain rfl : m = .string := hm.resolve_left fun hcode => hplain ⟨hcode, hraw⟩
    obtain ⟨s, heq, hcalm⟩ := hpass.calm
    obtain rfl := List.append_cancel_right heq
    rw [hcalm.verbatim_append_iff, hcalm.pass_eq]
    simp
  · exact verbatim_append_iff fun v d heq => apart_of_not_mem_halfMarks (hwell v d heq) rest

end RuleFormat
