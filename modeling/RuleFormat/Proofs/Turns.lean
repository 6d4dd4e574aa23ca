import RuleFormat.Proofs.Fragment
import RuleFormat.Proofs.Header

/-!
# Reading past a place

What a reader does in front of a place, seen by itself.  `Turns` leads from the mode and the
brackets in which the reader stands to those in which it comes to the place, with what stands behind
it kept in view, so that no mark is cut in two and runs of turns can be put together
(`Turns.append`).

* Whether a header is malformed, and why, is `faultFrom`.  Turns do not change it
  (`faultFrom_turns`): all depends on where the reader stands and on what is still to be read.
* A reader comes to a place, or it is settled before what the fault is (`turns_or_settled`).
* From code, a reader comes through a valid header to the brace at its end, inside one bracket more,
  whatever the header says (`Header.IsValid.turns`).
-/

namespace RuleFormat

variable {m m' m₁ m₂ : Mode} {inner inner' inner₁ inner₂ : List Bracket}

/-- `Turns m inner t ahead m' inner'`: in front of `ahead`, the reader takes all of `t` turn by
turn, from mode `m` inside the brackets `inner` to `m'` inside `inner'`. -/
inductive Turns : Mode → List Bracket → Text → Text → Mode → List Bracket → Prop where
  | nil {m : Mode} {inner : List Bracket} {ahead : Text} : Turns m inner [] ahead m inner
  | cons {m m₁ m₂ : Mode} {inner inner₁ inner₂ : List Bracket} {raw t ahead : Text}
      (h : Turn m inner raw (t ++ ahead) m₁ inner₁) (hs : Turns m₁ inner₁ t ahead m₂ inner₂) :
      Turns m inner (raw ++ t) ahead m₂ inner₂

/-! ## Putting turns together -/

theorem Turn.of_head {raw t u : Text} (h : Turn m inner raw t m' inner')
    (hu : ∀ d, u.head? = some d → t.head? = some d ∨ Inert d) : Turn m inner raw u m' inner' := by
  cases h with
  | cut => exact .cut
  | keep hk => exact .keep (hk.of_head hu)
  | hide hh => exact .hide (hh.of_head hu)

theorem head?_append_of_head? {u v : Text}
    (h : ∀ d, v.head? = some d → u.head? = some d ∨ Inert d) (t : Text) :
    ∀ d, (t ++ v).head? = some d → (t ++ u).head? = some d ∨ Inert d := by
  cases t with
  | nil => exact h
  | cons c t => exact fun d hd => Or.inl hd

/-- What follows turns matters only by its first character, and only if that is not inert. -/
theorem Turns.of_head {t u v : Text} (h : Turns m inner t u m' inner')
    (hv : ∀ d, v.head? = some d → u.head? = some d ∨ Inert d) : Turns m inner t v m' inner' := by
  induction h with
  | nil => exact .nil
  | @cons _ _ _ _ _ _ raw t ahead hturn _ ih =>
    exact .cons (hturn.of_head (head?_append_of_head? hv t)) (ih hv)

theorem Turns.append {s t ahead : Text} (h : Turns m inner s (t ++ ahead) m₁ inner₁)
    (h' : Turns m₁ inner₁ t ahead m₂ inner₂) : Turns m inner (s ++ t) ahead m₂ inner₂ := by
  generalize hu : t ++ ahead = u at h
  induction h with
  | nil => exact h'
  | @cons _ _ _ _ _ _ raw s _ hturn _ ih =>
    subst hu
    rw [List.append_assoc]
    rw [← List.append_assoc] at hturn
    exact .cons hturn (ih h' rfl)

/-! ## The fault of a header -/

/-- Why a header is malformed, when its reader stands in a mode inside of brackets in front of `t`;
nothing when it is not. -/
def faultFrom (m : Mode) (inner : List Bracket) (t : Text) : Option HeaderFault :=
  match walk m inner t with
  | .error f => some (.block f)
  | .ok w => if (w.rest.dropWhile isWhite).head? = some '{' then none else some .missingBrace

theorem readHeader_eq_error_iff {o : Opening} {t : Text} {f : HeaderFault} :
    readHeader o t = .error f ↔ faultFrom .code [] t = some f := by
  unfold readHeader faultFrom readBlock
  cases walk .code [] t with
  | error e => simp [Except.map]
  | ok w =>
    dsimp only [Except.map]
    split
    · rename_i r hr
      simp [hr]
    · rename_i hr
      have hhead : ¬(w.rest.dropWhile isWhite).head? = some '{' := by
        intro h
        obtain ⟨r, hr'⟩ := List.head?_eq_some_iff.1 h
        exact hr r hr'
      simp [hhead]

theorem faultFrom_close (t : Text) : faultFrom .code [] (')' :: t)
    = if (t.dropWhile isWhite).head? = some '{' then none else some .missingBrace := rfl

theorem faultFrom_of_walk {t u : Text} {g : Walk → Walk}
    (h : walk m inner t = (walk m' inner' u).map g) (hg : ∀ w, (g w).rest = w.rest) :
    faultFrom m inner t = faultFrom m' inner' u := by
  rw [faultFrom, faultFrom, h]
  cases walk m' inner' u with
  | error f => rfl
  | ok w => simp only [Except.map, hg]

theorem faultFrom_turn {raw ahead : Text} (h : Turn m inner raw ahead m' inner') :
    faultFrom m inner (raw ++ ahead) = faultFrom m' inner' ahead := by
  cases h with
  | cut => exact faultFrom_of_walk (walk_cut ahead) fun _ => rfl
  | keep hk => exact faultFrom_of_walk (walk_keeps hk) fun _ => rfl
  | hide hh => exact faultFrom_of_walk (walk_hides inner hh) fun _ => rfl

/-- Turns do not change the fault. -/
theorem faultFrom_turns {t ahead : Text} (h : Turns m inner t ahead m' inner') :
    faultFrom m inner (t ++ ahead) = faultFrom m' inner' ahead := by
  induction h with
  | nil => rfl
  | cons hturn _ ih => rw [List.append_assoc, faultFrom_turn hturn, ih]

/-! ## To a place, or not so far -/

theorem inert_hash : Inert '#' := by unfold Inert; decide

/-- The first character behind a text is `#`, or it is the first character of the text. -/
theorem head?_append_hash {ahead : Text} (h : ahead.head? = some '#') (t : Text) :
    ∀ d, (t ++ ahead).head? = some d → t.head? = some d ∨ Inert d := by
  intro d hd
  cases t with
  | nil =>
    obtain rfl := Option.some.inj (h.symm.trans hd)
    exact Or.inr inert_hash
  | cons c t => exact Or.inl hd

/-- What stands in front of a `#` decides whether a brace follows. -/
theorem head?_dropWhile_append_hash {ahead : Text} (h : ahead.head? = some '#') (t : Text) :
    ((t ++ ahead).dropWhile isWhite).head? = ((t ++ ['#']).dropWhile isWhite).head? := by
  induction t with
  | nil =>
    obtain ⟨r, rfl⟩ := List.head?_eq_some_iff.1 h
    rfl
  | cons c t ih =>
    rw [List.cons_append, List.cons_append, List.dropWhile_cons, List.dropWhile_cons]
    split
    · exact ih
    · rfl

/-- A reader comes to a place where a `#` stands, or the fault is settled before. -/
theorem turns_or_settled (m : Mode) (inner : List Bracket) (t : Text) :
    (∃ m' inner', Turns m inner t ['#'] m' inner') ∨
      ∃ fault, ∀ ahead : Text, ahead.head? = some '#' → faultFrom m inner (t ++ ahead) = fault := by
  induction hn : t.length using Nat.strong_induction_on generalizing m inner t with
  | h n ih =>
    cases t with
    | nil => exact Or.inl ⟨m, inner, .nil⟩
    | cons c cs =>
      rcases turn_or_stop m inner c cs with
        ⟨raw, t, m₁, inner₁, heq, hturn⟩ | ⟨rfl, rfl, rfl⟩ | hstop
      · have hlt : t.length < n := hn ▸ hturn.length_lt heq
        rw [heq]
        rcases ih _ hlt m₁ inner₁ t rfl with ⟨m₂, inner₂, hs⟩ | ⟨fault, hfault⟩
        · exact Or.inl ⟨m₂, inner₂, .cons (hturn.of_head (head?_append_hash rfl t)) hs⟩
        · refine Or.inr ⟨fault, fun ahead hahead => ?_⟩
          rw [List.append_assoc, faultFrom_turn (hturn.of_head (head?_append_hash hahead t))]
          exact hfault ahead hahead
      · -- the block is closed, and what follows it is known up to the `#`
        refine Or.inr ⟨faultFrom .code [] (')' :: (cs ++ ['#'])), fun ahead hahead => ?_⟩
        rw [List.cons_append, faultFrom_close, faultFrom_close, head?_dropWhile_append_hash hahead]
      · refine Or.inr ⟨some (.block (.unbalanced c)), fun ahead _ => ?_⟩
        rw [List.cons_append, faultFrom, hstop]

/-! ## Through a header -/

/-- The characters that have a meaning in code or in a string literal. -/
def codeMarks : Text := "([\x7b<)]\x7d>\"\\,/-"

/-- Whether a character has no meaning in code and in string literals. -/
def isOrdinary (c : Char) : Bool := !codeMarks.contains c

theorem isOrdinary_of_marks {p : Char → Bool} (h : codeMarks.all (fun d => !p d) = true) {c : Char}
    (hc : p c = true) : isOrdinary c = true := by
  rw [isOrdinary, Bool.not_eq_true', List.contains_eq_mem, decide_eq_false_iff_not]
  intro hmem
  simpa [hc] using List.all_eq_true.1 h c hmem

theorem isOrdinary_of_isWhite {c : Char} (hc : isWhite c = true) : isOrdinary c = true :=
  isOrdinary_of_marks (by decide) hc

theorem isOrdinary_of_isWord {c : Char} (hc : isWord c = true) : isOrdinary c = true :=
  isOrdinary_of_marks (by decide) hc

theorem Keeps.ordinary {c : Char} (hc : isOrdinary c = true) (inner : List Bracket)
    (ahead : Text) : Keeps .code inner [c] ahead .code inner := by
  have hne : ∀ d, isOrdinary d = false → c ≠ d := by
    rintro d hd rfl
    exact Bool.false_ne_true (hd.symm.trans hc)
  have hopen : Bracket.ofOpen? c = none := by
    unfold Bracket.ofOpen?
    split
    · exact absurd rfl (hne '(' (by decide))
    · exact absurd rfl (hne '[' (by decide))
    · exact absurd rfl (hne '{' (by decide))
    · exact absurd rfl (hne '<' (by decide))
    · rfl
  refine .other hopen ?_ (hne '"' (by decide)) (fun h => hne ',' (by decide) h.1) fun d _ => ?_
  · simp [isClose, hne ')' (by decide), hne ']' (by decide), hne '}' (by decide),
      hne '>' (by decide)]
  · simp [joins, hne '/' (by decide), hne '-' (by decide)]

theorem Turns.ordinary_append {s t ahead : Text} (hs : ∀ c ∈ s, isOrdinary c = true)
    (h : Turns .code inner t ahead m' inner') : Turns .code inner (s ++ t) ahead m' inner' := by
  induction s with
  | nil => exact h
  | cons c s ih =>
    have hc : Keeps .code inner [c] (s ++ t ++ ahead) .code inner := .ordinary (hs c (by simp)) _ _
    have hrest := ih fun d hd => hs d (by simp [hd])
    show Turns .code inner ([c] ++ (s ++ t)) ahead m' inner'
    exact .cons (.keep hc) hrest

theorem Turns.opens {c : Char} {b : Bracket} {t ahead : Text} (hb : Bracket.ofOpen? c = some b)
    (h : Turns .code (b :: inner) t ahead m' inner') :
    Turns .code inner (c :: t) ahead m' inner' :=
  .cons (.keep (.opens hb)) h

theorem Turns.closes {b : Bracket} {t ahead : Text} (h : Turns .code inner t ahead m' inner') :
    Turns .code (b :: inner) (b.close :: t) ahead m' inner' :=
  .cons (.keep .closes) h

/-- From code, a reader comes through an opening into its round bracket. -/
theorem Opening.IsValid.turns {o : Opening} (ho : o.IsValid) (inner : List Bracket)
    (ahead : Text) : Turns .code inner o.text ahead .code (.round :: inner) := by
  have hgap := fun c hc => isOrdinary_of_isWhite (ho.gap_white c hc)
  have hname := fun c hc => isOrdinary_of_isWord (ho.name_word c hc)
  have hafter : Turns .code (.angle :: .square :: inner) afterName ahead
      .code (.round :: inner) := by
    refine .ordinary_append (s := [' ']) (List.all_eq_true.1 (by decide)) ?_
    exact .closes (b := .angle) (.closes (b := .square) (.opens (c := '(') rfl .nil))
  have hbefore : Turns .code inner (beforeName ++ (o.name ++ afterName)) ahead .code
      (.round :: inner) := by
    refine .ordinary_append (s := "pub fn ".toList) (List.all_eq_true.1 (by decide)) ?_
    refine .opens (c := '[') rfl (.opens (c := '<') rfl ?_)
    refine .ordinary_append (s := " $f _".toList) (List.all_eq_true.1 (by decide)) ?_
    exact .ordinary_append hname hafter
  have hattribute : Turns .code inner
      (ruleAttribute ++ (o.gap ++ (beforeName ++ (o.name ++ afterName)))) ahead .code
      (.round :: inner) := by
    refine .ordinary_append (s := ['#']) (List.all_eq_true.1 (by decide)) (.opens (c := '[') rfl ?_)
    refine .ordinary_append (s := "rule".toList) (List.all_eq_true.1 (by decide)) ?_
    exact .closes (b := .square) (.ordinary_append (s := o.gap) hgap hbefore)
  simpa [Opening.text] using hattribute

theorem Keeps.inside {raw ahead : Text} (hk : Keeps m inner raw ahead m' inner')
    (outer : List Bracket) : Keeps m (inner ++ outer) raw ahead m' (inner' ++ outer) := by
  cases hk with
  | quote => exact .quote
  | arrow => exact .arrow
  | opens hb => exact .opens hb
  | closes => exact .closes
  | other hopen hclose hquote hcut hapart =>
    refine .other hopen hclose hquote (fun h => hcut ⟨h.1, ?_⟩) hapart
    exact (List.append_eq_nil_iff.1 h.2).1
  | string => exact .string
  | escape => exact .escape

/-- Inside of a bracket, a reader comes through the body of a block to the end of it. -/
theorem Reads.turns {t : Text} {w : Walk} (h : Reads m inner t w) (b : Bracket)
    (outer : List Bracket) (rest : Text) :
    Turns m (inner ++ b :: outer) w.body (')' :: rest) .code (b :: outer) := by
  induction h with
  | done => exact .nil
  | @cut t w _ ih =>
    -- inside of the bracket the comma cuts no more
    have hcomma : Keeps .code (b :: outer) [','] (w.body ++ ')' :: rest) .code (b :: outer) :=
      .other rfl rfl (by decide) (by simp) fun d _ => by simp [joins]
    exact .cons (.keep hcomma) ih
  | @keep m m' inner inner' raw t w hk ht ih =>
    have hk' : Keeps m inner raw (w.body ++ ')' :: rest) m' inner' :=
      hk.of_head fun d hd => Or.inl ((ht.head?_body_append rest).symm.trans hd)
    exact .cons (.keep (hk'.inside _)) ih
  | @hide m m' inner raw shown t w hh ht ih =>
    have hh' : Hides m raw shown (w.body ++ ')' :: rest) m' :=
      hh.of_head fun d hd => Or.inl ((ht.head?_body_append rest).symm.trans hd)
    exact .cons (.hide hh') ih

/-- From code, a reader comes through a valid header into the curly bracket behind it. -/
theorem Header.IsValid.turns {h : Header} (hh : h.IsValid) (inner : List Bracket)
    (ahead : Text) : Turns .code inner h.text ahead .code (.curly :: inner) := by
  obtain ⟨w, hw, hb⟩ := readBlock_eq_ok_iff.1 hh.block
  have hbody : h.body = w.body := congrArg Block.body hb
  have hgap := fun c hc => isOrdinary_of_isWhite (hh.gap_white c hc)
  have hend : Turns .code (.round :: inner) (')' :: (h.gap ++ ['{'])) ahead
      .code (.curly :: inner) :=
    .closes (b := .round) (.ordinary_append hgap (.opens (c := '{') rfl .nil))
  have hblock : Turns .code (.round :: inner) (h.body ++ ')' :: (h.gap ++ ['{'])) ahead .code
      (.curly :: inner) := by
    rw [hbody]
    exact (hw.turns .round inner _).append hend
  have htext := h.text_append []
  rw [List.append_nil] at htext
  rw [htext]
  exact (hh.opening.turns inner _).append hblock

end RuleFormat
