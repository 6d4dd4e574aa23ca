import Mathlib.Data.List.Basic
import RuleFormat.Block
import RuleFormat.Proofs.White

/-!
# Reading parameter blocks

`walk` reads a block in one sweep.  Here the sweep is taken apart into turns, each of which reads
one or two characters:

* `Keeps` are the turns whose characters stand in the piece as they are,
* `Hides` are the turns at and inside of comments,
* `Turn` is any of them, and `turn_or_stop` says where the reader takes none,
* `Reads` is the whole sweep as a sequence of turns, and `walk_eq_ok_iff` says that it is what
  `walk` does when it comes to an end.

By induction on the turns, a block does not depend on what stands behind its closing bracket
(`Reads.eq_append`, `Reads.move`).
-/

namespace RuleFormat

/-! ## Turns -/

/-- Whether two neighbours in code make a mark of their own: the start of a comment, or an arrow. -/
def joins (c d : Char) : Bool := (c == '/' && (d == '/' || d == '*')) || (c == '-' && d == '>')

/-- A character makes no mark together with what follows it. -/
def Apart (c : Char) (ahead : Text) : Prop := ∀ d, ahead.head? = some d → joins c d = false

/-- `Keeps m inner raw ahead m' inner'`: in front of `ahead`, the characters `raw` stand in the
piece as they are, and lead from mode `m` inside the brackets `inner` to `m'` inside `inner'`. -/
inductive Keeps : Mode → List Bracket → Text → Text → Mode → List Bracket → Prop where
  | quote {inner : List Bracket} {ahead : Text} : Keeps .code inner ['"'] ahead .string inner
  | arrow {inner : List Bracket} {ahead : Text} : Keeps .code inner ['-', '>'] ahead .code inner
  | opens {inner : List Bracket} {ahead : Text} {c : Char} {b : Bracket}
      (hb : Bracket.ofOpen? c = some b) : Keeps .code inner [c] ahead .code (b :: inner)
  | closes {outer : List Bracket} {ahead : Text} {b : Bracket} :
      Keeps .code (b :: outer) [b.close] ahead .code outer
  | other {inner : List Bracket} {ahead : Text} {c : Char} (hopen : Bracket.ofOpen? c = none)
      (hclose : isClose c = false) (hquote : c ≠ '"') (hcut : ¬(c = ',' ∧ inner = []))
      (hapart : Apart c ahead) : Keeps .code inner [c] ahead .code inner
  | string {inner : List Bracket} {ahead : Text} {c : Char} : Keeps .string inner [c] ahead
      (if c = '"' then .code else if c = '\\' then .escape else .string) inner
  | escape {inner : List Bracket} {ahead : Text} {c : Char} :
      Keeps .escape inner [c] ahead .string inner

/-- `Hides m raw shown ahead m'`: in front of `ahead`, the characters `raw` belong to a comment,
show as `shown` in the piece, and lead from mode `m` to mode `m'`. -/
inductive Hides : Mode → Text → Text → Text → Mode → Prop where
  | lineStart {ahead : Text} : Hides .code ['/', '/'] [' '] ahead .line
  | commentStart {ahead : Text} : Hides .code ['/', '*'] [' '] ahead (.comment 0)
  | lineEnd {ahead : Text} : Hides .line ['\n'] ['\n'] ahead .code
  | lineChar {ahead : Text} {c : Char} (hc : c ≠ '\n') : Hides .line [c] [] ahead .line
  | commentEnd {ahead : Text} : Hides (.comment 0) ['*', '/'] [] ahead .code
  | innerEnd {ahead : Text} {d : Nat} : Hides (.comment (d + 1)) ['*', '/'] [] ahead (.comment d)
  | innerStart {ahead : Text} {d : Nat} : Hides (.comment d) ['/', '*'] [] ahead (.comment (d + 1))
  | commentChar {ahead : Text} {d : Nat} {c : Char} (hend : ¬(c = '*' ∧ ahead.head? = some '/'))
      (hstart : ¬(c = '/' ∧ ahead.head? = some '*')) : Hides (.comment d) [c] [] ahead (.comment d)

/-- A block is read turn by turn, up to the bracket that closes it. -/
inductive Reads : Mode → List Bracket → Text → Walk → Prop where
  | done {t : Text} : Reads .code [] (')' :: t) (.done t)
  | cut {t : Text} {w : Walk} (h : Reads .code [] t w) : Reads .code [] (',' :: t) w.cut
  | keep {m m' : Mode} {inner inner' : List Bracket} {raw t : Text} {w : Walk}
      (hk : Keeps m inner raw t m' inner') (h : Reads m' inner' t w) :
      Reads m inner (raw ++ t) (w.put raw raw)
  | hide {m m' : Mode} {inner : List Bracket} {raw shown t : Text} {w : Walk}
      (hh : Hides m raw shown t m') (h : Reads m' inner t w) :
      Reads m inner (raw ++ t) (w.put shown raw)

/-! ## Turns are what the reader does -/

theorem Walk.put_put (w : Walk) (s s' r r' : Text) :
    (w.put s r).put s' r' = w.put (s' ++ s) (r' ++ r) := by
  simp [Walk.put]

theorem map_eq_ok {α β ε : Type} {f : α → β} {x : Except ε α} {b : β} (h : x.map f = .ok b) :
    ∃ a, x = .ok a ∧ b = f a := by
  cases x with
  | error e => cases h
  | ok a => exact ⟨a, rfl, (Except.ok.inj h).symm⟩

theorem map_eq_error {α β ε : Type} {f : α → β} {x : Except ε α} {e : ε} (h : x.map f = .error e) :
    x = .error e := by
  cases x with
  | error e' => exact congrArg _ (Except.error.inj h)
  | ok a => cases h

/-- In code, a character that makes no mark with the next one is read by itself. -/
theorem walk_code_cons {c : Char} {t : Text} (inner : List Bracket) (hquote : c ≠ '"')
    (hapart : Apart c t) :
    walk .code inner (c :: t) =
      match Bracket.ofOpen? c with
      | some b => (walk .code (b :: inner) t).map (·.keep c)
      | none =>
        if isClose c then
          match inner with
          | [] => if c = ')' then .ok (.done t) else .error (.unbalanced c)
          | b :: outer =>
            if b.close = c then (walk .code outer t).map (·.keep c) else .error (.unbalanced c)
        else if c = ',' ∧ inner = [] then (walk .code [] t).map (·.cut)
        else (walk .code inner t).map (·.keep c) := by
  have hjoin : ∀ d r, t = d :: r → joins c d = false := fun d r h => hapart d (by simp [h])
  have h₁ : ∀ r, c = '/' → t = '/' :: r → False := by
    rintro r rfl hr
    exact absurd (hjoin _ _ hr) (by decide)
  have h₂ : ∀ r, c = '/' → t = '*' :: r → False := by
    rintro r rfl hr
    exact absurd (hjoin _ _ hr) (by decide)
  have h₃ : ∀ r, c = '-' → t = '>' :: r → False := by
    rintro r rfl hr
    exact absurd (hjoin _ _ hr) (by decide)
  cases inner with
  | nil => exact walk.eq_6 c t h₁ h₂ hquote h₃
  | cons b outer => exact walk.eq_7 c t b outer h₁ h₂ hquote h₃

/-- Brackets make no mark with what follows them. -/
theorem apart_bracket {c : Char} (h : (Bracket.ofOpen? c).isSome ∨ isClose c = true) (t : Text) :
    c ≠ '"' ∧ Apart c t := by
  have hc : c ≠ '"' ∧ c ≠ '/' ∧ c ≠ '-' := by
    refine ⟨?_, ?_, ?_⟩ <;> (rintro rfl; revert h; decide)
  refine ⟨hc.1, fun d _ => ?_⟩
  simp [joins, hc.2.1, hc.2.2]

theorem ofOpen?_close (b : Bracket) : Bracket.ofOpen? b.close = none := by
  cases b <;> rfl

theorem isClose_close (b : Bracket) : isClose b.close = true := by
  cases b <;> rfl

theorem walk_keeps {m m' : Mode} {inner inner' : List Bracket} {raw t : Text}
    (hk : Keeps m inner raw t m' inner') :
    walk m inner (raw ++ t) = (walk m' inner' t).map (·.put raw raw) := by
  cases hk with
  | quote => rfl
  | arrow => rfl
  | @opens _ _ c b hb =>
    obtain ⟨hquote, hapart⟩ := apart_bracket (c := c) (Or.inl (by simp [hb])) t
    rw [List.singleton_append, walk_code_cons inner hquote hapart, hb]
    rfl
  | @closes _ _ b =>
    obtain ⟨hquote, hapart⟩ := apart_bracket (Or.inr (isClose_close b)) t
    rw [List.singleton_append, walk_code_cons _ hquote hapart, ofOpen?_close]
    simp only [isClose_close, if_true]
    rfl
  | @other _ _ c hopen hclose hquote hcut hapart =>
    rw [List.singleton_append, walk_code_cons inner hquote hapart, hopen]
    simp only [hclose, Bool.false_eq_true, if_false, if_neg hcut]
    rfl
  | string => rfl
  | escape => rfl

theorem walk_hides {m m' : Mode} {raw shown t : Text} (inner : List Bracket)
    (hh : Hides m raw shown t m') :
    walk m inner (raw ++ t) = (walk m' inner t).map (·.put shown raw) := by
  cases hh with
  | lineStart => rfl
  | commentStart => rfl
  | lineEnd => rfl
  | @lineChar _ c hc =>
    rw [List.singleton_append, walk, if_neg hc]
    rfl
  | commentEnd => rfl
  | innerEnd => rfl
  | @innerStart _ d => cases d <;> rfl
  | @commentChar _ d c hend hstart =>
    refine walk.eq_14 inner d c t ?_ ?_ ?_
    · rintro r - hc hr
      exact hend ⟨hc, by simp [hr]⟩
    · rintro e r - hc hr
      exact hend ⟨hc, by simp [hr]⟩
    · rintro r hc hr
      exact hstart ⟨hc, by simp [hr]⟩

theorem walk_cut (t : Text) : walk .code [] (',' :: t) = (walk .code [] t).map (·.cut) := by
  have hapart : Apart ',' t := fun d _ => by simp [joins]
  exact walk_code_cons [] (by decide) hapart

/-- `Turn m inner raw ahead m' inner'`: in front of `ahead`, the reader takes the characters `raw`
at once, and they lead from mode `m` inside the brackets `inner` to `m'` inside `inner'`. -/
inductive Turn : Mode → List Bracket → Text → Text → Mode → List Bracket → Prop where
  | cut {ahead : Text} : Turn .code [] [','] ahead .code []
  | keep {m m' : Mode} {inner inner' : List Bracket} {raw ahead : Text}
      (hk : Keeps m inner raw ahead m' inner') : Turn m inner raw ahead m' inner'
  | hide {m m' : Mode} {inner : List Bracket} {raw shown ahead : Text}
      (hh : Hides m raw shown ahead m') : Turn m inner raw ahead m' inner

theorem Keeps.ne_nil {m m' : Mode} {inner inner' : List Bracket} {raw t : Text}
    (hk : Keeps m inner raw t m' inner') : raw ≠ [] := by
  cases hk <;> simp

theorem Turn.ne_nil {m m' : Mode} {inner inner' : List Bracket} {raw t : Text}
    (h : Turn m inner raw t m' inner') : raw ≠ [] := by
  cases h with
  | cut => simp
  | keep hk => exact hk.ne_nil
  | hide hh => cases hh <;> simp

/-- A turn takes at least one character. -/
theorem Turn.length_lt {m m' : Mode} {inner inner' : List Bracket} {raw ahead t : Text}
    (h : Turn m inner raw ahead m' inner') (ht : t = raw ++ ahead) : ahead.length < t.length := by
  have hpos := List.length_pos_of_ne_nil h.ne_nil
  rw [ht, List.length_append]
  omega

theorem eq_mark_of_not_apart {c : Char} {t : Text} (h : ¬Apart c t) :
    ∃ d r, t = d :: r ∧ (c = '/' ∧ (d = '/' ∨ d = '*') ∨ c = '-' ∧ d = '>') := by
  unfold Apart at h
  push Not at h
  obtain ⟨d, hd, hjoin⟩ := h
  obtain ⟨r, rfl⟩ := List.head?_eq_some_iff.1 hd
  have hjoin : joins c d = true := by simpa using hjoin
  exact ⟨d, r, rfl, by simpa [joins, Bool.or_eq_true] using hjoin⟩

/-- The reader takes a turn, or it stands at the bracket that closes the block, or at one that is
unbalanced whatever follows it. -/
theorem turn_or_stop (m : Mode) (inner : List Bracket) (c : Char) (cs : Text) :
    (∃ raw ahead m' inner', c :: cs = raw ++ ahead ∧ Turn m inner raw ahead m' inner') ∨
      (m = .code ∧ inner = [] ∧ c = ')') ∨
      ∀ u, walk m inner (c :: u) = .error (.unbalanced c) := by
  cases m with
  | line =>
    by_cases hc : c = '\n'
    · subst hc
      exact Or.inl ⟨['\n'], cs, _, _, rfl, .hide .lineEnd⟩
    · exact Or.inl ⟨[c], cs, _, _, rfl, .hide (.lineChar hc)⟩
  | comment d =>
    refine Or.inl ?_
    by_cases hend : c = '*' ∧ cs.head? = some '/'
    · obtain ⟨rfl, hhead⟩ := hend
      obtain ⟨r, rfl⟩ := List.head?_eq_some_iff.1 hhead
      cases d with
      | zero => exact ⟨['*', '/'], r, _, _, rfl, .hide .commentEnd⟩
      | succ d => exact ⟨['*', '/'], r, _, _, rfl, .hide .innerEnd⟩
    by_cases hstart : c = '/' ∧ cs.head? = some '*'
    · obtain ⟨rfl, hhead⟩ := hstart
      obtain ⟨r, rfl⟩ := List.head?_eq_some_iff.1 hhead
      exact ⟨['/', '*'], r, _, _, rfl, .hide .innerStart⟩
    · exact ⟨[c], cs, _, _, rfl, .hide (.commentChar hend hstart)⟩
  | string => exact Or.inl ⟨[c], cs, _, _, rfl, .keep .string⟩
  | escape => exact Or.inl ⟨[c], cs, _, _, rfl, .keep .escape⟩
  | code =>
    by_cases hapart : Apart c cs
    swap
    · obtain ⟨d, r, rfl, ⟨rfl, rfl | rfl⟩ | ⟨rfl, rfl⟩⟩ := eq_mark_of_not_apart hapart
      · exact Or.inl ⟨['/', '/'], r, _, _, rfl, .hide .lineStart⟩
      · exact Or.inl ⟨['/', '*'], r, _, _, rfl, .hide .commentStart⟩
      · exact Or.inl ⟨['-', '>'], r, _, _, rfl, .keep .arrow⟩
    by_cases hquote : c = '"'
    · subst hquote
      exact Or.inl ⟨['"'], cs, _, _, rfl, .keep .quote⟩
    cases hopen : Bracket.ofOpen? c with
    | some b => exact Or.inl ⟨[c], cs, _, _, rfl, .keep (.opens hopen)⟩
    | none =>
      by_cases hclose : isClose c = true
      swap
      · refine Or.inl ?_
        by_cases hcut : c = ',' ∧ inner = []
        · obtain ⟨rfl, rfl⟩ := hcut
          exact ⟨[','], cs, _, _, rfl, .cut⟩
        · have hother := Keeps.other hopen (by simpa using hclose) hquote hcut hapart
          exact ⟨[c], cs, _, _, rfl, .keep hother⟩
      -- a closing character closes the innermost bracket, or the block, or is unbalanced
      have hread := fun u => walk_code_cons inner hquote (apart_bracket (Or.inr hclose) u).2
      cases inner with
      | nil =>
        by_cases hround : c = ')'
        · exact Or.inr (Or.inl ⟨rfl, rfl, hround⟩)
        · exact Or.inr (Or.inr fun u => by simp [hread u, hopen, hclose, hround])
      | cons b outer =>
        by_cases hb : b.close = c
        · subst hb
          exact Or.inl ⟨[b.close], cs, _, _, rfl, .keep .closes⟩
        · exact Or.inr (Or.inr fun u => by simp [hread u, hopen, hclose, hb])

theorem reads_of_walk {m : Mode} {inner : List Bracket} {t : Text} {w : Walk}
    (h : walk m inner t = .ok w) : Reads m inner t w := by
  induction hn : t.length using Nat.strongRecOn generalizing m inner t w with
  | ind n ih =>
    cases t with
    | nil => cases m <;> cases h
    | cons c cs =>
      rcases turn_or_stop m inner c cs with
        ⟨raw, t, m', inner', heq, hturn⟩ | ⟨rfl, rfl, rfl⟩ | hstop
      · have hlt : t.length < n := hn ▸ hturn.length_lt heq
        rw [heq] at h ⊢
        cases hturn with
        | cut =>
          rw [List.singleton_append, walk_cut] at h
          obtain ⟨v, hv, rfl⟩ := map_eq_ok h
          exact .cut (ih _ hlt hv rfl)
        | keep hk =>
          rw [walk_keeps hk] at h
          obtain ⟨v, hv, rfl⟩ := map_eq_ok h
          exact .keep hk (ih _ hlt hv rfl)
        | hide hh =>
          rw [walk_hides inner hh] at h
          obtain ⟨v, hv, rfl⟩ := map_eq_ok h
          exact .hide hh (ih _ hlt hv rfl)
      · obtain rfl := Except.ok.inj h
        exact .done
      · rw [hstop] at h
        cases h

theorem walk_of_reads {m : Mode} {inner : List Bracket} {t : Text} {w : Walk}
    (h : Reads m inner t w) : walk m inner t = .ok w := by
  induction h with
  | done => rfl
  | cut _ ih =>
    rw [walk_cut, ih]
    rfl
  | keep hk _ ih =>
    rw [walk_keeps hk, ih]
    rfl
  | @hide _ _ inner _ _ _ _ hh _ ih =>
    rw [walk_hides inner hh, ih]
    rfl

/-- The reader comes to an end exactly when there are turns that do. -/
theorem walk_eq_ok_iff {m : Mode} {inner : List Bracket} {t : Text} {w : Walk} :
    walk m inner t = .ok w ↔ Reads m inner t w :=
  ⟨reads_of_walk, walk_of_reads⟩

/-! ## A block ends at its closing bracket -/

/-- Characters that make no mark with a character in front of them. -/
def Inert (c : Char) : Prop := c ≠ '/' ∧ c ≠ '*' ∧ c ≠ '>'

theorem joins_of_inert {d : Char} (hd : Inert d) (c : Char) : joins c d = false := by
  obtain ⟨h₁, h₂, h₃⟩ := hd
  simp [joins, h₁, h₂, h₃]

/-- What follows a turn matters only to a character that makes no mark with it. -/
theorem Keeps.of_apart {m m' : Mode} {inner inner' : List Bracket} {raw t u : Text}
    (hk : Keeps m inner raw t m' inner') (hu : ∀ c, raw = [c] → Apart c t → Apart c u) :
    Keeps m inner raw u m' inner' := by
  cases hk with
  | quote => exact .quote
  | arrow => exact .arrow
  | opens hb => exact .opens hb
  | closes => exact .closes
  | other hopen hclose hquote hcut hapart =>
    exact .other hopen hclose hquote hcut (hu _ rfl hapart)
  | string => exact .string
  | escape => exact .escape

/-- What follows a turn matters only by its first character, and only if that is not inert. -/
theorem Keeps.of_head {m m' : Mode} {inner inner' : List Bracket} {raw t u : Text}
    (hk : Keeps m inner raw t m' inner')
    (hu : ∀ d, u.head? = some d → t.head? = some d ∨ Inert d) : Keeps m inner raw u m' inner' := by
  refine hk.of_apart fun c _ hapart d hd => ?_
  rcases hu d hd with ht | hi
  · exact hapart d ht
  · exact joins_of_inert hi c

theorem Hides.of_head {m m' : Mode} {raw shown t u : Text} (hh : Hides m raw shown t m')
    (hu : ∀ d, u.head? = some d → t.head? = some d ∨ Inert d) : Hides m raw shown u m' := by
  cases hh with
  | lineStart => exact .lineStart
  | commentStart => exact .commentStart
  | lineEnd => exact .lineEnd
  | lineChar hc => exact .lineChar hc
  | commentEnd => exact .commentEnd
  | innerEnd => exact .innerEnd
  | innerStart => exact .innerStart
  | commentChar hend hstart =>
    refine .commentChar (fun h => ?_) fun h => ?_
    · exact (hu _ h.2).elim (fun ht => hend ⟨h.1, ht⟩) fun hi => hi.1 rfl
    · exact (hu _ h.2).elim (fun ht => hstart ⟨h.1, ht⟩) fun hi => hi.2.1 rfl

/-- A block is its body, the closing bracket, and what follows. -/
theorem Reads.eq_append {m : Mode} {inner : List Bracket} {t : Text} {w : Walk}
    (h : Reads m inner t w) : t = w.body ++ ')' :: w.rest := by
  induction h with
  | done => rfl
  | @cut t w _ ih => rw [Walk.cut, List.cons_append, ← ih]
  | @keep _ _ _ _ raw t w _ _ ih => rw [Walk.put, List.append_assoc, ← ih]
  | @hide _ _ _ raw shown t w _ _ ih => rw [Walk.put, List.append_assoc, ← ih]

/-- The first character of a block does not depend on what follows the closing bracket. -/
theorem Reads.head?_body_append {m : Mode} {inner : List Bracket} {t : Text} {w : Walk}
    (h : Reads m inner t w) (rest : Text) : (w.body ++ ')' :: rest).head? = t.head? := by
  rw [h.eq_append]
  cases w.body <;> rfl

/-- What follows the closing bracket can be replaced by anything else. -/
theorem Reads.move {m : Mode} {inner : List Bracket} {t : Text} {w : Walk}
    (h : Reads m inner t w) (rest : Text) :
    Reads m inner (w.body ++ ')' :: rest) { w with rest := rest } := by
  induction h with
  | done => exact .done
  | @cut t w _ ih => exact .cut ih
  | @keep m m' inner inner' raw t w hk ht ih =>
    have hk' : Keeps m inner raw (w.body ++ ')' :: rest) m' inner' :=
      hk.of_head fun d hd => Or.inl ((ht.head?_body_append rest).symm.trans hd)
    have h := Reads.keep hk' ih
    rwa [← List.append_assoc] at h
  | @hide m m' _ raw shown t w hh ht ih =>
    have hh' : Hides m raw shown (w.body ++ ')' :: rest) m' :=
      hh.of_head fun d hd => Or.inl ((ht.head?_body_append rest).symm.trans hd)
    have h := Reads.hide hh' ih
    rwa [← List.append_assoc] at h

theorem readBlock_eq_ok_iff {t : Text} {b : Block} :
    readBlock t = .ok b ↔
      ∃ w, Reads .code [] t w ∧ b = ⟨fragments (w.piece :: w.pieces), w.body, w.rest⟩ := by
  constructor
  · intro h
    obtain ⟨w, hw, rfl⟩ := map_eq_ok h
    exact ⟨w, walk_eq_ok_iff.1 hw, rfl⟩
  · rintro ⟨w, hw, rfl⟩
    rw [readBlock, walk_eq_ok_iff.2 hw]
    rfl

theorem readBlock_eq_append {t : Text} {b : Block} (h : readBlock t = .ok b) :
    t = b.body ++ ')' :: b.rest := by
  obtain ⟨w, hw, rfl⟩ := readBlock_eq_ok_iff.1 h
  exact hw.eq_append

/-- A block does not depend on what follows it. -/
theorem readBlock_move {t : Text} {b : Block} (h : readBlock t = .ok b) (rest : Text) :
    readBlock (b.body ++ ')' :: rest) = .ok { b with rest := rest } := by
  obtain ⟨w, hw, rfl⟩ := readBlock_eq_ok_iff.1 h
  exact readBlock_eq_ok_iff.2 ⟨_, hw.move rest, rfl⟩

end RuleFormat
