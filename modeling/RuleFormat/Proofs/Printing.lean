import RuleFormat.Proofs.Pairing
import RuleFormat.Proofs.Stable

/-!
# Rules that copy what they take

A rule *copies* (`Copies`) when what it gives has the ink of what it takes, wherever it reads stable
tokens.  Most rules read several parts and put them together, so that a proof follows the rule with what
has been read so far in hand: `After pre R p ts` says that behind text `pre` the rule `p`, at the place
`ts`, takes tokens from the front and gives something of which `R` holds, together with the ink of all
that was read and with what is left.

There is one lemma for each way to put rules together, and one for each rule that reads single tokens.
-/

namespace RuleFormat.Parser

variable {α β : Type} {pre : Text} {ts : Tokens}

/-- Behind `pre`, a rule takes tokens from the front, and `R` holds of what it gives, of the ink of all
that was read, and of what is left. -/
def After (pre : Text) (R : α → Text → Tokens → Prop) (p : Parser α) (ts : Tokens) : Prop :=
  Stable ts → ∀ a rest, p ts = some (a, rest) →
    ∃ taken, ts = taken ++ rest ∧ R a (pre ++ ink taken) rest

/-- A rule takes tokens from the front, and what it gives has their ink. -/
def Copies (f : α → Tokens) (p : Parser α) : Prop :=
  ∀ ts, After [] (fun a s _ => s = ink (f a)) p ts

theorem guard_eq_some {c : Prop} [Decidable c] {u : Unit} {ts rest : Tokens}
    (h : (guard c : Parser Unit) ts = some (u, rest)) : c ∧ rest = ts := by
  unfold guard at h
  split at h
  · cases h
    exact ⟨‹c›, rfl⟩
  · cases h

namespace After

variable {R : α → Text → Tokens → Prop} {S : β → Text → Tokens → Prop} {p q : Parser α}
  {k : α → Parser β}

/-! ## Putting rules together -/

theorem pure {a : α} (h : R a pre ts) : After pre R (pure a : Parser α) ts := by
  intro _ a' rest hp
  cases hp
  exact ⟨[], rfl, by simpa using h⟩

theorem failure : After pre R (failure : Parser α) ts := by
  intro _ a rest h
  cases h

theorem imp {R' : α → Text → Tokens → Prop} (h : After pre R p ts)
    (himp : ∀ a s rest, rest <:+ ts → R a s rest → R' a s rest) : After pre R' p ts := by
  intro hts a rest hp
  obtain ⟨taken, rfl, hR⟩ := h hts a rest hp
  exact ⟨taken, rfl, himp a _ rest (List.suffix_append taken rest) hR⟩

/-- What has been read without any ink is nothing. -/
theorem moved (h : After pre R p ts) :
    After pre (fun a s rest => R a s rest ∧ (s = pre → rest = ts)) p ts := by
  intro hts a rest hp
  obtain ⟨taken, rfl, hR⟩ := h hts a rest hp
  refine ⟨taken, rfl, hR, fun hs => ?_⟩
  have hnil : ink taken = [] := by simpa using hs
  exact hts.eq_of_ink (List.suffix_append taken rest) (by rw [ink_append, hnil, List.nil_append])

/-- Another fact about what a rule gives. -/
theorem also {Q : α → Tokens → Prop} (h : After pre R p ts)
    (hQ : ∀ a rest, p ts = some (a, rest) → Q a rest) :
    After pre (fun a s rest => R a s rest ∧ Q a rest) p ts := by
  intro hts a rest hp
  obtain ⟨taken, rfl, hR⟩ := h hts a rest hp
  exact ⟨taken, rfl, hR, hQ a rest hp⟩

/-- Stability may be used at any place. -/
theorem stable (h : Stable ts → After pre R p ts) : After pre R p ts := fun hts => h hts hts

/-- A part that goes on with what has been read so far, and what follows it. -/
theorem seq (hp : After pre R p ts)
    (hk : ∀ a s mid, mid <:+ ts → R a s mid → After s S (k a) mid) : After pre S (p >>= k) ts := by
  intro hts b rest h
  obtain ⟨a, mid, ha, hb⟩ := bind_eq_some h
  obtain ⟨taken, rfl, hR⟩ := hp hts a mid ha
  have hmid := List.suffix_append taken mid
  obtain ⟨more, rfl, hS⟩ := hk a _ mid hmid hR (hts.of_suffix hmid) b rest hb
  exact ⟨taken ++ more, (List.append_assoc ..).symm, by simpa using hS⟩

/-- A rule reads the same behind more text. -/
theorem behind {pre' : Text} (h : After pre' R p ts) :
    After (pre ++ pre') (fun a s rest => ∃ s', s = pre ++ s' ∧ R a s' rest) p ts := by
  intro hts a rest hp
  obtain ⟨taken, rfl, hR⟩ := h hts a rest hp
  exact ⟨taken, rfl, _, List.append_assoc .., hR⟩

/-- Where nothing matters but that a rule takes tokens from the front. -/
theorem reads (h : After [] R p ts) : After pre (fun _ _ _ => True) p ts := by
  intro hts a rest hp
  obtain ⟨taken, rfl, -⟩ := h hts a rest hp
  exact ⟨taken, rfl, trivial⟩

/-- A part, and what follows it. -/
theorem bind (hp : After [] R p ts)
    (hk : ∀ a s mid, mid <:+ ts → R a s mid → After (pre ++ s) S (k a) mid) :
    After pre S (p >>= k) ts := by
  have hbehind : After (pre ++ []) (fun a s rest => ∃ s', s = pre ++ s' ∧ R a s' rest) p ts := hp.behind
  rw [List.append_nil] at hbehind
  refine hbehind.seq ?_
  rintro a _ mid hmid ⟨s, rfl, hR⟩
  exact hk a s mid hmid hR

/-- A part that is copied, and what follows it. -/
theorem copy {f : α → Tokens} (hp : Copies f p)
    (hk : ∀ a mid, mid <:+ ts → After (pre ++ ink (f a)) S (k a) mid) : After pre S (p >>= k) ts :=
  bind (hp ts) fun a _ mid hmid hs => hs ▸ hk a mid hmid

theorem pureBind {a : α} (h : After pre S (k a) ts) : After pre S (Pure.pure a >>= k) ts := h

theorem ite {c : Prop} [Decidable c] (hp : c → After pre R p ts) (hq : ¬c → After pre R q ts) :
    After pre R (if c then p else q) ts := by
  split
  · exact hp ‹c›
  · exact hq ‹¬c›

theorem guard {c : Prop} [Decidable c] {k : Unit → Parser β} (h : c → After pre S (k ()) ts) :
    After pre S (guard c >>= k) ts := by
  intro hts b rest hb
  obtain ⟨u, mid, hu, hk⟩ := bind_eq_some hb
  obtain ⟨hc, rfl⟩ := guard_eq_some hu
  exact h hc hts b rest hk

theorem ahead {test : Tokens → Bool} {k : Bool → Parser β} (h : After pre S (k (test ts)) ts) :
    After pre S (Parser.ahead test >>= k) ts := h

theorem get {k : Tokens → Parser β} (h : After pre S (k ts) ts) :
    After pre S ((get : Parser Tokens) >>= k) ts := h

/-- A choice by what stands ahead. -/
theorem branch {test : Tokens → Bool} (hp : test ts = true → After pre R p ts)
    (hq : test ts = false → After pre R q ts) :
    After pre R (do if ← Parser.ahead test then p else q) ts := by
  refine ahead (ite hp fun h => hq ?_)
  simpa using h

/-! ## Taking tokens as they stand -/

theorem take_length_sub (taken rest : Tokens) :
    (taken ++ rest).take ((taken ++ rest).length - rest.length) = taken := by
  simp

theorem verbatim (hp : After [] R p ts) :
    After [] (fun out s rest => s = ink out ∧ ∃ a, R a s rest) (verbatim p) ts := by
  intro hts out rest h
  unfold Parser.verbatim at h
  split at h
  · rename_i a rest' ha
    obtain ⟨rfl, rfl⟩ := Prod.mk.inj (Option.some.inj h)
    obtain ⟨taken, rfl, hR⟩ := hp hts a rest' ha
    exact ⟨taken, rfl, by rw [take_length_sub]; rfl, a, hR⟩
  · cases h

theorem keepingIf {test : α → Bool} {keep : α → Tokens → α} {R' : α → Text → Tokens → Prop}
    (hp : After [] R p ts) (hgive : ∀ a s rest, test a = false → R a s rest → R' a s rest)
    (hkeep : ∀ a taken rest, ts = taken ++ rest → test a = true → R a (ink taken) rest →
      R' (keep a taken) (ink taken) rest) :
    After [] R' (keepingIf test keep p) ts := by
  intro hts out rest h
  unfold Parser.keepingIf at h
  split at h
  · rename_i a rest' ha
    obtain ⟨hout, rfl⟩ := Prod.mk.inj (Option.some.inj h)
    obtain ⟨taken, rfl, hR⟩ := hp hts a rest' ha
    refine ⟨taken, rfl, ?_⟩
    rw [take_length_sub] at hout
    split at hout
    · exact hout ▸ hkeep a taken rest' rfl ‹_› hR
    · exact hout ▸ hgive a _ rest' (by simpa using ‹¬test a = true›) hR
  · cases h

end After

theorem copies_verbatimIf {p : Parser (Tokens × Bool)}
    (hp : ∀ ts, After [] (fun a s _ => a.2 = false → s = ink a.1) p ts) :
    Copies id (verbatimIf p) := by
  intro ts
  have hkeep : After [] (fun a s _ => s = ink a.1)
      (keepingIf (·.2) (fun _ source => (source, true)) p) ts := by
    refine (hp ts).keepingIf (fun a s rest ha h => h ha) ?_
    intro a taken rest _ _ _
    rfl
  exact hkeep.seq fun a s mid _ hs => .pure hs

/-! ## Single tokens -/

theorem ink_operatorWith (j : Bool) (cs : Text) : ink (operatorWith j cs) = ink (operator cs) := by
  induction cs with
  | nil => rfl
  | cons c cs ih =>
    cases cs with
    | nil => rfl
    | cons d cs => rw [operatorWith, operator, ink_cons, ink_cons, ih] <;> simp

theorem after_op (cs : Text) (ts : Tokens) :
    After [] (fun out s rest => s = ink out ∧ out = operator cs ∧ ∃ j, ts = operatorWith j cs ++ rest)
      (op cs) ts := by
  intro _ out rest h
  obtain ⟨rfl, j, rfl⟩ := op_eq_some h
  exact ⟨_, rfl, ink_operatorWith j cs, rfl, j, rfl⟩

theorem copies_op (cs : Text) : Copies id (op cs) :=
  fun ts => (after_op cs ts).imp fun _ _ _ _ h => h.1

/-- Only one of two operators that begin differently stands ahead. -/
theorem startsOp_disjoint {c d : Char} {cs ds : Text} (h : startsOp (c :: cs) ts = true) (hne : c ≠ d) :
    startsOp (d :: ds) ts = false := by
  obtain ⟨j, hj⟩ := exists_operatorWith h
  rw [hj]
  have hhead : ∃ i rest, operatorWith j (c :: cs) ++ ts.drop (c :: cs).length = .punct c i :: rest := by
    cases cs with
    | nil => exact ⟨j, _, rfl⟩
    | cons e es => exact ⟨true, _, rfl⟩
  obtain ⟨i, rest, hrest⟩ := hhead
  rw [hrest]
  cases ds <;> simp [startsOp, hne.symm]

theorem startsOneOf_of_word {w : Text} {ws : List Text} (h : startsWord w ts = true)
    (hw : ws.contains w = true) : startsOneOf ws ts = true := by
  unfold startsWord at h
  split at h
  · obtain rfl := beq_iff_eq.1 h
    exact hw
  · cases h

theorem startsOneOf_cons {w : Text} {ws : List Text} (h : startsOneOf ws ts = true) :
    startsOneOf (w :: ws) ts = true := by
  unfold startsOneOf at h
  split at h
  · rw [startsOneOf, List.contains_cons, h, Bool.or_true]
  · cases h

/-- A rule that takes one token. -/
theorem After.one {R : α → Text → Tokens → Prop} {p : Parser α}
    (h : ∀ a rest, p ts = some (a, rest) → ∃ t, ts = t :: rest ∧ R a (ink [t]) rest) :
    After [] R p ts := by
  intro _ a rest hp
  obtain ⟨t, rfl, hR⟩ := h a rest hp
  exact ⟨[t], rfl, hR⟩

theorem after_word (w : Text) (ts : Tokens) :
    After [] (fun out s rest => s = ink out ∧ out = [.word w] ∧ ts = .word w :: rest) (word w) ts := by
  refine .one fun out rest h => ?_
  unfold word at h
  split at h
  · split at h
    · subst w
      cases h
      exact ⟨_, rfl, rfl, rfl, rfl⟩
    · cases h
  · cases h

theorem copies_word (w : Text) : Copies id (word w) :=
  fun ts => (after_word w ts).imp fun _ _ _ _ h => h.1

theorem after_anyWord (ts : Tokens) :
    After [] (fun out s rest => s = ink out ∧ ∃ w, out = [.word w] ∧ ts = .word w :: rest)
      anyWord ts := by
  refine .one fun out rest h => ?_
  unfold anyWord at h
  split at h <;> cases h
  exact ⟨_, rfl, rfl, _, rfl, rfl⟩

theorem copies_anyWord : Copies id anyWord :=
  fun ts => (after_anyWord ts).imp fun _ _ _ _ h => h.1

theorem copies_ident : Copies (fun t => [.word t]) ident := by
  refine fun ts => .one fun out rest h => ?_
  unfold ident at h
  split at h
  · split at h
    · cases h
    · cases h
      exact ⟨_, rfl, rfl⟩
  · cases h

theorem after_lifetime (ts : Tokens) :
    After [] (fun out s rest => s = ink out ∧ ∃ t, out = [.lifetime t] ∧ ts = .lifetime t :: rest)
      lifetime ts := by
  refine .one fun out rest h => ?_
  unfold lifetime at h
  split at h <;> cases h
  exact ⟨_, rfl, rfl, _, rfl, rfl⟩

theorem copies_lifetime : Copies id lifetime :=
  fun ts => (after_lifetime ts).imp fun _ _ _ _ h => h.1

theorem copies_literal : Copies id literal := by
  intro ts _ out rest h
  unfold literal at h
  split at h
  · cases h
    exact ⟨[_], rfl, rfl⟩
  · split at h
    · cases h
      exact ⟨[_], rfl, rfl⟩
    · cases h
  · split at h
    · cases h
      exact ⟨[_, _], rfl, by simp [Token.render]⟩
    · cases h
  · cases h

theorem after_anyGroup (ts : Tokens) :
    After [] (fun out s rest => s = ink out ∧ ∃ d inner, ts = .group d inner :: rest) anyGroup ts := by
  refine .one fun out rest h => ?_
  unfold anyGroup at h
  split at h <;> cases h
  exact ⟨_, rfl, rfl, _, _, rfl⟩

theorem copies_anyGroup : Copies id anyGroup :=
  fun ts => (after_anyGroup ts).imp fun _ _ _ _ h => h.1

/-- What is in a group is copied when the rule for it copies; a block does not begin with an item. -/
theorem after_group {d : Delimiter} {p : Parser Tokens} (ts : Tokens)
    (hp : ∀ inner, (d = .curly → declares inner = false) → After [] (fun a s _ => s = ink a) p inner) :
    After [] (fun out s rest => s = ink out ∧ ∃ inner, ts = .group d inner :: rest) (group d p) ts := by
  intro hts out rest h
  unfold group at h
  split at h
  · rename_i d' inner rest'
    split at h
    · subst d'
      split at h <;> cases h
      rename_i out' hout
      have hblock : d = .curly → declares inner = false := by
        rintro rfl
        exact hts.block
      obtain ⟨taken, htaken, hink⟩ := hp inner hblock hts.group _ _ hout
      rw [List.append_nil] at htaken
      subst htaken
      refine ⟨[.group d inner], rfl, ?_, inner, rfl⟩
      rw [List.nil_append, ink_group, ink_group]
      exact congrArg (fun s => d.openChar :: s ++ [d.closeChar]) hink
    · cases h
  · cases h

theorem copies_group {d : Delimiter} {p : Parser Tokens} (hp : Copies id p) : Copies id (group d p) :=
  fun ts => (after_group ts fun inner _ => hp inner).imp fun _ _ _ _ h => h.1

/-! ## Options and repetitions -/

theorem copies_optional {test : Tokens → Bool} {p : Parser Tokens} (hp : Copies id p) :
    Copies id (optional test p) :=
  fun ts => .branch (fun _ => hp ts) fun _ => .pure rfl

theorem after_optional_none {test : Tokens → Bool} {p : Parser Tokens} (h : test ts = false) :
    After [] (fun out s rest => s = ink out ∧ out = [] ∧ rest = ts) (optional test p) ts :=
  .branch (fun h' => absurd h' (by simp [h])) fun _ => .pure ⟨rfl, rfl, rfl⟩

theorem after_optionalOp (cs : Text) (ts : Tokens) :
    After [] (fun out s rest => s = ink out ∧ ((out = [] ∧ rest = ts ∧ startsOp cs ts = false) ∨
      (out = operator cs ∧ ∃ j, ts = operatorWith j cs ++ rest))) (optionalOp cs) ts := by
  refine .branch (fun _ => ?_) fun hnone => .pure ⟨rfl, .inl ⟨rfl, rfl, hnone⟩⟩
  exact (after_op cs ts).imp fun _ _ _ _ h => ⟨h.1, .inr h.2⟩

theorem copies_optionalOp (cs : Text) : Copies id (optionalOp cs) := copies_optional (copies_op cs)

theorem copies_optionalWord (w : Text) : Copies id (optionalWord w) := copies_optional (copies_word w)

/-- What one round after another has read: `P` holds of each round, from the place where it begins, and
`test` holds at these places and not at the last one. -/
inductive Rounds (test : Tokens → Bool) (P : Tokens → α → Text → Tokens → Prop) :
    Tokens → List α → Text → Tokens → Prop where
  | done {ts : Tokens} (h : test ts = false) : Rounds test P ts [] [] ts
  | round {ts mid rest : Tokens} {a : α} {as : List α} {s s' : Text} (h : test ts = true)
      (hmid : mid <:+ ts) (ha : P ts a s mid) (has : Rounds test P mid as s' rest) :
      Rounds test P ts (a :: as) (s ++ s') rest

namespace Rounds

variable {test : Tokens → Bool} {P : Tokens → α → Text → Tokens → Prop} {ts rest : Tokens}
  {as : List α} {s : Text}

theorem test_rest (h : Rounds test P ts as s rest) : test rest = false := by
  induction h with
  | done h => exact h
  | round _ _ _ _ ih => exact ih

theorem ink_eq {f : α → Tokens} (h : Rounds test P ts as s rest)
    (hP : ∀ ts a s rest, P ts a s rest → s = ink (f a)) : s = ink (as.map f).flatten := by
  induction h with
  | done => rfl
  | round _ _ ha _ ih => rw [List.map_cons, List.flatten_cons, ink_append, ih, hP _ _ _ _ ha]

/-- Either there was no round at all, or the last one ended here. -/
theorem last (h : Rounds test P ts as s rest) :
    (as = [] ∧ rest = ts) ∨
      test ts = true ∧ ∃ front a s' mid, as = front ++ [a] ∧ mid <:+ ts ∧ test mid = true
        ∧ P mid a s' rest := by
  induction h with
  | done => exact .inl ⟨rfl, rfl⟩
  | @round ts mid rest a as s s' htest hmid ha _ ih =>
    refine .inr ⟨htest, ?_⟩
    obtain ⟨rfl, rfl⟩ | ⟨_, front, b, s'', place, rfl, hplace, hb⟩ := ih
    · exact ⟨[], a, s, ts, rfl, List.suffix_refl ts, htest, ha⟩
    · exact ⟨a :: front, b, s'', place, rfl, hplace.trans hmid, hb⟩

end Rounds

/-- Rounds of which each begins where `J` holds. -/
theorem after_repeatWhile {test : Tokens → Bool} {p : Parser α} {J : Tokens → Prop}
    {P : Tokens → α → Text → Tokens → Prop}
    (hp : ∀ ts, J ts → test ts = true → After [] (fun a s rest => P ts a s rest ∧ J rest) p ts)
    (hJ : J ts) : After [] (Rounds test P ts) (repeatWhile test p) ts := by
  have hrounds : ∀ n ts, J ts → After [] (Rounds test P ts) (repeatUpTo
      (do if ← ahead test then return some (← p) else return none) n) ts := by
    intro n
    induction n with
    | zero =>
      intro ts _ _ a rest h
      cases h
    | succ n ih =>
      intro ts hts
      unfold repeatUpTo
      refine .bind (R := fun o s mid => (o = none ∧ s = [] ∧ mid = ts ∧ test ts = false) ∨
        ∃ a, o = some a ∧ test ts = true ∧ P ts a s mid ∧ J mid) ?_ ?_
      · refine .branch (fun htest => ?_) fun htest => .pure (.inl ⟨rfl, rfl, rfl, htest⟩)
        exact (hp ts hts htest).seq fun a s mid _ h => .pure (.inr ⟨a, rfl, htest, h⟩)
      · rintro o s mid hmid (⟨rfl, rfl, rfl, htest⟩ | ⟨a, rfl, htest, ha, hnext⟩)
        · exact .pure (.done htest)
        · exact (ih mid hnext).bind fun as s' rest _ has => .pure (.round htest hmid ha has)
  exact hrounds _ ts hJ

theorem after_rounds {test : Tokens → Bool} {p : Parser α} {P : Tokens → α → Text → Tokens → Prop}
    (hp : ∀ ts, test ts = true → After [] (P ts) p ts) :
    After [] (Rounds test P ts) (repeatWhile test p) ts :=
  after_repeatWhile (J := fun _ => True)
    (fun ts _ htest => (hp ts htest).imp fun _ _ _ _ h => ⟨h, trivial⟩) trivial

theorem copies_repeatWhile {test : Tokens → Bool} {f : α → Tokens} {p : Parser α} (hp : Copies f p) :
    Copies (fun as => (as.map f).flatten) (repeatWhile test p) :=
  fun _ => (after_rounds fun ts _ => hp ts).imp fun _ _ _ _ h => h.ink_eq fun _ _ _ _ h => h

theorem copies_repeat {test : Tokens → Bool} {p : Parser Tokens} (hp : Copies id p) :
    Copies List.flatten (repeatWhile test p) := by
  have h : Copies (fun tss => (tss.map id).flatten) (repeatWhile test p) := copies_repeatWhile hp
  simpa only [List.map_id] using h

/-- Lets a rule extend what it has, as long as `I` holds of that, of the ink so far and of what is
left. -/
theorem after_extend {step : α → Parser (Option α)} {I : α → Text → Tokens → Prop} {a : α}
    (hstep : ∀ a s mid, mid <:+ ts → I a s mid →
      After s (fun o s rest => I (o.getD a) s rest) (step a) mid) (ha : I a pre ts) :
    After pre I (extend step a) ts := by
  have hrounds : ∀ n a s mid, mid <:+ ts → I a s mid → After s I (extendUpTo step n a) mid := by
    intro n
    induction n with
    | zero =>
      intro a s mid _ _ _ b rest h
      cases h
    | succ n ih =>
      intro a s mid hmid hI
      refine (hstep a s mid hmid hI).seq fun o s' rest hrest h => ?_
      cases o with
      | none => exact .pure h
      | some b => exact ih b s' rest (hrest.trans hmid) h
  exact hrounds _ a pre ts (List.suffix_refl ts) ha

theorem copies_separated {stop : Tokens → Bool} {item : Parser Tokens} (h : Copies id item) :
    Copies id (separated stop item) := by
  refine fun ts => .copy h fun value mid _ => .branch (fun _ => .pure rfl) fun _ => ?_
  exact .copy (copies_op _) fun comma rest _ => .pure (by simp)

/-- Items until `stop` holds, which it does behind them. -/
theorem after_listUntil {stop : Tokens → Bool} {item : Parser Tokens} (h : Copies id item)
    (ts : Tokens) :
    After [] (fun out s rest => s = ink out ∧ stop rest = true) (listUntil stop item) ts := by
  have hrounds : After [] (Rounds (fun ts => !stop ts) (fun _ out s _ => s = ink out) ts)
      (repeatWhile (fun ts => !stop ts) (separated stop item)) ts :=
    after_rounds fun ts _ => copies_separated h ts
  refine hrounds.seq fun all s mid _ hall => .pure ⟨?_, by simpa using hall.test_rest⟩
  simpa using hall.ink_eq (f := id) fun _ _ _ _ h => h

theorem copies_listUntil {stop : Tokens → Bool} {item : Parser Tokens} (h : Copies id item) :
    Copies id (listUntil stop item) :=
  fun ts => (after_listUntil h ts).imp fun _ _ _ _ h => h.1

theorem copies_commaList {item : Parser Tokens} (h : Copies id item) : Copies id (commaList item) :=
  copies_listUntil h

/-! ## Nested parts -/

/-- What is known of a type that was read from `ts`. -/
structure TypeFits (sum : Bool) (ts : Tokens) (t : TypeForm) (s : Text) (rest : Tokens) : Prop where
  ink : s = ink t.tokens
  /-- A bound alone is written without parentheses in a sum, which matters if it has some. -/
  bound : ∀ out, t.shape = .bound out → RuleFormat.ink out = RuleFormat.ink t.tokens
    ∨ ∃ inner, ts = .group .round inner :: rest ∧ startsMaybe ts = true
  bare : sum = false → t.endsBare = true → opensArguments rest = true → Has isBareType ts

/-- What is known of a bound that was read from `ts`. -/
structure BoundFits (ts : Tokens) (b : BoundForm) (s : Text) (rest : Tokens) : Prop where
  ink : s = ink b.tokens
  taken : rest.length < ts.length
  bare : b.endsBare = true → opensArguments rest = true →
    (∃ inner, ts = .group .round inner :: rest) ∨ Has isBareType ts

/-- What is known of a pattern that was read from `ts`. -/
structure PatternFits (ts : Tokens) (p : PatternForm) (s : Text) (rest : Tokens) : Prop where
  ink : s = ink p.tokens
  verbatim : p.shape = .verbatim → startsWord "box" ts = true

/-- What is known of an expression that was read from `ts`. -/
structure ExprFits (ts : Tokens) (e : ExprForm) (s : Text) (rest : Tokens) : Prop where
  ink : s = ink e.tokens
  angle : opensArguments rest = true → RuleFormat.ink e.beforeAngle = RuleFormat.ink e.tokens
  braces : e.shape = .block ∨ e.shape = .braced → ∃ inner, .group .curly inner :: rest <:+ ts
  verbatim : e.shape = .verbatim →
    startsOp "#" ts = true ∨ startsOneOf ["become", "builtin"] ts = true
  range : e.shape = .range → Has startsDots ts

/-- The rules for nested parts copy what they take: arguments when lifetimes are the first, and
statements when the first one is no item. -/
structure CopiesNested (r : Nested) : Prop where
  type : ∀ sum ts, After [] (TypeFits sum ts) (r.type sum) ts
  arguments : ∀ ts, isOrdered ts = true → After [] (fun out s _ => s = ink out) r.arguments ts
  bound : ∀ place ts, After [] (BoundFits ts) (r.bound place) ts
  pattern : ∀ ts, After [] (PatternFits ts) r.pattern ts
  expr : ∀ allowStruct ts, After [] (ExprFits ts) (r.expr allowStruct) ts
  operand : ∀ allowStruct ts, After [] (ExprFits ts) (r.operand allowStruct) ts
  rightOperand : ∀ allowStruct prec ts, After [] (ExprFits ts) (r.rightOperand allowStruct prec) ts
  leadingExpr : Copies (·.tokens) r.leadingExpr
  statements : ∀ ts, declares ts = false → After [] (fun out s _ => s = ink out) r.statements ts
  pairs : PairsNested r

namespace CopiesNested

variable {r : Nested}

theorem typeTokens (hr : CopiesNested r) : Copies id r.typeTokens :=
  fun ts => (hr.type true ts).seq fun _ _ _ _ h => .pure h.ink

theorem patternTokens (hr : CopiesNested r) : Copies (·.tokens) r.pattern :=
  fun ts => (hr.pattern ts).imp fun _ _ _ _ h => h.ink

theorem exprTokens (hr : CopiesNested r) : Copies id r.exprTokens :=
  fun ts => (hr.expr true ts).seq fun _ _ _ _ h => .pure h.ink

theorem block (hr : CopiesNested r) (ts : Tokens) :
    After [] (fun out s rest => s = ink out ∧ ∃ inner, ts = .group .curly inner :: rest) r.block ts :=
  after_group ts fun inner hinner => hr.statements inner (hinner rfl)

theorem copies_block (hr : CopiesNested r) : Copies id r.block :=
  fun ts => (hr.block ts).imp fun _ _ _ _ h => h.1

end CopiesNested

end RuleFormat.Parser
