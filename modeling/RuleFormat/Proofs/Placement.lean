import Mathlib.Data.List.Forall2
import RuleFormat.Proofs.Groups

/-!
# Which key takes which parameter

`place` hands the parameters that are left from key to key and takes one out at a time.  Here the
same is said without a run.  Parameters can be equal and keys can overlap, so both are known by their
places: a `Take` is the place of a key in the table and the place of the parameter that it takes in
the input.

A list of takes is a *placement* when the keys come in the order of the table, each take is of the
first parameter that the key fits and that still waits for one, and a key that takes nothing fits no
parameter that waits (`IsPlacement`).  `place` makes a placement (`exists_placement`): a key that
fits nothing is skipped (`IsPlacement.skip`), and one that fits something takes the first such
parameter out of the way of all keys behind it (`IsPlacement.take`).

In a placement, a parameter that no key has taken came too late for every key that it has
(`IsPlacement.exists_earlier`).  With this `sortParameters_spec` says what becomes of every parameter
of a rule.
-/

namespace RuleFormat

/-- The place of a key in its table, and the place in the input of the parameter that it takes. -/
structure Take where
  key : Nat
  place : Nat
  deriving DecidableEq, Repr

/-- The same take in a table with one more key in front. -/
def Take.next (τ : Take) : Take := { τ with key := τ.key + 1 }

/-- Of the parameters `qs`, each with its place, `q` waits at the turn of the `n`th key: no key
before has taken it. -/
def Waits (qs : List (Parameter × Nat)) (takes : List Take) (n : Nat) (q : Parameter × Nat) : Prop :=
  q ∈ qs ∧ ∀ τ ∈ takes, τ.key < n → τ.place ≠ q.2

/-- The takes are those of keys that have their turns one after the other. -/
structure IsPlacement (ks : List Key) (qs : List (Parameter × Nat)) (takes : List Take) : Prop where
  increasing : takes.Pairwise fun σ τ => σ.key < τ.key
  /-- A key takes the first of the waiting parameters that it fits. -/
  first : ∀ τ ∈ takes, ∃ k p, ks[τ.key]? = some k ∧ Waits qs takes τ.key (p, τ.place) ∧
    k.fits p = true ∧ ∀ q, Waits qs takes τ.key q → k.fits q.1 = true → τ.place ≤ q.2
  /-- A key that takes nothing fits no waiting parameter. -/
  idle : ∀ n k, ks[n]? = some k → (∀ τ ∈ takes, τ.key ≠ n) →
    ∀ q, Waits qs takes n q → k.fits q.1 = false

/-- The parameters that no key has taken, in the order of the input. -/
def untaken (takes : List Take) (qs : List (Parameter × Nat)) : List Parameter :=
  (qs.filter fun q => takes.all (·.place != q.2)).map (·.1)

variable {ks : List Key} {k : Key} {qs as bs : List (Parameter × Nat)} {q r : Parameter × Nat}
  {takes : List Take}

/-! ## One key more -/

theorem waits_zero : Waits qs takes 0 q ↔ q ∈ qs := by
  simp [Waits]

theorem waits_map_next {n : Nat} : Waits qs (takes.map Take.next) (n + 1) q ↔ Waits qs takes n q := by
  simp [Waits, Take.next]

theorem pairwise_map_next (h : takes.Pairwise fun σ τ => σ.key < τ.key) :
    (takes.map Take.next).Pairwise fun σ τ => σ.key < τ.key := by
  rw [List.pairwise_map]
  exact h.imp fun hlt => Nat.succ_lt_succ hlt

/-- A key in front that fits no parameter leaves the placement as it is. -/
theorem IsPlacement.skip (hk : ∀ q ∈ qs, k.fits q.1 = false) (h : IsPlacement ks qs takes) :
    IsPlacement (k :: ks) qs (takes.map Take.next) := by
  refine ⟨pairwise_map_next h.increasing, ?_, ?_⟩
  · intro τ hτ
    obtain ⟨σ, hσ, rfl⟩ := List.mem_map.1 hτ
    obtain ⟨k', p, hk', hp, hfits, hfirst⟩ := h.first σ hσ
    exact ⟨k', p, hk', waits_map_next.2 hp, hfits, fun q hq => hfirst q (waits_map_next.1 hq)⟩
  · intro n k' hk' hnone q hq
    cases n with
    | zero =>
      obtain rfl : k = k' := by simpa using hk'
      exact hk q hq.1
    | succ n =>
      refine h.idle n k' hk' ?_ q (waits_map_next.1 hq)
      intro σ hσ hkey
      exact hnone σ.next (List.mem_map_of_mem hσ) (congrArg (· + 1) hkey)

/-- No two parameters have the same place. -/
theorem place_ne_of_sorted (hsorted : (as ++ q :: bs).Pairwise fun q r => q.2 < r.2)
    (hr : r ∈ as ++ bs) : q.2 ≠ r.2 := by
  rw [List.pairwise_append, List.pairwise_cons] at hsorted
  obtain ⟨-, ⟨hbs, -⟩, has⟩ := hsorted
  rcases List.mem_append.1 hr with hr | hr
  · exact Nat.ne_of_gt (has r hr q List.mem_cons_self)
  · exact Nat.ne_of_lt (hbs r hr)

theorem waits_take {n : Nat} (hsorted : (as ++ q :: bs).Pairwise fun q r => q.2 < r.2) :
    Waits (as ++ q :: bs) (⟨0, q.2⟩ :: takes.map Take.next) (n + 1) r ↔
      Waits (as ++ bs) takes n r := by
  have hmem : r ∈ as ++ q :: bs ∧ q.2 ≠ r.2 ↔ r ∈ as ++ bs := by
    constructor
    · rintro ⟨hr, hne⟩
      have hrq : r ≠ q := fun h => hne (by rw [h])
      simpa [hrq] using hr
    · intro hr
      refine ⟨?_, place_ne_of_sorted hsorted hr⟩
      simp only [List.mem_append, List.mem_cons] at hr ⊢
      exact hr.imp_right Or.inr
  rw [Waits, Waits, List.forall_mem_cons, ← hmem]
  simp [Take.next, and_assoc]

/-- A key in front that fits parameters takes the first of them away from the placement. -/
theorem IsPlacement.take (hsorted : (as ++ q :: bs).Pairwise fun q r => q.2 < r.2)
    (hq : k.fits q.1 = true) (has : ∀ r ∈ as, k.fits r.1 = false)
    (h : IsPlacement ks (as ++ bs) takes) :
    IsPlacement (k :: ks) (as ++ q :: bs) (⟨0, q.2⟩ :: takes.map Take.next) := by
  refine ⟨?_, ?_, ?_⟩
  · rw [List.pairwise_cons]
    refine ⟨?_, pairwise_map_next h.increasing⟩
    intro τ hτ
    obtain ⟨σ, -, rfl⟩ := List.mem_map.1 hτ
    exact Nat.succ_pos σ.key
  · intro τ hτ
    rcases List.mem_cons.1 hτ with rfl | hτ
    · refine ⟨k, q.1, rfl, waits_zero.2 (by simp), hq, ?_⟩
      intro r hr hfits
      rcases List.mem_append.1 (waits_zero.1 hr) with hr | hr
      · rw [has r hr] at hfits
        cases hfits
      · rcases List.mem_cons.1 hr with rfl | hr
        · exact Nat.le_refl _
        · have hbs := (List.pairwise_cons.1 (List.pairwise_append.1 hsorted).2.1).1
          exact Nat.le_of_lt (hbs r hr)
    · obtain ⟨σ, hσ, rfl⟩ := List.mem_map.1 hτ
      obtain ⟨k', p, hk', hp, hfits, hfirst⟩ := h.first σ hσ
      exact ⟨k', p, hk', (waits_take hsorted).2 hp, hfits,
        fun r hr => hfirst r ((waits_take hsorted).1 hr)⟩
  · intro n k' hk' hnone r hr
    cases n with
    | zero => exact absurd rfl (hnone ⟨0, q.2⟩ List.mem_cons_self)
    | succ n =>
      refine h.idle n k' hk' ?_ r ((waits_take hsorted).1 hr)
      intro σ hσ hkey
      refine hnone σ.next ?_ (congrArg (· + 1) hkey)
      exact List.mem_cons_of_mem _ (List.mem_map_of_mem hσ)

theorem untaken_map_next : untaken (takes.map Take.next) qs = untaken takes qs := by
  simp [untaken, Take.next, Function.comp_def]

theorem untaken_take (hsorted : (as ++ q :: bs).Pairwise fun q r => q.2 < r.2) :
    untaken (⟨0, q.2⟩ :: takes.map Take.next) (as ++ q :: bs) = untaken takes (as ++ bs) := by
  have hsame : ∀ cs : List (Parameter × Nat), (∀ r ∈ cs, q.2 ≠ r.2) →
      cs.filter (fun r => (⟨0, q.2⟩ :: takes.map Take.next).all (·.place != r.2))
        = cs.filter fun r => takes.all (·.place != r.2) := by
    intro cs hcs
    refine List.filter_congr ?_
    intro r hr
    simp [Take.next, hcs r hr, Function.comp_def]
  have has := hsame as fun r hr => place_ne_of_sorted hsorted (by simp [hr])
  have hbs := hsame bs fun r hr => place_ne_of_sorted hsorted (by simp [hr])
  rw [untaken, untaken, List.filter_append, List.filter_append, List.filter_cons_of_neg (by simp),
    has, hbs]

/-! ## All keys -/

/-- The keys take by a placement, and what they leave is what nobody takes. -/
theorem exists_placement (ks : List Key) {qs : List (Parameter × Nat)}
    (hsorted : qs.Pairwise fun q r => q.2 < r.2) :
    ∃ takes, IsPlacement ks qs takes ∧
      List.Forall₂ (fun τ p => (p, τ.place) ∈ qs) takes (place ks (qs.map (·.1))).1 ∧
      (place ks (qs.map (·.1))).2 = untaken takes qs := by
  induction ks generalizing qs with
  | nil => exact ⟨[], ⟨.nil, by simp, by simp⟩, .nil, by simp [place, untaken]⟩
  | cons k ks ih =>
    rcases forall_not_or_append_cons k (qs.map (·.1)) with hnone | ⟨ps, p, rs, heq, hp, hps⟩
    · obtain ⟨takes, hplace, htaken, hleft⟩ := ih hsorted
      rw [place_of_forall_not hnone]
      refine ⟨takes.map Take.next, hplace.skip (by simpa using hnone), ?_, ?_⟩
      · rw [List.forall₂_map_left_iff]
        exact htaken
      · rw [untaken_map_next]
        exact hleft
    · obtain ⟨as, cs, rfl, rfl, hcs⟩ := List.map_eq_append_iff.1 heq
      obtain ⟨q, bs, rfl, rfl, rfl⟩ := List.map_eq_cons_iff.1 hcs
      have hrest : (as ++ bs).Pairwise fun q r => q.2 < r.2 :=
        hsorted.sublist ((List.sublist_cons_self q bs).append_left as)
      obtain ⟨takes, hplace, htaken, hleft⟩ := ih hrest
      rw [List.map_append] at htaken hleft
      rw [heq, place_append_cons hp hps]
      refine ⟨⟨0, q.2⟩ :: takes.map Take.next, hplace.take hsorted hp (by simpa using hps), ?_, ?_⟩
      · refine .cons (by simp) ?_
        rw [List.forall₂_map_left_iff]
        refine htaken.imp ?_
        intro τ p hmem
        simp only [List.mem_append, List.mem_cons] at hmem ⊢
        exact hmem.imp_right Or.inr
      · rw [untaken_take hsorted]
        exact hleft

/-- A parameter that no key has taken came too late for each key that it has. -/
theorem IsPlacement.exists_earlier (h : IsPlacement ks qs takes) (hq : q ∈ qs)
    (hfree : ∀ τ ∈ takes, τ.place ≠ q.2) {n : Nat} (hk : ks[n]? = some k)
    (hfits : k.fits q.1 = true) :
    ∃ τ ∈ takes, τ.key = n ∧ τ.place < q.2 := by
  have hwaits : ∀ n, Waits qs takes n q := fun n => ⟨hq, fun τ hτ _ => hfree τ hτ⟩
  by_cases hnone : ∀ τ ∈ takes, τ.key ≠ n
  · rw [h.idle n k hk hnone q (hwaits n)] at hfits
    cases hfits
  · push Not at hnone
    obtain ⟨τ, hτ, rfl⟩ := hnone
    obtain ⟨k', p, hk', -, -, hfirst⟩ := h.first τ hτ
    obtain rfl : k = k' := Option.some.inj (hk.symm.trans hk')
    have hle : τ.place ≤ q.2 := hfirst q (hwaits _) hfits
    exact ⟨τ, hτ, rfl, Nat.lt_of_le_of_ne hle (hfree τ hτ)⟩

/-! ## The parameters of a rule -/

/-- The parameters that are placed by the ghost table, each with its place in the input: neither the
environment nor of a parametric key. -/
def Tables.standing (t : Tables) (ps : List Parameter) : List (Parameter × Nat) :=
  ps.zipIdx.filter fun q => !q.1.isEnv && !t.parametric.any (·.fits q.1)

theorem getElem?_of_mem_standing {t : Tables} {ps : List Parameter} {q : Parameter × Nat}
    (hq : q ∈ t.standing ps) : ps[q.2]? = some q.1 :=
  List.mk_mem_zipIdx_iff_getElem?.1 (List.mem_filter.1 hq).1

theorem map_fst_standing (t : Tables) (ps : List Parameter) :
    (t.standing ps).map (·.1) = t.merged ps := by
  have hfilter : (t.standing ps).map (·.1)
      = (ps.zipIdx.map (·.1)).filter fun p => !p.isEnv && !t.parametric.any (·.fits p) := by
    rw [List.filter_map]
    rfl
  rw [hfilter, List.zipIdx_map_fst, Tables.merged, List.filter_filter]
  refine List.filter_congr ?_
  intro p _
  exact Bool.and_comm _ _

theorem sorted_standing (t : Tables) (ps : List Parameter) :
    (t.standing ps).Pairwise fun q r => q.2 < r.2 := by
  have hall : ps.zipIdx.Pairwise fun q r => q.2 < r.2 := by
    rw [← List.pairwise_map, List.zipIdx_map_snd]
    exact List.pairwise_lt_range'
  exact hall.filter _

/-- Why a parameter that no key has taken is left out, by the keys that it has. -/
theorem leftoverReason_eq (t : Tables) (policy : Policy) (p : Parameter) :
    leftoverReason t policy p =
      if t.ghost.any (·.fits p) then some .duplicateGhost
      else if policy = .keep then none
      else some .unclassified := by
  cases policy <;> rfl

theorem filter_leftoverReason (t : Tables) (policy : Policy) (ps : List Parameter) :
    ps.filter (fun p => (leftoverReason t policy p).isNone)
      = if policy = .keep then ps.filter fun p => !t.ghost.any (·.fits p) else [] := by
  cases policy with
  | keep =>
    rw [if_pos rfl]
    refine List.filter_congr ?_
    intro p _
    by_cases hghost : t.ghost.any (·.fits p) = true <;> simp [leftoverReason_eq, hghost]
  | drop =>
    rw [if_neg (by decide), List.filter_eq_nil_iff]
    intro p _
    by_cases hghost : t.ghost.any (·.fits p) = true <;> simp [leftoverReason_eq, hghost]

theorem map_leftoverReason (t : Tables) (policy : Policy) (p : Parameter) :
    (leftoverReason t policy p).map (Dropped.mk p) =
      if t.ghost.any (·.fits p) then some ⟨p, .duplicateGhost⟩
      else if policy = .keep then none
      else some ⟨p, .unclassified⟩ := by
  rw [leftoverReason_eq]
  split
  · rfl
  · split <;> rfl

/-- **What becomes of every parameter of a rule.**  The environment parameter is in no group, and the
parametric group are the others that have a parametric key, in the order of the input.  The ghost
group is taken from the rest by a placement of the ghost table, in the order of its keys.  Of what
nobody takes, a parameter with a ghost key came too late for all of its keys and is dropped as a
duplicate; the others are kept as unclassified, or dropped as such, by the policy.  All of this is in
the order of the input, and in front of what is dropped are the environment parameters that are not
plain. -/
theorem sortParameters_spec (t : Tables) (policy : Policy) (ps : List Parameter) :
    (∀ p ∈ (sortParameters t policy ps).kept, p.isEnv = false) ∧
      (sortParameters t policy ps).parametric
        = ps.filter (fun p => !p.isEnv && t.parametric.any (·.fits p)) ∧
      ∃ takes, IsPlacement t.ghost (t.standing ps) takes ∧
        List.Forall₂ (fun τ p => ps[τ.place]? = some p) takes (sortParameters t policy ps).ghost ∧
        (∀ q ∈ t.standing ps, (∀ τ ∈ takes, τ.place ≠ q.2) → ∀ n k, t.ghost[n]? = some k →
          k.fits q.1 = true → ∃ τ ∈ takes, τ.key = n ∧ τ.place < q.2) ∧
        (sortParameters t policy ps).unclassified
          = (if policy = .keep then
              (untaken takes (t.standing ps)).filter fun p => !t.ghost.any (·.fits p)
            else []) ∧
        (sortParameters t policy ps).dropped
          = (ps.filter fun p => p.isEnv && !p.isPlainEnv).map (⟨·, .envForm⟩)
            ++ (untaken takes (t.standing ps)).filterMap fun p =>
              if t.ghost.any (·.fits p) then some ⟨p, .duplicateGhost⟩
              else if policy = .keep then none
              else some ⟨p, .unclassified⟩ := by
  obtain ⟨takes, hplace, htaken, hleft⟩ := exists_placement t.ghost (sorted_standing t ps)
  rw [map_fst_standing] at htaken hleft
  have hleftover : t.leftover ps = untaken takes (t.standing ps) := hleft
  refine ⟨fun p hp => (mem_kept t policy ps hp).2, ?_, takes, hplace, ?_, ?_, ?_, ?_⟩
  · rw [sortParameters_eq, List.filter_filter]
    refine List.filter_congr ?_
    intro p _
    exact Bool.and_comm _ _
  · rw [ghost_sortParameters]
    exact htaken.imp fun τ p hmem => getElem?_of_mem_standing hmem
  · intro q hq hfree n k hk hfits
    exact hplace.exists_earlier hq hfree hk hfits
  · rw [sortParameters_eq, hleftover]
    exact filter_leftoverReason t policy _
  · simp only [sortParameters_eq, hleftover, map_leftoverReason]

end RuleFormat
