import RuleFormat.Groups

/-!
# Sorting parameters

Sorting loses nothing and makes nothing up: what is kept, what is dropped and the plain environment
parameters are together the parameters that were there (`perm_sortParameters`).  And it is done once
and for all: the parameters that are kept, sorted again behind a plain environment parameter, come
out in the same groups, and none of them is dropped (`sortParameters_kept`).  When everything
unclassified is kept at first, they come out in the groups that any policy makes at once
(`sortParameters_kept_of_keep`).
-/

namespace RuleFormat

/-! ## Placing by keys -/

theorem place_of_forall_not {k : Key} {ps : List Parameter} (h : ∀ p ∈ ps, k.fits p = false)
    (ks : List Key) : place (k :: ks) ps = place ks ps := by
  have hnone : ps.find? k.fits = none := List.find?_eq_none.2 fun p hp => by simp [h p hp]
  rw [place, hnone]

theorem place_append_cons {k : Key} {p : Parameter} {as : List Parameter} (hp : k.fits p = true)
    (has : ∀ q ∈ as, k.fits q = false) (ks : List Key) (bs : List Parameter) :
    place (k :: ks) (as ++ p :: bs)
      = (p :: (place ks (as ++ bs)).1, (place ks (as ++ bs)).2) := by
  have hsome : (as ++ p :: bs).find? k.fits = some p :=
    List.find?_eq_some_iff_append.2 ⟨hp, as, bs, rfl, fun q hq => by simp [has q hq]⟩
  have herase : (as ++ p :: bs).eraseP k.fits = as ++ bs := by
    rw [List.eraseP_append_right _ fun q hq => by simp [has q hq], List.eraseP_cons_of_pos hp]
  rw [place, hsome]
  simp only [herase]

/-- A key fits no parameter, or it takes the first that it fits. -/
theorem forall_not_or_append_cons (k : Key) (ps : List Parameter) :
    (∀ p ∈ ps, k.fits p = false) ∨
      ∃ as p bs, ps = as ++ p :: bs ∧ k.fits p = true ∧ ∀ q ∈ as, k.fits q = false := by
  cases h : ps.find? k.fits with
  | none =>
    refine Or.inl fun p hp => ?_
    simpa using List.find?_eq_none.1 h p hp
  | some p =>
    obtain ⟨hp, as, bs, rfl, has⟩ := List.find?_eq_some_iff_append.1 h
    exact Or.inr ⟨as, p, bs, rfl, hp, fun q hq => by simpa using has q hq⟩

theorem perm_place (ks : List Key) (ps : List Parameter) :
    ((place ks ps).1 ++ (place ks ps).2).Perm ps := by
  induction ks generalizing ps with
  | nil => exact List.Perm.refl ps
  | cons k ks ih =>
    rcases forall_not_or_append_cons k ps with h | ⟨as, p, bs, rfl, hp, has⟩
    · rw [place_of_forall_not h]
      exact ih ps
    · rw [place_append_cons hp has]
      exact ((ih (as ++ bs)).cons p).trans List.perm_middle.symm

theorem mem_of_mem_place {ks : List Key} {ps : List Parameter} {p : Parameter}
    (h : p ∈ (place ks ps).1 ∨ p ∈ (place ks ps).2) : p ∈ ps :=
  (perm_place ks ps).mem_iff.1 (List.mem_append.2 h)

/-- What the keys have taken they take again, and they leave what they do not fit. -/
theorem place_taken (ks : List Key) (ps : List Parameter) {us : List Parameter}
    (hus : ∀ u ∈ us, ∀ k ∈ ks, k.fits u = false) :
    place ks ((place ks ps).1 ++ us) = ((place ks ps).1, us) := by
  induction ks generalizing ps with
  | nil => rfl
  | cons k ks ih =>
    have hks : ∀ u ∈ us, ∀ k ∈ ks, k.fits u = false := fun u hu k hk => hus u hu k (by simp [hk])
    rcases forall_not_or_append_cons k ps with h | ⟨as, p, bs, rfl, hp, has⟩
    · rw [place_of_forall_not h]
      have hnot : ∀ q ∈ (place ks ps).1 ++ us, k.fits q = false := by
        intro q hq
        rcases List.mem_append.1 hq with hq | hq
        · exact h q (mem_of_mem_place (Or.inl hq))
        · exact hus q hq k (by simp)
      rw [place_of_forall_not hnot]
      exact ih ps hks
    · rw [place_append_cons hp has]
      -- The key now meets the parameter that it took in front of all others.
      have hnone : ∀ q ∈ ([] : List Parameter), k.fits q = false := by simp
      have hagain := place_append_cons hp hnone ks ((place ks (as ++ bs)).1 ++ us)
      rw [List.nil_append, List.nil_append, ih (as ++ bs) hks] at hagain
      exact hagain

/-! ## The stages of sorting -/

/-- The parameters that are placed by the ghost table: neither the environment nor parametric. -/
def Tables.merged (t : Tables) (ps : List Parameter) : List Parameter :=
  (ps.filter fun p => !p.isEnv).filter fun p => !t.isParametric p.name p.type

/-- The parameters that no ghost key takes. -/
def Tables.leftover (t : Tables) (ps : List Parameter) : List Parameter :=
  (place t.ghost (t.merged ps)).2

/-- The parameters that are written, in the order in which they are. -/
def Groups.kept (g : Groups) : List Parameter := g.parametric ++ g.ghost ++ g.unclassified

/-- Why a parameter that no key has taken is left out; nothing when it is kept. -/
def leftoverReason (t : Tables) (policy : Policy) (p : Parameter) : Option DropReason :=
  if t.isGhost p.name p.type then some .duplicateGhost
  else
    match policy with
    | .keep => none
    | .drop => some .unclassified

/-- The warning about a parameter that is left out for a reason. -/
def DropReason.warning (parameter : Text) : DropReason → Event
  | .unclassified => .unclassifiedDropped parameter
  | .duplicateGhost => .duplicateDropped parameter
  | .envForm => .envReplaced parameter

/-- The warning about a parameter that is left out. -/
def Dropped.warning (d : Dropped) : Event := d.reason.warning d.parameter.text

namespace Sorting

variable (t : Tables) (policy : Policy)

/-- What becomes of a parameter that is taken in: it is passed over, replaced, parametric, or waits
for the ghost table. -/
theorem receive_eq (s : Sorting) (p : Parameter) : s.receive t p =
    { s with
      parametric := s.parametric
        ++ ([p].filter fun p => !p.isEnv).filter fun p => t.isParametric p.name p.type
      dropped := s.dropped ++ ([p].filter fun p => p.isEnv && !p.isPlainEnv).map (⟨·, .envForm⟩)
      waiting := s.waiting ++ t.merged [p]
      log := s.log ++ ([p].filter fun p => p.isEnv && !p.isPlainEnv).map (.envReplaced ·.text) } := by
  unfold receive Tables.merged
  cases henv : p.isEnv with
  | false => cases hparam : t.isParametric p.name p.type <;> simp [henv, hparam]
  | true => cases hplain : p.isPlainEnv <;> simp [henv, hplain]

theorem foldl_receive (s : Sorting) (ps : List Parameter) : ps.foldl (receive t) s =
    { s with
      parametric := s.parametric
        ++ (ps.filter fun p => !p.isEnv).filter fun p => t.isParametric p.name p.type
      dropped := s.dropped ++ (ps.filter fun p => p.isEnv && !p.isPlainEnv).map (⟨·, .envForm⟩)
      waiting := s.waiting ++ t.merged ps
      log := s.log ++ (ps.filter fun p => p.isEnv && !p.isPlainEnv).map (.envReplaced ·.text) } := by
  induction ps generalizing s with
  | nil => simp [Tables.merged]
  | cons p ps ih =>
    have hcons : p :: ps = [p] ++ ps := rfl
    rw [List.foldl_cons, ih, receive_eq, hcons]
    simp only [Tables.merged, List.filter_append, List.map_append, List.append_assoc]

/-- What becomes of a parameter that no key has taken: it is kept, or there is a reason to leave it
out. -/
theorem settle_eq (s : Sorting) (p : Parameter) : s.settle t policy p =
    { s with
      unclassified := s.unclassified ++ [p].filter fun p => (leftoverReason t policy p).isNone
      dropped := s.dropped ++ [p].filterMap fun p => (leftoverReason t policy p).map (⟨p, ·⟩)
      log := s.log ++ [p].filterMap fun p =>
        (leftoverReason t policy p).map fun reason => Dropped.warning ⟨p, reason⟩ } := by
  unfold settle leftoverReason
  cases hghost : t.isGhost p.name p.type <;> cases policy <;> simp [hghost, Dropped.warning, DropReason.warning]

theorem foldl_settle (s : Sorting) (ps : List Parameter) : ps.foldl (settle t policy) s =
    { s with
      unclassified := s.unclassified ++ ps.filter fun p => (leftoverReason t policy p).isNone
      dropped := s.dropped ++ ps.filterMap fun p => (leftoverReason t policy p).map (⟨p, ·⟩)
      log := s.log ++ ps.filterMap fun p =>
        (leftoverReason t policy p).map fun reason => Dropped.warning ⟨p, reason⟩ } := by
  induction ps generalizing s with
  | nil => simp
  | cons p ps ih =>
    have hcons : p :: ps = [p] ++ ps := rfl
    rw [List.foldl_cons, ih, settle_eq, hcons]
    simp only [List.filter_append, List.filterMap_append, List.append_assoc]

end Sorting

section

variable (t : Tables) (policy : Policy) (ps : List Parameter)

@[simp] theorem Sorting.toGroups_run :
    (Sorting.run t policy ps).toGroups = sortParameters t policy ps := rfl

/-- What a sorting comes to, one group at a time. -/
theorem sortParameters_eq : sortParameters t policy ps =
    { parametric := (ps.filter fun p => !p.isEnv).filter fun p => t.isParametric p.name p.type
      ghost := (place t.ghost (t.merged ps)).1
      unclassified := (t.leftover ps).filter fun p => (leftoverReason t policy p).isNone
      dropped := (ps.filter fun p => p.isEnv && !p.isPlainEnv).map (⟨·, .envForm⟩)
        ++ (t.leftover ps).filterMap fun p => (leftoverReason t policy p).map (⟨p, ·⟩) } := by
  unfold sortParameters Sorting.run
  simp only [Sorting.foldl_receive, Sorting.foldl_settle, Sorting.start, List.nil_append]
  rfl

theorem ghost_sortParameters :
    (sortParameters t policy ps).ghost = (place t.ghost (t.merged ps)).1 := by
  rw [sortParameters_eq]

/-- **Sorting warns about what it leaves out**, once and in order. -/
theorem log_run : (Sorting.run t policy ps).log
    = (sortParameters t policy ps).dropped.map Dropped.warning := by
  rw [sortParameters_eq]
  unfold Sorting.run
  simp only [Sorting.foldl_receive, Sorting.foldl_settle, Sorting.start, List.nil_append,
    List.map_append, List.map_map, List.map_filterMap, Option.map_map]
  rfl

theorem leftoverReason_eq_none_iff {p : Parameter} :
    leftoverReason t policy p = none ↔ policy = .keep ∧ t.isGhost p.name p.type = false := by
  unfold leftoverReason
  cases policy
  · split <;> simp
  · simp

theorem fits_eq_false_of_isGhost {p : Parameter} (h : t.isGhost p.name p.type = false) :
    ∀ k ∈ t.ghost, k.fits p = false := by
  intro k hk
  have hk' := List.any_eq_false.1 h k hk
  simpa [Key.fits] using hk'

theorem mem_merged {p : Parameter} (hp : p ∈ t.merged ps) :
    (p ∈ ps ∧ p.isEnv = false) ∧ t.isParametric p.name p.type = false := by
  simpa only [Tables.merged, List.mem_filter, Bool.not_eq_true'] using hp

theorem mem_parametric {p : Parameter} (hp : p ∈ (sortParameters t policy ps).parametric) :
    (p ∈ ps ∧ p.isEnv = false) ∧ t.isParametric p.name p.type = true := by
  simpa only [sortParameters_eq, List.mem_filter, Bool.not_eq_true'] using hp

theorem mem_ghost {p : Parameter} (hp : p ∈ (sortParameters t policy ps).ghost) :
    (p ∈ ps ∧ p.isEnv = false) ∧ t.isParametric p.name p.type = false := by
  rw [ghost_sortParameters] at hp
  exact mem_merged t ps (mem_of_mem_place (Or.inl hp))

theorem mem_unclassified {p : Parameter} (hp : p ∈ (sortParameters t policy ps).unclassified) :
    ((p ∈ ps ∧ p.isEnv = false) ∧ t.isParametric p.name p.type = false) ∧
      leftoverReason t policy p = none := by
  rw [sortParameters_eq] at hp
  obtain ⟨hleft, hnone⟩ := List.mem_filter.1 hp
  exact ⟨mem_merged t ps (mem_of_mem_place (Or.inr hleft)), by simpa using hnone⟩

/-- What is kept was there, and is not the environment. -/
theorem mem_kept {p : Parameter} (hp : p ∈ (sortParameters t policy ps).kept) :
    p ∈ ps ∧ p.isEnv = false := by
  rcases List.mem_append.1 hp with hp | hp
  · rcases List.mem_append.1 hp with hp | hp
    · exact (mem_parametric t policy ps hp).1
    · exact (mem_ghost t policy ps hp).1
  · exact (mem_unclassified t policy ps hp).1.1

/-! ## Nothing is lost -/

theorem isEnv_of_isPlainEnv {p : Parameter} (h : p.isPlainEnv = true) : p.isEnv = true := by
  unfold Parameter.isPlainEnv at h
  exact (Bool.and_eq_true_iff.1 h).1

theorem perm_env : (ps.filter (·.isPlainEnv) ++ ps.filter fun p => p.isEnv && !p.isPlainEnv).Perm
    (ps.filter (·.isEnv)) := by
  have hplain : ∀ p : Parameter, (p.isPlainEnv && p.isEnv) = p.isPlainEnv := by
    intro p
    cases h : p.isPlainEnv with
    | false => rfl
    | true => simp [isEnv_of_isPlainEnv h]
  have h := List.filter_append_perm (·.isPlainEnv) (ps.filter (·.isEnv))
  simpa only [List.filter_filter, hplain, Bool.and_comm] using h

theorem map_parameter_dropped : (sortParameters t policy ps).dropped.map (·.parameter)
    = (ps.filter fun p => p.isEnv && !p.isPlainEnv)
      ++ (t.leftover ps).filter fun p => !(leftoverReason t policy p).isNone := by
  have hleft : ∀ qs : List Parameter,
      (qs.filterMap fun p => (leftoverReason t policy p).map (Dropped.mk p)).map (·.parameter)
        = qs.filter fun p => !(leftoverReason t policy p).isNone := by
    intro qs
    induction qs with
    | nil => rfl
    | cons q qs ih => cases h : leftoverReason t policy q <;> simpa [h] using ih
  rw [sortParameters_eq, List.map_append, List.map_map, hleft]
  simp [Function.comp_def]

/-- The parameters that are kept or dropped and the plain environment parameters are all that there
are. -/
theorem perm_sortParameters :
    ((sortParameters t policy ps).kept ++ (sortParameters t policy ps).dropped.map (·.parameter)
      ++ ps.filter (·.isPlainEnv)).Perm ps := by
  rw [map_parameter_dropped, Groups.kept, sortParameters_eq, List.perm_iff_count]
  intro p
  -- no stage of the sorting changes how often `p` occurs
  have hps := (List.filter_append_perm (·.isEnv) ps).count_eq p
  have henv := (perm_env ps).count_eq p
  have hothers := (List.filter_append_perm (fun p => t.isParametric p.name p.type)
    (ps.filter fun p => !p.isEnv)).count_eq p
  have hmerged := (perm_place t.ghost (t.merged ps)).count_eq p
  have hleft := (List.filter_append_perm (fun p => (leftoverReason t policy p).isNone)
    (t.leftover ps)).count_eq p
  rw [← Tables.merged] at hothers
  rw [← Tables.leftover] at hmerged
  simp only [List.count_append] at hps henv hothers hmerged hleft ⊢
  omega

theorem filter_isEnv_kept :
    (sortParameters t policy ps).kept.filter (fun p => !p.isEnv)
      = (sortParameters t policy ps).kept :=
  List.filter_eq_self.2 fun p hp => by simp [(mem_kept t policy ps hp).2]

/-- When nothing is dropped, all parameters but the environment are kept. -/
theorem perm_kept (h : (sortParameters t policy ps).dropped = []) :
    (sortParameters t policy ps).kept.Perm (ps.filter fun p => !p.isEnv) := by
  have hperm := (perm_sortParameters t policy ps).filter fun p => !p.isEnv
  have hplain : (ps.filter (·.isPlainEnv)).filter (fun p => !p.isEnv) = [] := by
    refine List.filter_eq_nil_iff.2 fun p hp => ?_
    simp [isEnv_of_isPlainEnv (List.mem_filter.1 hp).2]
  rw [h, List.map_nil, List.append_nil, List.filter_append, filter_isEnv_kept, hplain,
    List.append_nil] at hperm
  exact hperm

/-! ## Sorting again -/

theorem filter_isParametric_kept :
    (sortParameters t policy ps).kept.filter (fun p => t.isParametric p.name p.type)
        = (sortParameters t policy ps).parametric ∧
      (sortParameters t policy ps).kept.filter (fun p => !t.isParametric p.name p.type)
        = (sortParameters t policy ps).ghost ++ (sortParameters t policy ps).unclassified := by
  have h₁ := fun p hp => (mem_parametric t policy ps (p := p) hp).2
  have h₂ := fun p hp => (mem_ghost t policy ps (p := p) hp).2
  have h₃ := fun p hp => (mem_unclassified t policy ps (p := p) hp).1.2
  rw [Groups.kept]
  simp only [List.filter_append]
  constructor
  · rw [List.filter_eq_self.2 h₁, List.filter_eq_nil_iff.2 fun p hp => by simp [h₂ p hp],
      List.filter_eq_nil_iff.2 fun p hp => by simp [h₃ p hp], List.append_nil, List.append_nil]
  · rw [List.filter_eq_nil_iff.2 fun p hp => by simp [h₁ p hp],
      List.filter_eq_self.2 fun p hp => by simp [h₂ p hp],
      List.filter_eq_self.2 fun p hp => by simp [h₃ p hp], List.nil_append]

theorem place_kept :
    place t.ghost ((sortParameters t policy ps).ghost ++ (sortParameters t policy ps).unclassified)
      = ((sortParameters t policy ps).ghost, (sortParameters t policy ps).unclassified) := by
  rw [ghost_sortParameters]
  refine place_taken t.ghost _ fun u hu => fits_eq_false_of_isGhost t ?_
  have hnone := (mem_unclassified t policy ps hu).2
  exact ((leftoverReason_eq_none_iff t policy).1 hnone).2

/-- Sorting again what is kept, behind a plain environment parameter and under another policy, only
decides anew about the unclassified parameters. -/
theorem sortParameters_env_kept (policy' : Policy) {env : Parameter}
    (henv : env.isPlainEnv = true) :
    sortParameters t policy' (env :: (sortParameters t policy ps).kept)
      = { sortParameters t policy ps with
          unclassified := (sortParameters t policy ps).unclassified.filter
            fun p => (leftoverReason t policy' p).isNone
          dropped := (sortParameters t policy ps).unclassified.filterMap
            fun p => (leftoverReason t policy' p).map (⟨p, ·⟩) } := by
  obtain ⟨hparam, hmerged⟩ := filter_isParametric_kept t policy ps
  have hplace := place_kept t policy ps
  have hkept := fun p hp => (mem_kept t policy ps (p := p) hp).2
  have hfilter := filter_isEnv_kept t policy ps
  generalize sortParameters t policy ps = g at *
  have hreplaced : (env :: g.kept).filter (fun p => p.isEnv && !p.isPlainEnv) = [] := by
    rw [List.filter_eq_nil_iff]
    intro p hp
    rcases List.mem_cons.1 hp with rfl | hp
    · simp [henv]
    · simp [hkept p hp]
  have hothers : (env :: g.kept).filter (fun p => !p.isEnv) = g.kept := by
    rw [List.filter_cons_of_neg (by simp [isEnv_of_isPlainEnv henv]), hfilter]
  have hleftover : t.leftover (env :: g.kept) = g.unclassified := by
    rw [Tables.leftover, Tables.merged, hothers, hmerged, hplace]
  rw [sortParameters_eq, hleftover, hreplaced, hothers, hparam, Tables.merged, hothers, hmerged,
    hplace]
  rfl

/-- Sorting what is kept, behind a plain environment parameter, changes and drops nothing. -/
theorem sortParameters_kept {env : Parameter} (henv : env.isPlainEnv = true) :
    sortParameters t policy (env :: (sortParameters t policy ps).kept)
      = { sortParameters t policy ps with dropped := [] } := by
  have hnone := fun p hp => (mem_unclassified t policy ps (p := p) hp).2
  rw [sortParameters_env_kept t policy ps policy henv,
    List.filter_eq_self.2 fun p hp => by simp [hnone p hp],
    List.filterMap_eq_nil_iff.2 fun p hp => by simp [hnone p hp]]

/-- What a policy keeps is kept when everything unclassified is. -/
theorem leftoverReason_keep {p : Parameter} (h : leftoverReason t policy p = none) :
    leftoverReason t .keep p = none := by
  rw [leftoverReason_eq_none_iff] at h ⊢
  exact ⟨rfl, h.2⟩

/-- Sorting what is kept when everything unclassified is gives the groups of sorting at once. -/
theorem sortParameters_kept_of_keep {env : Parameter} (henv : env.isPlainEnv = true) :
    ∃ lost, sortParameters t policy (env :: (sortParameters t .keep ps).kept)
      = { sortParameters t policy ps with dropped := lost } := by
  have hunclassified : (sortParameters t .keep ps).unclassified.filter
        (fun p => (leftoverReason t policy p).isNone)
      = (sortParameters t policy ps).unclassified := by
    rw [sortParameters_eq, sortParameters_eq, List.filter_filter]
    refine List.filter_congr fun p _ => ?_
    cases h : leftoverReason t policy p with
    | none => simp [leftoverReason_keep t policy h]
    | some reason => rfl
  have hothers : (sortParameters t .keep ps).parametric = (sortParameters t policy ps).parametric ∧
      (sortParameters t .keep ps).ghost = (sortParameters t policy ps).ghost := by
    rw [sortParameters_eq, sortParameters_eq]
    exact ⟨rfl, rfl⟩
  rw [sortParameters_env_kept t .keep ps policy henv, hunclassified]
  dsimp only
  rw [hothers.1, hothers.2]
  exact ⟨_, rfl⟩

end

end RuleFormat
