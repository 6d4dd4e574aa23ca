import Mathlib.Data.List.Nodup
import RuleFormat.Proofs.Placement

/-!
# The order of the input

When no two parameters of a rule have the same name, the order in which they are written decides
about nothing but the order inside of the parametric and the unclassified group.  A key names the
parameters that it fits, so at most one of them can have it (`name_eq_of_fits`), and whichever keys
had their turns before, the same parameter is the first that it fits (`place_of_perm`).  In the same
way no parameter comes too late for its key (`fits_eq_false_of_leftover`), so that none is a
duplicate.

The parametric table is only asked whether it has some key for a parameter, so its order decides
about nothing at all (`sortParameters_parametric_perm`).
-/

namespace RuleFormat

variable {t : Tables} {ps qs : List Parameter} {p q : Parameter} {k : Key}

/-! ## Keys and names -/

/-- A key fits parameters of its own name only. -/
theorem name_eq_of_fits (h : k.fits p = true) : p.name = k.name := by
  rw [Key.fits, Key.accepts, Bool.and_eq_true, beq_iff_eq] at h
  exact h.1.symm

/-- Of parameters with different names, a key fits one at most. -/
theorem eq_of_fits (hnames : (ps.map (·.name)).Nodup) (hp : p ∈ ps) (hq : q ∈ ps)
    (hpk : k.fits p = true) (hqk : k.fits q = true) : p = q :=
  List.inj_on_of_nodup_map hnames hp hq ((name_eq_of_fits hpk).trans (name_eq_of_fits hqk).symm)

theorem nodup_names_sublist (hnames : (ps.map (·.name)).Nodup) (h : qs.Sublist ps) :
    (qs.map (·.name)).Nodup :=
  hnames.sublist (h.map _)

/-! ## Placing in another order -/

/-- The keys take the same parameters in whatever order these come, and leave the same. -/
theorem place_of_perm (ks : List Key) (hnames : (ps.map (·.name)).Nodup) (h : ps.Perm qs) :
    (place ks qs).1 = (place ks ps).1 ∧ (place ks qs).2.Perm (place ks ps).2 := by
  induction ks generalizing ps qs with
  | nil => exact ⟨rfl, h.symm⟩
  | cons k ks ih =>
    rcases forall_not_or_append_cons k ps with hnone | ⟨as, p, bs, rfl, hp, has⟩
    · have hnone' : ∀ q ∈ qs, k.fits q = false := fun q hq => hnone q (h.mem_iff.2 hq)
      rw [place_of_forall_not hnone, place_of_forall_not hnone']
      exact ih hnames h
    · rcases forall_not_or_append_cons k qs with hnone | ⟨cs, q, ds, rfl, hq, hcs⟩
      · have hmem : p ∈ qs := h.mem_iff.1 (by simp)
        rw [hnone p hmem] at hp
        cases hp
      · -- both orders show the key the same parameter first, as it fits no other
        obtain rfl : p = q := eq_of_fits hnames (by simp) (h.mem_iff.2 (by simp)) hp hq
        have hrest : (as ++ bs).Perm (cs ++ ds) :=
          List.perm_cons p |>.1 ((List.perm_middle.symm.trans h).trans List.perm_middle)
        have hsub : (as ++ bs).Sublist (as ++ p :: bs) := (List.sublist_cons_self p bs).append_left as
        obtain ⟨htaken, hleft⟩ := ih (nodup_names_sublist hnames hsub) hrest
        rw [place_append_cons hp has, place_append_cons hq hcs]
        exact ⟨congrArg (p :: ·) htaken, hleft⟩

/-- A parameter that no key takes has none of them. -/
theorem fits_eq_false_of_leftover (hnames : (ps.map (·.name)).Nodup) (hp : p ∈ t.leftover ps)
    (hk : k ∈ t.ghost) : k.fits p = false := by
  obtain ⟨takes, hplace, -, hleft⟩ := exists_placement t.ghost (sorted_standing t ps)
  rw [map_fst_standing] at hleft
  rw [Tables.leftover, hleft] at hp
  obtain ⟨q, hq, rfl⟩ := List.mem_map.1 hp
  obtain ⟨hq, hfree⟩ := List.mem_filter.1 hq
  by_contra hfits
  have hfits : k.fits q.1 = true := by simpa using hfits
  obtain ⟨n, hn⟩ := List.mem_iff_getElem?.1 hk
  obtain ⟨τ, hτ, rfl, hlt⟩ := hplace.exists_earlier hq (by simpa using hfree) hn hfits
  -- the key has taken a parameter at an earlier place, which must have the same name
  obtain ⟨k', p', hk', hwaits, hfits', -⟩ := hplace.first τ hτ
  obtain rfl : k = k' := Option.some.inj (hn.symm.trans hk')
  have hp' : (ps.map (·.name))[τ.place]? = some k.name := by
    rw [List.getElem?_map, getElem?_of_mem_standing hwaits.1, Option.map_some,
      name_eq_of_fits hfits']
  have hq' : (ps.map (·.name))[q.2]? = some k.name := by
    rw [List.getElem?_map, getElem?_of_mem_standing hq, Option.map_some, name_eq_of_fits hfits]
  have hlength : q.2 < (ps.map (·.name)).length := (List.getElem?_eq_some_iff.1 hq').1
  exact List.nodup_iff_getElem?_ne_getElem?.1 hnames τ.place q.2 hlt hlength (hp'.trans hq'.symm)

/-! ## Sorting in another order -/

theorem merged_perm (t : Tables) (h : ps.Perm qs) : (t.merged ps).Perm (t.merged qs) :=
  (h.filter _).filter _

theorem nodup_names_merged (t : Tables) (hnames : (ps.map (·.name)).Nodup) :
    ((t.merged ps).map (·.name)).Nodup :=
  nodup_names_sublist hnames (List.filter_sublist.trans List.filter_sublist)

/-- There is one environment parameter at most. -/
theorem length_filter_isEnv_le (hnames : (ps.map (·.name)).Nodup) {test : Parameter → Bool}
    (htest : ∀ p, test p = true → p.isEnv = true) : (ps.filter test).length ≤ 1 := by
  have hname : ∀ p ∈ ps.filter test, p.name = Parameter.envName := by
    intro p hp
    have henv := htest p (List.mem_filter.1 hp).2
    rw [Parameter.isEnv, Bool.and_eq_true, beq_iff_eq] at henv
    exact henv.1
  have hnodup := nodup_names_sublist hnames (List.filter_sublist (p := test))
  rw [List.map_congr_left hname, List.map_const'] at hnodup
  exact List.nodup_replicate.1 hnodup

/-- Parameters with different names are dropped for want of a key, if at all. -/
theorem dropped_of_nodup (t : Tables) (policy : Policy) (hnames : (ps.map (·.name)).Nodup) :
    (sortParameters t policy ps).dropped
      = (ps.filter fun p => p.isEnv && !p.isPlainEnv).map (⟨·, .envForm⟩)
        ++ if policy = .keep then [] else (t.leftover ps).map (⟨·, .unclassified⟩) := by
  have hreason : ∀ p ∈ t.leftover ps, (leftoverReason t policy p).map (Dropped.mk p)
      = if policy = .keep then none else some ⟨p, .unclassified⟩ := by
    intro p hp
    have hnone : t.ghost.any (·.fits p) = false :=
      List.any_eq_false.2 fun k hk => by simp [fits_eq_false_of_leftover hnames hp hk]
    rw [map_leftoverReason, hnone]
    rfl
  have hleft : (t.leftover ps).filterMap (fun p => (leftoverReason t policy p).map (Dropped.mk p))
      = if policy = .keep then [] else (t.leftover ps).map (⟨·, .unclassified⟩) := by
    rw [List.filterMap_congr hreason]
    by_cases hkeep : policy = .keep
    · simp [hkeep]
    · simp [hkeep]
  rw [sortParameters_eq, ← hleft]

theorem reason_of_mem_dropped {policy : Policy} (hnames : (ps.map (·.name)).Nodup) {d : Dropped}
    (hd : d ∈ (sortParameters t policy ps).dropped) :
    d.reason = .envForm ∧ d.parameter ∈ ps.filter (fun p => p.isEnv && !p.isPlainEnv) ∨
      d.reason = .unclassified ∧ policy ≠ .keep := by
  rw [dropped_of_nodup t policy hnames] at hd
  rcases List.mem_append.1 hd with hd | hd
  · obtain ⟨p, hp, rfl⟩ := List.mem_map.1 hd
    exact Or.inl ⟨rfl, hp⟩
  · by_cases hkeep : policy = .keep
    · simp [hkeep] at hd
    · rw [if_neg hkeep] at hd
      obtain ⟨p, -, rfl⟩ := List.mem_map.1 hd
      exact Or.inr ⟨rfl, hkeep⟩

/-- The groups of the same parameters in another order. -/
theorem groups_of_perm (t : Tables) (policy : Policy) (hnames : (ps.map (·.name)).Nodup)
    (h : ps.Perm qs) :
    (sortParameters t policy qs).ghost = (sortParameters t policy ps).ghost ∧
      (sortParameters t policy qs).parametric.Perm (sortParameters t policy ps).parametric ∧
      (sortParameters t policy qs).unclassified.Perm (sortParameters t policy ps).unclassified ∧
      (sortParameters t policy qs).dropped.Perm (sortParameters t policy ps).dropped := by
  obtain ⟨htaken, hleft⟩ := place_of_perm t.ghost (nodup_names_merged t hnames) (merged_perm t h)
  rw [sortParameters_eq t policy qs, sortParameters_eq t policy ps]
  refine ⟨htaken, ?_, ?_, ?_⟩
  · exact (h.symm.filter _).filter _
  · exact hleft.filter _
  · exact ((h.symm.filter _).map _).append (hleft.filterMap _)

/-- The order of the parametric table decides about nothing. -/
theorem sortParameters_parametric_perm (t : Tables) (policy : Policy) (ps : List Parameter)
    {keys : List Key} (h : keys.Perm t.parametric) :
    sortParameters { t with parametric := keys } policy ps = sortParameters t policy ps := by
  have hparametric : ∀ name type,
      Tables.isParametric { t with parametric := keys } name type = t.isParametric name type :=
    fun name type => h.any_eq
  simp only [sortParameters_eq, Tables.leftover, Tables.merged, hparametric]
  rfl

/-- **The order of the input decides about orders only.**  Of parameters with different names none
is dropped as a duplicate, and when everything unclassified is kept, only an environment parameter
that is not plain is dropped.  In another order they make the same ghost group, and the same other
groups up to order.  And whatever the parameters, the order of the parametric table decides about
nothing. -/
theorem input_order_irrelevant (t : Tables) (policy : Policy) :
    (∀ ps : List Parameter, (ps.map (·.name)).Nodup →
      (∀ d ∈ (sortParameters t policy ps).dropped, d.reason ≠ .duplicateGhost) ∧
      (policy = .keep → (sortParameters t policy ps).dropped.length ≤ 1 ∧
        ∀ d ∈ (sortParameters t policy ps).dropped, d.reason = .envForm ∧ d.parameter ∈ ps ∧
          d.parameter.isEnv = true ∧ d.parameter.isPlainEnv = false) ∧
      ∀ qs, ps.Perm qs →
        (sortParameters t policy qs).ghost = (sortParameters t policy ps).ghost ∧
        (sortParameters t policy qs).parametric.Perm (sortParameters t policy ps).parametric ∧
        (sortParameters t policy qs).unclassified.Perm (sortParameters t policy ps).unclassified ∧
        (sortParameters t policy qs).dropped.Perm (sortParameters t policy ps).dropped) ∧
    ∀ (ps : List Parameter) (keys : List Key), keys.Perm t.parametric →
      sortParameters { t with parametric := keys } policy ps = sortParameters t policy ps := by
  refine ⟨?_, fun ps keys h => sortParameters_parametric_perm t policy ps h⟩
  intro ps hnames
  refine ⟨?_, ?_, fun qs h => groups_of_perm t policy hnames h⟩
  · intro d hd
    rcases reason_of_mem_dropped hnames hd with ⟨hreason, -⟩ | ⟨hreason, -⟩
    · simp [hreason]
    · simp [hreason]
  · intro hkeep
    constructor
    · rw [dropped_of_nodup t policy hnames, if_pos hkeep, List.append_nil, List.length_map]
      exact length_filter_isEnv_le hnames fun p hp => (Bool.and_eq_true_iff.1 hp).1
    · intro d hd
      rcases reason_of_mem_dropped hnames hd with ⟨hreason, hmem⟩ | ⟨-, hdrop⟩
      · obtain ⟨hps, hform⟩ := List.mem_filter.1 hmem
        rw [Bool.and_eq_true, Bool.not_eq_true'] at hform
        exact ⟨hreason, hps, hform⟩
      · exact absurd hkeep hdrop

/-- A parameter of one byte. -/
def byteParameter (name : String) : Parameter := ⟨name.toList ++ ": u8".toList, name, "u8"⟩

/-- Parameters of all groups, with different names. -/
def mixedParameters : List Parameter :=
  [byteParameter "c", ⟨"mut e: Env", "e", "Env"⟩, byteParameter "a", byteParameter "x",
    byteParameter "b", byteParameter "d"]

/-- Tables whose keys overlap. -/
def mixedTables : Tables where
  parametric := [Tables.typed "d" "u8", ⟨"a", none⟩, Tables.typed "a" "u8"]
  ghost := [⟨"b", none⟩, Tables.typed "b" "u8", ⟨"d", none⟩, Tables.typed "c" "u8"]

theorem input_order_irrelevant_mixedParameters :
    (mixedParameters.map (·.name)).Nodup ∧ mixedParameters.Perm mixedParameters.reverse ∧
      mixedTables.parametric.reverse.Perm mixedTables.parametric ∧
      (sortParameters mixedTables .keep mixedParameters).ghost
        = [byteParameter "b", byteParameter "c"] ∧
      (sortParameters mixedTables .keep mixedParameters.reverse).ghost
        = [byteParameter "b", byteParameter "c"] ∧
      (sortParameters mixedTables .keep mixedParameters).dropped.length ≤ 1 ∧
      sortParameters { mixedTables with parametric := mixedTables.parametric.reverse } .keep
        mixedParameters = sortParameters mixedTables .keep mixedParameters := by
  have hnames : (mixedParameters.map (·.name)).Nodup := by decide
  have hperm : mixedParameters.Perm mixedParameters.reverse := mixedParameters.reverse_perm.symm
  have hkeys := mixedTables.parametric.reverse_perm
  have hghost : (sortParameters mixedTables .keep mixedParameters).ghost
      = [byteParameter "b", byteParameter "c"] := by decide
  obtain ⟨horder, hparametric⟩ := input_order_irrelevant mixedTables .keep
  obtain ⟨-, hdropped, hgroups⟩ := horder mixedParameters hnames
  exact ⟨hnames, hperm, hkeys, hghost, (hgroups _ hperm).1.trans hghost, (hdropped rfl).1,
    hparametric mixedParameters _ hkeys⟩

end RuleFormat
