import Mathlib.Data.List.Nodup
import RuleFormat.Key

/-!
# What the check of tables says

The check goes through a table once and remembers the identities of the keys it has seen.  Said
without it: every key has a name, and no two keys say the same (`IsSound`).  The check accepts
exactly such tables, and else complains of the first key by which a table is not sound
(`checkKeys_eq_error_iff`).

Keys are told apart by their identities and compared with parameters by their names and types.  Both
leave white space out of types, so of the keys of an accepted table at most two have a parameter: one
that asks for its type, and one that does not (`tables_check`).
-/

namespace RuleFormat

/-! ## Sound tables -/

/-- A key has a name that can be seen. -/
def Key.IsNamed (k : Key) : Prop := ∃ c ∈ k.name, isWhite c = false

/-- The types of two keys say the same: there is none, or they differ in white space only. -/
inductive SameType : Option Text → Option Text → Prop
  | absent : SameType none none
  | present {t u : Text} : compact t = compact u → SameType (some t) (some u)

/-- Two keys say the same. -/
def Key.Same (k l : Key) : Prop := k.name = l.name ∧ SameType k.type l.type

/-- The keys of a table have names, and no two of them, at different places, say the same. -/
structure IsSound (ks : List Key) : Prop where
  named : ∀ k ∈ ks, k.IsNamed
  once : ∀ (i j : Nat) (k l : Key), ks[i]? = some k → ks[j]? = some l → k.Same l → i = j

/-- The keys of one of the tables. -/
def Tables.keys (t : Tables) : Bucket → List Key
  | .parametric => t.parametric
  | .ghost => t.ghost

theorem Key.isBlank_name_eq_false_iff {k : Key} : isBlank k.name = false ↔ k.IsNamed := by
  simp [isBlank, IsNamed]

theorem Key.identity_eq_iff {k l : Key} : k.identity = l.identity ↔ k.Same l := by
  obtain ⟨name, type⟩ := k
  obtain ⟨name', type'⟩ := l
  rw [identity, identity, Prod.mk.injEq, Same]
  refine and_congr_right fun _ => ?_
  constructor
  · intro h
    rcases type with _ | t <;> rcases type' with _ | u
    · exact .absent
    · cases h
    · cases h
    · exact .present (Option.some.inj h)
  · intro h
    cases h with
    | absent => rfl
    | present h => exact congrArg some h

/-- Identities are listed once exactly when keys that say the same stand at one place. -/
theorem nodup_identity_iff {ks : List Key} : (ks.map Key.identity).Nodup ↔
    ∀ (i j : Nat) (k l : Key), ks[i]? = some k → ks[j]? = some l → k.Same l → i = j := by
  rw [List.nodup_iff_getElem?_ne_getElem?]
  constructor
  · intro h i j k l hi hj hsame
    by_contra hne
    rcases Nat.lt_or_gt_of_ne hne with hlt | hlt
    · refine h i j hlt ?_ ?_
      · simpa using (List.getElem?_eq_some_iff.1 hj).1
      · simpa [hi, hj] using Key.identity_eq_iff.2 hsame
    · refine h j i hlt ?_ ?_
      · simpa using (List.getElem?_eq_some_iff.1 hi).1
      · simpa [hi, hj] using (Key.identity_eq_iff.2 hsame).symm
  · intro h i j hlt hj heq
    rw [List.length_map] at hj
    have hi : i < ks.length := Nat.lt_trans hlt hj
    have hsame : (ks[i]).Same ks[j] := by simpa [hi, hj, Key.identity_eq_iff] using heq
    have hij := h i j _ _ (List.getElem?_eq_getElem hi) (List.getElem?_eq_getElem hj) hsame
    exact Nat.ne_of_lt hlt hij

theorem isSound_iff {ks : List Key} :
    IsSound ks ↔ (∀ k ∈ ks, isBlank k.name = false) ∧ (ks.map Key.identity).Nodup := by
  simp only [Key.isBlank_name_eq_false_iff, nodup_identity_iff]
  exact ⟨fun h => ⟨h.named, h.once⟩, fun h => ⟨h.1, h.2⟩⟩

/-! ## The check of one table -/

variable {b : Bucket} {seen : List (Text × Option Text)}

/-- A key is refused with a fault when these identities were seen before it. -/
inductive Refused (b : Bucket) (seen : List (Text × Option Text)) (k : Key) : TableFault → Prop
  | nameless : isBlank k.name = true → Refused b seen k (.emptyName b)
  | repeated : isBlank k.name = false → k.identity ∈ seen → Refused b seen k (.repeated b k)

/-- The check refuses a key, or remembers it and goes on. -/
theorem checkKeys_cons_cases (b : Bucket) (seen : List (Text × Option Text)) (k : Key)
    (ks : List Key) :
    (∃ fault, Refused b seen k fault ∧ checkKeys b seen (k :: ks) = .error fault) ∨
      (isBlank k.name = false ∧ k.identity ∉ seen ∧
        checkKeys b seen (k :: ks) = checkKeys b (k.identity :: seen) ks) := by
  rw [checkKeys]
  cases hblank : isBlank k.name with
  | true => exact .inl ⟨_, .nameless hblank, rfl⟩
  | false =>
    rw [if_neg Bool.false_ne_true]
    by_cases hseen : k.identity ∈ seen
    · exact .inl ⟨_, .repeated hblank hseen, if_pos (List.contains_iff_mem.2 hseen)⟩
    · exact .inr ⟨rfl, hseen, if_neg fun h => hseen (List.contains_iff_mem.1 h)⟩

theorem Refused.not_fresh {k : Key} {fault : TableFault} (h : Refused b seen k fault) :
    ¬(isBlank k.name = false ∧ k.identity ∉ seen) := by
  rintro ⟨hname, hfresh⟩
  cases h with
  | nameless hblank => exact Bool.false_ne_true (hname.symm.trans hblank)
  | repeated _ hseen => exact hfresh hseen

/-- A key is refused with one fault only. -/
theorem Refused.unique {k : Key} {fault fault' : TableFault} (h : Refused b seen k fault)
    (h' : Refused b seen k fault') : fault = fault' := by
  cases h with
  | nameless hblank =>
    cases h' with
    | nameless => rfl
    | repeated hname => exact absurd (hname.symm.trans hblank) Bool.false_ne_true
  | repeated hname =>
    cases h' with
    | nameless hblank => exact absurd (hname.symm.trans hblank) Bool.false_ne_true
    | repeated => rfl

/-- Keys are accepted that have names and new identities. -/
theorem checkKeys_eq_ok_iff {ks : List Key} : checkKeys b seen ks = .ok () ↔
    (∀ k ∈ ks, isBlank k.name = false) ∧ (ks.map Key.identity).Nodup ∧
      ∀ k ∈ ks, k.identity ∉ seen := by
  induction ks generalizing seen with
  | nil => simp [checkKeys]
  | cons k ks ih =>
    rcases checkKeys_cons_cases b seen k ks with ⟨fault, hrefused, hcheck⟩ | ⟨hname, hfresh, hcheck⟩
    · rw [hcheck]
      refine iff_of_false nofun fun h => hrefused.not_fresh ?_
      exact ⟨h.1 k List.mem_cons_self, h.2.2 k List.mem_cons_self⟩
    · rw [hcheck, ih]
      simp only [List.forall_mem_cons, List.map_cons, List.nodup_cons, hname, hfresh,
        not_false_eq_true, true_and]
      simp only [List.mem_cons, not_or, List.mem_map, not_exists, not_and]
      constructor
      · rintro ⟨hnames, hnodup, hnew⟩
        exact ⟨hnames, ⟨fun l hl => (hnew l hl).1, hnodup⟩, fun l hl => (hnew l hl).2⟩
      · rintro ⟨hnames, ⟨hdistinct, hnodup⟩, hnew⟩
        exact ⟨hnames, hnodup, fun l hl => ⟨hdistinct l hl, hnew l hl⟩⟩

/-- The fault of a table is that of the first key which is refused; the keys before it are accepted,
and their identities were seen. -/
theorem checkKeys_eq_error_iff {ks : List Key} {fault : TableFault} :
    checkKeys b seen ks = .error fault ↔
      ∃ before k after, ks = before ++ k :: after ∧ checkKeys b seen before = .ok () ∧
        Refused b ((before.map Key.identity).reverse ++ seen) k fault := by
  induction ks generalizing seen with
  | nil => simp [checkKeys]
  | cons k ks ih =>
    rcases checkKeys_cons_cases b seen k ks with ⟨first, hrefused, hcheck⟩ | ⟨hname, hfresh, hcheck⟩
    · rw [hcheck]
      constructor
      · intro h
        obtain rfl := Except.error.inj h
        exact ⟨[], k, ks, rfl, rfl, hrefused⟩
      · rintro ⟨before, l, after, heq, hbefore, hl⟩
        cases before with
        | nil =>
          obtain ⟨rfl, -⟩ := List.cons.inj heq
          rw [hrefused.unique hl]
        | cons k' before =>
          obtain ⟨rfl, -⟩ := List.cons.inj heq
          -- the key that is refused would stand among those that were accepted
          have hfresh := checkKeys_eq_ok_iff.1 hbefore
          exact absurd ⟨hfresh.1 k List.mem_cons_self, hfresh.2.2 k List.mem_cons_self⟩
            hrefused.not_fresh
    · rw [hcheck, ih]
      constructor
      · rintro ⟨before, l, after, rfl, hbefore, hl⟩
        refine ⟨k :: before, l, after, rfl, ?_, by simpa using hl⟩
        simpa [checkKeys, hname, hfresh] using hbefore
      · rintro ⟨before, l, after, heq, hbefore, hl⟩
        cases before with
        | nil =>
          obtain ⟨rfl, -⟩ := List.cons.inj heq
          exact absurd ⟨hname, hfresh⟩ hl.not_fresh
        | cons k' before =>
          obtain ⟨rfl, rfl⟩ := List.cons.inj heq
          refine ⟨before, l, after, rfl, ?_, by simpa using hl⟩
          simpa [checkKeys, hname, hfresh] using hbefore

theorem checkKeys_nil_eq_ok_iff {ks : List Key} : checkKeys b [] ks = .ok () ↔ IsSound ks := by
  simp [checkKeys_eq_ok_iff, isSound_iff]

/-! ## Keys that a parameter has -/

/-- Keys of one identity stand at one place, so there is at most one of them. -/
theorem countP_le_one {ks : List Key} (h : IsSound ks) {p : Key → Bool} {i : Text × Option Text}
    (hp : ∀ k, p k = true → k.identity = i) : ks.countP p ≤ 1 := by
  have hnodup : ((ks.filter p).map Key.identity).Nodup :=
    (isSound_iff.1 h).2.sublist (List.filter_sublist.map _)
  have hall : ∀ j ∈ (ks.filter p).map Key.identity, j = i := by
    intro j hj
    obtain ⟨k, hk, rfl⟩ := List.mem_map.1 hj
    exact hp k (List.mem_filter.1 hk).2
  rw [List.eq_replicate_of_mem hall, List.nodup_replicate, List.length_map] at hnodup
  rwa [List.countP_eq_length_filter]

theorem Key.identity_of_accepts {k : Key} {name type : Text} (h : k.accepts name type = true) :
    k.identity = (name, k.type.map fun _ => compact type) := by
  obtain ⟨hname, htype⟩ := Bool.and_eq_true_iff.1 h
  rw [identity, eq_of_beq hname]
  cases hk : k.type with
  | none => rfl
  | some t =>
    rw [hk] at htype
    simpa using htype

/-! ## The check of both tables -/

theorem Tables.check_eq_ok_iff {t : Tables} : t.check = .ok () ↔ ∀ b, IsSound (t.keys b) := by
  have hboth : (∀ b, IsSound (t.keys b)) ↔ IsSound t.parametric ∧ IsSound t.ghost :=
    ⟨fun h => ⟨h .parametric, h .ghost⟩, fun h b => by cases b <;> simp only [keys, h]⟩
  rw [hboth, ← checkKeys_nil_eq_ok_iff (b := .parametric), ← checkKeys_nil_eq_ok_iff (b := .ghost),
    check]
  cases checkKeys .parametric [] t.parametric with
  | error fault => exact iff_of_false nofun fun h => nomatch h.1
  | ok u => exact (and_iff_right rfl).symm

/-- A fault of the ghost table is reported when the parametric one is sound. -/
theorem Tables.check_eq_error_iff {t : Tables} {fault : TableFault} : t.check = .error fault ↔
    ∃ b, (b = .ghost → IsSound t.parametric) ∧ checkKeys b [] (t.keys b) = .error fault := by
  have hsound : checkKeys .parametric [] t.parametric = .ok () ↔ IsSound t.parametric :=
    checkKeys_nil_eq_ok_iff
  rw [check]
  constructor
  · intro h
    cases hparam : checkKeys .parametric [] t.parametric with
    | error e =>
      rw [hparam] at h
      exact ⟨.parametric, nofun, hparam.trans h⟩
    | ok u =>
      rw [hparam] at h
      exact ⟨.ghost, fun _ => hsound.1 hparam, h⟩
  · rintro ⟨b, hfirst, hcheck⟩
    cases b with
    | parametric =>
      rw [show checkKeys .parametric [] t.parametric = .error fault from hcheck]
      rfl
    | ghost =>
      rw [hsound.2 (hfirst rfl)]
      exact hcheck

/-- A key gives reason to complain of its table, in these words, when it stands behind these. -/
inductive Complaint (b : Bucket) (before : List Key) (k : Key) : Text → Prop
  | nameless : ¬k.IsNamed →
      Complaint b before k (b.label ++ " table contains an entry with an empty name".toList)
  | repeated : k.IsNamed → (∃ l ∈ before, l.Same k) →
      Complaint b before k
        (b.label ++ " table lists ".toList ++ quoted k.text ++ " more than once".toList)

/-- A complaint is the wording of the fault with which the key is refused. -/
theorem complaint_iff {before : List Key} {k : Key} {message : Text} :
    Complaint b before k message ↔
      ∃ fault, Refused b (before.map Key.identity).reverse k fault ∧ fault.message = message := by
  have hseen : k.identity ∈ (before.map Key.identity).reverse ↔ ∃ l ∈ before, l.Same k := by
    simp only [List.mem_reverse, List.mem_map, Key.identity_eq_iff]
  constructor
  · intro h
    cases h with
    | nameless hname =>
      rw [← Key.isBlank_name_eq_false_iff, Bool.not_eq_false] at hname
      exact ⟨_, .nameless hname, rfl⟩
    | repeated hname hbefore =>
      exact ⟨_, .repeated (Key.isBlank_name_eq_false_iff.2 hname) (hseen.2 hbefore), rfl⟩
  · rintro ⟨fault, hrefused, rfl⟩
    cases hrefused with
    | nameless hblank =>
      rw [← Bool.not_eq_false, Key.isBlank_name_eq_false_iff] at hblank
      exact .nameless hblank
    | repeated hname hmem =>
      exact .repeated (Key.isBlank_name_eq_false_iff.1 hname) (hseen.1 hmem)

/-- **The check of tables is exact and bounds ambiguity.**  It accepts the tables that are sound,
and complains of the first key that gives reason to, in the parametric table before the ghost one.
Of the keys of an accepted table a parameter has at most one with a type and one without. -/
theorem tables_check (t : Tables) :
    (t.check = .ok () ↔ ∀ b, IsSound (t.keys b)) ∧
      (∀ message, t.check.mapError TableFault.message = .error message ↔
        ∃ b before k after, t.keys b = before ++ k :: after ∧ IsSound before ∧
          (b = .ghost → IsSound t.parametric) ∧ Complaint b before k message) ∧
      (t.check = .ok () → ∀ b name type,
        (t.keys b).countP (fun k => k.type.isSome && k.accepts name type) ≤ 1 ∧
          (t.keys b).countP (fun k => k.type.isNone && k.accepts name type) ≤ 1) := by
  refine ⟨t.check_eq_ok_iff, fun message => ?_, fun hcheck b name type => ?_⟩
  · have herror : t.check.mapError TableFault.message = .error message ↔
        ∃ fault, t.check = .error fault ∧ fault.message = message := by
      cases t.check <;> simp [Except.mapError]
    simp only [herror, Tables.check_eq_error_iff, checkKeys_eq_error_iff, checkKeys_nil_eq_ok_iff,
      List.append_nil, complaint_iff]
    constructor
    · rintro ⟨fault, ⟨b, hfirst, before, k, after, heq, hbefore, hrefused⟩, hmessage⟩
      exact ⟨b, before, k, after, heq, hbefore, hfirst, fault, hrefused, hmessage⟩
    · rintro ⟨b, before, k, after, heq, hbefore, hfirst, fault, hrefused, hmessage⟩
      exact ⟨fault, ⟨b, hfirst, before, k, after, heq, hbefore, hrefused⟩, hmessage⟩
  · have hsound := Tables.check_eq_ok_iff.1 hcheck b
    constructor
    · refine countP_le_one hsound (i := (name, some (compact type))) fun k hk => ?_
      obtain ⟨htype, haccepts⟩ := Bool.and_eq_true_iff.1 hk
      obtain ⟨u, hu⟩ := Option.isSome_iff_exists.1 htype
      rw [Key.identity_of_accepts haccepts, hu]
      rfl
    · refine countP_le_one hsound (i := (name, none)) fun k hk => ?_
      obtain ⟨htype, haccepts⟩ := Bool.and_eq_true_iff.1 hk
      rw [Key.identity_of_accepts haccepts, Option.isNone_iff_eq_none.1 htype]
      rfl

/-- Tables in which one name is listed without a type and with two, in one spelling each. -/
def sharedNames : Tables where
  parametric := [⟨"a", none⟩, Tables.typed "a" "Vec< u8 >", Tables.typed "a" "u8"]
  ghost := [Tables.typed "b" "Vec<u8>", ⟨"a", none⟩]

/-- The same with a key that is listed again with an ideographic space in its type. -/
def respelledType : Tables :=
  { sharedNames with
    ghost := sharedNames.ghost ++ [Tables.typed "b" "Vec<\u3000u8>", ⟨" ", none⟩] }

theorem tables_check_sharedNames :
    (sharedNames.check = .ok () ∧
      (sharedNames.keys .parametric).countP (fun k => k.type.isSome && k.accepts "a" "Vec<u8>") ≤ 1 ∧
      (sharedNames.keys .parametric).countP (·.accepts "a" "Vec<u8>") = 2) ∧
    respelledType.check.mapError TableFault.message
      = .error "ghost table lists `b: Vec<\u3000u8>` more than once".toList := by
  have hcheck : sharedNames.check = .ok () := by decide
  refine ⟨⟨hcheck, ((tables_check sharedNames).2.2 hcheck .parametric _ _).1, by decide⟩, ?_⟩
  refine ((tables_check respelledType).2.1 _).2 ⟨.ghost, sharedNames.ghost, _, _, rfl,
    ?_, fun _ => ?_, .repeated ⟨'b', by decide, by decide⟩ ?_⟩
  · exact Tables.check_eq_ok_iff.1 hcheck .ghost
  · exact Tables.check_eq_ok_iff.1 hcheck .parametric
  · exact ⟨Tables.typed "b" "Vec<u8>", by decide, rfl, .present (by decide)⟩

end RuleFormat
