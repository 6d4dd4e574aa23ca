import Mathlib.Data.List.Nodup
import Mathlib.Data.List.Perm.Subperm
import RuleFormat.Files.Disk
import RuleFormat.Proofs.Discovery

/-!
# Replacing files on a disk

To replace a file is all or nothing (`replaceFile_cases`): it fails and leaves the disk as it was,
or the new content stands at the place of the path, with the mode of what the path led to, and
nothing else has changed.  The temporary file is made at a place that is free, so that it can be taken out
again without a trace, and no path is followed through it, because it is no directory and no link.

`Leads` says step by step how a path is followed through links, and `follow_eq_ok_iff` that this is
what is done.
-/

namespace RuleFormat.Disk

variable {d d' : Disk}

/-! ## What stands at a place -/

theorem node?_of_ne_nil {place : Address} (h : place ≠ []) :
    d.node? place = d.nodes.lookup place := by
  cases place with
  | nil => exact absurd rfl h
  | cons => rfl

/-- Only a directory can stand at the root. -/
theorem ne_nil_of_node?_ne {place : Address} (h : d.node? place ≠ some .directory) :
    place ≠ [] := by
  rintro rfl
  exact h rfl

theorem node?_put {place : Address} (hplace : place ≠ []) (n : Node) (place' : Address) :
    (d.put place n).node? place' = if place' = place then some n else d.node? place' := by
  by_cases hnil : place' = []
  · rw [hnil, if_neg (Ne.symm hplace)]
    rfl
  · rw [node?_of_ne_nil hnil, node?_of_ne_nil hnil]
    exact Table.lookup_insert _ _ _ _

theorem node?_remove {place : Address} (hplace : place ≠ []) (place' : Address) :
    (d.remove place).node? place' = if place' = place then none else d.node? place' := by
  by_cases hnil : place' = []
  · rw [hnil, if_neg (Ne.symm hplace)]
    rfl
  · rw [node?_of_ne_nil hnil, node?_of_ne_nil hnil]
    exact Table.lookup_filter _ _ _

theorem put_put (place : Address) (m n : Node) : (d.put place m).put place n = d.put place n := by
  simp only [put, Table.insert_insert]

theorem remove_put {place : Address} (h : d.node? place = none) (n : Node) :
    (d.put place n).remove place = d := by
  have hplace : place ≠ [] := ne_nil_of_node?_ne (d := d) (by simp [h])
  rw [node?_of_ne_nil hplace] at h
  simp only [put, remove, Table.filter_insert h]

/-! ## Free places -/

theorem temporaryName_injective : Function.Injective temporaryName := by
  intro m n h
  have htext := congrArg display h
  rw [temporaryName, temporaryName, display_utf8, display_utf8] at htext
  simpa using congrArg List.length htext

/-- Places of which there are more than nodes are not all taken. -/
theorem exists_node?_eq_none {places : List Address} (hnodup : places.Nodup)
    (hne : ∀ p ∈ places, p ≠ []) (hlength : d.nodes.length < places.length) :
    ∃ p ∈ places, d.node? p = none := by
  by_contra! htaken
  have hkeys : places ⊆ d.nodes.map (·.1) := by
    intro p hp
    have hnode := Option.isSome_iff_ne_none.2 (htaken p hp)
    rw [node?_of_ne_nil (hne p hp), List.lookup_isSome_iff] at hnode
    obtain ⟨e, he, hkey⟩ := hnode
    exact List.mem_map.2 ⟨e, he, (eq_of_beq hkey).symm⟩
  have hle := (hnodup.subperm hkeys).length_le
  rw [List.length_map] at hle
  omega

/-- There is nothing at a free place. -/
theorem node?_freePlace (d : Disk) (dir : Address) : d.node? (d.freePlace dir) = none := by
  unfold freePlace
  have hfree : ∃ p ∈ (List.range (d.nodes.length + 1)).map (fun n => dir ++ [temporaryName n]),
      d.node? p = none := by
    refine exists_node?_eq_none ?_ (by simp) (by simp)
    exact List.nodup_range.map fun m n h => temporaryName_injective (by simpa using h)
  obtain ⟨p, hp⟩ := Option.isSome_iff_exists.1
    (List.find?_isSome.2 (hfree.imp fun p hp => ⟨hp.1, Option.isNone_iff_eq_none.2 hp.2⟩))
  dsimp only
  rw [hp]
  simpa using List.find?_some hp

/-! ## Following paths -/

theorem enter_eq_ok_iff {place : Address} :
    d.enter place = .ok () ↔ d.node? place = some .directory ∧ d.denied place = false := by
  unfold enter
  rcases hnode : d.node? place with _ | _ | _ | _ <;> simp

/-- The place to which a piece of a path leads from a directory. -/
def stepTo (place : Address) (p : Bytes) : Address :=
  if p.isEmpty ∨ p = [Path.dot] then place
  else if p = [Path.dot, Path.dot] then place.dropLast
  else place ++ [p]

/-- The path of the link that a piece names in a directory. -/
def linkAt? (d : Disk) (place : Address) (p : Bytes) : Option Bytes :=
  if p.isEmpty ∨ p = [Path.dot] ∨ p = [Path.dot, Path.dot] then none
  else
    match d.node? (place ++ [p]) with
    | some (.link path) => some path
    | _ => none

theorem linkAt?_eq_some_iff {place : Address} {p path : Bytes} : d.linkAt? place p = some path ↔
    ¬(p.isEmpty ∨ p = [Path.dot] ∨ p = [Path.dot, Path.dot]) ∧
      d.node? (place ++ [p]) = some (.link path) := by
  unfold linkAt?
  split_ifs with hdots
  · exact iff_of_false nofun fun h => h.1 hdots
  · rw [and_iff_right hdots]
    rcases d.node? (place ++ [p]) with _ | _ | _ | _ <;> simp

/-- A link stands where its name leads to. -/
theorem node?_of_linkAt? {place : Address} {p path : Bytes} (h : d.linkAt? place p = some path) :
    d.node? (stepTo place p) = some (.link path) := by
  obtain ⟨hdots, hnode⟩ := linkAt?_eq_some_iff.1 h
  rwa [stepTo, if_neg (by tauto), if_neg (by tauto)]

section

variable {l : Links} {jump : Address → List Bytes → Except FileFault Address} {budget : Nat}
  {place : Address} {p path : Bytes} {ps : List Bytes} (henter : d.enter place = .ok ())

include henter

/-- A piece that names no link leads to its own place, and so does one whose link is not
followed. -/
theorem followWith_of_stay
    (hstay : ∀ path, d.linkAt? place p = some path → l.follows ps = false) :
    d.followWith l jump place (p :: ps) = d.followWith l jump (stepTo place p) ps := by
  rw [followWith, henter, stepTo]
  dsimp only
  by_cases hdot : p.isEmpty ∨ p = [Path.dot]
  · rw [if_pos hdot, if_pos hdot]
  rw [if_neg hdot, if_neg hdot]
  by_cases hup : p = [Path.dot, Path.dot]
  · rw [if_pos hup, if_pos hup]
  rw [if_neg hup, if_neg hup]
  rcases hnode : d.node? (place ++ [p]) with _ | _ | _ | path
  · rfl
  · rfl
  · rfl
  · have hlast := hstay path (linkAt?_eq_some_iff.2 ⟨by tauto, hnode⟩)
    -- a link that is not followed is the end of its path
    obtain rfl : ps = [] := by simpa [Links.follows] using (Bool.or_eq_false_iff.1 hlast).2
    dsimp only
    rw [if_neg (by simp [hlast])]
    rfl

theorem followWith_of_link (hlink : d.linkAt? place p = some path)
    (hfollows : l.follows ps = true) :
    d.followWith l jump place (p :: ps) = jump (origin place path) (Path.pieces path ++ ps) := by
  obtain ⟨hdots, hnode⟩ := linkAt?_eq_some_iff.1 hlink
  rw [followWith, henter]
  dsimp only
  rw [if_neg (by tauto), if_neg (by tauto), hnode]
  exact if_pos hfollows

theorem follow_of_stay (hstay : ∀ path, d.linkAt? place p = some path → l.follows ps = false) :
    d.follow l budget place (p :: ps) = d.follow l budget (stepTo place p) ps := by
  cases budget with
  | zero => exact followWith_of_stay henter hstay
  | succ budget => exact followWith_of_stay henter hstay

end

/-- How pieces of a path lead from a place to another, through so many links at most. -/
inductive Leads (d : Disk) (l : Links) : Nat → Address → List Bytes → Address → Prop where
  | done (budget : Nat) (place : Address) : Leads d l budget place [] place
  | step {budget : Nat} {place target : Address} {p : Bytes} {ps : List Bytes}
      (henter : d.enter place = .ok ())
      (hstay : ∀ path, d.linkAt? place p = some path → l.follows ps = false)
      (h : Leads d l budget (stepTo place p) ps target) : Leads d l budget place (p :: ps) target
  | jump {budget : Nat} {place target : Address} {p path : Bytes} {ps : List Bytes}
      (henter : d.enter place = .ok ()) (hlink : d.linkAt? place p = some path)
      (hfollows : l.follows ps = true)
      (h : Leads d l budget (origin place path) (Path.pieces path ++ ps) target) :
      Leads d l (budget + 1) place (p :: ps) target

section

variable {l : Links} {budget : Nat} {place target : Address} {ps : List Bytes}

theorem Leads.follow_eq (h : d.Leads l budget place ps target) :
    d.follow l budget place ps = .ok target := by
  induction h with
  | done budget place => cases budget <;> rfl
  | step henter hstay _ ih => rw [follow_of_stay henter hstay, ih]
  | jump henter hlink hfollows _ ih => rw [follow, followWith_of_link henter hlink hfollows, ih]

/-- The faults on the way of a path. -/
def wayFaults : List FileFault := [.missing, .notDirectory, .denied, .tooManyLinks]

theorem enter_cases (d : Disk) (place : Address) :
    d.enter place = .ok () ∨ ∃ fault ∈ wayFaults, d.enter place = .error fault := by
  unfold enter
  rcases d.node? place with _ | _ | _ | _
  · exact .inr ⟨_, by simp [wayFaults], rfl⟩
  · dsimp only
    split
    · exact .inr ⟨_, by simp [wayFaults], rfl⟩
    · exact .inl rfl
  · exact .inr ⟨_, by simp [wayFaults], rfl⟩
  · exact .inr ⟨_, by simp [wayFaults], rfl⟩

/-- Pieces of a path are settled: they lead somewhere, or there is a fault on the way. -/
def Settled (d : Disk) (l : Links) (budget : Nat) (place : Address) (ps : List Bytes) : Prop :=
  (∃ target, d.Leads l budget place ps target) ∨
    ∃ fault ∈ wayFaults, d.follow l budget place ps = .error fault

/-- All pieces are settled when those are that begin with a link. -/
theorem settled_of_jump
    (hjump : ∀ place p ps path, d.enter place = .ok () → d.linkAt? place p = some path →
      l.follows ps = true → d.Settled l budget place (p :: ps)) (place : Address)
    (ps : List Bytes) : d.Settled l budget place ps := by
  induction ps generalizing place with
  | nil => exact .inl ⟨place, .done budget place⟩
  | cons p ps ih =>
    rcases d.enter_cases place with henter | ⟨fault, hfault, henter⟩
    · by_cases hstay : ∀ path, d.linkAt? place p = some path → l.follows ps = false
      · rw [Settled, follow_of_stay henter hstay]
        exact (ih (stepTo place p)).imp_left fun ⟨target, h⟩ => ⟨target, .step henter hstay h⟩
      · push Not at hstay
        obtain ⟨path, hlink, hfollows⟩ := hstay
        exact hjump place p ps path henter hlink (by simpa using hfollows)
    · exact .inr ⟨fault, hfault, by cases budget <;> rw [follow, followWith, henter]⟩

theorem settled (d : Disk) (l : Links) (budget : Nat) (place : Address) (ps : List Bytes) :
    d.Settled l budget place ps := by
  induction budget generalizing place ps with
  | zero =>
    refine settled_of_jump (fun place p ps path henter hlink hfollows => ?_) place ps
    refine .inr ⟨.tooManyLinks, by simp [wayFaults], ?_⟩
    rw [follow, followWith_of_link henter hlink hfollows]
  | succ budget ih =>
    refine settled_of_jump (fun place p ps path henter hlink hfollows => ?_) place ps
    rw [Settled, follow, followWith_of_link henter hlink hfollows]
    exact (ih _ _).imp_left fun ⟨target, h⟩ => ⟨target, .jump henter hlink hfollows h⟩

theorem follow_eq_ok_iff :
    d.follow l budget place ps = .ok target ↔ d.Leads l budget place ps target := by
  refine ⟨fun h => ?_, Leads.follow_eq⟩
  rcases d.settled l budget place ps with ⟨target', hleads⟩ | ⟨fault, -, hfault⟩
  · obtain rfl := Except.ok.inj (h.symm.trans hleads.follow_eq)
    exact hleads
  · cases h.symm.trans hfault

/-- Without a link at the end, it does not matter whether such a link is followed. -/
theorem Leads.all_of_inner (h : d.Leads .inner budget place ps target)
    (htarget : ∀ path, d.node? target ≠ some (.link path)) : d.Leads .all budget place ps target := by
  induction h with
  | done budget place => exact .done budget place
  | @step budget place target p ps henter hstay h ih =>
    refine .step henter (fun path hlink => ?_) (ih htarget)
    -- the piece would be the last, and the link the end of the path
    obtain rfl : ps = [] := by simpa [Links.follows] using hstay path hlink
    obtain rfl := Except.ok.inj ((Leads.done budget _).follow_eq.symm.trans h.follow_eq)
    exact absurd (node?_of_linkAt? hlink) (htarget path)
  | jump henter hlink _ _ ih => exact .jump henter hlink rfl (ih htarget)

/-- The pieces in front are followed first, through all links. -/
theorem Leads.exists_of_append {qs : List Bytes} (hqs : qs ≠ [])
    (h : d.Leads l budget place (ps ++ qs) target) :
    ∃ middle budget', d.Leads .all budget place ps middle ∧ d.Leads l budget' middle qs target := by
  generalize hpieces : ps ++ qs = pieces at h
  induction h generalizing ps with
  | done budget place => exact absurd (List.append_eq_nil_iff.1 hpieces).2 hqs
  | @step budget place target p pieces henter hstay h ih =>
    cases ps with
    | nil =>
      obtain rfl : qs = p :: pieces := hpieces
      exact ⟨place, budget, .done budget place, .step henter hstay h⟩
    | cons p' ps =>
      obtain ⟨rfl, rfl⟩ := List.cons.inj hpieces
      obtain ⟨middle, budget', hfront, hback⟩ := ih rfl
      refine ⟨middle, budget', .step henter (fun path hlink => ?_) hfront, hback⟩
      exact absurd (hstay path hlink) (by simp [Links.follows, hqs])
  | @jump budget place target p path pieces henter hlink hfollows h ih =>
    cases ps with
    | nil =>
      obtain rfl : qs = p :: pieces := hpieces
      exact ⟨place, _, .done _ place, .jump henter hlink hfollows h⟩
    | cons p' ps =>
      obtain ⟨rfl, rfl⟩ := List.cons.inj hpieces
      obtain ⟨middle, budget', hfront, hback⟩ := ih (List.append_assoc _ _ _)
      exact ⟨middle, budget', .jump henter hlink rfl hfront, hback⟩

/-- What is followed begins at a directory that may be entered. -/
theorem Leads.enter_eq {p : Bytes} (h : d.Leads l budget place (p :: ps) target) :
    d.enter place = .ok () := by
  cases h with
  | step henter => exact henter
  | jump henter => exact henter

end

/-- The same directories and links stand on two disks, and paths begin at the same place. -/
structure SameWays (d d' : Disk) : Prop where
  current : d'.current = d.current
  denied : d'.denied = d.denied
  directories : ∀ place, d'.node? place = some .directory ↔ d.node? place = some .directory
  links : ∀ place path, d'.node? place = some (.link path) ↔ d.node? place = some (.link path)

theorem SameWays.symm (h : SameWays d d') : SameWays d' d where
  current := h.current.symm
  denied := h.denied.symm
  directories place := (h.directories place).symm
  links place path := (h.links place path).symm

/-- A file takes the place of no directory and no link. -/
theorem sameWays_put {place : Address} (h : d.node? place ≠ some .directory)
    (hlink : ∀ path, d.node? place ≠ some (.link path)) (mode : Nat) (content : Content) :
    SameWays d (d.put place (.file mode content)) where
  current := rfl
  denied := rfl
  directories place' := by
    rw [node?_put (ne_nil_of_node?_ne h)]
    by_cases hplace : place' = place
    · simp [hplace, h]
    · rw [if_neg hplace]
  links place' path := by
    rw [node?_put (ne_nil_of_node?_ne h)]
    by_cases hplace : place' = place
    · simp [hplace, hlink]
    · rw [if_neg hplace]

theorem sameWays_put_of_free {place : Address} (h : d.node? place = none) (mode : Nat)
    (content : Content) : SameWays d (d.put place (.file mode content)) :=
  sameWays_put (by simp [h]) (by simp [h]) mode content

section

variable {l : Links} {budget : Nat} {place target : Address} {path : Bytes}

theorem SameWays.leads (h : SameWays d d') {ps : List Bytes}
    (hleads : d.Leads l budget place ps target) : d'.Leads l budget place ps target := by
  have henter' : ∀ {place}, d.enter place = .ok () → d'.enter place = .ok () := fun henter => by
    rw [enter_eq_ok_iff] at henter ⊢
    rwa [h.directories, h.denied]
  have hlinks : ∀ place p path, d'.linkAt? place p = some path ↔ d.linkAt? place p = some path :=
    fun place p path => by rw [linkAt?_eq_some_iff, linkAt?_eq_some_iff, h.links]
  induction hleads with
  | done budget place => exact .done budget place
  | step henter hstay _ ih =>
    exact .step (henter' henter) (fun path hlink => hstay path ((hlinks _ _ _).1 hlink)) ih
  | jump henter hlink hfollows _ ih =>
    exact .jump (henter' henter) ((hlinks _ _ _).2 hlink) hfollows ih

theorem resolve_eq_ok_iff : d.resolve l path = .ok target ↔
    path ≠ [] ∧ d.Leads l maxLinks (origin d.current path) (Path.pieces path) target := by
  unfold resolve
  by_cases hpath : path = []
  · simp [hpath]
  · simp [hpath, follow_eq_ok_iff]

/-- The faults with which a path leads nowhere. -/
theorem resolve_eq_error {fault : FileFault} (h : d.resolve l path = .error fault) :
    fault ∈ wayFaults := by
  unfold resolve at h
  split_ifs at h
  · simp [wayFaults, ← Except.error.inj h]
  · rcases d.settled l maxLinks (origin d.current path) (Path.pieces path) with
      ⟨target, hleads⟩ | ⟨fault', hfault, hfollow⟩
    · cases h.symm.trans hleads.follow_eq
    · rwa [Except.error.inj (h.symm.trans hfollow)]

/-- A path leads to the same place when directories and links are the same. -/
theorem SameWays.resolve (h : SameWays d d') (hresolve : d.resolve l path = .ok target) :
    d'.resolve l path = .ok target := by
  obtain ⟨hpath, hleads⟩ := resolve_eq_ok_iff.1 hresolve
  exact resolve_eq_ok_iff.2 ⟨hpath, h.current ▸ h.leads hleads⟩

theorem find_eq_ok_iff {n : Node} :
    d.find path = .ok (place, n) ↔ d.resolve .all path = .ok place ∧ d.node? place = some n := by
  unfold find
  cases d.resolve .all path with
  | error fault => simp
  | ok place' =>
    by_cases hplace : place' = place
    · rw [hplace]
      cases hnode : d.node? place <;> simp [hnode]
    · cases hnode : d.node? place' <;> simp [hnode, hplace]

end

/-! ## Moving a file -/

/-- A file can be put at a path: the path ends in a name with no slash behind it, and leads to a
place where no directory stands.  A link there is not followed. -/
structure Takes (d : Disk) (path : Bytes) (target : Address) : Prop where
  named : endsInName path = true
  bare : path.getLast? ≠ some Path.slash
  resolves : d.resolve .inner path = .ok target
  free : d.node? target ≠ some .directory

theorem SameWays.takes (h : SameWays d d') {path : Bytes} {target : Address}
    (htakes : d.Takes path target) : d'.Takes path target where
  named := htakes.named
  bare := htakes.bare
  resolves := h.resolve htakes.resolves
  free hdirectory := htakes.free ((h.directories target).1 hdirectory)

theorem unhindered_cases (d : Disk) (s : WriteStep) :
    (∃ fault, d.hindrance s = some fault ∧ d.unhindered s = .error fault) ∨
      d.hindrance s = none ∧ d.unhindered s = .ok () := by
  unfold unhindered
  cases d.hindrance s with
  | some fault => exact .inl ⟨fault, rfl, rfl⟩
  | none => exact .inr ⟨rfl, rfl⟩

/-- What keeps a file from being moved to a path: a hindrance, or the path itself. -/
def Bars (d : Disk) (path : Bytes) (fault : FileFault) : Prop :=
  d.hindrance .move = some fault ∨ ¬ ∃ target, d.Takes path target

/-- A move puts what stands at one place at the place of a path, unless something bars it. -/
theorem move_cases {source : Address} {n : Node} (hsource : d.node? source = some n)
    (path : Bytes) :
    (∃ fault, d.Bars path fault ∧ d.move source path = .error fault) ∨
      ∃ target, d.hindrance .move = none ∧ d.Takes path target ∧
        d.move source path = .ok ((d.remove source).put target n) := by
  unfold move
  rcases d.unhindered_cases .move with ⟨fault, hfault, hmove⟩ | ⟨hnone, hmove⟩
  · exact .inl ⟨fault, .inl hfault, by rw [hmove]; rfl⟩
  rw [hmove]
  -- the checks are made in this order: a slash at the end, the path, its last name, the target
  by_cases hslash : endsInName path = true ∧ path.getLast? = some Path.slash
  · refine .inl ⟨.notDirectory, .inr ?_, by simp only [hslash]; rfl⟩
    rintro ⟨target, htakes⟩
    exact htakes.bare hslash.2
  cases hresolve : d.resolve .inner path with
  | error fault =>
    refine .inl ⟨fault, .inr ?_, by simp only [hslash]; rfl⟩
    rintro ⟨target, htakes⟩
    cases hresolve.symm.trans htakes.resolves
  | ok target =>
    cases hname : endsInName path with
    | false =>
      refine .inl ⟨.busy, .inr ?_, by simp; rfl⟩
      rintro ⟨target, htakes⟩
      cases hname.symm.trans htakes.named
    | true =>
      have hbare : path.getLast? ≠ some Path.slash := fun h => hslash ⟨hname, h⟩
      by_cases htarget : d.node? target = some .directory
      · refine .inl ⟨.isDirectory, .inr ?_, ?_⟩
        · rintro ⟨target', htakes⟩
          obtain rfl := Except.ok.inj (hresolve.symm.trans htakes.resolves)
          exact htakes.free htarget
        · simp [hbare, hsource, htarget, bind, Except.bind]
          rfl
      · refine .inr ⟨target, hnone, ⟨hname, hbare, hresolve, htarget⟩, ?_⟩
        rcases hnode : d.node? target with _ | _ | _ | _
        · simp [hbare, hsource, hnode, bind, Except.bind, pure, Except.pure]
        · exact absurd hnode htarget
        · simp [hbare, hsource, hnode, bind, Except.bind, pure, Except.pure]
        · simp [hbare, hsource, hnode, bind, Except.bind, pure, Except.pure]

/-- The mode that a file gets which is put at a path: that of what the path leads to. -/
def modeAt (d : Disk) (path : Bytes) : Nat :=
  match d.find path with
  | .ok (_, n) => n.mode
  | .error _ => newMode

/-! ## Replacing a file -/

/-- A path leads to a directory that may be entered. -/
def Opens (d : Disk) (dir : Bytes) : Prop :=
  ∃ place, d.resolve .all dir = .ok place ∧ d.enter place = .ok ()

/-- What keeps a temporary file from being made at a path: a hindrance, or no directory there that
may be entered. -/
def Shuts (d : Disk) (dir : Bytes) (fault : FileFault) : Prop :=
  d.hindrance .create = some fault ∨ ¬d.Opens dir

theorem enterPath_cases (d : Disk) (dir : Bytes) :
    (∃ fault, d.Shuts dir fault ∧ d.enterPath dir = .error fault) ∨
      ∃ place, d.hindrance .create = none ∧ d.enterPath dir = .ok place := by
  unfold enterPath
  cases hresolve : d.resolve .all dir with
  | error fault =>
    refine .inl ⟨fault, .inr ?_, rfl⟩
    rintro ⟨place, hplace, -⟩
    cases hresolve.symm.trans hplace
  | ok place =>
    cases henter : d.enter place with
    | error fault =>
      refine .inl ⟨fault, .inr ?_, by simp only [bind, Except.bind, henter]⟩
      rintro ⟨place', hplace, henter'⟩
      obtain rfl := Except.ok.inj (hresolve.symm.trans hplace)
      cases henter.symm.trans henter'
    | ok u =>
      rcases d.unhindered_cases .create with ⟨fault, hfault, hcreate⟩ | ⟨hnone, hcreate⟩
      · exact .inl ⟨fault, .inl hfault, by simp only [bind, Except.bind, henter, hcreate]⟩
      · exact .inr ⟨place, hnone, by simp only [bind, Except.bind, henter, hcreate]; rfl⟩

/-- A temporary file has a path unless that depends on where paths begin, and this is unknown. -/
theorem temporaryPath_cases (d : Disk) (dir : Bytes) :
    (∃ fault, Path.isRooted dir = false ∧ d.directory = .error fault ∧
        d.temporaryPath dir = .error fault) ∨
      ∃ temporary, d.temporaryPath dir = .ok temporary := by
  unfold temporaryPath
  cases hroot : Path.isRooted dir with
  | true => exact .inr ⟨_, rfl⟩
  | false =>
    cases hdirectory : d.directory with
    | error fault => exact .inl ⟨fault, rfl, rfl, rfl⟩
    | ok base => exact .inr ⟨_, rfl⟩

/-- What makes a write to a path fail, with the path and the fault that are told.  It is the
directory of the path, which has no path from the root on or in which no temporary file can be made,
or the temporary file, which cannot be filled or given its mode, or the path itself, to which the
file cannot be moved. -/
inductive Fails (d : Disk) (path : Bytes) : Bytes → FileFault → Prop where
  | unplaced {fault : FileFault} (hroot : Path.isRooted (directoryOf path) = false)
      (h : d.directory = .error fault) : Fails d path (directoryOf path) fault
  | create {temporary : Bytes} {fault : FileFault}
      (htemporary : d.temporaryPath (directoryOf path) = .ok temporary)
      (h : d.Shuts (directoryOf path) fault) :
      Fails d path (directoryOf path) (.temporary fault temporary)
  | fill {temporary : Bytes} {fault : FileFault}
      (htemporary : d.temporaryPath (directoryOf path) = .ok temporary)
      (h : d.hindrance .fill = some fault) : Fails d path temporary fault
  | mode {temporary : Bytes} {fault : FileFault}
      (htemporary : d.temporaryPath (directoryOf path) = .ok temporary)
      (h : d.hindrance .mode = some fault) : Fails d path temporary fault
  | move {fault : FileFault} (h : d.Bars path fault) : Fails d path path fault

/-- The steps that a write to a path takes.  The mode is set only when the path leads to something. -/
def Needs (d : Disk) (path : Bytes) (s : WriteStep) : Prop :=
  s = .mode → ∃ found, d.find path = .ok found

section

variable {source : Address} (hfree : d.node? source = none)

include hfree

/-- A temporary file at a free place is moved as if it had been put at the place of the path at
once. -/
theorem move_put_cases (mode : Nat) (content : Text) (path : Bytes) :
    (∃ fault, d.Bars path fault ∧
        (d.put source (.file mode (.text content))).move source path = .error fault) ∨
      ∃ target, d.hindrance .move = none ∧ d.Takes path target ∧
        (d.put source (.file mode (.text content))).move source path =
          .ok (d.put target (.file mode (.text content))) := by
  have hsource : d.node? source ≠ some .directory := by simp [hfree]
  have hsame := sameWays_put_of_free hfree mode (.text content)
  have hput : (d.put source (.file mode (.text content))).node? source =
      some (.file mode (.text content)) := by
    rw [node?_put (ne_nil_of_node?_ne hsource), if_pos rfl]
  rcases move_cases hput path with ⟨fault, hbars, hmove⟩ | ⟨target, hnone, htakes, hmove⟩
  · refine .inl ⟨fault, hbars.imp id fun hnot => ?_, hmove⟩
    rintro ⟨target, htakes⟩
    exact hnot ⟨target, hsame.takes htakes⟩
  · refine .inr ⟨target, hnone, hsame.symm.takes htakes, ?_⟩
    rw [hmove, remove_put hfree]

/-- What a path leads to is not hidden by a temporary file. -/
theorem find_put {path : Bytes} {place : Address} {n : Node} (h : d.find path = .ok (place, n))
    (mode : Nat) (content : Content) :
    (d.put source (.file mode content)).find path = .ok (place, n) := by
  obtain ⟨hresolve, hnode⟩ := find_eq_ok_iff.1 h
  refine find_eq_ok_iff.2 ⟨(sameWays_put_of_free hfree mode content).resolve hresolve, ?_⟩
  rw [node?_put (ne_nil_of_node?_ne (d := d) (by simp [hfree])), if_neg, hnode]
  rintro rfl
  cases hfree.symm.trans hnode

/-- The mode that a temporary file takes over is that of what the path leads to, also when this is
the temporary file itself. -/
theorem modeAt_put (path : Bytes) (content : Content) :
    (d.put source (.file newMode content)).modeAt path = d.modeAt path := by
  unfold modeAt
  cases hfind : d.find path with
  | ok found => rw [find_put hfree hfind]
  | error fault =>
    cases hmade : (d.put source (.file newMode content)).find path with
    | error fault' => rfl
    | ok found =>
      -- what is found beside the file would have been found without it
      obtain ⟨place, n⟩ := found
      obtain ⟨hresolve, hnode⟩ := find_eq_ok_iff.1 hmade
      have hback := (sameWays_put_of_free hfree newMode content).symm.resolve hresolve
      rw [node?_put (ne_nil_of_node?_ne (d := d) (by simp [hfree]))] at hnode
      split_ifs at hnode with hplace
      · rw [← Option.some.inj hnode]
        rfl
      · cases hfind.symm.trans (find_eq_ok_iff.2 ⟨hback, hnode⟩)

/-- A temporary file that has its mode is moved to the place of the path, or the move fails.  All
steps before it were taken unhindered. -/
theorem moveFile_cases {path : Bytes}
    (hsteps : ∀ s, s ≠ .create → s ≠ .move → d.Needs path s → d.hindrance s = none)
    (content : Text) :
    (∃ place fault, d.Fails path place fault ∧
        onPath path ((d.put source (.file (d.modeAt path) (.text content))).move source path) =
          .error (.io place fault)) ∨
      ∃ target, d.Takes path target ∧
        (∀ s, s ≠ .create → d.Needs path s → d.hindrance s = none) ∧
        onPath path ((d.put source (.file (d.modeAt path) (.text content))).move source path) =
          .ok (d.put target (.file (d.modeAt path) (.text content))) := by
  rcases move_put_cases hfree (d.modeAt path) content path with
    ⟨fault, hbars, hmove⟩ | ⟨target, hnone, htakes, hmove⟩
  · exact .inl ⟨path, fault, .move hbars, by rw [hmove]; rfl⟩
  · refine .inr ⟨target, htakes, fun s hs hneeds => ?_, ?_⟩
    · by_cases hlast : s = .move
      · rw [hlast, hnone]
      · exact hsteps s hs hlast hneeds
    · rw [hmove]
      rfl

/-- A temporary file at a free place is finished, or one of the steps fails. -/
theorem finishFile_cases {path temporary : Bytes}
    (htemporary : d.temporaryPath (directoryOf path) = .ok temporary) (content : Text) :
    (∃ place fault, d.Fails path place fault ∧
        (d.put source (.file newMode (.text []))).finishFile source temporary path content =
          .error (.io place fault)) ∨
      ∃ target, d.Takes path target ∧
        (∀ s, s ≠ .create → d.Needs path s → d.hindrance s = none) ∧
        (d.put source (.file newMode (.text []))).finishFile source temporary path content =
          .ok (d.put target (.file (d.modeAt path) (.text content))) := by
  have hmodeAt := modeAt_put hfree path (.text [])
  unfold finishFile
  generalize hmade : d.put source (.file newMode (.text [])) = made at hmodeAt
  have hhindered : ∀ s, made.unhindered s = d.unhindered s := fun s => by rw [← hmade]; rfl
  have hput : ∀ n, made.put source n = d.put source n := fun n => by rw [← hmade, put_put]
  rw [hhindered, hhindered]
  rcases d.unhindered_cases .fill with ⟨fault, hfault, hfill⟩ | ⟨hfill', hfill⟩
  · exact .inl ⟨_, fault, .fill htemporary hfault, by rw [hfill]; rfl⟩
  rw [hfill]
  rw [modeAt] at hmodeAt
  cases hfind : made.find path with
  | error fault =>
    rw [hfind] at hmodeAt
    dsimp only at hmodeAt ⊢
    rw [hput, hmodeAt]
    refine moveFile_cases hfree (fun s hcreate hmove hneeds => ?_) content
    cases s with
    | create => exact absurd rfl hcreate
    | fill => exact hfill'
    | mode =>
      -- what stands at the path would have been found beside the temporary file
      obtain ⟨found, hfound⟩ := hneeds rfl
      have hfound' := find_put hfree hfound newMode (.text [])
      rw [hmade, hfind] at hfound'
      cases hfound'
    | move => exact absurd rfl hmove
  | ok found =>
    rw [hfind] at hmodeAt
    dsimp only at hmodeAt ⊢
    rw [hput, hmodeAt]
    rcases d.unhindered_cases .mode with ⟨fault, hfault, hmode⟩ | ⟨hmode', hmode⟩
    · exact .inl ⟨_, fault, .mode htemporary hfault, by rw [hmode]; rfl⟩
    rw [hmode]
    refine moveFile_cases hfree (fun s hcreate hmove _ => ?_) content
    cases s with
    | create => exact absurd rfl hcreate
    | fill => exact hfill'
    | mode => exact hmode'
    | move => exact absurd rfl hmove

end

/-- **To replace a file is all or nothing.**  It fails and leaves the disk as it was, or the content
stands at the place of the path, with the mode of what the path led to. -/
theorem replaceFile_cases (d : Disk) (path : Bytes) (content : Text) :
    (∃ place fault, d.Fails path place fault ∧
        d.replaceFile path content = (.error (.io place fault), d)) ∨
      ∃ target, d.Takes path target ∧ (∀ s, d.Needs path s → d.hindrance s = none) ∧
        d.replaceFile path content =
          (.ok (), d.put target (.file (d.modeAt path) (.text content))) := by
  unfold replaceFile
  dsimp only
  rcases d.temporaryPath_cases (directoryOf path) with
    ⟨fault, hroot, hdirectory, htemporary⟩ | ⟨temporary, htemporary⟩
  · exact .inl ⟨_, fault, .unplaced hroot hdirectory, by rw [htemporary]⟩
  rw [htemporary]
  dsimp only
  rcases d.enterPath_cases (directoryOf path) with ⟨fault, hshuts, henter⟩ | ⟨dir, hcreate, henter⟩
  · exact .inl ⟨_, _, .create htemporary hshuts, by rw [henter]⟩
  rw [henter]
  dsimp only
  have hfree := d.node?_freePlace dir
  rcases finishFile_cases hfree htemporary content with
    ⟨place, fault, hfails, hfinish⟩ | ⟨target, htakes, hnone, hfinish⟩
  · exact .inl ⟨place, fault, hfails, by rw [hfinish, remove_put hfree]⟩
  · refine .inr ⟨target, htakes, ?_, by rw [hfinish]⟩
    intro s hneeds
    by_cases hs : s = .create
    · rw [hs, hcreate]
    · exact hnone s hs hneeds

/-! ## Reading -/

/-- The text of a file, if it can be read. -/
def text? (d : Disk) (path : Bytes) : Option Text := (d.readText path).toOption

/-- A text that can be read stands in a file to which its path leads, and which may be read. -/
theorem text?_eq_some_iff {path : Bytes} {content : Text} : d.text? path = some content ↔
    ∃ place mode, d.find path = .ok (place, .file mode (.text content)) ∧
      d.denied place = false := by
  unfold text? readText
  cases d.find path with
  | error fault => simp [Except.toOption]
  | ok found =>
    obtain ⟨place, n⟩ := found
    cases hdenied : d.denied place with
    | true => simp +contextual [hdenied, Except.toOption]
    | false =>
      rcases n with _ | ⟨mode, _ | _⟩ | _ <;> simp [hdenied, Except.toOption]

/-! ## Actions on a disk -/

theorem ends_read (d : Disk) (path : Bytes) :
    (Files.read path : Action (StateM Disk) Text).Ends d (onPath path (d.readText path)) d := by
  refine Action.Ends.get.bind_ok ?_
  cases d.readText path with
  | error fault => exact .throw _
  | ok content => exact .pure content

theorem holds (d : Disk) : Holds d d.text? := by
  intro path
  have hread := d.ends_read path
  unfold text?
  cases htext : d.readText path with
  | error fault =>
    rw [htext] at hread
    exact ⟨fault, hread⟩
  | ok content =>
    rw [htext] at hread
    exact hread

theorem ends_write (d : Disk) (path : Bytes) (content : Text) :
    (Files.write path content : Action (StateM Disk) Unit).Ends d (d.replaceFile path content).1
      (d.replaceFile path content).2 := by
  refine Action.Ends.get.bind_ok ?_
  generalize d.replaceFile path content = r
  obtain ⟨result, d'⟩ := r
  refine (Action.Ends.set d').bind_ok ?_
  cases result with
  | error failure => exact .throw failure
  | ok u => exact .note _

end RuleFormat.Disk
