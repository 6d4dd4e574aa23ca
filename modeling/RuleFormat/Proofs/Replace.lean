import RuleFormat.Proofs.Ancestors
import RuleFormat.Proofs.Disk

/-!
# Writing is all or nothing

A write to a path either succeeds, and then the content stands at the path and nothing else has
changed (`Disk.Replaced`), or it fails, tells where (`Disk.Fails`), and leaves the disk as it was.

Whether the directory of a path can be entered need not be asked apart from the path
(`Disk.Takes.find_directoryOf`): the pieces of the path go through it.  So nothing but a hindrance
keeps a file from a path that can take one.
-/

namespace RuleFormat

/-! ## The last piece of a path -/

theorem Path.joinWith_concat {ps : List Bytes} (hne : ps ≠ []) (q : Bytes) :
    joinWith [slash] (ps ++ [q]) = joinWith [slash] ps ++ slash :: q := by
  unfold joinWith
  induction ps with
  | nil => exact absurd rfl hne
  | cons p ps ih =>
    cases ps with
    | nil => simp
    | cons p' ps => simpa using ih (List.cons_ne_nil _ _)

namespace Disk

variable {d d' : Disk}

/-- The empty path leads nowhere. -/
theorem Takes.ne_nil {path : Bytes} {target : Address} (h : d.Takes path target) : path ≠ [] := by
  rintro rfl
  cases h.resolves

/-- A path that can take a file ends in a piece that names the file. -/
theorem Takes.exists_name {path : Bytes} {target : Address} (h : d.Takes path target) :
    ∃ front last, Path.pieces path = front ++ [last] ∧ last ≠ [] ∧ last ≠ [Path.dot] := by
  have hjoin := Path.joinWith_pieces path
  have hne : Path.pieces path ≠ [] := by
    rw [Path.pieces_eq_splitOn]
    exact List.splitOn_ne_nil _ _
  obtain ⟨front, last, hpieces⟩ := (List.eq_nil_or_concat _).resolve_left hne
  rw [List.concat_eq_append] at hpieces
  have hlast : last ≠ [] := by
    rintro rfl
    rw [hpieces] at hjoin
    by_cases hfront : front = []
    · exact h.ne_nil (by simpa [hfront, joinWith] using hjoin.symm)
    · -- a slash stands at the end of the path
      rw [Path.joinWith_concat hfront] at hjoin
      exact h.bare (by simp [← hjoin])
  refine ⟨front, last, hpieces, hlast, ?_⟩
  have hnamed := h.named
  rw [endsInName, hpieces, List.filter_append] at hnamed
  rintro rfl
  simp at hnamed

/-! ## The directory of a path -/

/-- Empty pieces and dots lead nowhere else. -/
theorem Leads.eq_of_skipped {l : Links} {budget : Nat} {place target : Address} {ps : List Bytes}
    (hps : ∀ p ∈ ps, p = [] ∨ p = [Path.dot]) (h : d.Leads l budget place ps target) :
    target = place := by
  induction h with
  | done => rfl
  | step _ _ _ ih =>
    rw [ih fun q hq => hps q (List.mem_cons_of_mem _ hq)]
    exact if_pos (by simpa using hps _ List.mem_cons_self)
  | jump _ hlink =>
    have hdots := (linkAt?_eq_some_iff.1 hlink).1
    exact absurd (hps _ List.mem_cons_self) (by simp only [List.isEmpty_iff] at hdots; tauto)

theorem Leads.of_skipped {place : Address} {ps : List Bytes} (henter : d.enter place = .ok ())
    (hps : ∀ p ∈ ps, p = [] ∨ p = [Path.dot]) (l : Links) (budget : Nat) :
    d.Leads l budget place ps place := by
  induction ps with
  | nil => exact .done budget place
  | cons p ps ih =>
    obtain ⟨hp, hps⟩ := List.forall_mem_cons.1 hps
    have hstep : stepTo place p = place := if_pos (by simpa using hp)
    refine .step henter (fun path hlink => ?_) (hstep.symm ▸ ih hps)
    exact absurd (linkAt?_eq_some_iff.1 hlink).1 (by simp only [List.isEmpty_iff]; tauto)

/-- The directory of a path that can take a file may be entered, because the path leads through it.
It begins at the root when the path does. -/
theorem Takes.opens_directoryOf {path : Bytes} {target : Address} (h : d.Takes path target) :
    d.Opens (directoryOf path) ∧ Path.isRooted (directoryOf path) = Path.isRooted path := by
  obtain ⟨front, last, hpieces, hname⟩ := h.exists_name
  obtain ⟨kept, skipped, rfl, hskipped, hparent⟩ := Path.parent?_of_pieces hpieces hname
  obtain ⟨-, hleads⟩ := resolve_eq_ok_iff.1 h.resolves
  rw [hpieces, List.append_assoc] at hleads
  obtain ⟨place, budget, hkept, hleads⟩ := hleads.exists_of_append (by simp)
  obtain ⟨place', budget', hskip, hlast⟩ := hleads.exists_of_append (List.cons_ne_nil _ _)
  obtain rfl := hskip.eq_of_skipped hskipped
  have henter := hlast.enter_eq
  rcases hparent with ⟨rfl, hparent⟩ | ⟨hne, hparent⟩
  · -- the path has one part, and its directory is the one where paths begin
    obtain rfl := hkept.eq_of_skipped (by simp)
    have hdirectoryOf : directoryOf path = if Path.isRooted path then [Path.slash] else [Path.dot] := by
      rw [directoryOf, hparent]
      cases Path.isRooted path <;> rfl
    have hroot : Path.isRooted (directoryOf path) = Path.isRooted path := by
      rw [hdirectoryOf]
      cases Path.isRooted path <;> rfl
    refine ⟨⟨_, resolve_eq_ok_iff.2 ⟨?_, ?_⟩, henter⟩, hroot⟩
    · rw [hdirectoryOf]
      split <;> exact List.cons_ne_nil _ _
    · rw [origin, hroot]
      refine .of_skipped henter ?_ _ _
      rw [hdirectoryOf]
      split <;> decide
  · have hdirectoryOf : directoryOf path = joinWith [Path.slash] kept := by
      rw [directoryOf, hparent]
      exact if_neg (by simpa using hne)
    have hpieces' : Path.pieces (joinWith [Path.slash] kept) = kept := by
      refine Path.pieces_joinWith (by rintro rfl; exact hne rfl) fun p hp => ?_
      exact Path.slash_not_mem (t := path) (by simp [hpieces, hp])
    have hroot := Path.isRooted_of_isPrefix (Path.parent?_isPrefix hparent) hne
    rw [hdirectoryOf]
    refine ⟨⟨place', resolve_eq_ok_iff.2 ⟨hne, ?_⟩, henter⟩, hroot⟩
    rw [hpieces', origin, hroot]
    exact hkept

/-! ## Writing -/

/-- A place where no link stands. -/
def Direct (d : Disk) (place : Address) : Prop := ∀ path, d.node? place ≠ some (.link path)

/-- The disk `d'` holds a content in a file with a mode at a path, and is `d` but for that.  The mode
is that of what the path led to, or the mode of new files.

Mostly that is the file which is replaced.  But the path may lead to a link: then the link is
replaced, and the mode is that of what stands behind it. -/
structure Replaced (d : Disk) (path : Bytes) (content : Text) (target : Address) (mode : Nat)
    (d' : Disk) : Prop where
  stands : d'.node? target = some (.file mode (.text content))
  others : ∀ place, place ≠ target → d'.node? place = d.node? place
  rest : d' = { d with nodes := d'.nodes }
  mode_eq : mode = d.modeAt path
  /-- The path leads to the file, unless it goes through a link that is replaced. -/
  found : d.Direct target ∨ (d.remove target).resolve .inner path = .ok target →
    d'.find path = .ok (target, .file mode (.text content))
  kept : d.Direct target → ∀ place n, d.find path = .ok (place, n) →
    place = target ∧ ∃ old, n = .file mode old
  fresh : d.Direct target → ∀ fault, d.find path = .error fault → d.node? target = none

/-- A file opens and closes no ways that are not closed without it. -/
theorem sameWays_remove_put {place : Address} (hplace : place ≠ []) (mode : Nat)
    (content : Content) : SameWays (d.remove place) (d.put place (.file mode content)) where
  current := rfl
  denied := rfl
  directories place' := by
    rw [node?_put hplace, node?_remove hplace]
    split <;> simp
  links place' path := by
    rw [node?_put hplace, node?_remove hplace]
    split <;> simp

/-- A path that can take a file leads to what is replaced, if this is no link. -/
theorem Takes.find_eq_ok_iff {path : Bytes} {target place : Address} {n : Node}
    (h : d.Takes path target) (hdirect : d.Direct target) :
    d.find path = .ok (place, n) ↔ place = target ∧ d.node? target = some n := by
  obtain ⟨hpath, hleads⟩ := resolve_eq_ok_iff.1 h.resolves
  have hresolve := resolve_eq_ok_iff.2 ⟨hpath, hleads.all_of_inner hdirect⟩
  rw [Disk.find_eq_ok_iff, hresolve, Except.ok.injEq, eq_comm]
  constructor
  · rintro ⟨rfl, hnode⟩
    exact ⟨rfl, hnode⟩
  · rintro ⟨rfl, hnode⟩
    exact ⟨rfl, hnode⟩

theorem Takes.replaced {path : Bytes} {target : Address} (h : d.Takes path target)
    (content : Text) :
    d.Replaced path content target (d.modeAt path)
      (d.put target (.file (d.modeAt path) (.text content))) := by
  have hplace := ne_nil_of_node?_ne h.free
  have hstands : ∀ mode, (d.put target (.file mode (.text content))).node? target =
      some (.file mode (.text content)) := fun mode => by rw [node?_put hplace, if_pos rfl]
  refine ⟨hstands _, fun place hne => ?_, rfl, rfl, fun hway => ?_, fun hdirect place n hfind => ?_,
    fun hdirect fault hfind => ?_⟩
  · rw [node?_put hplace, if_neg hne]
  · have hresolve : (d.put target (.file (d.modeAt path) (.text content))).resolve .inner path =
        .ok target := by
      rcases hway with hdirect | hway
      · exact (sameWays_put h.free hdirect _ _).resolve h.resolves
      · exact (sameWays_remove_put hplace _ _).resolve hway
    obtain ⟨hpath, hleads⟩ := resolve_eq_ok_iff.1 hresolve
    have hall := hleads.all_of_inner (by simp [hstands])
    exact Disk.find_eq_ok_iff.2 ⟨resolve_eq_ok_iff.2 ⟨hpath, hall⟩, hstands _⟩
  · have hmode : d.modeAt path = n.mode := by rw [modeAt, hfind]
    obtain ⟨rfl, hnode⟩ := (h.find_eq_ok_iff hdirect).1 hfind
    cases n with
    | directory => exact absurd hnode h.free
    | file mode old => exact ⟨rfl, old, by rw [hmode]; rfl⟩
    | link path' => exact absurd hnode (hdirect path')
  · cases hnode : d.node? target with
    | none => rfl
    | some n => cases hfind.symm.trans ((h.find_eq_ok_iff hdirect).2 ⟨rfl, hnode⟩)

/-- When nothing hinders a write and it is known where paths begin, it fails only at a path that can
take no file. -/
theorem Fails.not_takes {path place : Bytes} {fault : FileFault} (h : d.Fails path place fault)
    (hnone : ∀ s, d.hindrance s = none)
    (hknown : Path.isRooted path = true ∨ ∃ base, d.directory = .ok base) :
    ¬ ∃ target, d.Takes path target := by
  have hhindered : ∀ s fault, d.hindrance s ≠ some fault := by simp [hnone]
  rintro ⟨target, htakes⟩
  obtain ⟨hopens, hrooted⟩ := htakes.opens_directoryOf
  cases h with
  | unplaced hroot hdirectory =>
    rcases hknown with hknown | ⟨base, hknown⟩
    · cases hroot.symm.trans (hrooted.trans hknown)
    · cases hdirectory.symm.trans hknown
  | create _ hshuts => exact hshuts.elim (hhindered _ _) fun hnot => hnot hopens
  | fill _ hfault => exact hhindered _ _ hfault
  | mode _ hfault => exact hhindered _ _ hfault
  | move hbars => exact hbars.elim (hhindered _ _) fun hnot => hnot ⟨target, htakes⟩

/-- **A write is all or nothing.**  It succeeds, and then no step that it takes was hindered, the
path could take a file, and the content stands there with the mode of the file that it replaces, or
of a new file, and nothing else has changed.  Or it fails with the path and the fault of a step, and
leaves the disk as it was.  Nothing but a hindrance makes it fail at a path that can take a file,
when it is known where paths begin. -/
theorem write_all_or_nothing (d : Disk) (path : Bytes) (content : Text) :
    ∃ result events d',
      StateT.run (Files.write path content : Action (StateM Disk) Unit).perform d =
        ((result, events), d') ∧
      ((result = .ok () ∧ (∀ s, d.Needs path s → d.hindrance s = none) ∧
          ∃ target mode, d.Takes path target ∧ d.Replaced path content target mode d') ∨
        ∃ place fault, result = .error (.io place fault) ∧ d.Fails path place fault ∧ d' = d) ∧
      ((∀ s, d.hindrance s = none) →
        (Path.isRooted path = true ∨ ∃ base, d.directory = .ok base) →
        (∃ target, d.Takes path target) → result = .ok ()) := by
  obtain ⟨events, hrun⟩ := (d.ends_write path content).perform
  refine ⟨_, events, _, hrun, ?_⟩
  rcases d.replaceFile_cases path content with
    ⟨place, fault, hfails, hreplace⟩ | ⟨target, htakes, hnone, hreplace⟩
  · rw [hreplace]
    exact ⟨.inr ⟨place, fault, rfl, hfails, rfl⟩,
      fun hnone hknown htakes => absurd htakes (hfails.not_takes hnone hknown)⟩
  · rw [hreplace]
    exact ⟨.inl ⟨rfl, hnone, target, _, htakes, htakes.replaced content⟩, fun _ _ _ => rfl⟩

end Disk

end RuleFormat
