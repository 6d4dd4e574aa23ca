import RuleFormat.Proofs.Ancestors
import RuleFormat.Proofs.Disk

/-!
# What the search for a configuration finds and says

The search goes up from a directory and takes the first configuration that a directory offers
(`Disk.Finds`).  Files that are missing, cannot be read, or are refused are passed over alike, so
what it finds depends on nothing but the first texts it reads (`discovery_nearest`).

What it says on the way is known from the same texts (`runs_discover`).  For a file that is refused
it announces the default configuration, and then it goes on all the same: the announcement is right
exactly when nothing else is found above that file (`refusal_warnings`), and wrong on a disk as small
as `nestedConfigs`.
-/

namespace RuleFormat

namespace Disk

variable {d d' : Disk} {start : Bytes}

/-! ## Offers -/

/-- A directory offers a configuration: its file can be read as a text, and the text is right. -/
def Offers (d : Disk) (dir : Bytes) (c : Config) : Prop :=
  ∃ content, d.readText (Path.join dir configName) = .ok content ∧ Config.read content = .ok c

/-- The configuration that a directory offers, if there is one. -/
def offer? (d : Disk) (dir : Bytes) : Option Config :=
  Config.usable? d.text? (Path.join dir configName)

theorem text?_eq_some {path : Bytes} {content : Text} :
    d.text? path = some content ↔ d.readText path = .ok content := by
  unfold text?
  cases d.readText path <;> simp [Except.toOption]

theorem offer?_eq_some_iff {dir : Bytes} {c : Config} : d.offer? dir = some c ↔ d.Offers dir c := by
  unfold offer? Config.usable? Offers
  rw [Option.bind_eq_some_iff]
  refine exists_congr fun content => and_congr text?_eq_some ?_
  cases Config.read content <;> simp [Except.toOption]

theorem offer?_eq_none_iff {dir : Bytes} : d.offer? dir = none ↔ ∀ c, ¬d.Offers dir c := by
  simp only [← offer?_eq_some_iff, Option.eq_none_iff_forall_ne_some, ne_eq]

/-- What a search comes to that begins so many parents above a directory: the configuration of the
nearest directory that offers one, less than ten parents up, and else the default one. -/
inductive Finds (d : Disk) (start : Bytes) (first : Nat) : Config → Prop
  | offered {n : Nat} {dir : Bytes} {c : Config} : first ≤ n → n < 10 →
      Path.climb n start = some dir → d.Offers dir c →
      (∀ m dir' c', first ≤ m → m < n → Path.climb m start = some dir' → ¬d.Offers dir' c') →
      Finds d start first c
  | default : (∀ n dir c, first ≤ n → n < 10 → Path.climb n start = some dir → ¬d.Offers dir c) →
      Finds d start first {}

/-- Where nothing is offered the default configuration is found. -/
theorem Finds.eq_default {first : Nat} {c : Config} (h : d.Finds start first c)
    (hnone : ∀ n dir c', first ≤ n → n < 10 → Path.climb n start = some dir →
      ¬d.Offers dir c') : c = {} := by
  cases h with
  | offered hfirst hn hclimb hoffers _ => exact absurd hoffers (hnone _ _ _ hfirst hn hclimb)
  | default => rfl

theorem getElem?_drop_ancestors (first k : Nat) (start : Bytes) :
    ((Path.ancestors Config.searchDepth start).drop first)[k]? =
      if first + k < 10 then Path.climb (first + k) start else none := by
  rw [List.getElem?_drop]
  exact Path.getElem?_ancestors 10 (first + k) start

/-- The first offer among the ancestors from one on is what a search finds that begins there. -/
theorem finds_findSome? (d : Disk) (start : Bytes) (first : Nat) :
    d.Finds start first
      ((((Path.ancestors Config.searchDepth start).drop first).findSome? d.offer?).getD {}) := by
  have hplace := fun k => getElem?_drop_ancestors first k start
  cases hfind : ((Path.ancestors Config.searchDepth start).drop first).findSome? d.offer? with
  | none =>
    refine .default fun n dir c hfirst hn hclimb => ?_
    obtain ⟨k, rfl⟩ := Nat.exists_eq_add_of_le hfirst
    have hk := hplace k
    rw [if_pos hn, hclimb] at hk
    exact offer?_eq_none_iff.1
      (List.findSome?_eq_none_iff.1 hfind dir (List.mem_of_getElem? hk)) c
  | some c =>
    obtain ⟨before, dir, after, hsplit, hoffer, hbefore⟩ := List.findSome?_eq_some_iff.1 hfind
    rw [hsplit] at hplace
    have hdir := hplace before.length
    rw [List.getElem?_append_right le_rfl, Nat.sub_self, List.getElem?_cons_zero] at hdir
    split_ifs at hdir with hn
    refine .offered (Nat.le_add_right ..) hn hdir.symm (offer?_eq_some_iff.1 hoffer) ?_
    intro m dir' c' hfirst hm hclimb
    obtain ⟨k, rfl⟩ := Nat.exists_eq_add_of_le hfirst
    have hk := hplace k
    rw [if_pos (by omega), hclimb, List.getElem?_append_left (by omega)] at hk
    exact offer?_eq_none_iff.1 (hbefore dir' (List.mem_of_getElem? hk)) c'

/-! ## What is found -/

/-- The search from a directory returns a configuration and leaves the disk alone. -/
def Discovers (d : Disk) (start : Bytes) (c : Config) : Prop :=
  ∃ events, StateT.run (Config.discover start : Action (StateM Disk) Config).perform d
    = ((.ok c, events), d)

theorem discovers_nearest (d : Disk) (start : Bytes) :
    d.Discovers start (Config.nearest d.text? start) :=
  (ends_discover d.holds start).perform

theorem discovers_iff {c : Config} :
    d.Discovers start c ↔ c = Config.nearest d.text? start := by
  constructor
  · rintro ⟨events, hrun⟩
    obtain ⟨events', hrun'⟩ := d.discovers_nearest start
    rw [hrun', Prod.mk.injEq, Prod.mk.injEq, Except.ok.injEq] at hrun
    exact hrun.1.1.symm
  · rintro rfl
    exact d.discovers_nearest start

theorem nearest_eq (d : Disk) (start : Bytes) : Config.nearest d.text? start =
    ((Path.ancestors Config.searchDepth start).findSome? d.offer?).getD {} := rfl

theorem findSome?_congr_of_forall_mem {α β : Type} {f g : α → Option β} {l : List α}
    (h : ∀ a ∈ l, f a = g a) : l.findSome? f = l.findSome? g := by
  induction l with
  | nil => rfl
  | cons a l ih =>
    rw [List.findSome?_cons, List.findSome?_cons, h a List.mem_cons_self,
      ih fun b hb => h b (List.mem_cons_of_mem _ hb)]

/-- The search looks no further than to its depth, and no further than to the first offer. -/
theorem nearest_congr {k : Nat}
    (hk : 10 ≤ k ∨ ∃ dir ∈ Path.ancestors k start, ∃ c, d.Offers dir c)
    (hsame : ∀ dir ∈ Path.ancestors k start,
      d'.text? (Path.join dir configName) = d.text? (Path.join dir configName)) :
    Config.nearest d'.text? start = Config.nearest d.text? start := by
  have hoffer : ∀ dir ∈ Path.ancestors k start, d'.offer? dir = d.offer? dir := by
    intro dir hdir
    unfold offer? Config.usable?
    rw [hsame dir hdir]
  rw [nearest_eq, nearest_eq]
  rcases Nat.le_total Config.searchDepth k with hle | hle
  · rw [findSome?_congr_of_forall_mem fun dir hdir =>
      hoffer dir ((Path.ancestors_isPrefix hle start).subset hdir)]
  · -- the offer stands among the directories on which the disks agree
    obtain ⟨rest, hrest⟩ := Path.ancestors_isPrefix hle start
    have hsome : ((Path.ancestors k start).findSome? d.offer?).isSome ∨ rest = [] := by
      rcases hk with hk | ⟨dir, hdir, c, hc⟩
      · have hlength := congrArg List.length hrest
        rw [Nat.le_antisymm hle hk, List.length_append] at hlength
        exact .inr (List.length_eq_zero_iff.1 (by omega))
      · exact .inl (List.findSome?_isSome_iff.2 ⟨dir, hdir, by rw [offer?_eq_some_iff.2 hc]; rfl⟩)
    rw [← hrest, List.findSome?_append, List.findSome?_append, findSome?_congr_of_forall_mem hoffer]
    rcases hsome with hsome | rfl
    · obtain ⟨c, hc⟩ := Option.isSome_iff_exists.1 hsome
      rw [hc]
      rfl
    · rfl

/-- **The search picks the nearest configuration that can be used.**  The directories that it goes
through are the start and its parents: as many as there are, up to the depth, each spelling the
location of the one before without its last part.  It returns what the first of them offers, or the
default configuration, and disks that hold the same texts in these directories, up to an offer, give
the same. -/
theorem discovery_nearest (d : Disk) (start : Bytes) :
    ((∀ n, (Path.climb n start).isSome ↔ n ≤ (Path.location start).parts.length) ∧
      (∀ n p, Path.climb n start = some p → p <+: start ∧
        Path.location p = ⟨Path.isRooted start,
          (Path.location start).parts.take ((Path.location start).parts.length - n)⟩) ∧
      ∀ depth,
        (∀ n, (Path.ancestors depth start)[n]? =
          if n < depth then Path.climb n start else none) ∧
        (Path.ancestors depth start).length
          = min depth ((Path.location start).parts.length + 1) ∧
        ∀ depth', depth ≤ depth' → Path.ancestors depth start <+: Path.ancestors depth' start) ∧
    (∃ c, d.Discovers start c ∧ d.Finds start 0 c) ∧
    ∀ (d' : Disk) (k : Nat),
      (10 ≤ k ∨ ∃ dir ∈ Path.ancestors k start, ∃ c, d.Offers dir c) →
      (∀ dir ∈ Path.ancestors k start,
        d'.text? (Path.join dir configName) = d.text? (Path.join dir configName)) →
      ∀ c, d'.Discovers start c ↔ d.Discovers start c := by
  refine ⟨⟨fun n => Path.isSome_climb_iff, fun n p => Path.location_climb, fun depth =>
    ⟨fun n => Path.getElem?_ancestors depth n start, Path.length_ancestors depth start,
      fun depth' h => Path.ancestors_isPrefix h start⟩⟩, ?_, ?_⟩
  · refine ⟨_, d.discovers_nearest start, ?_⟩
    have hfinds := d.finds_findSome? start 0
    rwa [List.drop_zero] at hfinds
  · intro d' k hk hsame c
    rw [discovers_iff, discovers_iff, nearest_congr hk hsame]

/-! ## What is said -/

/-- What the search says about the configuration file of a directory. -/
def fileEvents (d : Disk) (dir : Bytes) : List Event :=
  match d.readText (Path.join dir configName) with
  | .error fault =>
    Config.unreadableEvents (Path.join dir configName) (.io (Path.join dir configName) fault)
  | .ok content =>
    match Config.read content with
    | .error fault => [.configRefused (Path.join dir configName) fault.message]
    | .ok _ => [.configLoaded (Path.join dir configName)]

/-- What the search says about the files of some directories, up to one that it takes. -/
def searchEvents (d : Disk) : List Bytes → List Event
  | [] => [.configMissing Config.searchDepth]
  | dir :: dirs =>
    d.fileEvents dir ++
      match d.offer? dir with
      | some _ => []
      | none => d.searchEvents dirs

theorem runs_read (d : Disk) (path : Bytes) (log : List Event) :
    (Files.read path : Action (StateM Disk) Text).Runs log d (onPath path (d.readText path)) log d := by
  have hget : (getThe Disk : Action (StateM Disk) Disk).Runs log d (.ok d) log d := rfl
  refine hget.bind_ok ?_
  cases d.readText path <;> rfl

theorem runs_tryLoad (d : Disk) (dir : Bytes) (log : List Event) :
    (Config.tryLoad (Path.join dir configName) : Action (StateM Disk) (Option Config)).Runs log d
      (.ok (d.offer? dir)) (log ++ d.fileEvents dir) d := by
  have hread := d.runs_read (Path.join dir configName) log
  unfold offer? Config.usable? text? fileEvents
  cases htext : d.readText (Path.join dir configName) with
  | error fault =>
    rw [htext] at hread
    exact .bind_ok (.tryCatch_error (.bind_error hread) (.bind_ok rfl rfl)) rfl
  | ok content =>
    rw [htext] at hread
    refine .bind_ok (.tryCatch_ok (.bind_ok hread rfl)) ?_
    dsimp only [Except.toOption, Option.bind_some]
    cases Config.read content with
    | error fault => exact .bind_ok rfl rfl
    | ok c => exact .bind_ok rfl rfl

theorem runs_firstOf (d : Disk) (dirs : List Bytes) (log : List Event) :
    (Config.firstOf dirs : Action (StateM Disk) Config).Runs log d
      (.ok ((dirs.findSome? d.offer?).getD {})) (log ++ d.searchEvents dirs) d := by
  induction dirs generalizing log with
  | nil => exact .bind_ok rfl rfl
  | cons dir dirs ih =>
    refine .bind_ok (d.runs_tryLoad dir log) ?_
    rw [List.findSome?_cons, searchEvents, ← List.append_assoc]
    cases d.offer? dir with
    | some c =>
      rw [List.append_nil]
      rfl
    | none => exact ih (log ++ d.fileEvents dir)

/-- The result of a search, and what it says. -/
theorem runs_discover (d : Disk) (start : Bytes) :
    StateT.run (Config.discover start : Action (StateM Disk) Config).perform d =
      ((.ok (Config.nearest d.text? start),
        d.searchEvents (Path.ancestors Config.searchDepth start)), d) :=
  d.runs_firstOf _ []

end Disk

/-! ## Refusals -/

/-- An event warns that the default configuration is used. -/
def Event.AnnouncesDefaults (e : Event) : Prop :=
  e.level = .warn ∧ "Using defaults.".toList <:+ e.message

instance (e : Event) : Decidable e.AnnouncesDefaults := inferInstanceAs (Decidable (_ ∧ _))

theorem Event.announcesDefaults_configRefused (path : Bytes) (cause : Text) :
    (Event.configRefused path cause).AnnouncesDefaults := by
  refine ⟨rfl, ?_⟩
  have hends : "Using defaults.".toList <:+ "). Using defaults.".toList := by decide
  exact hends.trans (List.suffix_append _ _)

namespace Disk

variable {d : Disk} {start : Bytes}

/-- The faults with which a text cannot be read. -/
theorem readText_eq_error {path : Bytes} {fault : FileFault} (h : d.readText path = .error fault) :
    fault ∈ wayFaults ∨ fault = .isDirectory ∨ fault = .notText := by
  unfold readText find at h
  cases hresolve : d.resolve .all path with
  | error e =>
    rw [hresolve] at h
    obtain rfl := Except.error.inj h
    exact .inl (resolve_eq_error hresolve)
  | ok place =>
    rw [hresolve] at h
    dsimp only at h
    rcases hnode : d.node? place with _ | n <;> rw [hnode] at h <;> dsimp only at h
    · simp [wayFaults, ← Except.error.inj h]
    · split_ifs at h
      · simp [wayFaults, ← Except.error.inj h]
      · rcases n with _ | ⟨mode, _ | _⟩ | _ <;> cases h <;> simp

/-- What is said about a file that cannot be read does not announce the default configuration. -/
theorem not_announcesDefaults_of_unreadable {path : Bytes} {fault : FileFault}
    (h : d.readText path = .error fault) {e : Event}
    (he : e ∈ Config.unreadableEvents path (.io path fault)) : ¬e.AnnouncesDefaults := by
  rintro ⟨-, hends⟩
  have hmessage : fault.isMissing = false ∧ e = .configUnreadable path fault.message := by
    unfold Config.unreadableEvents Failure.source? at he
    dsimp only at he
    cases hmissing : fault.isMissing <;> simp_all
  obtain ⟨hmissing, rfl⟩ := hmessage
  have hcause : fault.message <:+ (Event.configUnreadable path fault.message).message :=
    List.suffix_append _ _
  have hnone : ∀ cause ∈ [FileFault.notDirectory, .denied, .tooManyLinks, .isDirectory, .notText],
      15 ≤ cause.message.length ∧ ¬"Using defaults.".toList <:+ cause.message := by
    decide
  have hmem : fault ∈ [FileFault.notDirectory, .denied, .tooManyLinks, .isDirectory, .notText] := by
    have hne : fault ≠ .missing := by
      rintro rfl
      cases hmissing
    have hfault := readText_eq_error h
    simp only [wayFaults, List.mem_cons, List.not_mem_nil] at hfault ⊢
    tauto
  exact (hnone fault hmem).2
    (List.suffix_of_suffix_length_le hends hcause (hnone fault hmem).1)

/-- The file of a directory can be read as a text, but is not right. -/
def Refuses (d : Disk) (dir : Bytes) (fault : ConfigFault) : Prop :=
  ∃ content, d.readText (Path.join dir configName) = .ok content ∧ Config.read content = .error fault

theorem Refuses.offer?_eq_none {dir : Bytes} {fault : ConfigFault} (h : d.Refuses dir fault) :
    d.offer? dir = none := by
  obtain ⟨content, htext, hread⟩ := h
  rw [offer?, Config.usable?, text?_eq_some.2 htext, Option.bind_some, hread]
  rfl

/-- The default configuration is announced for the files that are refused. -/
theorem mem_fileEvents_iff {dir : Bytes} {e : Event} :
    e ∈ d.fileEvents dir ∧ e.AnnouncesDefaults ↔
      ∃ fault, d.Refuses dir fault ∧
        e = .configRefused (Path.join dir configName) fault.message := by
  unfold fileEvents Refuses
  cases htext : d.readText (Path.join dir configName) with
  | error fault =>
    refine iff_of_false (fun h => not_announcesDefaults_of_unreadable htext h.1 h.2) ?_
    rintro ⟨_, ⟨_, h, _⟩, _⟩
    cases h
  | ok content =>
    dsimp only
    cases hread : Config.read content with
    | error fault =>
      constructor
      · rintro ⟨he, -⟩
        exact ⟨fault, ⟨content, rfl, hread⟩, List.mem_singleton.1 he⟩
      · rintro ⟨fault', ⟨content', hcontent, hread'⟩, rfl⟩
        obtain rfl := Except.ok.inj hcontent
        obtain rfl := Except.error.inj (hread.symm.trans hread')
        exact ⟨List.mem_singleton_self _, Event.announcesDefaults_configRefused _ _⟩
    | ok c =>
      refine iff_of_false ?_ ?_
      · rintro ⟨he, hlevel, -⟩
        rw [List.mem_singleton.1 he] at hlevel
        cases hlevel
      · rintro ⟨_, ⟨content', hcontent, hread'⟩, _⟩
        obtain rfl := Except.ok.inj hcontent
        cases hread.symm.trans hread'

theorem mem_searchEvents_iff {dirs : List Bytes} {e : Event} :
    e ∈ d.searchEvents dirs ∧ e.AnnouncesDefaults ↔
      ∃ (n : Nat) (dir : Bytes) (fault : ConfigFault), dirs[n]? = some dir ∧
        (∀ (m : Nat) (dir' : Bytes), m < n → dirs[m]? = some dir' → d.offer? dir' = none) ∧
        d.Refuses dir fault ∧ e = .configRefused (Path.join dir configName) fault.message := by
  induction dirs with
  | nil =>
    refine iff_of_false ?_ (by simp)
    rintro ⟨he, hlevel, -⟩
    rw [List.mem_singleton.1 he] at hlevel
    cases hlevel
  | cons dir dirs ih =>
    rw [searchEvents, List.mem_append, or_and_right, mem_fileEvents_iff]
    constructor
    · rintro (⟨fault, hrefuses, he⟩ | ⟨he, hannounces⟩)
      · exact ⟨0, dir, fault, rfl, nofun, hrefuses, he⟩
      · -- a directory that offers settings ends the search
        cases hoffer : d.offer? dir with
        | some c =>
          rw [hoffer] at he
          cases he
        | none =>
          rw [hoffer] at he
          obtain ⟨n, dir', fault, hn, hpassed, hrefuses⟩ := ih.1 ⟨he, hannounces⟩
          refine ⟨n + 1, dir', fault, hn, fun m dir'' hm hdir => ?_, hrefuses⟩
          cases m with
          | zero =>
            obtain rfl := Option.some.inj hdir
            exact hoffer
          | succ m => exact hpassed m dir'' (Nat.lt_of_succ_lt_succ hm) hdir
    · rintro ⟨n, dir', fault, hn, hpassed, hrefuses, he⟩
      cases n with
      | zero =>
        obtain rfl := Option.some.inj hn
        exact .inl ⟨fault, hrefuses, he⟩
      | succ n =>
        rw [hpassed 0 dir n.succ_pos rfl]
        refine .inr (ih.2 ⟨n, dir', fault, hn, fun m dir'' hm hdir => ?_, hrefuses, he⟩)
        exact hpassed (m + 1) dir'' (Nat.succ_lt_succ hm) hdir

/-- The search from a directory comes to the file that is so many parents above it, and refuses
it. -/
structure RefusedAt (d : Disk) (start : Bytes) (n : Nat) (dir : Bytes) (fault : ConfigFault) :
    Prop where
  reached : n < 10
  climbs : Path.climb n start = some dir
  passed : ∀ m dir' c, m < n → Path.climb m start = some dir' → ¬d.Offers dir' c
  refuses : d.Refuses dir fault

theorem refusedAt_iff {n : Nat} {dir : Bytes} {fault : ConfigFault} :
    d.RefusedAt start n dir fault ↔
      (Path.ancestors Config.searchDepth start)[n]? = some dir ∧
        (∀ (m : Nat) (dir' : Bytes), m < n → (Path.ancestors Config.searchDepth start)[m]? = some dir' →
          d.offer? dir' = none) ∧ d.Refuses dir fault := by
  simp only [Path.getElem?_ancestors_eq_some_iff, offer?_eq_none_iff]
  constructor
  · rintro ⟨hn, hclimb, hpassed, hrefuses⟩
    exact ⟨⟨hn, hclimb⟩, fun m dir' hm hdir c => hpassed m dir' c hm hdir.2, hrefuses⟩
  · rintro ⟨⟨hn, hclimb⟩, hpassed, hrefuses⟩
    exact ⟨hn, hclimb, fun m dir' c hm hdir => hpassed m dir' hm ⟨hm.trans hn, hdir⟩ c, hrefuses⟩

/-- When a file is refused the search is one that begins above it. -/
theorem RefusedAt.finds {n : Nat} {dir : Bytes} {fault : ConfigFault}
    (h : d.RefusedAt start n dir fault) :
    d.Finds start (n + 1) (Config.nearest d.text? start) := by
  obtain ⟨hdir, hpassed, hrefuses⟩ := refusedAt_iff.1 h
  have hnone : ((Path.ancestors Config.searchDepth start).take (n + 1)).findSome? d.offer? = none := by
    refine List.findSome?_eq_none_iff.2 fun dir' hmem => ?_
    obtain ⟨m, hm⟩ := List.mem_iff_getElem?.1 hmem
    rw [List.getElem?_take] at hm
    split_ifs at hm with hlt
    rcases Nat.lt_succ_iff_lt_or_eq.1 hlt with hlt | rfl
    · exact hpassed m dir' hlt hm
    · obtain rfl := Option.some.inj (hdir.symm.trans hm)
      exact hrefuses.offer?_eq_none
  have hnearest : Config.nearest d.text? start =
      (((Path.ancestors Config.searchDepth start).drop (n + 1)).findSome? d.offer?).getD {} := by
    rw [nearest_eq]
    nth_rewrite 1 [← List.take_append_drop (n + 1) (Path.ancestors Config.searchDepth start)]
    rw [List.findSome?_append, hnone, Option.none_or]
  rw [hnearest]
  exact d.finds_findSome? start (n + 1)

/-- **When the announcement of the default configuration is right.**  It is made for each file that
the search reads and refuses, and for no other.  What the search returns then is what is found above
that file: the default configuration if no directory there offers another. -/
theorem refusal_warnings (d : Disk) (start : Bytes) :
    ∃ c events,
      StateT.run (Config.discover start : Action (StateM Disk) Config).perform d
        = ((.ok c, events), d) ∧
      (∀ e, e ∈ events ∧ e.AnnouncesDefaults ↔
        ∃ n dir fault, d.RefusedAt start n dir fault ∧
          e = .configRefused (Path.join dir configName) fault.message) ∧
      ∀ n dir fault, d.RefusedAt start n dir fault →
        d.Finds start (n + 1) c ∧
        ((∀ m dir' c', n < m → m < 10 → Path.climb m start = some dir' →
          ¬d.Offers dir' c') → c = {}) := by
  refine ⟨_, _, d.runs_discover start, fun e => ?_, fun n dir fault hrefused => ?_⟩
  · simp only [mem_searchEvents_iff, refusedAt_iff, and_assoc]
  · exact ⟨hrefused.finds, hrefused.finds.eq_default⟩

/-- A file that is refused, in a directory below one whose file is no text. -/
def loneRefusal : Disk where
  nodes := [
    ([utf8 configName], .file 0o644 (.binary [0xC3, 0x28])),
    ([utf8 "a"], .directory),
    ([utf8 "a", utf8 configName], .file 0o644 (.text "not = [valid"))]
  current := []

theorem refusal_warnings_loneRefusal :
    loneRefusal.RefusedAt "/a" 0 "/a" .unreadable ∧ loneRefusal.Discovers "/a" {} := by
  have hrefused : loneRefusal.RefusedAt "/a" 0 "/a" .unreadable :=
    ⟨by decide, rfl, nofun, "not = [valid", by decide +kernel, by decide +kernel⟩
  obtain ⟨c, events, hrun, -, hfound⟩ := refusal_warnings loneRefusal "/a"
  have hdefault : c = {} := by
    refine (hfound 0 _ _ hrefused).2 fun m dir c' hpos _ hclimb hoffers => ?_
    -- only the root is above the directory
    have hle := Path.isSome_climb_iff.1 (Option.isSome_iff_exists.2 ⟨dir, hclimb⟩)
    obtain rfl : m = 1 := Nat.le_antisymm hle hpos
    obtain rfl : utf8 "/" = dir := Option.some.inj hclimb
    have hnone : loneRefusal.offer? "/" = none := by decide +kernel
    exact offer?_eq_none_iff.1 hnone c' hoffers
  exact ⟨hrefused, events, hdefault ▸ hrun⟩

/-- A file that is refused, in a directory below one that offers a configuration. -/
def nestedConfigs : Disk where
  nodes := [
    ([utf8 configName], .file 0o644 (.text "[layout]\nheader_indent = 3\n")),
    ([utf8 "a"], .directory),
    ([utf8 "a", utf8 configName], .file 0o644 (.text "not = [valid"))]
  current := []

theorem nestedConfigs_not_default :
    ∃ c events,
      StateT.run (Config.discover "/a" : Action (StateM Disk) Config).perform nestedConfigs
        = ((.ok c, events), nestedConfigs) ∧
      (∃ e ∈ events, e.AnnouncesDefaults) ∧ c ≠ {} := by
  refine ⟨_, _, nestedConfigs.runs_discover "/a", ?_, ?_⟩
  · decide +kernel
  · decide +kernel

end Disk

end RuleFormat
