import RuleFormat.Program
import RuleFormat.Proofs.Run

/-!
# The search for a configuration

`Request.configIn` says which configuration is in force for a request, given the texts that the
files hold: the one the request names, else that of the nearest directory which has one that can be
used.  `ends_resolveConfig` proves that the search comes to it over any files, without a change to
them.
-/

namespace RuleFormat

section

variable {σ : Type} [Files (StateM σ)] {s : σ}

/-- The files hold these texts: to read a path gives its text, or fails on that path and changes
nothing. -/
def Holds (s : σ) (texts : Bytes → Option Text) : Prop :=
  ∀ path, match texts path with
    | some content => (Files.read path : Action (StateM σ) Text).Ends s (.ok content) s
    | none => ∃ fault, (Files.read path : Action (StateM σ) Text).Ends s (.error (.io path fault)) s

namespace Config

/-- The configuration that stands in the file at a path, if there is one that can be used. -/
def usable? (texts : Bytes → Option Text) (path : Bytes) : Option Config :=
  (texts path).bind fun content => (read content).toOption

/-- The nearest configuration that can be used, from a directory upwards. -/
def nearest (texts : Bytes → Option Text) (directory : Bytes) : Config :=
  ((Path.ancestors searchDepth directory).findSome? fun dir =>
    usable? texts (Path.join dir configName)).getD {}

end Config

/-- The configuration that is in force for a request: the one it names, else the nearest, with the
policy that it asks for. -/
def Request.configIn (r : Request) (texts : Bytes → Option Text)
    (directory : Except FileFault Bytes) : Config :=
  let c :=
    match r.config, directory with
    | some path, _ => (Config.usable? texts path).getD {}
    | none, .ok path => Config.nearest texts path
    | none, .error _ => {}
  if r.keepUnclassified then { c with policy := .keep } else c

section

variable {texts : Bytes → Option Text} (hs : Holds s texts)

include hs

theorem ends_tryRead (path : Bytes) :
    (Config.tryRead path : Action (StateM σ) (Option Text)).Ends s (.ok (texts path)) s := by
  have hread := hs path
  cases htext : texts path with
  | some content =>
    rw [htext] at hread
    exact .tryCatch_ok (hread.bind_ok (.pure _))
  | none =>
    rw [htext] at hread
    obtain ⟨fault, hread⟩ := hread
    exact .tryCatch_error hread.bind_error ((Action.Ends.noteAll _).bind_ok (.pure _))

theorem ends_tryLoad (path : Bytes) :
    (Config.tryLoad path : Action (StateM σ) (Option Config)).Ends s
      (.ok (Config.usable? texts path)) s := by
  refine (ends_tryRead hs path).bind_ok ?_
  unfold Config.usable?
  cases texts path with
  | none => exact .pure none
  | some content =>
    dsimp only [Option.bind_some]
    cases Config.read content with
    | error fault => exact (Action.Ends.note _).bind_ok (.pure none)
    | ok c => exact (Action.Ends.note _).bind_ok (.pure (some c))

theorem ends_firstOf (dirs : List Bytes) :
    (Config.firstOf dirs : Action (StateM σ) Config).Ends s
      (.ok ((dirs.findSome? fun dir =>
        Config.usable? texts (Path.join dir configName)).getD {})) s := by
  induction dirs with
  | nil => exact (Action.Ends.note _).bind_ok (.pure _)
  | cons dir dirs ih =>
    refine (ends_tryLoad hs _).bind_ok ?_
    rw [List.findSome?_cons]
    cases Config.usable? texts (Path.join dir configName) with
    | some c => exact .pure c
    | none => exact ih

theorem ends_discover (directory : Bytes) :
    (Config.discover directory : Action (StateM σ) Config).Ends s
      (.ok (Config.nearest texts directory)) s :=
  ends_firstOf hs _

/-- A configuration file that is named must be there. -/
theorem ends_load_of_unreadable {path : Bytes} (htext : texts path = none) :
    ∃ fault, (Config.load path : Action (StateM σ) Config).Ends s (.error (.io path fault)) s := by
  have hread := hs path
  rw [htext] at hread
  obtain ⟨fault, hread⟩ := hread
  exact ⟨fault, hread.bind_error⟩

/-- A configuration file that is named must be right. -/
theorem ends_load_of_refused {path : Bytes} {content : Text} {fault : ConfigFault}
    (htext : texts path = some content) (hrefused : Config.read content = .error fault) :
    (Config.load path : Action (StateM σ) Config).Ends s
      (.error (.config (some path) fault.message)) s := by
  have hread := hs path
  rw [htext] at hread
  refine hread.bind_ok ?_
  rw [hrefused]
  exact .throw _

theorem ends_load {path : Bytes} {c : Config} (hc : Config.usable? texts path = some c) :
    (Config.load path : Action (StateM σ) Config).Ends s (.ok c) s := by
  obtain ⟨content, htext, hc⟩ := Option.bind_eq_some_iff.1 hc
  have hread := hs path
  rw [htext] at hread
  refine hread.bind_ok ?_
  cases hload : Config.read content with
  | error fault => simp [hload, Except.toOption] at hc
  | ok c' =>
    obtain rfl : c' = c := by simpa [hload, Except.toOption] using hc
    exact (Action.Ends.note _).bind_ok (.pure c')

omit hs in
theorem ends_resolveConfig_of_error {directory : Except FileFault Bytes} {path : Bytes} {r : Request}
    {failure : Failure} (hconfig : r.config = some path)
    (hload : (Config.load path : Action (StateM σ) Config).Ends s (.error failure) s) :
    (Program.resolveConfig directory r : Action (StateM σ) Config).Ends s (.error failure) s := by
  unfold Program.resolveConfig
  rw [hconfig]
  exact hload.bind_error

omit hs in
/-- Without a file that is named, the directory must be known. -/
theorem ends_resolveConfig_of_unknown {fault : FileFault} {r : Request} (hconfig : r.config = none) :
    (Program.resolveConfig (.error fault) r : Action (StateM σ) Config).Ends s
      (.error (.io [Path.dot] fault)) s := by
  unfold Program.resolveConfig
  rw [hconfig]
  exact (Action.Ends.throw _).bind_error

/-- The configuration in force is found unless a file is named that cannot be used, or none is named
and the directory is unknown. -/
theorem ends_resolveConfig {directory : Except FileFault Bytes} {r : Request}
    (hnamed : ∀ path, r.config = some path → (Config.usable? texts path).isSome)
    (hknown : r.config = none → ∃ path, directory = .ok path) :
    (Program.resolveConfig directory r : Action (StateM σ) Config).Ends s
      (.ok (r.configIn texts directory)) s := by
  unfold Program.resolveConfig Request.configIn
  cases hconfig : r.config with
  | none =>
    obtain ⟨path, rfl⟩ := hknown hconfig
    exact (ends_discover hs path).bind_ok (.pure _)
  | some path =>
    obtain ⟨c, hc⟩ := Option.isSome_iff_exists.1 (hnamed path hconfig)
    dsimp only
    rw [hc]
    exact (ends_load hs hc).bind_ok (.pure _)

end

end

end RuleFormat
