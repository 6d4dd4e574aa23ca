import RuleFormat.Log

/-!
# Paths and file systems

Paths, the operations that a command needs of a file system, and the file systems in memory.
-/

namespace RuleFormat

/-!
## Paths

A path is a list of bytes with slashes.  Its parts are what stands between the slashes, without
empty parts and without dots; only a dot that a relative path begins with is a part.  Two paths are
the same when they have the same parts and both begin with a slash, or none of them does.

* `location` is a path up to spelling.
* `join` puts a path below a directory.
* `parent?` and `ancestors` go up.
-/

namespace Path

/-- The byte that separates the parts of a path. -/
abbrev slash : UInt8 := 0x2F

/-- The byte of which names are made that stand for a directory itself and for its parent. -/
abbrev dot : UInt8 := 0x2E

/-- The pieces of a list between the places where `a` stands. -/
def splitAtItem {α : Type} [DecidableEq α] (a : α) : List α → List (List α)
  | [] => [[]]
  | b :: bs =>
    if b = a then [] :: splitAtItem a bs
    else
      match splitAtItem a bs with
      | [] => [[b]]
      | p :: ps => (b :: p) :: ps

/-- The pieces between slashes. -/
def pieces (path : Bytes) : List Bytes := splitAtItem slash path

/-- Whether a path begins at the root. -/
def isRooted (path : Bytes) : Bool := path.head? == some slash

/-- The pieces of a path, each with whether it is a part. -/
def marked (path : Bytes) : List (Bytes × Bool) :=
  match pieces path with
  | [] => []
  | p :: ps => (p, !p.isEmpty) :: ps.map fun q => (q, !q.isEmpty && q != [dot])

/-- What a path stands for, apart from its spelling. -/
structure Location where
  rooted : Bool
  parts : List Bytes
  deriving DecidableEq, Repr

/-- The location that a path spells. -/
def location (path : Bytes) : Location where
  rooted := isRooted path
  parts := ((marked path).filter (·.2)).map (·.1)

/-- A path below a directory.  A path that begins at the root stands for itself. -/
def join (dir path : Bytes) : Bytes :=
  if isRooted path then path
  else if dir.isEmpty || dir.getLast? == some slash then dir ++ path
  else dir ++ slash :: path

/-- The path without its last part.  The root has no parent, nor has the empty path. -/
def parent? (path : Bytes) : Option Bytes :=
  match (marked path).reverse.dropWhile (!·.2) with
  | [] => none
  | _ :: rest =>
    match rest.dropWhile (!·.2) with
    | [] => some (if isRooted path then [slash] else [])
    | kept => some (joinWith [slash] (kept.reverse.map (·.1)))

/-- A path and the paths above it, the nearest first, at most `n` of them. -/
def ancestors : (n : Nat) → Bytes → List Bytes
  | 0, _ => []
  | n + 1, path =>
    path :: match parent? path with
      | none => []
      | some p => ancestors n p

end Path

/-!
## Tables

A table is a list of keys with their values.  What stands at a key is what the first entry for it
says.
-/

namespace Table

variable {κ ν : Type} [DecidableEq κ]

/-- Puts a value at a key, in place of the one that is there. -/
def insert (k : κ) (v : ν) : List (κ × ν) → List (κ × ν)
  | [] => [(k, v)]
  | e :: es => if e.1 = k then (k, v) :: es else e :: insert k v es

/-- Of two values at one key the last one stays. -/
theorem insert_insert (k : κ) (v w : ν) (es : List (κ × ν)) :
    insert k w (insert k v es) = insert k w es := by
  induction es with
  | nil => simp [insert]
  | cons e es ih => by_cases he : e.1 = k <;> simp [insert, he, ih]

variable [BEq κ] [LawfulBEq κ]

theorem lookup_insert (k k' : κ) (v : ν) (es : List (κ × ν)) :
    (insert k v es).lookup k' = if k' = k then some v else es.lookup k' := by
  induction es with
  | nil => by_cases hk : k' = k <;> simp [insert, hk]
  | cons e es ih =>
    obtain ⟨k₁, v₁⟩ := e
    by_cases hk₁ : k₁ = k
    · subst hk₁
      by_cases hk : k' = k₁ <;> simp [insert, List.lookup_cons, hk, beq_eq_false_iff_ne.2]
    · rw [insert, if_neg hk₁, List.lookup_cons, List.lookup_cons, ih]
      by_cases hk : k' = k₁
      · simp [hk, hk₁]
      · simp [beq_eq_false_iff_ne.2 hk]

theorem lookup_filter (k k' : κ) (es : List (κ × ν)) :
    (es.filter fun e => e.1 != k).lookup k' = if k' = k then none else es.lookup k' := by
  induction es with
  | nil => simp
  | cons e es ih =>
    obtain ⟨k₁, v₁⟩ := e
    by_cases hk₁ : k₁ = k
    · subst hk₁
      rw [List.filter_cons_of_neg (by simp), ih, List.lookup_cons]
      by_cases hk : k' = k₁
      · simp [hk]
      · simp [beq_eq_false_iff_ne.2 hk]
    · rw [List.filter_cons_of_pos (by simpa using hk₁), List.lookup_cons, List.lookup_cons, ih]
      by_cases hk : k' = k₁
      · simp [hk, hk₁]
      · simp [beq_eq_false_iff_ne.2 hk]

/-- What has been put where there was nothing can be taken out again. -/
theorem filter_insert {k : κ} {es : List (κ × ν)} (h : es.lookup k = none) (v : ν) :
    (insert k v es).filter (fun e => e.1 != k) = es := by
  induction es with
  | nil => simp [insert]
  | cons e es ih =>
    rw [List.lookup_cons] at h
    by_cases he : e.1 = k
    · simp [he] at h
    · rw [beq_eq_false_iff_ne.2 (Ne.symm he)] at h
      simp [insert, he, ih h]

end Table

/-!
## File systems

A command is an action over a file system: it may fail, and it leaves events in the log.  What a
file system has to offer is `Files`; the commands are written once for all of them.
-/

/-- An action over `m` that may fail and that leaves events, of which the state is the list. -/
abbrev Action (m : Type → Type) : Type → Type := ExceptT Failure (StateT (List Event) m)

/-- A file system. -/
class Files (m : Type → Type) where
  /-- The content of a file. -/
  read : (path : Bytes) → Action m Text
  /-- Replaces the content of a file, or makes it, at one stroke. -/
  write : (path : Bytes) → (content : Text) → Action m Unit
  /-- Whether there is something at a path. -/
  isThere : (path : Bytes) → m Bool

/-- A file system in which a program has been started. -/
class Machine (m : Type → Type) extends Files m where
  /-- The path of the directory in which the program runs, if the system knows one. -/
  directory : m (Except FileFault Bytes)

namespace Action

variable {m : Type → Type} [Monad m]

/-- Leaves an event in the log. -/
def note (e : Event) : Action m Unit := modify (· ++ [e])

/-- Leaves events in the log. -/
def noteAll (es : List Event) : Action m Unit := modify (· ++ es)

/-- Runs an action with an empty log, and gives its result and its events. -/
def perform {α : Type} (a : Action m α) : m (Except Failure α × List Event) :=
  StateT.run (ExceptT.run a) []

end Action

/-!
## Stores

A store is a file system in memory: a table from locations to contents, in which there are no
directories.  It counts what is written.
-/

/-- Files in memory. -/
structure Store where
  files : List (Path.Location × Text)
  /-- How often a file has been written. -/
  writes : Nat
  deriving DecidableEq, Repr

namespace Store

/-- A store with nothing in it. -/
def empty : Store := ⟨[], 0⟩

/-- The content at a path. -/
def get? (s : Store) (path : Bytes) : Option Text := s.files.lookup (Path.location path)

/-- A store with a file in it, which does not count as written. -/
def withFile (s : Store) (path : Bytes) (content : Text) : Store :=
  { s with files := Table.insert (Path.location path) content s.files }

/-- Writes a file. -/
def write (s : Store) (path : Bytes) (content : Text) : Store :=
  { s.withFile path content with writes := s.writes + 1 }

instance : Files (StateM Store) where
  read path := do
    match (← getThe Store).get? path with
    | none => throw (.io path .absent)
    | some content => return content
  write path content := modifyThe Store (·.write path content)
  isThere path := return ((← get).get? path).isSome

end Store

end RuleFormat
