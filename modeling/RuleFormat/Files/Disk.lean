import RuleFormat.Files.Basic

/-!
# Disks

A disk is a tree of directories, files and links.  Paths are followed part by part: every part but
the last must be a directory that may be entered, a dot stays where it is, two dots go up, and at a
link its own path is followed first.

A file is replaced in four steps: a temporary file is made in the directory of the file, it is
filled, it gets the mode of the file that it replaces, and it is moved to its place.  Each of the
steps can be hindered, and then the temporary file is removed.  Nobody sees a file that is half
written.
-/

namespace RuleFormat

/-- What a file holds: a text, or bytes that are not the UTF-8 form of any. -/
inductive Content where
  | text (t : Text)
  | binary (bytes : Bytes)
  deriving DecidableEq, Repr

/-- The content that bytes make. -/
def Content.ofBytes (bytes : Bytes) : Content :=
  match toText? bytes with
  | some t => .text t
  | none => .binary bytes

/-- What stands in a tree. -/
inductive Node where
  | directory
  | file (mode : Nat) (content : Content)
  /-- A link to what a path leads to. -/
  | link (path : Bytes)
  deriving DecidableEq, Repr

/-- The mode of a node. -/
def Node.mode : Node → Nat
  | directory => 0o755
  | file mode _ => mode
  | link _ => 0o777

/-- Who may read, write and run a node: the part of its mode that has nine bits. -/
def Node.permissions (n : Node) : Nat := n.mode % 0o1000

/-- The steps in which a file is replaced. -/
inductive WriteStep where
  | create | fill | mode | move
  deriving DecidableEq, Repr

/-- Where something stands in a tree: the parts from the root on. -/
abbrev Address := List Bytes

/-- A tree, with the directory at which paths begin. -/
structure Disk where
  /-- What stands at a place. -/
  nodes : List (Address × Node)
  /-- Where paths begin that do not begin at the root. -/
  current : Address
  /-- The path of this place, as far as the system can tell. -/
  directory : Except FileFault Bytes := .ok (Path.slash :: joinWith [Path.slash] current)
  /-- Which files may not be read, and which directories not be entered. -/
  denied : Address → Bool := fun _ => false
  /-- What hinders the steps of a write. -/
  hindrance : WriteStep → Option FileFault := fun _ => none

namespace Disk

/-- The mode of new files. -/
def newMode : Nat := 0o600

/-- What stands at a place.  The root is a directory. -/
def node? (d : Disk) (place : Address) : Option Node :=
  if place.isEmpty then some .directory else d.nodes.lookup place

/-- A disk with a node in it. -/
def put (d : Disk) (place : Address) (n : Node) : Disk :=
  { d with nodes := Table.insert place n d.nodes }

/-- A disk without what stands at a place. -/
def remove (d : Disk) (place : Address) : Disk :=
  { d with nodes := d.nodes.filter fun e => e.1 != place }

/-! ## Following paths -/

/-- Whether a place can be entered. -/
def enter (d : Disk) (place : Address) : Except FileFault Unit :=
  match d.node? place with
  | some .directory => if d.denied place then .error .denied else .ok ()
  | some _ => .error .notDirectory
  | none => .error .missing

/-- Where a path begins that is found at a place. -/
def origin (place : Address) (path : Bytes) : Address := if Path.isRooted path then [] else place

/-- Whether a link is followed: one at the end of a path need not be. -/
inductive Links where
  | all | inner
  deriving DecidableEq, Repr

/-- Whether a link is followed that has some pieces of a path behind it. -/
def Links.follows (l : Links) (rest : List Bytes) : Bool := l = .all || !rest.isEmpty

/-- Follows pieces of a path from a place.  There may be nothing at the end.  The path of a link is
left to `jump`. -/
def followWith (d : Disk) (l : Links) (jump : Address → List Bytes → Except FileFault Address) :
    (place : Address) → (pieces : List Bytes) → Except FileFault Address
  | place, [] => .ok place
  | place, p :: ps =>
    match d.enter place with
    | .error fault => .error fault
    | .ok () =>
      if p.isEmpty ∨ p = [Path.dot] then d.followWith l jump place ps
      else if p = [Path.dot, Path.dot] then d.followWith l jump place.dropLast ps
      else
        match d.node? (place ++ [p]) with
        | some (.link path) =>
          if l.follows ps then jump (origin place path) (Path.pieces path ++ ps)
          else .ok (place ++ [p])
        | _ => d.followWith l jump (place ++ [p]) ps

/-- How many links are followed on the way to one place. -/
def maxLinks : Nat := 40

/-- Follows pieces of a path from a place, through so many links at most. -/
def follow (d : Disk) (l : Links) : (budget : Nat) → Address → List Bytes → Except FileFault Address
  | 0 => d.followWith l fun _ _ => .error .tooManyLinks
  | budget + 1 => d.followWith l (d.follow l budget)

/-- The place that a path leads to. -/
def resolve (d : Disk) (l : Links) (path : Bytes) : Except FileFault Address :=
  if path.isEmpty then .error .missing
  else d.follow l maxLinks (origin d.current path) (Path.pieces path)

/-- What a path leads to. -/
def find (d : Disk) (path : Bytes) : Except FileFault (Address × Node) :=
  match d.resolve .all path with
  | .error fault => .error fault
  | .ok place =>
    match d.node? place with
    | none => .error .missing
    | some n => .ok (place, n)

/-- The text of a file. -/
def readText (d : Disk) (path : Bytes) : Except FileFault Text :=
  match d.find path with
  | .error fault => .error fault
  | .ok (place, n) =>
    if d.denied place then .error .denied
    else
      match n with
      | .file _ (.text t) => .ok t
      | .file _ (.binary _) => .error .notText
      | _ => .error .isDirectory

/-- Sets the mode of the file at a path. -/
def setMode (d : Disk) (path : Bytes) (mode : Nat) : Disk :=
  match d.find path with
  | .ok (place, .file _ content) => d.put place (.file mode content)
  | _ => d

/-! ## Replacing files -/

/-- The names of temporary files. -/
def temporaryName (n : Nat) : Bytes := utf8 (".tmp".toList ++ List.replicate (6 + n) 'X')

/-- The directory in which the temporary file for a path is made. -/
def directoryOf (path : Bytes) : Bytes :=
  match Path.parent? path with
  | none => [Path.dot]
  | some p => if p.isEmpty then [Path.dot] else p

/-- A place in a directory where there is nothing.  One of the first names is free, because there
are more of them than there are nodes. -/
def freePlace (d : Disk) (dir : Address) : Address :=
  let places := (List.range (d.nodes.length + 1)).map fun n => dir ++ [temporaryName n]
  (places.find? fun p => (d.node? p).isNone).getD dir

/-- Fails when a step is hindered. -/
def unhindered (d : Disk) (s : WriteStep) : Except FileFault Unit :=
  match d.hindrance s with
  | some fault => .error fault
  | none => .ok ()

/-- The path of the temporary file in a directory, from the root on. -/
def temporaryPath (d : Disk) (dir : Bytes) : Except FileFault Bytes :=
  if Path.isRooted dir then .ok (Path.join dir (temporaryName 0))
  else d.directory.map fun base => Path.join (Path.join base dir) (temporaryName 0)

/-- Finds the place of a directory in which a file is to be made. -/
def enterPath (d : Disk) (dir : Bytes) : Except FileFault Address := do
  let place ← d.resolve .all dir
  d.enter place
  d.unhindered .create
  return place

/-- Whether a path ends in a part that names a file: not in dots, and not at the root. -/
def endsInName (path : Bytes) : Bool :=
  match ((Path.pieces path).filter (!·.isEmpty)).getLast? with
  | none => false
  | some last => last != [Path.dot] && last != [Path.dot, Path.dot]

/-- Moves a file to a path, which must end in a name without a slash behind it.  A link with this
name is replaced, not followed. -/
def move (d : Disk) (source : Address) (path : Bytes) : Except FileFault Disk := do
  d.unhindered .move
  if endsInName path ∧ path.getLast? = some Path.slash then throw .notDirectory
  let target ← d.resolve .inner path
  if !endsInName path then throw .busy
  match d.node? source, d.node? target with
  | none, _ => throw .missing
  | _, some .directory => throw .isDirectory
  | some n, _ => return (d.remove source).put target n

/-- The failure of a step on a path. -/
def onPath {α : Type} (path : Bytes) : Except FileFault α → Except Failure α
  | .error fault => .error (.io path fault)
  | .ok a => .ok a

/-- Fills a temporary file that has been made, gives it the mode of what a path leads to, and moves
it there. -/
def finishFile (d : Disk) (source : Address) (temporary path : Bytes) (content : Text) :
    Except Failure Disk := do
  onPath temporary (d.unhindered .fill)
  match d.find path with
  | .error _ =>
    onPath path ((d.put source (.file newMode (.text content))).move source path)
  | .ok (_, n) =>
    onPath temporary (d.unhindered .mode)
    onPath path ((d.put source (.file n.mode (.text content))).move source path)

/-- Replaces the content of a file, or makes it.  When that fails the temporary file is removed. -/
def replaceFile (d : Disk) (path : Bytes) (content : Text) : Except Failure Unit × Disk :=
  let dir := directoryOf path
  match d.temporaryPath dir with
  | .error fault => (.error (.io dir fault), d)
  | .ok temporary =>
    match d.enterPath dir with
    | .error fault => (.error (.io dir (.temporary fault temporary)), d)
    | .ok place =>
      let source := d.freePlace place
      let made := d.put source (.file newMode (.text []))
      match made.finishFile source temporary path content with
      | .error failure => (.error failure, made.remove source)
      | .ok finished => (.ok (), finished)

instance : Machine (StateM Disk) where
  read path := do
    match (← getThe Disk).readText path with
    | .error fault => throw (.io path fault)
    | .ok content => return content
  write path content := do
    let (result, d) := (← getThe Disk).replaceFile path content
    set d
    match result with
    | .error failure => throw failure
    | .ok () => Action.note (.fileReplaced path)
  isThere path := return ((← get).find path).isOk
  directory := return (← get).directory

end Disk

end RuleFormat
