import RuleFormat.Key
import RuleFormat.Log
import RuleFormat.Parameter

/-!
# Sorting parameters

The parameters of a rule are sorted into groups.  The environment parameter belongs to none.
Parametric parameters keep their order.  The others are placed by the ghost table: each key in turn
takes the first parameter that has it and that no key before has taken.  What is left over matches
no ghost key, and then the policy decides whether it is kept, or it came too late for its key.

A sorting goes over the parameters, over the ghost table, and over what is left.  Where a parameter
is left out a warning is logged at once; what is said about it in a report is made later, from the
groups.
-/

namespace RuleFormat

/-- What happens to parameters that match no key. -/
inductive Policy where
  | drop | keep
  deriving DecidableEq, Repr

/-- A parameter that is left out. -/
structure Dropped where
  parameter : Parameter
  reason : DropReason
  deriving DecidableEq, Repr

/-- The groups of a rule's parameters, in the order in which they are written. -/
structure Groups where
  parametric : List Parameter
  ghost : List Parameter
  unclassified : List Parameter
  dropped : List Dropped
  deriving DecidableEq, Repr

/-- Whether a parameter has a key. -/
def Key.fits (k : Key) (p : Parameter) : Bool := k.accepts p.name p.type

/-- Lets each key in turn take the first parameter that has it.  The parameters that are taken come
in the order of the keys, those left over in their own. -/
def place : List Key → List Parameter → List Parameter × List Parameter
  | [], ps => ([], ps)
  | k :: ks, ps =>
    match ps.find? k.fits with
    | none => place ks ps
    | some p =>
      let (taken, left) := place ks (ps.eraseP k.fits)
      (p :: taken, left)

/-- A sorting that is under way. -/
structure Sorting extends Groups where
  /-- The parameters that wait for the ghost table. -/
  waiting : List Parameter
  /-- What has been logged. -/
  log : List Event
  deriving DecidableEq, Repr

namespace Sorting

/-- A sorting that has seen no parameter. -/
def start : Sorting where
  parametric := []
  ghost := []
  unclassified := []
  dropped := []
  waiting := []
  log := []

/-- Takes in a parameter. -/
def receive (t : Tables) (s : Sorting) (p : Parameter) : Sorting :=
  if p.isEnv then
    if p.isPlainEnv then s
    else
      { s with
        log := s.log ++ [.envReplaced p.text]
        dropped := s.dropped ++ [⟨p, .envForm⟩] }
  else if t.isParametric p.name p.type then { s with parametric := s.parametric ++ [p] }
  else { s with waiting := s.waiting ++ [p] }

/-- Settles what becomes of a parameter that no key has taken. -/
def settle (t : Tables) (policy : Policy) (s : Sorting) (p : Parameter) : Sorting :=
  match t.isGhost p.name p.type, policy with
  | true, _ =>
    { s with
      log := s.log ++ [.duplicateDropped p.text]
      dropped := s.dropped ++ [⟨p, .duplicateGhost⟩] }
  | false, .keep => { s with unclassified := s.unclassified ++ [p] }
  | false, .drop =>
    { s with
      log := s.log ++ [.unclassifiedDropped p.text]
      dropped := s.dropped ++ [⟨p, .unclassified⟩] }

/-- The sorting of the parameters of a rule. -/
def run (t : Tables) (policy : Policy) (ps : List Parameter) : Sorting :=
  let s := ps.foldl (receive t) start
  let (ghost, left) := place t.ghost s.waiting
  left.foldl (settle t policy) { s with ghost }

end Sorting

/-- Sorts the parameters of a rule. -/
def sortParameters (t : Tables) (policy : Policy) (ps : List Parameter) : Groups :=
  (Sorting.run t policy ps).toGroups

end RuleFormat
