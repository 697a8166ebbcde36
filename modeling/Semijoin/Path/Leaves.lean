import Semijoin.Failure
import Semijoin.Value.Access

/-!
# Leaves of a node

Following a path of field names from a node, lists on the way are flattened in the order met. The id field of
every node reached is collected, nulls left out. A relation that reads as null on the way is skipped or
fails, as the policy says; a null id never fails.
-/

set_option autoImplicit false

namespace Semijoin

/-- What to do where a relation on the way reads as null. -/
inductive MissingPolicy where
  | skip | fail
  deriving DecidableEq, Inhabited

namespace Path

/-- What a missing node gives. The path is joined under both policies. -/
def missing (policy : MissingPolicy) (full : List Value) (segment : Value) : Except Failure (List Value) := do
  let names ← Value.textsFrom 0 full
  match policy with
  | .skip => return []
  | .fail => throw (.missingNode names (some segment.shown))

variable [Attributes]

/-- The id of a node, unless it is null. -/
def leafId (idField node : Value) : Except Failure (List Value) := do
  let v ← node.field idField
  return if v.isNull then [] else [v]

/-- The ids reached along the remaining path. -/
def leavesFrom (policy : MissingPolicy) (full : List Value) (idField : Value) :
    List Value → Value → Except Failure (List Value)
  | [], node => leafId idField node
  | segment :: rest, node => do
    match (← node.field segment) with
    | .null => missing policy full segment
    | .list items =>
      return (← items.mapM fun item =>
        if item.isNull then missing policy full segment else leavesFrom policy full idField rest item).flatten
    | child => leavesFrom policy full idField rest child

/-- The ids of all leaves of a node along a path. -/
def leaves (policy : MissingPolicy) (path : List Value) (idField node : Value) : Except Failure (List Value) :=
  leavesFrom policy path idField path node

end Path

end Semijoin
