import Semijoin.Path.Leaves
import Semijoin.Proofs.Access.Outcome
import Semijoin.Proofs.Value.Columns

/-!
# What a path comes upon

Following names from a node, one comes upon nodes at the end and upon relations that read as null before it, depth
first and list items in their order. The leaves of a node are read off these: the ids of the nodes, and under the
policy that fails the first null relation.
-/

namespace Semijoin
set_option autoImplicit false

variable [Attributes]

/-- What a node has under a name, as an entry or an attribute; null if it has nothing there. -/
def Value.under (node : Value) (name : String) : Value :=
  match node with
  | .map entries => (Entries.find? (.text name) entries).getD .null
  | node => node.getAttribute name

theorem Value.field_eq_under (node : Value) (name : String) : node.field (.text name) = .ok (node.under name) := by
  cases node <;> rfl

namespace Path

/-- What is come upon along a path: a relation that reads as null, or a node at the end. -/
inductive Visit where
  | missing (segment : String)
  | reached (node : Value)

def Visit.missing? : Visit → Option String
  | .missing segment => some segment
  | .reached _ => none

/-- The id of a node at the end, unless it is null. -/
def Visit.id? (idField : String) : Visit → Option Value
  | .missing _ => none
  | .reached node => if (node.under idField).isNull then none else some (node.under idField)

/-- What is come upon along a path from a node, depth first. -/
def visits : List String → Value → List Visit
  | [], node => [.reached node]
  | segment :: rest, node =>
    match node.under segment with
    | .null => [.missing segment]
    | .list items => items.flatMap fun item => if item.isNull then [.missing segment] else visits rest item
    | child => visits rest child

/-- The ids of the nodes come upon. -/
def idsOf (idField : String) (found : List Visit) : List Value := found.filterMap (Visit.id? idField)

/-- What a policy makes of what is come upon. -/
def settled (policy : MissingPolicy) (full : List String) (idField : String) (found : List Visit) :
    Except Failure (List Value) :=
  match policy, found.findSome? Visit.missing? with
  | .fail, some segment => .error (.missingNode full (some segment))
  | _, _ => .ok (idsOf idField found)

section Settled

variable {policy : MissingPolicy} {full : List String} {idField : String}

theorem settled_missing {found : List Visit} {segment : String}
    (first : found.findSome? Visit.missing? = some segment) :
    settled .fail full idField found = .error (.missingNode full (some segment)) := by
  unfold settled
  rw [first]

/-- Where nothing is missing, or that does not matter, there are ids. -/
theorem settled_ids {found : List Visit} (complete : policy = .fail → found.findSome? Visit.missing? = none) :
    settled policy full idField found = .ok (idsOf idField found) := by
  unfold settled
  cases policy with
  | skip => rfl
  | fail => rw [complete rfl]

/-- The parts of what is come upon are settled one after the other. -/
theorem settled_append (found more : List Visit) : settled policy full idField (found ++ more) = do
    let ids ← settled policy full idField found
    return ids ++ (← settled policy full idField more) := by
  have ids : idsOf idField (found ++ more) = idsOf idField found ++ idsOf idField more := List.filterMap_append
  unfold settled
  rw [List.findSome?_append, ids]
  cases policy with
  | skip => rfl
  | fail =>
    cases found.findSome? Visit.missing? with
    | some segment => rfl
    | none => cases more.findSome? Visit.missing? <;> rfl

/-- What is come upon from several starts is settled start by start. -/
theorem mapM_settled {α : Type} (found : α → List Visit) (starts : List α) :
    ((starts.mapM fun x => settled policy full idField (found x)) >>= fun parts => pure parts.flatten) =
      settled policy full idField (starts.flatMap found) := by
  induction starts with
  | nil => cases policy <;> rfl
  | cons x rest ih =>
    rw [List.flatMap_cons, settled_append, ← ih, List.mapM_cons]
    cases settled policy full idField (found x) with
    | error f => rfl
    | ok ids => cases rest.mapM fun x => settled policy full idField (found x) <;> rfl

theorem missing_eq (segment : String) :
    missing policy (full.map .text) (.text segment) = settled policy full idField [.missing segment] := by
  rw [missing, Value.textsFrom_texts]
  cases policy <;> rfl

theorem leafId_settled (node : Value) :
    leafId (.text idField) node = settled policy full idField (visits [] node) := by
  rw [leafId, Value.field_eq_under]
  show (Except.ok (if (node.under idField).isNull then [] else [node.under idField]) : Except Failure _) = _
  have ids : idsOf idField [.reached node] =
      if (node.under idField).isNull then [] else [node.under idField] := by
    by_cases null : (node.under idField).isNull = true <;> simp [idsOf, Visit.id?, null]
  cases policy <;> rw [← ids] <;> rfl

/-- **The leaves of a node** are what a policy makes of what its path comes upon. -/
theorem leavesFrom_eq (path : List String) (node : Value) :
    leavesFrom policy (full.map .text) (.text idField) (path.map .text) node =
      settled policy full idField (visits path node) := by
  induction path generalizing node with
  | nil => exact leafId_settled node
  | cons segment rest ih =>
    rw [List.map_cons, leavesFrom, Value.field_eq_under, visits]
    show (match node.under segment with | .null => _ | .list items => _ | child => _) = _
    split
    · exact missing_eq segment
    · rename_i items _
      rw [← mapM_settled]
      have each : (fun item : Value => if item.isNull then missing policy (full.map .text) (.text segment)
          else leavesFrom policy (full.map .text) (.text idField) (rest.map .text) item) =
            fun item => settled policy full idField (if item.isNull then [.missing segment] else visits rest item) := by
        funext item
        split
        · exact missing_eq segment
        · exact ih item
      rw [each]
    · exact ih _

end Settled

end Path

end Semijoin
