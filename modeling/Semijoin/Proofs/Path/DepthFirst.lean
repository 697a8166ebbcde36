import Semijoin.Proofs.Path.Visits
import Semijoin.Proofs.Place

/-!
# Leaves in depth-first order

What a path comes upon stands at places: the number of the item taken at each step, which is 0 where a relation holds
no list. The order in which a walk comes upon it is the order of places. So the leaves of a node are the ids of the
nodes at their places, a longer path starts where a shorter one ends, and the policies differ by the first missing
relation only.
-/

namespace Semijoin
set_option autoImplicit false

/-- The nodes that a relation holds, by number: the items of a list, and otherwise the value itself. -/
inductive Value.PartAt : Value → Nat → Value → Prop
  | item {items : List Value} {i : Nat} {v : Value} (at_ : items[i]? = some v) : PartAt (.list items) i v
  | whole {v : Value} (single : v.isList = false) : PartAt v 0 v

theorem Value.partAt_list {items : List Value} {i : Nat} {part : Value} :
    (Value.list items).PartAt i part ↔ items[i]? = some part := by
  refine ⟨fun held => ?_, .item⟩
  cases held with
  | item at_ => exact at_
  | whole single => cases single

theorem Value.partAt_single {v part : Value} (single : v.isList = false) {i : Nat} :
    v.PartAt i part ↔ i = 0 ∧ part = v := by
  constructor
  · intro held
    cases held with
    | item => cases single
    | whole => exact ⟨rfl, rfl⟩
  · rintro ⟨rfl, rfl⟩
    exact .whole single

theorem Value.exists_items {v : Value} (list : v.isList = true) : ∃ items, v = .list items := by
  cases v <;> simp [isList] at list
  exact ⟨_, rfl⟩

namespace Path

/-- What is come upon along a path, and at which place. -/
inductive VisitAt [Attributes] : List String → Value → List Nat → Visit → Prop
  | reached (node : Value) : VisitAt [] node [] (.reached node)
  | missing {segment : String} {rest : List String} {node part : Value} {i : Nat}
      (held : (node.under segment).PartAt i part) (null : part.isNull = true) :
      VisitAt (segment :: rest) node [i] (.missing segment)
  | later {segment : String} {rest : List String} {node part : Value} {i : Nat} {place : List Nat} {visit : Visit}
      (held : (node.under segment).PartAt i part) (set : part.isNull = false) (visited : VisitAt rest part place visit) :
      VisitAt (segment :: rest) node (i :: place) visit

/-- The node reached at the end. -/
def Visit.node? : Visit → Option Value
  | .missing _ => none
  | .reached node => some node

section Visits

variable [Attributes] {segment : String} {rest : List String} {node : Value}

/-- What is come upon from one of the nodes that a relation holds. -/
def visitsFrom (segment : String) (rest : List String) (part : Value) : List Visit :=
  if part.isNull then [.missing segment] else visits rest part

theorem visits_list {items : List Value} (held : node.under segment = .list items) :
    visits (segment :: rest) node = items.flatMap (visitsFrom segment rest) := by
  rw [visits, held]
  rfl

theorem visits_single (single : (node.under segment).isList = false) :
    visits (segment :: rest) node = visitsFrom segment rest (node.under segment) := by
  rw [visits]
  cases held : node.under segment with
  | list items => simp [held, Value.isList] at single
  | scalar s => cases s <;> rfl
  | map entries => rfl
  | record fields => rfl

/-- What is come upon along a first step and those that follow. -/
theorem visitAt_cons {place : List Nat} {visit : Visit} : VisitAt (segment :: rest) node place visit ↔
    ∃ i part q, (node.under segment).PartAt i part ∧ place = i :: q ∧
      (part.isNull = true ∧ q = [] ∧ visit = .missing segment ∨ part.isNull = false ∧ VisitAt rest part q visit) := by
  constructor
  · intro visited
    cases visited with
    | missing held null => exact ⟨_, _, _, held, rfl, .inl ⟨null, rfl, rfl⟩⟩
    | later held set visited => exact ⟨_, _, _, held, rfl, .inr ⟨set, visited⟩⟩
  · rintro ⟨i, part, q, held, rfl, ⟨null, rfl, rfl⟩ | ⟨set, visited⟩⟩
    · exact .missing held null
    · exact .later held set visited

/-- **What a path comes upon** is listed in the order of places, each visit once. -/
theorem visits_exact (path : List String) (node : Value) : Exactly (VisitAt path node) (visits path node) := by
  induction path generalizing node with
  | nil =>
    refine .one [] fun place visit => ⟨fun visited => ?_, ?_⟩
    · cases visited
      exact ⟨rfl, rfl⟩
    · rintro ⟨rfl, rfl⟩
      exact .reached node
  | cons segment rest ih =>
    have each (part : Value) : Exactly (fun q visit => part.isNull = true ∧ q = [] ∧ visit = .missing segment ∨
        part.isNull = false ∧ VisitAt rest part q visit) (visitsFrom segment rest part) := by
      unfold visitsFrom
      cases null : part.isNull with
      | true => exact .one [] fun q visit => by simp
      | false => exact (ih part).congr fun q visit => by simp
    cases single : (node.under segment).isList with
    | true =>
      obtain ⟨items, held⟩ := Value.exists_items single
      rw [visits_list held]
      refine (Exactly.flatMap fun part _ => each part).congr fun place visit => ?_
      simp only [visitAt_cons, held, Value.partAt_list]
    | false =>
      rw [visits_single single]
      refine ((each _).under 0).congr fun place visit => ?_
      simp only [visitAt_cons, Value.partAt_single single, and_assoc, exists_and_left, exists_eq_left]

/-- A longer path goes on from the nodes that a shorter one reaches. -/
theorem visits_append (path rest : List String) (node : Value) : visits (path ++ rest) node =
    (visits path node).flatMap fun
      | .missing segment => [.missing segment]
      | .reached leaf => visits rest leaf := by
  induction path generalizing node with
  | nil => simp [visits]
  | cons segment path ih =>
    have each (part : Value) : visitsFrom segment (path ++ rest) part = (visitsFrom segment path part).flatMap fun
        | .missing segment => [.missing segment]
        | .reached leaf => visits rest leaf := by
      unfold visitsFrom
      split
      · rfl
      · exact ih part
    cases single : (node.under segment).isList with
    | true =>
      obtain ⟨items, held⟩ := Value.exists_items single
      rw [List.cons_append, visits_list held, visits_list held, List.flatMap_assoc]
      exact List.flatMap_congr fun part _ => each part
    | false => rw [List.cons_append, visits_single single, visits_single single, each]

/-- The nodes that a path reaches, in the order of their places. -/
def nodes (path : List String) (node : Value) : List Value := (visits path node).filterMap Visit.node?

theorem nodes_exact (path : List String) (node : Value) :
    Exactly (fun place leaf => VisitAt path node place (.reached leaf)) (nodes path node) := by
  refine ((visits_exact path node).filterMap Visit.node?).congr fun place leaf => ?_
  constructor
  · rintro ⟨visit, visited, reached⟩
    cases visit <;> cases reached
    exact visited
  · exact fun visited => ⟨_, visited, rfl⟩

/-- The ids along a longer path are those from each node that a shorter one reaches. -/
theorem idsOf_append (idField : String) (path rest : List String) (node : Value) :
    idsOf idField (visits (path ++ rest) node) =
      (nodes path node).flatMap fun leaf => idsOf idField (visits rest leaf) := by
  rw [visits_append, nodes]
  induction visits path node with
  | nil => rfl
  | cons visit later ih =>
    cases visit with
    | missing segment => exact ih
    | reached leaf =>
      rw [List.flatMap_cons, idsOf, List.filterMap_append]
      exact congrArg (idsOf idField (visits rest leaf) ++ ·) ih

end Visits

section Leaves

variable [Attributes] (path : List String) (idField : String) (node : Value)

theorem ids_exact : Exactly (fun place id => ∃ leaf, VisitAt path node place (.reached leaf) ∧
    id = leaf.under idField ∧ id.isNull = false) (idsOf idField (visits path node)) := by
  refine ((visits_exact path node).filterMap (Visit.id? idField)).congr fun place id => ?_
  constructor
  · rintro ⟨visit, visited, some_⟩
    cases visit with
    | missing segment => cases some_
    | reached leaf =>
      rw [Visit.id?, Option.ite_none_left_eq_some] at some_
      obtain ⟨set, eq⟩ := some_
      cases eq
      exact ⟨leaf, visited, rfl, by simpa using set⟩
  · rintro ⟨leaf, visited, rfl, set⟩
    exact ⟨_, visited, by simp [Visit.id?, set]⟩

theorem leaves_skip : leaves .skip (path.map .text) (.text idField) node = .ok (idsOf idField (visits path node)) := by
  rw [leaves, leavesFrom_eq]
  exact settled_ids (nomatch ·)

/-- Where missing nodes fail, the first one does; without any, the ids are those of the policy that skips. -/
theorem leaves_fail : FailsAtFirst
      (fun place f => ∃ segment, VisitAt path node place (.missing segment) ∧ f = .missingNode path (some segment))
      (leaves .fail (path.map .text) (.text idField) node) ∧
    ∀ ids, leaves .fail (path.map .text) (.text idField) node = .ok ids → ids = idsOf idField (visits path node) := by
  have exact_ := visits_exact path node
  rw [leaves, leavesFrom_eq]
  cases first : (visits path node).findSome? Visit.missing? with
  | none =>
    rw [settled_ids fun _ => first]
    refine ⟨.nothing _ ?_, fun ids eq => (Except.ok.inj eq).symm⟩
    rintro place f ⟨segment, visited, -⟩
    obtain ⟨placed, eq, -, iff⟩ := exact_
    rw [List.findSome?_eq_none_iff] at first
    have mem : Visit.missing segment ∈ visits path node := eq ▸ List.mem_map.2 ⟨_, (iff _ _).2 visited, rfl⟩
    cases first _ mem
  | some segment =>
    rw [settled_missing first]
    refine ⟨.inr ⟨_, rfl, ?_⟩, fun ids eq => nomatch eq⟩
    rw [← List.head?_filterMap] at first
    obtain ⟨place, ⟨visit, visited, missing⟩, least⟩ := (exact_.filterMap Visit.missing?).first first
    cases visit <;> cases missing
    refine ⟨place, ⟨segment, visited, rfl⟩, ?_⟩
    rintro place' f ⟨segment', visited', -⟩
    exact least place' segment' ⟨_, visited', rfl⟩

/-- **Leaves are collected depth first**, whatever attributes values have. Where missing nodes are skipped, the leaves
are the ids, other than null, of the nodes at the end of the path, each as often as it is reached and in the order of
places; and following a path on is following the rest from each node reached so far. Where missing nodes fail, the first
of them in that order does, be it a relation that reads as null or a null item; a null id never does, and where no node
is missing nothing differs. -/
theorem leaves_depth_first :
    (∃ ids, leaves .skip (path.map .text) (.text idField) node = .ok ids ∧
      Exactly (fun place id => ∃ leaf, VisitAt path node place (.reached leaf) ∧
        id = leaf.under idField ∧ id.isNull = false) ids) ∧
    (∀ rest : List String, ∃ found parts,
      Exactly (fun place leaf => VisitAt path node place (.reached leaf)) found ∧
      found.mapM (leaves .skip (rest.map .text) (.text idField)) = .ok parts ∧
      leaves .skip ((path ++ rest).map .text) (.text idField) node = .ok parts.flatten) ∧
    FailsAtFirst
      (fun place f => ∃ segment, VisitAt path node place (.missing segment) ∧ f = .missingNode path (some segment))
      (leaves .fail (path.map .text) (.text idField) node) ∧
    (∀ ids, leaves .fail (path.map .text) (.text idField) node = .ok ids →
      leaves .skip (path.map .text) (.text idField) node = .ok ids) := by
  obtain ⟨fails, same⟩ := leaves_fail path idField node
  refine ⟨⟨_, leaves_skip path idField node, ids_exact path idField node⟩, fun rest => ?_, fails, fun ids ok => ?_⟩
  · refine ⟨_, _, nodes_exact path node, mapM_ok fun leaf _ => leaves_skip rest idField leaf, ?_⟩
    rw [leaves_skip, idsOf_append, List.flatMap_def]
  · rw [leaves_skip, same ids ok]

end Leaves

/-- The first missing node is one below the first city, before the city that is itself missing. -/
example :
    let node := Value.ofFields [("cities", .list [
      .ofFields [("people", .list [.ofFields [("id", .int 7)], .null, .ofFields [("id", .null)]])], .null,
      .ofFields [("people", .list [.ofFields [("id", .int 7)]])]])]
    leaves .skip [.text "cities", .text "people"] (.text "id") node = .ok [.int 7, .int 7] ∧
      leaves .fail [.text "cities", .text "people"] (.text "id") node =
        .error (.missingNode ["cities", "people"] (some "people")) := ⟨rfl, rfl⟩

/-- Where a number has a real part, it is a leaf like any other. -/
example :
    let _ : Attributes := ⟨fun v name => if name = "real" then v else .null⟩
    leaves .skip [.text "sizes"] (.text "real") (.ofFields [("sizes", .list [.int 5, .ofFields [], .int 7])]) =
      .ok [.int 5, .int 7] := rfl

end Path

end Semijoin
