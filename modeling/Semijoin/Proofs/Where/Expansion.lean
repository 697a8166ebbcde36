import Semijoin.Proofs.Where.Tree

/-!
# A where is the conjunction of its parts

Written out, a where is a tree of groups over single comparisons: a mapping is the conjunction of its entries, and
the condition on a field the conjunction of its operators. The tree asks the same comparisons in the same order, so
it gives the same answer and the same fault. If none of its leaves is a fault, the where is the truth value of the
tree, in whatever order its keys, operators and members stand.
-/

namespace Semijoin
set_option autoImplicit false

namespace Operator

/-- The comparisons of the condition on one field, each as a condition of its own. -/
def comparisons : Value → List Value
  | .map (e :: rest) =>
    if (ofEntries? (e :: rest)).isSome then (e :: rest).map fun e => .map [e] else [.map (e :: rest)]
  | v => [v]

/-- A mapping is one of operators if each of its keys names one. -/
theorem ofEntries?_isSome {entries : List (Scalar × Value)} :
    (ofEntries? entries).isSome = true ↔ ∀ e ∈ entries, (ofKey? e.1).isSome = true := by
  induction entries with
  | nil => simp [ofEntries?]
  | cons e rest ih =>
    obtain ⟨k, v⟩ := e
    rw [List.forall_mem_cons, ← ih, ofEntries?]
    cases ofKey? k <;> cases ofEntries? rest <;> simp

theorem ofEntries?_eq {entries : List (Scalar × Value)} (h : ∀ e ∈ entries, (ofKey? e.1).isSome = true) :
    ofEntries? entries = some (entries.flatMap fun e => conditions (.map [e])) := by
  induction entries with
  | nil => rfl
  | cons e rest ih =>
    obtain ⟨here, later⟩ := List.forall_mem_cons.1 h
    obtain ⟨op, named⟩ := Option.isSome_iff_exists.1 here
    rw [List.flatMap_cons, Where.conditions_one named, ofEntries?, named, ih later]
    rfl

theorem comparisons_of_operators {entries : List (Scalar × Value)} (nonempty : entries ≠ [])
    (h : ∀ e ∈ entries, (ofKey? e.1).isSome = true) :
    comparisons (.map entries) = entries.map fun e => .map [e] := by
  obtain ⟨e, rest, rfl⟩ := List.exists_cons_of_ne_nil nonempty
  rw [comparisons, if_pos (ofEntries?_isSome.2 h)]

/-- What is no mapping of operators is one comparison. -/
theorem comparisons_cases (v : Value) :
    comparisons v = [v] ∧ conditions v = [(.eq, v)] ∨
    ∃ entries, v = .map entries ∧ entries ≠ [] ∧ ∀ e ∈ entries, (ofKey? e.1).isSome = true := by
  match v with
  | .map (e :: rest) =>
    by_cases operators : (ofEntries? (e :: rest)).isSome = true
    · exact .inr ⟨e :: rest, rfl, by simp, ofEntries?_isSome.1 operators⟩
    · refine .inl ⟨by rw [comparisons, if_neg operators], ?_⟩
      rw [conditions, Option.not_isSome_iff_eq_none.1 operators]
      · rfl
      · simp
  | .map [] | .scalar _ | .list _ | .record _ => exact .inl ⟨rfl, rfl⟩

/-- A condition asks its comparisons, one after the other. -/
theorem conditions_eq (v : Value) : conditions v = (comparisons v).flatMap conditions := by
  obtain ⟨eq, -⟩ | ⟨entries, rfl, nonempty, operators⟩ := comparisons_cases v
  · simp [eq]
  · rw [comparisons_of_operators nonempty operators, List.flatMap_map]
    obtain ⟨e, rest, rfl⟩ := List.exists_cons_of_ne_nil nonempty
    rw [conditions, ofEntries?_eq operators, Option.getD_some]
    simp

theorem comparisons_ne_nil (v : Value) : comparisons v ≠ [] := by
  obtain ⟨eq, -⟩ | ⟨entries, rfl, nonempty, operators⟩ := comparisons_cases v
  · simp [eq]
  · simpa [comparisons_of_operators nonempty operators] using nonempty

/-- Each comparison has one operator. -/
theorem conditions_length {v c : Value} (mem : c ∈ comparisons v) : (conditions c).length = 1 := by
  obtain ⟨eq, one⟩ | ⟨entries, rfl, nonempty, operators⟩ := comparisons_cases v
  · rw [eq, List.mem_singleton] at mem
    rw [mem, one]
    rfl
  · rw [comparisons_of_operators nonempty operators] at mem
    obtain ⟨e, he, rfl⟩ := List.mem_map.1 mem
    obtain ⟨op, named⟩ := Option.isSome_iff_exists.1 (operators e he)
    rw [Where.conditions_one named]
    rfl

theorem length_conditions (v : Value) : (conditions v).length = (comparisons v).length := by
  rw [conditions_eq, List.length_flatMap, List.map_congr_left fun c hc => conditions_length hc]
  simp

/-- A single comparison is not taken apart. -/
theorem comparisons_of_one {v : Value} (one : (conditions v).length = 1) : comparisons v = [v] := by
  obtain ⟨eq, -⟩ | ⟨entries, rfl, nonempty, operators⟩ := comparisons_cases v
  · exact eq
  · rw [length_conditions, comparisons_of_operators nonempty operators, List.length_map] at one
    obtain ⟨e, rfl⟩ := List.length_eq_one_iff.1 one
    rw [comparisons_of_operators nonempty operators]
    rfl

end Operator

namespace Where

open Operator (comparisons)
open Where.Tree (joint Alike EachAlike)

mutual

/-- The tree of a where, down to its parts. -/
def tree : Value → Tree
  | .map entries => joint (entryTrees entries)
  | w => .leaf w

def entryTrees : List (Scalar × Value) → List Tree
  | [] => []
  | e :: rest => entryTree e :: entryTrees rest

/-- The tree of one entry; a group that is no list is left as it is. -/
def entryTree : Scalar × Value → Tree
  | (key, .list members) =>
    if key = .text "and" then .all (memberTrees members)
    else if key = .text "or" then .any (memberTrees members)
    else .leaf (.map [(key, .list members)])
  | (key, v) =>
    if IsGroup key then .leaf (.map [(key, v)]) else joint ((comparisons v).map fun c => .leaf (.map [(key, c)]))

def memberTrees : List Value → List Tree
  | [] => []
  | w :: rest => tree w :: memberTrees rest

end

/-- The fully expanded form of a where. -/
def expanded (w : Value) : Value := (tree w).toWhere

section Recursion

variable (entries : List (Scalar × Value)) (members : List Value)

theorem entryTrees_eq : entryTrees entries = entries.map entryTree := by
  induction entries with
  | nil => rfl
  | cons e rest ih => rw [entryTrees, ih, List.map_cons]

theorem memberTrees_eq : memberTrees members = members.map tree := by
  induction members with
  | nil => rfl
  | cons w rest ih => rw [memberTrees, ih, List.map_cons]

theorem tree_map : tree (.map entries) = joint (entries.map entryTree) := by rw [tree, entryTrees_eq]

theorem tree_of_not_isMap {w : Value} (h : w.isMap = false) : tree w = .leaf w := by
  cases w <;> first | rfl | cases h

theorem entryTree_and : entryTree (.text "and", .list members) = .all (members.map tree) := by
  rw [entryTree, if_pos rfl, memberTrees_eq]

theorem entryTree_or : entryTree (.text "or", .list members) = .any (members.map tree) := by
  rw [entryTree, if_neg (by simp), if_pos rfl, memberTrees_eq]

variable {key : Scalar} {v : Value}

theorem entryTree_group (group : IsGroup key) (noList : ∀ members, v ≠ .list members) :
    entryTree (key, v) = .leaf (.map [(key, v)]) := by
  rw [entryTree, if_pos group]
  simpa using noList

theorem entryTree_field (plain : ¬ IsGroup key) :
    entryTree (key, v) = joint ((comparisons v).map fun c => .leaf (.map [(key, c)])) := by
  obtain ⟨and', or'⟩ := not_or.1 plain
  cases v with
  | list members => rw [entryTree, if_neg and', if_neg or']; rfl
  | _ => rw [entryTree, if_neg plain]; simp

/-- An entry is a conjunction, an alternative, a group that is no list, or the condition on a field. -/
inductive EntryCase : Scalar × Value → Prop
  | all (members : List Value) : EntryCase (.text "and", .list members)
  | any (members : List Value) : EntryCase (.text "or", .list members)
  | group {key : Scalar} {v : Value} (group : IsGroup key) (noList : ∀ members, v ≠ .list members) : EntryCase (key, v)
  | field {key : Scalar} {v : Value} (plain : ¬ IsGroup key) : EntryCase (key, v)

theorem entryCase (e : Scalar × Value) : EntryCase e := by
  obtain ⟨key, v⟩ := e
  by_cases group : IsGroup key
  · by_cases list : ∃ members, v = .list members
    · obtain ⟨members, rfl⟩ := list
      obtain rfl | rfl := group
      · exact .all members
      · exact .any members
    · exact .group group (by simpa using list)
  · exact .field group

/-- Wheres are built from those that are in lists under the keys of groups. -/
theorem where_induction {motive : Value → Prop} (other : ∀ w, w.isMap = false → motive w)
    (map : ∀ entries, (∀ key members, (key, .list members) ∈ entries → ∀ w ∈ members, motive w) →
      motive (.map entries)) (w : Value) : motive w := by
  match w with
  | .map entries => exact map entries fun key members mem w hw => where_induction other map w
  | .scalar _ | .list _ | .record _ => exact other _ rfl
termination_by sizeOf w
decreasing_by
  have above := List.sizeOf_lt_of_mem hw
  have top := List.sizeOf_lt_of_mem mem
  simp only [Prod.mk.sizeOf_spec, Value.list.sizeOf_spec] at top
  simp only [Value.map.sizeOf_spec]
  omega

end Recursion

/-! ## The same answer and the same fault -/

theorem conditionsHold_append (v : Value) (first rest : List (Operator × Value)) :
    conditionsHold v (first ++ rest) = do if ← conditionsHold v first then conditionsHold v rest else return false := by
  induction first with
  | nil => rfl
  | cons c first ih =>
    rw [List.cons_append, conditionsHold, conditionsHold, ih]
    cases c.1.apply v c.2 with
    | error f => rfl
    | ok b => cases b <;> rfl

/-- The condition on a field asks its comparisons, each as a where of its own. -/
theorem fieldHolds_eq [Attributes] {key : Scalar} (plain : ¬ IsGroup key) (row v : Value) :
    fieldHolds row key v = allHold row ((comparisons v).map fun c => .map [(key, c)]) := by
  rw [fieldHolds, Operator.conditions_eq]
  cases read : row.field (.scalar key) with
  | error f =>
    -- There is a first comparison, and it meets the fault of reading the field.
    obtain ⟨c, rest, eq⟩ := List.exists_cons_of_ne_nil (Operator.comparisons_ne_nil v)
    rw [eq, List.map_cons, allHold, holds_field plain, fieldHolds, read]
    rfl
  | ok a =>
    show conditionsHold a _ = _
    induction comparisons v with
    | nil => rfl
    | cons c rest ih =>
      rw [List.flatMap_cons, conditionsHold_append, ih, List.map_cons, allHold, holds_field plain, fieldHolds, read]
      rfl

theorem holds_entryTree [Attributes] {row : Value} {e : Scalar × Value}
    (below : ∀ members, e.2 = .list members → ∀ w ∈ members, holds row (tree w).toWhere = holds row w) :
    holds row (entryTree e).toWhere = holds row (.map [e]) := by
  cases entryCase e with
  | all members =>
    rw [entryTree_and, Tree.toWhere_all, holds_and, List.map_map]
    refine Eq.trans ?_ (holds_and row members).symm
    exact (allHold_congr (below members rfl)).trans (congrArg (allHold row) members.map_id)
  | any members =>
    rw [entryTree_or, Tree.toWhere_any, holds_or, List.map_map]
    refine Eq.trans ?_ (holds_or row members).symm
    exact (someHolds_congr (below members rfl)).trans (congrArg (someHolds row) members.map_id)
  | group group noList => rw [entryTree_group group noList, Tree.toWhere_leaf]
  | field plain =>
    rw [entryTree_field plain, Tree.holds_joint, holds_field plain, fieldHolds_eq plain, List.map_map]
    rfl

/-- The expanded form has the same answer, and the same fault. -/
theorem holds_expanded [Attributes] (row w : Value) : holds row (expanded w) = holds row w := by
  induction w using where_induction with
  | other w h => rw [expanded, tree_of_not_isMap h, Tree.toWhere_leaf]
  | map entries below =>
    have each : ∀ e ∈ entries, holds row (entryTree e).toWhere = holds row (.map [e]) :=
      fun e he => holds_entryTree fun members list => below e.1 members (list ▸ he)
    rw [expanded, tree_map, Tree.holds_joint, List.map_map, holds, entriesHold_eq]
    exact allHold_congr each

/-! ## The leaves -/

/-- What is not expanded further: a single comparison of a field, a group that is no list, the empty mapping, and
what is no mapping. -/
inductive IsPart : Value → Prop
  | comparison {key : Scalar} {condition : Value} (plain : ¬ IsGroup key)
      (one : (Operator.conditions condition).length = 1) : IsPart (.map [(key, condition)])
  | group {key : Scalar} {v : Value} (group : IsGroup key) (noList : ∀ members, v ≠ .list members) :
      IsPart (.map [(key, v)])
  | empty : IsPart (.map [])
  | other {w : Value} (h : w.isMap = false) : IsPart w

theorem Tree.mem_leaves_joint {branches : List Tree} {part : Value} (mem : part ∈ (joint branches).leaves) :
    part = .map [] ∨ ∃ t ∈ branches, part ∈ t.leaves := by
  obtain ⟨rfl, eq⟩ | ⟨-, eq, -⟩ := joint_cases branches
  · exact .inl (by simpa [eq] using mem)
  · exact .inr (by simpa [eq] using mem)

theorem isPart_of_mem_leaves {w part : Value} (mem : part ∈ (tree w).leaves) : IsPart part := by
  induction w using where_induction generalizing part with
  | other w h =>
    rw [tree_of_not_isMap h, Tree.leaves_leaf, List.mem_singleton] at mem
    exact mem ▸ .other h
  | map entries below =>
    rw [tree_map] at mem
    obtain rfl | ⟨t, ht, mem⟩ := Tree.mem_leaves_joint mem
    · exact .empty
    obtain ⟨e, he, rfl⟩ := List.mem_map.1 ht
    cases entryCase e with
    | all members =>
      simp only [entryTree_and, Tree.leaves_all, List.flatMap_map, List.mem_flatMap] at mem
      obtain ⟨w, hw, mem⟩ := mem
      exact below _ members he w hw mem
    | any members =>
      simp only [entryTree_or, Tree.leaves_any, List.flatMap_map, List.mem_flatMap] at mem
      obtain ⟨w, hw, mem⟩ := mem
      exact below _ members he w hw mem
    | group group noList =>
      rw [entryTree_group group noList, Tree.leaves_leaf, List.mem_singleton] at mem
      exact mem ▸ .group group noList
    | field plain =>
      rw [entryTree_field plain] at mem
      obtain rfl | ⟨t, ht, mem⟩ := Tree.mem_leaves_joint mem
      · exact .empty
      obtain ⟨c, hc, rfl⟩ := List.mem_map.1 ht
      rw [Tree.leaves_leaf, List.mem_singleton] at mem
      exact mem ▸ .comparison plain (Operator.conditions_length hc)

theorem tree_part {part : Value} (h : IsPart part) : tree part = .leaf part := by
  cases h with
  | comparison plain one =>
    rw [tree_map, List.map_singleton, joint, entryTree_field plain, Operator.comparisons_of_one one]
    rfl
  | group group noList => rw [tree_map, List.map_singleton, joint, entryTree_group group noList]
  | empty => rfl
  | other h => exact tree_of_not_isMap h

theorem Tree.tree_toWhere {t : Tree} (h : ∀ part ∈ t.leaves, IsPart part) : tree t.toWhere = t := by
  have each {branches : List Tree} (ih : ∀ t ∈ branches, (∀ part ∈ t.leaves, IsPart part) → tree t.toWhere = t)
      (h : ∀ part ∈ branches.flatMap Tree.leaves, IsPart part) : (branches.map toWhere).map tree = branches := by
    rw [List.map_map]
    refine (List.map_congr_left fun t ht => ?_).trans branches.map_id
    exact ih t ht fun part mem => h part (List.mem_flatMap.2 ⟨t, ht, mem⟩)
  induction t with
  | leaf part => exact tree_part (h part (by simp))
  | all branches ih =>
    rw [leaves_all] at h
    rw [toWhere_all, Value.ofFields, List.map_singleton, tree_map, List.map_singleton, entryTree_and, each ih h, joint]
  | any branches ih =>
    rw [leaves_any] at h
    rw [toWhere_any, Value.ofFields, List.map_singleton, tree_map, List.map_singleton, entryTree_or, each ih h, joint]

/-- The expanded form is fully expanded. -/
theorem expanded_expanded (w : Value) : expanded (expanded w) = expanded w := by
  rw [expanded, expanded, Tree.tree_toWhere fun part => isPart_of_mem_leaves]

/-! ## Reordering -/

/-- One where is another whose keys, operators or group members are in another order, at any depth. -/
inductive Reordered : Value → Value → Prop
  | refl (w : Value) : Reordered w w
  | trans {w w' w'' : Value} (first : Reordered w w') (second : Reordered w' w'') : Reordered w w''
  | keys {entries entries' : List (Scalar × Value)} (perm : entries.Perm entries') :
      Reordered (.map entries) (.map entries')
  | operators {before after operators operators' : List (Scalar × Value)} {key : Scalar} (plain : ¬ IsGroup key)
      (named : (Operator.ofEntries? operators).isSome = true) (perm : operators.Perm operators') :
      Reordered (.map (before ++ (key, .map operators) :: after)) (.map (before ++ (key, .map operators') :: after))
  | members {before after : List (Scalar × Value)} {key : Scalar} {members members' : List Value}
      (group : IsGroup key) (perm : members.Perm members') :
      Reordered (.map (before ++ (key, .list members) :: after)) (.map (before ++ (key, .list members') :: after))
  | inside {before after : List (Scalar × Value)} {key : Scalar} {first last : List Value} {w w' : Value}
      (group : IsGroup key) (here : Reordered w w') :
      Reordered (.map (before ++ (key, .list (first ++ w :: last)) :: after))
        (.map (before ++ (key, .list (first ++ w' :: last)) :: after))

theorem alike_operators {operators operators' : List (Scalar × Value)} {key : Scalar} (plain : ¬ IsGroup key)
    (named : (Operator.ofEntries? operators).isSome = true) (perm : operators.Perm operators') :
    Alike (entryTree (key, .map operators)) (entryTree (key, .map operators')) := by
  have each := Operator.ofEntries?_isSome.1 named
  rw [entryTree_field plain, entryTree_field plain]
  -- No operators at all are a plain value, not a mapping of operators.
  by_cases empty : operators = []
  · subst empty
    rw [perm.nil_eq]
    exact .refl _
  · have nonempty : operators' ≠ [] := fun empty' => empty (by simpa [empty'] using perm)
    rw [Operator.comparisons_of_operators empty each,
      Operator.comparisons_of_operators nonempty fun e he => each e (perm.mem_iff.2 he)]
    exact (EachAlike.of_perm ((perm.map _).map _)).joint

theorem alike_members {key : Scalar} {members members' : List Value} (group : IsGroup key)
    (each : EachAlike (members.map tree) (members'.map tree)) :
    Alike (entryTree (key, .list members)) (entryTree (key, .list members')) := by
  obtain rfl | rfl := group
  · rw [entryTree_and, entryTree_and]
    exact each.all
  · rw [entryTree_or, entryTree_or]
    exact each.any

theorem alike_entry {before after : List (Scalar × Value)} {e e' : Scalar × Value}
    (here : Alike (entryTree e) (entryTree e')) :
    Alike (tree (.map (before ++ e :: after))) (tree (.map (before ++ e' :: after))) := by
  rw [tree_map, tree_map, List.map_append, List.map_append, List.map_cons, List.map_cons]
  exact (EachAlike.of_one here).joint

/-- Reordering leaves the leaves and the truth value as they are. -/
theorem Reordered.alike {w w' : Value} (h : Reordered w w') : Alike (tree w) (tree w') := by
  induction h with
  | refl w => exact .refl _
  | trans first second ih ih' => exact ih.trans ih'
  | keys perm =>
    rw [tree_map, tree_map]
    exact (EachAlike.of_perm (perm.map entryTree)).joint
  | operators plain named perm => exact alike_entry (alike_operators plain named perm)
  | members group perm => exact alike_entry (alike_members group (.of_perm (perm.map tree)))
  | inside group here ih =>
    refine alike_entry (alike_members group ?_)
    rw [List.map_append, List.map_append, List.map_cons, List.map_cons]
    exact .of_one ih

/-- **A where is the conjunction of its parts**: written out it gives the same, faults included, and if none of the
parts is a fault it is the truth value of the tree over them, in whatever order they stand. -/
theorem holds_parts [Attributes] (row w : Value) :
    holds row (expanded w) = holds row w ∧ (∀ part ∈ (tree w).leaves, IsPart part) ∧
    ((∀ part ∈ (tree w).leaves, Decides part row) →
      holds row w = .ok ((tree w).eval fun part => accepts part row) ∧
      ∀ w', Reordered w w' → holds row w' = holds row w) := by
  refine ⟨holds_expanded row w, fun part => isPart_of_mem_leaves, fun decides => ?_⟩
  have value {v : Value} (decides : ∀ part ∈ (tree v).leaves, Decides part row) :
      holds row v = .ok ((tree v).eval fun part => accepts part row) := by
    rw [← holds_expanded, expanded, Tree.holds_toWhere decides]
  refine ⟨value decides, fun w' reordered => ?_⟩
  have alike := reordered.alike
  rw [value decides, value fun part mem => decides part ((alike.leaves part).2 mem), alike.eval]

/-- Operators, members and keys in another order. -/
theorem holds_reversed :
    let row : Value := .ofFields [("name", .text "oslo"), ("zone", .text "b")]
    let zone (operators : List (String × Value)) : String × Value := ("zone", .ofFields operators)
    let name (s : String) : Value := .ofFields [("name", .text s)]
    let w : Value := .ofFields [zone [("gte", .text "a"), ("neq", .text "c")], ("or", .list [name "bergen", name "oslo"])]
    let w' : Value := .ofFields [("or", .list [name "oslo", name "bergen"]), zone [("neq", .text "c"), ("gte", .text "a")]]
    holds row w = .ok true ∧ holds row w' = .ok true := by
  intro row zone name w w'
  have leaves : (tree w).leaves = [.ofFields [zone [("gte", .text "a")]], .ofFields [zone [("neq", .text "c")]],
      name "bergen", name "oslo"] := rfl
  have decides : ∀ part ∈ (tree w).leaves, Decides part row := by
    rw [leaves]
    simp only [List.forall_mem_cons, List.not_mem_nil, false_imp_iff, implies_true, and_true]
    exact ⟨⟨true, rfl⟩, ⟨true, rfl⟩, ⟨false, rfl⟩, ⟨true, rfl⟩⟩
  have operators : Reordered w (.ofFields [zone [("neq", .text "c"), ("gte", .text "a")],
      ("or", .list [name "bergen", name "oslo"])]) :=
    @Reordered.operators [] _ _ _ (.text "zone") (by decide) rfl (.swap _ _ _)
  have members : Reordered _ (.ofFields [zone [("neq", .text "c"), ("gte", .text "a")],
      ("or", .list [name "oslo", name "bergen"])]) :=
    operators.trans (@Reordered.members [_] [] (.text "or") _ _ (.inr rfl) (.swap _ _ _))
  obtain ⟨value, reordered⟩ := (holds_parts row w).2.2 decides
  have true' : holds row w = .ok true := value
  exact ⟨true', (reordered w' (members.trans (.keys (.swap _ _ _)))).trans true'⟩

/-- A group that is no list is a fault, unless an alternative before it holds: so the order of the alternatives counts
although the one comparison decides. -/
theorem fault_after_comparison :
    let row : Value := .ofFields [("name", .text "oslo")]
    let comparison : Value := .ofFields [("name", .text "oslo")]
    let group : Value := .ofFields [("and", .int 5)]
    let w : Value := .ofFields [("or", .list [comparison, group])]
    let w' : Value := .ofFields [("or", .list [group, comparison])]
    (∀ key condition, .map [(key, condition)] ∈ (tree w).leaves → ¬ IsGroup key →
      Decides (.map [(key, condition)]) row) ∧
    Reordered w w' ∧ holds row w = .ok true ∧ holds row w' = .error (.notIterable .int) := by
  intro row comparison group w w'
  refine ⟨fun key condition mem plain => ?_, ?_, rfl, rfl⟩
  · have leaves : (tree w).leaves = [comparison, group] := rfl
    rw [leaves, List.mem_pair] at mem
    obtain eq | eq := mem
    · exact ⟨true, by rw [eq]; rfl⟩
    · obtain ⟨rfl, -⟩ : .text "and" = key ∧ .int 5 = condition := by simpa [group, Value.ofFields, eq_comm] using eq
      exact absurd (.inl rfl) plain
  · exact @Reordered.members [] [] (.text "or") _ _ (.inr rfl) (.swap _ _ _)

end Where
end Semijoin
