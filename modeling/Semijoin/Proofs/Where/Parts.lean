import Semijoin.Where.Basic

/-!
# The parts of a where

A where holds if its entries do, each taken as a where of its own, and they are asked in the same order with the
same faults. An entry is a group, which asks its members, or the condition on a field, which asks its operators.
-/

namespace Semijoin
set_option autoImplicit false

namespace Where

/-- The keys under which a where has groups of wheres. -/
def IsGroup (key : Scalar) : Prop := key = .text "and" ∨ key = .text "or"

instance (key : Scalar) : Decidable (IsGroup key) := inferInstanceAs (Decidable (_ ∨ _))

theorem not_isGroup {name : String} (plain : name ≠ "and" ∧ name ≠ "or") : ¬ IsGroup (.text name) := by
  simpa [IsGroup] using plain

/-- Asking nothing more after an answer is that answer. -/
theorem asked_last (x : Except Fault Bool) : (do if ← x then .ok true else return false) = x := by
  cases x with
  | error f => rfl
  | ok b => cases b <;> rfl

variable [Attributes] {row : Value} {key : Scalar}

theorem holds_and (row : Value) (members : List Value) :
    holds row (.ofFields [("and", .list members)]) = allHold row members := by
  simp only [Value.ofFields, List.map_cons, List.map_nil, holds, entriesHold, if_true, groupHolds]
  exact asked_last _

theorem holds_or (row : Value) (members : List Value) :
    holds row (.ofFields [("or", .list members)]) = someHolds row members := by
  have other : (Scalar.text "or" = .text "and") = False := by simp
  simp only [Value.ofFields, List.map_cons, List.map_nil, holds, entriesHold, other, if_false, if_true, alternativeHolds]
  exact asked_last _

theorem holds_field (plain : ¬ IsGroup key) (row condition : Value) :
    holds row (.map [(key, condition)]) = fieldHolds row key condition := by
  obtain ⟨and', or'⟩ := not_or.1 plain
  simp only [holds, entriesHold, if_neg and', if_neg or']
  exact asked_last _

omit [Attributes] in
/-- A mapping with one operator is one condition. -/
theorem conditions_one {op : Operator} (named : Operator.ofKey? key = some op) (operand : Value) :
    Operator.conditions (.map [(key, operand)]) = [(op, operand)] := by
  simp [Operator.conditions, Operator.ofEntries?, named]

/-- The condition on a field with one operator. -/
theorem fieldHolds_one {condition operand : Value} {op : Operator}
    (one : Operator.conditions condition = [(op, operand)]) (row : Value) (key : Scalar) :
    fieldHolds row key condition = (do op.apply (← row.field (.scalar key)) operand) := by
  rw [fieldHolds, one]
  cases row.field (.scalar key) with
  | error f => rfl
  | ok v => exact asked_last _

/-- The first entry of a where is asked before the others. -/
theorem entriesHold_cons (row : Value) (e : Scalar × Value) (rest : List (Scalar × Value)) :
    entriesHold row (e :: rest) = do if ← holds row (.map [e]) then entriesHold row rest else return false := by
  have step (x : Except Fault Bool) : (do if ← x then entriesHold row rest else return false) =
      (do if ← (do if ← x then entriesHold row [] else return false) then entriesHold row rest else return false) := by
    rw [entriesHold, asked_last]
  obtain ⟨key, v⟩ := e
  simp only [holds, entriesHold.eq_2]
  split
  · exact step _
  · split <;> exact step _

/-- **A where asks its entries** one after the other. -/
theorem entriesHold_eq (row : Value) (entries : List (Scalar × Value)) :
    entriesHold row entries = allHold row (entries.map fun e => .map [e]) := by
  induction entries with
  | nil => rfl
  | cons e rest ih =>
    rw [entriesHold_cons, List.map_cons, allHold, ih]

/-- A group holds exactly if all of its members do. -/
theorem allHold_iff {row : Value} {members : List Value} :
    allHold row members = .ok true ↔ ∀ c ∈ members, holds row c = .ok true := by
  induction members with
  | nil => simp [allHold]
  | cons c rest ih =>
    rw [allHold, List.forall_mem_cons, ← ih]
    cases holds row c with
    | error f => simp [bind, Except.bind]
    | ok b => cases b <;> simp [bind, Except.bind, pure, Except.pure]

section Members

variable {α : Type} {members : List α} {where_ where' : α → Value} {truth : α → Bool}

/-- Groups are asked alike if their members are. -/
theorem allHold_congr (h : ∀ x ∈ members, holds row (where_ x) = holds row (where' x)) :
    allHold row (members.map where_) = allHold row (members.map where') := by
  induction members with
  | nil => rfl
  | cons x rest ih =>
    obtain ⟨here, later⟩ := List.forall_mem_cons.1 h
    rw [List.map_cons, List.map_cons, allHold, allHold, here, ih later]

theorem someHolds_congr (h : ∀ x ∈ members, holds row (where_ x) = holds row (where' x)) :
    someHolds row (members.map where_) = someHolds row (members.map where') := by
  induction members with
  | nil => rfl
  | cons x rest ih =>
    obtain ⟨here, later⟩ := List.forall_mem_cons.1 h
    rw [List.map_cons, List.map_cons, someHolds, someHolds, here, ih later]

/-- A group whose members are all decided holds if all of them do. -/
theorem allHold_settled (h : ∀ x ∈ members, holds row (where_ x) = .ok (truth x)) :
    allHold row (members.map where_) = .ok (members.all truth) := by
  induction members with
  | nil => rfl
  | cons x rest ih =>
    obtain ⟨here, later⟩ := List.forall_mem_cons.1 h
    rw [List.map_cons, allHold, here, ih later, List.all_cons]
    cases truth x <;> rfl

/-- An alternative whose members are all decided holds if some of them does. -/
theorem someHolds_settled (h : ∀ x ∈ members, holds row (where_ x) = .ok (truth x)) :
    someHolds row (members.map where_) = .ok (members.any truth) := by
  induction members with
  | nil => rfl
  | cons x rest ih =>
    obtain ⟨here, later⟩ := List.forall_mem_cons.1 h
    rw [List.map_cons, someHolds, here, ih later, List.any_cons]
    cases truth x <;> rfl

end Members

end Where

end Semijoin
