import Semijoin.Access.Basic
import Semijoin.Proofs.Schema.Accepted
import Semijoin.Proofs.Where.Parts

/-!
# What a where selects

A select keeps the rows that its where holds of, if none of them is a fault. A membership condition holds
of a row if the row's column equals some member.
-/

namespace Semijoin
set_option autoImplicit false

namespace Where

variable [Attributes]

/-- Whether a where holds of a row; a fault counts as no. -/
def accepts (condition row : Value) : Bool :=
  match holds row condition with
  | .ok b => b
  | .error _ => false

theorem accepts_of_holds {condition row : Value} {b : Bool} (h : holds row condition = .ok b) :
    accepts condition row = b := by rw [accepts, h]

theorem accepts_iff {condition row : Value} : accepts condition row = true ↔ holds row condition = .ok true := by
  unfold accepts
  cases holds row condition <;> simp

/-- A where is no fault on a row. -/
def Decides (condition row : Value) : Prop := ∃ b, holds row condition = .ok b

theorem Decides.holds_eq {condition row : Value} (h : Decides condition row) :
    holds row condition = .ok (accepts condition row) := by
  obtain ⟨b, eq⟩ := h
  rw [accepts_of_holds eq, eq]

theorem allHold_decides {row : Value} {members : List Value} (h : ∀ c ∈ members, Decides c row) :
    ∃ b, allHold row members = .ok b := by
  induction members with
  | nil => exact ⟨true, rfl⟩
  | cons c rest ih =>
    obtain ⟨⟨b, here⟩, later⟩ := List.forall_mem_cons.1 h
    rw [allHold, here]
    cases b with
    | false => exact ⟨false, rfl⟩
    | true => exact ih later

theorem select_eq {condition : Value} {rows : List Value} (h : ∀ row ∈ rows, Decides condition row) :
    select condition rows = .ok (rows.filter (accepts condition)) := by
  induction rows with
  | nil => rfl
  | cons row rest ih =>
    have later := ih fun r hr => h r (by simp [hr])
    rw [select, (h row (by simp)).holds_eq, later, List.filter_cons]
    cases accepts condition row <;> rfl

/-- A select that succeeds met no fault on any row. -/
theorem decides_of_select {condition : Value} {rows found : List Value} (h : select condition rows = .ok found) :
    ∀ row ∈ rows, Decides condition row := by
  induction rows generalizing found with
  | nil => simp
  | cons row rest ih =>
    rw [select] at h
    obtain ⟨b, here, h⟩ := bind_eq_ok.1 h
    refine List.forall_mem_cons.2 ⟨⟨b, here⟩, ?_⟩
    cases b with
    | false => exact ih h
    | true =>
      obtain ⟨later, eq, -⟩ := bind_eq_ok.1 h
      exact ih eq

/-- A select gives rows of the table. -/
theorem mem_of_select {condition : Value} {rows found : List Value} (h : select condition rows = .ok found) :
    found ⊆ rows := by
  induction rows generalizing found with
  | nil =>
    cases h
    simp
  | cons row rest ih =>
    rw [select] at h
    obtain ⟨b, -, h⟩ := bind_eq_ok.1 h
    cases b with
    | false => exact List.subset_cons_of_subset _ (ih h)
    | true =>
      obtain ⟨later, eq, h⟩ := bind_eq_ok.1 h
      cases h
      exact List.cons_subset_cons _ (ih eq)

/-- What counts as false holds of every row. -/
theorem holds_of_falsy {condition : Value} (row : Value) (h : condition.truthy = false) :
    holds row condition = .ok true := by
  cases condition with
  | scalar s => simp [holds, scalarHolds, h]
  | list items => cases items <;> simp_all [holds, Value.truthy]
  | map entries => cases entries <;> simp_all [holds, entriesHold, Value.truthy]
  | record fields => cases h

/-- The condition on a column of a mapping with one operator applies it to the column. -/
theorem holds_column {row : Value} (mapping : row.isMap = true) {s : String} (plain : s ≠ "and" ∧ s ≠ "or")
    {condition operand : Value} {op : Operator} (one : Operator.conditions condition = [(op, operand)]) :
    holds row (.map [(.text s, condition)]) = op.apply (row.column (.text s)) operand := by
  rw [holds_field (not_isGroup plain), fieldHolds_one one, Value.field_text mapping]
  rfl

/-- A membership condition compares the row's column with each member. -/
theorem holds_membership {row : Value} (mapping : row.isMap = true) {s : String} (plain : s ≠ "and" ∧ s ≠ "or")
    (members : List Value) : holds row (membership (.text s) members) =
      .ok (members.any fun member => member.same (row.column (.text s))) := by
  have one : Operator.conditions (.ofFields [("in", .list members)]) = [(.among, .list members)] := conditions_one rfl _
  exact holds_column mapping plain one

/-- A membership condition on scalars holds of the rows whose scalar is one of them. -/
theorem holds_scalars {row : Value} (mapping : row.isMap = true) {s : String} (plain : s ≠ "and" ∧ s ≠ "or")
    (key : row.HoldsScalar (.text s)) (keys : List Scalar) :
    holds row (membership (.text s) (keys.map .scalar)) = .ok ((row.columnKey (.text s)).isIn keys) := by
  rw [holds_membership mapping plain, key.column_eq]
  simp [Scalar.isIn, Value.same_scalar, Function.comp_def]

theorem holds_keys {row : Value} (mapping : row.isMap = true) {s : String} (plain : s ≠ "and" ∧ s ≠ "or")
    (key : row.HoldsKey (.text s)) (keys : List Scalar) :
    holds row (membership (.text s) (keys.map .scalar)) = .ok ((row.columnKey (.text s)).isIn keys) :=
  holds_scalars mapping plain key.scalar keys

/-- One of two alternatives holds if either does. -/
theorem holds_either {row c₁ c₂ : Value} {a b : Bool} (first : holds row c₁ = .ok a) (second : holds row c₂ = .ok b) :
    holds row (.ofFields [("or", .list [c₁, c₂])]) = .ok (a || b) := by
  rw [holds_or, someHolds, someHolds, first, second]
  cases a <;> cases b <;> rfl

/-- A group of two holds if both do. -/
theorem holds_both {row c₁ c₂ : Value} {a b : Bool} (first : holds row c₁ = .ok a) (second : holds row c₂ = .ok b) :
    holds row (.ofFields [("and", .list [c₁, c₂])]) = .ok (a && b) := by
  rw [holds_and, allHold, allHold, first, second]
  cases a <;> cases b <;> rfl

/-- Comparing a column of a mapping with a scalar is no fault. -/
theorem decides_scalar {row : Value} (mapping : row.isMap = true) {s : String} (plain : s ≠ "and" ∧ s ≠ "or")
    (k : Scalar) : Decides (.ofFields [(s, .scalar k)]) row := by
  have one : Operator.conditions (.scalar k) = [(.eq, .scalar k)] := rfl
  exact ⟨_, holds_column mapping plain one⟩

end Where

end Semijoin
