import Semijoin.Proofs.Path.Visits
import Semijoin.Proofs.Value.Mirror
import Semijoin.Proofs.Where.Parts

/-!
# Derived operators

Membership is an alternative of equalities and its negation a conjunction of inequalities, since an item other than NaN
is found in the place of a field exactly if the field equals the item. A range is the conjunction of its bounds: it
compares the lower one from the operand, so where the two have no order the faults are the mirror images of one another.
-/

namespace Semijoin
set_option autoImplicit false

namespace Where

/-- The where of one field with its operators and operands. -/
def condition (name : String) (operators : List (String × Value)) : Value := .ofFields [(name, .ofFields operators)]

/-- Two answers are the same truth value, or both that two values have no order. -/
inductive Agree : Except Fault Bool → Except Fault Bool → Prop
  | value (b : Bool) : Agree (.ok b) (.ok b)
  | unordered (op op' : Comparison) (left right left' right' : Kind) :
      Agree (.error (.unordered op left right)) (.error (.unordered op' left' right'))

section Derived

variable [Attributes] {name : String}

/-- A condition with one operator applies it to the field. -/
theorem holds_operator (plain : name ≠ "and" ∧ name ≠ "or") (row : Value) {key : String} (op : Operator)
    (named : Operator.ofKey? (.text key) = some op) (operand : Value) :
    holds row (condition name [(key, operand)]) = op.apply (row.under name) operand := by
  refine (holds_field (not_isGroup plain) row _).trans ((fieldHolds_one (conditions_one named operand) row _).trans ?_)
  rw [Value.field_eq_under]
  rfl

section Membership

variable (plain : name ≠ "and" ∧ name ≠ "or") {row : Value} (field : (row.under name).KeyedOnce) {items : List Value}
  (each : ∀ x ∈ items, x.KeyedOnce ∧ x.isNan = false)
include plain field each

/-- An alternative of equalities is membership. -/
theorem holds_equalities : holds row (.ofFields [("or", .list (items.map fun x => condition name [("eq", x)]))]) =
    .ok (items.any fun x => x.same (row.under name)) := by
  refine (holds_or row _).trans (someHolds_settled fun x hx => ?_)
  obtain ⟨once, number⟩ := each x hx
  rw [holds_operator plain row _ rfl, Operator.apply, Value.equals_eq_same number, field.same_comm once]

/-- A conjunction of inequalities is membership negated. -/
theorem holds_inequalities : holds row (.ofFields [("and", .list (items.map fun x => condition name [("neq", x)]))]) =
    .ok (!items.any fun x => x.same (row.under name)) := by
  rw [List.not_any_eq_all_not]
  refine (holds_and row _).trans (allHold_settled fun x hx => ?_)
  obtain ⟨once, number⟩ := each x hx
  rw [holds_operator plain row _ rfl, Operator.apply, Value.equals_eq_same number, field.same_comm once]

end Membership

theorem holds_bounds (plain : name ≠ "and" ∧ name ≠ "or") (row low high : Value) :
    holds row (condition name [("gte", low), ("lte", high)]) = (do
      if ← Operator.ordered .ge (row.under name) low then Operator.ordered .le (row.under name) high
      else return false) := by
  refine (holds_field (not_isGroup plain) row _).trans ?_
  have two : Operator.conditions (.ofFields [("gte", low), ("lte", high)]) = [(.gte, low), (.lte, high)] := rfl
  rw [fieldHolds, two, Value.field_eq_under]
  show conditionsHold _ _ = _
  simp only [conditionsHold, asked_last]
  rfl

omit [Attributes] in
/-- A range holds as its two bounds do, and is a fault when they are. -/
theorem between_agrees {v low high : Value} (field : v.KeyedOnce) (least : low.KeyedOnce) :
    Agree (Operator.isBetween v (.list [low, high]))
      (do if ← Operator.ordered .ge v low then Operator.ordered .le v high else return false) := by
  unfold Operator.isBetween Operator.ordered
  cases v.isNull with
  | true => exact .value false
  | false =>
    have turned : v.compare .ge low = (low.compare .le v).mapError Fault.mirror := least.compare_mirror field .le
    simp only [Bool.false_eq_true, if_false, turned]
    show Agree (do if ← low.compare .le v then v.compare .le high else return false) _
    obtain ⟨b, eq⟩ | ⟨left, right, eq⟩ := Value.compare_outcome .le low v
    · rw [eq]
      cases b with
      | false => exact .value false
      | true =>
        show Agree (v.compare .le high) (v.compare .le high)
        obtain ⟨b, eq⟩ | ⟨left, right, eq⟩ := Value.compare_outcome .le v high
        · exact eq ▸ .value b
        · exact eq ▸ .unordered ..
    · rw [eq]
      exact .unordered ..

/-- **Derived operators equal their definitions**, for any field of any row: membership is an alternative of equalities,
its negation a conjunction of inequalities, and a range the conjunction of its bounds. Of the items none is NaN, which a
list holds although it equals nothing. -/
theorem derived_operators (row : Value) (plain : name ≠ "and" ∧ name ≠ "or") (field : (row.under name).KeyedOnce) :
    (∀ items : List Value, (∀ x ∈ items, x.KeyedOnce ∧ x.isNan = false) →
      let among := holds row (condition name [("in", .list items)])
      let notAmong := holds row (condition name [("nin", .list items)])
      among = holds row (.ofFields [("or", .list (items.map fun x => condition name [("eq", x)]))]) ∧
      holds row (condition name [("inq", .list items)]) = among ∧
      notAmong = holds row (.ofFields [("and", .list (items.map fun x => condition name [("neq", x)]))]) ∧
      ∃ b, among = .ok b ∧ notAmong = .ok (!b)) ∧
    ∀ low high : Value, low.KeyedOnce →
      Agree (holds row (condition name [("between", .list [low, high])]))
        (holds row (condition name [("gte", low), ("lte", high)])) := by
  refine ⟨fun items each => ?_, fun low high least => ?_⟩
  · have among : holds row (condition name [("in", .list items)]) = .ok (items.any fun x => x.same (row.under name)) :=
      holds_operator plain row .among rfl _
    have notAmong : holds row (condition name [("nin", .list items)]) =
        .ok (!items.any fun x => x.same (row.under name)) := holds_operator plain row .notAmong rfl _
    refine ⟨among.trans (holds_equalities plain field each).symm, ?_,
      notAmong.trans (holds_inequalities plain field each).symm, _, among, notAmong⟩
    exact (holds_operator plain row .amongAlso rfl _).trans among.symm
  · rw [holds_operator plain row .between rfl, holds_bounds plain]
    exact between_agrees field least

end Derived

/-- A list of a number and a text among lists, and next to bounds that have no order with it. -/
theorem derived_operators_size :
    let row : Value := .ofFields [("size", .list [.int 1, .text "m"])]
    let items : List Value := [.ofFields [("unit", .null)], .list [.bool true, .text "m"]]
    let low : Value := .list [.bool true, .int 2]
    holds row (condition "size" [("in", .list items)]) =
        holds row (.ofFields [("or", .list (items.map fun x => condition "size" [("eq", x)]))]) ∧
      holds row (condition "size" [("nin", .list items)]) =
        holds row (.ofFields [("and", .list (items.map fun x => condition "size" [("neq", x)]))]) ∧
      Agree (holds row (condition "size" [("between", .list [low, .null])]))
        (holds row (condition "size" [("gte", low), ("lte", .null)])) := by
  intro row items low
  have field : (row.under "size").KeyedOnce := .of_isDocument (by decide)
  have each : ∀ x ∈ items, x.KeyedOnce ∧ x.isNan = false := fun x hx =>
    ⟨.of_isDocument (by revert x; decide), by revert x; decide⟩
  obtain ⟨members, bounds⟩ := derived_operators row (by decide) field
  obtain ⟨among, -, notAmong, -⟩ := members items each
  exact ⟨among, notAmong, bounds low .null (.of_isDocument (by decide))⟩

end Where

end Semijoin
