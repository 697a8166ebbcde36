import Semijoin.Access.Fixed
import Semijoin.Proofs.Reversal.Condition
import Semijoin.Proofs.Reversal.Scalars

/-!
# Dropping repeated ids

A reversal that is run twice from one state, once with all ids and once with the repeated ones dropped, makes the same
find and collects the same ids. The first of equal ids are left of them, which may be of another kind than those that
are dropped: true is dropped after 1, and 1 after true. What equals some id equals one that is left, so the two
conditions hold of the same rows.
-/

namespace Semijoin
set_option autoImplicit false

namespace Where

variable [Attributes]

/-- Whether a where on a field's membership holds depends on the members only as far as values equal some of them. -/
theorem holds_membership_congr {members members' : List Value}
    (alike : ∀ v : Value, members.any (·.same v) = members'.any (·.same v)) (row : Value) (f : Scalar) :
    holds row (membership f members) = holds row (membership f members') := by
  have one (ms : List Value) : Operator.conditions (.ofFields [("in", .list ms)]) = [(.among, .list ms)] :=
    conditions_one rfl _
  have fields : fieldHolds row f (.ofFields [("in", .list members)]) =
      fieldHolds row f (.ofFields [("in", .list members')]) := by
    simp only [fieldHolds_one (one _), Operator.apply, Value.isIn, alike]
  -- under the name of a group the names of operators are read and not their operands
  have groups : groupHolds row (.ofFields [("in", .list members)]) =
      groupHolds row (.ofFields [("in", .list members')]) := rfl
  have alternatives : alternativeHolds row (.ofFields [("in", .list members)]) =
      alternativeHolds row (.ofFields [("in", .list members')]) := rfl
  simp only [membership, holds, entriesHold, fields, groups, alternatives]

/-- Wheres that are decided alike on rows select the same of them. -/
theorem select_congr {c c' : Value} {rows : List Value} (alike : ∀ row ∈ rows, holds row c = holds row c') :
    select c rows = select c' rows := by
  induction rows with
  | nil => rfl
  | cons row rest ih =>
    obtain ⟨here, later⟩ := List.forall_mem_cons.1 alike
    rw [select, select, here, ih later]

end Where

namespace Scalar

/-- A value equals one of some scalars if it equals one of the first of them. -/
theorem any_same_firsts (keys : List Scalar) (v : Value) :
    ((firsts keys).map Value.scalar).any (·.same v) = (keys.map Value.scalar).any (·.same v) := by
  have never {w : Value} (other : ∀ k : Scalar, (Value.scalar k).same w = false) (members : List Scalar) :
      (members.map Value.scalar).any (·.same w) = false := by
    simp [other]
  rw [← distinct_eq_firsts]
  cases v with
  | scalar k => simpa [isIn, Function.comp_def, Value.same_scalar] using isIn_distinct k keys
  | list items => rw [never (fun _ => by simp [Value.same]), never (fun _ => by simp [Value.same])]
  | map entries => rw [never (fun _ => by simp [Value.same]), never (fun _ => by simp [Value.same])]
  | record fields => rw [never (fun _ => by simp [Value.same]), never (fun _ => by simp [Value.same])]

end Scalar

namespace Reversal

variable [Attributes]

/-- From rows of which a plan makes conditions with and without repeated ids, the same keys are collected. -/
theorem Plan.conditions_eq_ok {p : Plan} {options : Options} {found r r' : Value}
    (all : p.condition { options with deduplicate := false } found = .ok r)
    (once : p.condition { options with deduplicate := true } found = .ok r') :
    ∃ f keys, r = membership f (keys.map .scalar) ∧ r' = membership f ((Scalar.firsts keys).map .scalar) ∧
      .null ∉ keys := by
  obtain ⟨ids, kept, f, collected, keep, key, rfl⟩ := condition_eq_ok.1 all
  obtain ⟨ids', kept', f', collected', keep', key', rfl⟩ := condition_eq_ok.1 once
  obtain rfl : ids = ids' := Except.ok.inj (collected.symm.trans collected')
  obtain rfl : f = f' := Except.ok.inj (key.symm.trans key')
  obtain rfl : ids = kept := Except.ok.inj keep
  obtain ⟨keys, rfl⟩ := exists_keys (keyed_of_distinctIds keep')
  have first : (Scalar.distinct keys).map Value.scalar = kept' := Except.ok.inj ((distinctIds_eq keys).symm.trans keep')
  have set : ∀ id ∈ keys.map Value.scalar, id.isNull = false :=
    Plan.ids_forall (fun _ _ _ _ _ leaves => Path.leavesFrom_not_null leaves) collected
  refine ⟨f, keys, rfl, by rw [← first, Scalar.distinct_eq_firsts], fun null => ?_⟩
  simpa [Value.isNull] using set _ (List.mem_map_of_mem null)

/-- **Dropping repeated ids is exact and selects the same rows.** Where a reversal succeeds with repeated ids kept and
with repeated ids dropped, from one state over one access, it collects the same ids, none of them null. The members of
the second condition are the first of every group of equal ids in their order, no two of them equal; the conditions
are decided alike on every row, and so select the same rows. -/
theorem run_deduplicates {σ : Type} (access : Access σ) (schema : Schema) (options : Options) (root : String)
    (path : List Value) (condition : Value) {s after after' : σ} {r r' : Value}
    (all : (run access schema { options with deduplicate := false } root path condition).step s = (.ok r, after))
    (once : (run access schema { options with deduplicate := true } root path condition).step s = (.ok r', after')) :
    ∃ f keys, r = membership f (keys.map .scalar) ∧ r' = membership f ((Scalar.firsts keys).map .scalar) ∧
      .null ∉ keys ∧ (Scalar.firsts keys).Sublist keys ∧ (Scalar.firsts keys).Pairwise (fun a b => a.same b = false) ∧
      (∀ k ∈ keys, ∃ m ∈ Scalar.firsts keys, m = k ∨ m.same k = true) ∧
      (∀ row, Where.holds row r' = Where.holds row r) ∧ (∀ rows, Where.select r' rows = Where.select r rows) ∧
      after' = after := by
  obtain ⟨p, planned, runs⟩ := Action.step_ofExcept_bind_eq_ok all
  obtain ⟨p', planned', runs'⟩ := Action.step_ofExcept_bind_eq_ok once
  obtain rfl : p = p' := Except.ok.inj (planned.symm.trans planned')
  obtain ⟨found, _, fetched, made⟩ := Action.step_bind_eq_ok runs
  obtain ⟨found', _, fetched', made'⟩ := Action.step_bind_eq_ok runs'
  obtain ⟨ok, rfl⟩ := Prod.mk.inj (fetched.symm.trans fetched')
  cases ok
  obtain ⟨condition_, rfl⟩ := Action.step_ofExcept_eq_ok made
  obtain ⟨condition', rfl⟩ := Action.step_ofExcept_eq_ok made'
  obtain ⟨f, keys, rfl, rfl, set⟩ := Plan.conditions_eq_ok condition_ condition'
  have alike (row : Value) := Where.holds_membership_congr (Scalar.any_same_firsts keys) row f
  have left : ∀ k ∈ keys, ∃ m ∈ Scalar.firsts keys, m = k ∨ m.same k = true := fun k mem => by
    obtain ⟨m, kept, same⟩ := Scalar.mem_distinct mem
    exact ⟨m, Scalar.distinct_eq_firsts keys ▸ kept, .inr same⟩
  exact ⟨f, keys, rfl, rfl, set, Scalar.firsts_sublist keys, Scalar.firsts_pairwise keys, left, alike,
    fun rows => Where.select_congr fun row _ => alike row, rfl⟩

end Reversal

namespace Orders

/-- The buyers that some orders name: true, 1, ann, 1.0 and ann again. -/
def named : List Scalar := [.bool true, .int 1, .text "ann", .float (.finite false Binary64.unitsPerOne), .text "ann"]

/-- A person with these orders, and one more that names no buyer. -/
def repeated : Value := .list [.ofFields [("id", .text "ann"),
  ("bought", .list ((.null :: named).map fun k => .ofFields [("buyer_id", .scalar k)]))]]

/-- What a reversal over these orders comes to. -/
def ReversesTo [Attributes] (deduplicate : Bool) (members : List Scalar) : Prop :=
  (Reversal.run (FixedAnswer.records repeated).access schema { deduplicate := deduplicate } "Person"
    [.text "sold", .text "buyer"] .null).step [] = (.ok (membership (.text "id") (members.map .scalar)),
      [⟨"Person", .map [], .ofFields [("relation", .text "bought")]⟩])

theorem reversesTo_named : ReversesTo false named := rfl

theorem distinct_named : Scalar.distinct named = [.bool true, .text "ann"] := by decide +kernel

theorem reversesTo_distinct : ReversesTo true (Scalar.distinct named) := rfl

end Orders

/-- Of orders that name true, 1, ann, 1.0 and ann again, true and the first ann are left, and a person is selected by
what is left exactly if by all of them. -/
theorem Reversal.run_deduplicates_named :
    Orders.ReversesTo false Orders.named ∧ Orders.ReversesTo true [.bool true, .text "ann"] ∧
    Scalar.firsts Orders.named = [.bool true, .text "ann"] ∧ .null ∉ Orders.named ∧ ∀ rows,
      Where.select (membership (.text "id") [.bool true, .text "ann"]) rows =
        Where.select (membership (.text "id") (Orders.named.map .scalar)) rows := by
  have once : Orders.ReversesTo true [.bool true, .text "ann"] := Orders.distinct_named ▸ Orders.reversesTo_distinct
  obtain ⟨f, keys, all, left, set, -, -, -, -, select, -⟩ := run_deduplicates _ Orders.schema {} "Person"
    [.text "sold", .text "buyer"] .null Orders.reversesTo_named once
  have named : Orders.named = keys := List.map_injective_iff.2 (fun _ _ => Value.scalar.inj)
    (by simpa [membership, Value.ofFields] using all : _ ∧ _).2
  rw [← named] at set left
  refine ⟨Orders.reversesTo_named, once, ?_, set, select⟩
  rw [← Scalar.distinct_eq_firsts, Orders.distinct_named]

end Semijoin
