import Semijoin.Proofs.Sql.Reading
import Semijoin.Proofs.Value.Mirror
import Semijoin.Sql.Compile

/-!
# Operators and their tests

On a column of integers and nulls, an operator in memory decides like the database test that is made of it,
once unknown is read as yes or as no. The positive operators are never true of null, so for them unknown reads
as no, as in a select. The negated ones are true of null, and for them unknown reads as yes.
-/

namespace Semijoin.Sql
set_option autoImplicit false

/-- What a nullable column of integers holds. -/
inductive Cell : Scalar → Prop where
  | null : Cell .null
  | int (n : Int) : Cell (.int n)

namespace Test

variable {x : Scalar} {u : Bool}

/-- Null equals no integer, so equality with one is told right if unknown counts as no on null. -/
theorem read_equality (cell : Cell x) (settled : x = .null → u = false) (n : Int) :
    (equality x (.int n)).read u = x.same (.int n) := by
  cases cell with
  | null =>
    rw [settled rfl]
    rfl
  | int m => exact Truth.read_ofBool u _

theorem read_membership (cell : Cell x) (settled : x = .null → u = false) (ns : List Int) :
    (membership x (ns.map .int)).read u = ns.any fun n => (Scalar.int n).same x := by
  rw [membership, Truth.read_any, List.map_map, List.any_map]
  congr 1
  funext n
  exact (read_equality cell settled n).trans (Scalar.same_comm _ _)

end Test

/-- A test is made of an operator and decides like it on the values of a column, when unknown counts as given. -/
structure Mirrors (unknown : Bool) (held : Scalar → Prop) (op : Operator) (operand : Value) (t : Test) : Prop where
  made : testOf op operand = .ok t
  bindable : t.operands.all (fun v => v.asKey?.isSome) = true
  decides : ∀ x, held x → op.apply (.scalar x) operand = .ok ((t.eval x).read unknown)

/-- The positive operators with the operands that a column of integers takes. -/
inductive Positive : Operator → Value → Prop where
  | eq (n : Int) : Positive .eq (.int n)
  | eqNull : Positive .eq .null
  | neqNull : Positive .neq .null
  | gt (n : Int) : Positive .gt (.int n)
  | gte (n : Int) : Positive .gte (.int n)
  | lt (n : Int) : Positive .lt (.int n)
  | lte (n : Int) : Positive .lte (.int n)
  | between (low high : Int) : Positive .between (.list [.int low, .int high])
  | among (ns : List Int) : Positive .among (.list (ns.map .int))
  | amongAlso (ns : List Int) : Positive .amongAlso (.list (ns.map .int))

/-- The negated operators with integers as operands. -/
inductive Negated : Operator → Value → Prop where
  | neq (n : Int) : Negated .neq (.int n)
  | notAmong (ns : List Int) : Negated .notAmong (.list (ns.map .int))

theorem members_ints (ns : List Int) : members (.list (ns.map .int)) = .ok (ns.map .int) := by
  have present : (ns.map Value.int).any Value.isNull = false := by simp [Value.isNull]
  simp only [members, Value.iterate, bind, Except.bind, present]
  rfl

/-- A membership test is made of a list of integers, whichever operator it is for. -/
theorem made_of_ints (make : List Value → Test) (ns : List Int) :
    (do return make (← members (.list (ns.map .int))) : Except Failure Test) = .ok (make (ns.map .int)) := by
  rw [members_ints]
  rfl

theorem bindable_ints (ns : List Int) : (ns.map Value.int).all (fun v => v.asKey?.isSome) = true := by
  simp [Value.asKey?]

theorem isIn_ints (x : Scalar) (ns : List Int) :
    (Value.scalar x).isIn (.list (ns.map .int)) = .ok (ns.any fun n => (Scalar.int n).same x) := by
  simp only [Value.isIn, List.any_map]
  rfl

/-- A membership test decides like membership in memory. -/
theorem isIn_eq {x : Scalar} (cell : Cell x) (ns : List Int) :
    (Value.scalar x).isIn (.list (ns.map .int)) = .ok ((Test.membership x (ns.map .int)).read false) := by
  rw [isIn_ints, Test.read_membership cell fun _ => rfl]

/-- An ordering test decides like the ordering of its operator. -/
theorem ordered_eq {x : Scalar} (cell : Cell x) (op : Comparison) (n : Int) :
    Operator.ordered op (.scalar x) (.int n) = .ok ((Test.ordering op x (.int n)).read false) := by
  cases cell with
  | null => rfl
  | int m => exact congrArg _ (Truth.read_ofBool false _).symm

/-- A range is compared from the operand in memory and from the column in the database. -/
theorem isBetween_eq {x : Scalar} (cell : Cell x) (low high : Int) :
    Operator.isBetween (.scalar x) (.list [.int low, .int high]) =
      .ok (((Test.ordering .ge x (.int low)).and (Test.ordering .le x (.int high))).read false) := by
  cases cell with
  | null => rfl
  | int m =>
    have lower : Value.compare .le (.int low) (.int m) =
        .ok ((Test.ordering .ge (.int m) (.int low)).read false) := by
      rw [← ordered_eq (.int m) .ge low]
      exact congrArg Except.ok (Comparison.ofNumbers_mirror .ge (.ofInt m) (.ofInt low))
    have upper : Value.compare .le (.int m) (.int high) =
        .ok ((Test.ordering .le (.int m) (.int high)).read false) := ordered_eq (.int m) .le high
    rw [Truth.read_and]
    simp only [Operator.isBetween, Value.isNull, Bool.false_eq_true, if_false, Value.item, List.getElem?_cons_zero,
      List.getElem?_cons_succ, bind, Except.bind, lower, upper]
    cases (Test.ordering .ge (.int m) (.int low)).read false <;> rfl

/-- No integer is NaN, so being equal to one is being the same. -/
theorem equals_int (x : Scalar) (n : Int) : (Value.scalar x).equals (.int n) = x.same (.int n) :=
  (Value.equals_eq_same rfl).trans (Value.same_scalar x _)

theorem Positive.mirrors {op : Operator} {operand : Value} (h : Positive op operand) :
    ∃ t, Mirrors false Cell op operand t := by
  cases h with
  | eq n =>
    refine ⟨.equals (.int n), rfl, rfl, fun x cell => ?_⟩
    rw [Operator.apply, equals_int]
    exact congrArg _ (Test.read_equality cell (fun _ => rfl) n).symm
  | eqNull =>
    refine ⟨.isNull, rfl, rfl, fun x cell => ?_⟩
    cases cell <;> rfl
  | neqNull =>
    refine ⟨.isPresent, rfl, rfl, fun x cell => ?_⟩
    cases cell <;> rfl
  | gt n => exact ⟨.ordered .gt (.int n), rfl, rfl, fun x cell => ordered_eq cell .gt n⟩
  | gte n => exact ⟨.ordered .ge (.int n), rfl, rfl, fun x cell => ordered_eq cell .ge n⟩
  | lt n => exact ⟨.ordered .lt (.int n), rfl, rfl, fun x cell => ordered_eq cell .lt n⟩
  | lte n => exact ⟨.ordered .le (.int n), rfl, rfl, fun x cell => ordered_eq cell .le n⟩
  | between low high => exact ⟨.between (.int low) (.int high), rfl, rfl, fun x cell => isBetween_eq cell low high⟩
  | among ns => exact ⟨_, made_of_ints .among ns, bindable_ints ns, fun x cell => isIn_eq cell ns⟩
  | amongAlso ns => exact ⟨_, made_of_ints .among ns, bindable_ints ns, fun x cell => isIn_eq cell ns⟩

/-- A negated operator is decided right if unknown counts as yes on null. -/
theorem Negated.mirrors {op : Operator} {operand : Value} (h : Negated op operand) {u : Bool} {held : Scalar → Prop}
    (cell : ∀ x, held x → Cell x) (settled : ∀ x, held x → x = .null → u = true) :
    ∃ t, Mirrors u held op operand t := by
  cases h with
  | neq n =>
    refine ⟨.differs (.int n), rfl, rfl, fun x hx => ?_⟩
    rw [Test.eval, Truth.read_not, Test.read_equality (cell x hx) (fun null => by rw [settled x hx null]; rfl),
      Operator.apply, equals_int]
  | notAmong ns =>
    refine ⟨_, made_of_ints .notAmong ns, bindable_ints ns, fun x hx => ?_⟩
    rw [Test.eval, Truth.read_not, Test.read_membership (cell x hx) (fun null => by rw [settled x hx null]; rfl),
      Operator.apply, isIn_ints]
    rfl

theorem Negated.mirrors_nullable {op : Operator} {operand : Value} (h : Negated op operand) :
    ∃ t, Mirrors true Cell op operand t := h.mirrors (fun _ cell => cell) fun _ _ _ => rfl

theorem Negated.mirrors_present {op : Operator} {operand : Value} (h : Negated op operand) :
    ∃ t, Mirrors false (fun x => Cell x ∧ x ≠ .null) op operand t :=
  h.mirrors (fun _ present => present.1) fun _ present null => absurd null present.2

end Semijoin.Sql
