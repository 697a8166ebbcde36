import Semijoin.Sql.Expression

/-!
# Two-valued readings

A truth is read as yes or no once it is settled what unknown counts as. Conjunctions and disjunctions are read
part by part, whatever unknown counts as, so null goes through every tree of groups alike; a negation turns
the reading of unknown around. A select reads unknown as no.
-/

namespace Semijoin.Sql
set_option autoImplicit false

namespace Truth

/-- A truth as yes or no, when unknown counts as given. -/
def read (unknown : Bool) : Truth → Bool
  | .yes => true
  | .no => false
  | .unknown => unknown

variable (u : Bool)

theorem read_ofBool (b : Bool) : (ofBool b).read u = b := by cases b <;> rfl

theorem read_and (s t : Truth) : (s.and t).read u = (s.read u && t.read u) := by
  cases s <;> cases t <;> cases u <;> rfl

theorem read_or (s t : Truth) : (s.or t).read u = (s.read u || t.read u) := by
  cases s <;> cases t <;> cases u <;> rfl

theorem read_not (t : Truth) : t.not.read u = !t.read !u := by
  cases t <;> cases u <;> rfl

theorem read_any (ts : List Truth) : (any ts).read u = ts.any (read u) := by
  induction ts with
  | nil => rfl
  | cons t rest ih => rw [any, read_or, ih, List.any_cons]

theorem selects_eq_read (t : Truth) : t.selects = t.read false := by cases t <;> rfl

/-- Reading unknown as yes adds the unknown truths to those that are selected. -/
theorem read_true (t : Truth) : t.read true = (t.selects || t == unknown) := by cases t <;> rfl

end Truth

namespace Expression

/-- All parts of a conjunction are read by themselves. -/
theorem evalAll_read (row : Row) (u : Bool) (parts : List Expression) :
    (evalAll row parts).read u = parts.all fun e => (e.eval row).read u := by
  induction parts with
  | nil => rfl
  | cons e rest ih => rw [evalAll, Truth.read_and, ih, List.all_cons]

theorem areBindable_append (es fs : List Expression) :
    areBindable (es ++ fs) = (areBindable es && areBindable fs) := by
  induction es with
  | nil => rfl
  | cons e rest ih => simp only [List.cons_append, areBindable, ih, Bool.and_assoc]

end Expression

end Semijoin.Sql
