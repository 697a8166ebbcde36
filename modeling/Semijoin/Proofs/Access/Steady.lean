import Semijoin.Access.Tables
import Semijoin.Proofs.Access.Outcome
import Semijoin.Reversal

/-!
# Steady data

A data access is steady if asking it again gives the same again: its state may record what it was asked, but
no answer depends on it. Rows in memory are steady, with all that is attached to them, and so is a reversal
over steady data.
-/

namespace Semijoin
set_option autoImplicit false

variable {σ : Type}

/-- Every find comes to one result, whatever was asked before. -/
def Access.Steady (access : Access σ) : Prop :=
  ∀ entity condition include_, (access.find entity condition include_).Steady

/-- Every select comes to one result, whatever was asked before. -/
def Selector.Steady (selector : Selector σ) : Prop := ∀ e condition, (selector.select e condition).Steady

theorem selectAmong_steady {selector : Selector σ} (steady : selector.Steady) (target : Entity) (field : Value)
    (keys : List Scalar) : (selectAmong selector target field keys).Steady := by
  unfold selectAmong
  split
  · exact Action.steady_pure _
  · exact (Action.steady_ofValues _).bind fun _ => steady _ _

mutual

/-- Attaching an include tree to steady rows is steady. -/
theorem attach_steady {selector : Selector σ} (steady : selector.Steady) (schema : Schema) (owner : Entity)
    (rows : List Value) (tree : IncludeTree) : (attach schema selector owner rows tree).Steady := by
  match tree with
  | .node branches fault =>
    rw [attach]
    refine (attachAll_steady steady schema owner rows branches).bind fun attached => ?_
    cases fault with
    | none => exact Action.steady_pure _
    | some f => exact Action.steady_throw _

theorem attachAll_steady {selector : Selector σ} (steady : selector.Steady) (schema : Schema) (owner : Entity)
    (rows : List Value) (branches : List (Value × IncludeTree)) :
    (attachAll schema selector owner rows branches).Steady := by
  match branches with
  | [] =>
    rw [attachAll]
    exact Action.steady_pure _
  | (name, nested) :: rest =>
    rw [attachAll]
    refine (Action.steady_ofExcept _).bind fun relation => (Action.steady_ofExcept _).bind fun target => ?_
    split
    · exact Action.steady_throw _
    · exact (Action.steady_ofValues _).bind fun keys => (selectAmong_steady steady _ _ _).bind fun selected =>
        (attach_steady steady schema target selected nested).bind fun children =>
          (Action.steady_ofValues _).bind fun rows' => attachAll_steady steady schema owner rows' rest

end

theorem Selector.access_steady {selector : Selector σ} (steady : selector.Steady) (schema : Schema) :
    (selector.access schema).Steady := fun _ _ _ =>
  (Action.steady_ofExcept _).bind fun e => (steady e _).bind fun rows =>
    (attach_steady steady schema e rows _).bind fun _ => Action.steady_pure _

variable [Attributes]

/-- Rows in memory answer from their tables alone. -/
theorem Tables.access_steady (tables : Tables) (schema : Schema) : (tables.access schema).Steady :=
  Selector.access_steady (fun _ _ => .bind ⟨_, Action.ends_update _⟩ fun _ => Action.steady_ofValues _) schema

/-- A reversal over steady data is steady. -/
theorem Reversal.run_steady {access : Access σ} (steady : access.Steady) (schema : Schema) (options : Options)
    (root : String) (path : List Value) (condition : Value) :
    (run access schema options root path condition).Steady :=
  (Action.steady_ofExcept _).bind fun _ =>
    ((steady _ _ _).adapt _).bind fun _ => Action.steady_ofExcept _

end Semijoin
