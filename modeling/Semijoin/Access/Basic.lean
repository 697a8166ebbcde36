import Semijoin.Failure
import Semijoin.Schema.Basic

/-!
# Data access

A data access answers finds: the rows of an entity that a where selects, with included relations attached. It
may keep a state, such as the log of what it was asked, and the state outlives a failure.
-/

set_option autoImplicit false

namespace Semijoin

/-- A computation with a state that may fail and keeps its state when it does. -/
abbrev Action (σ α : Type) := ExceptT Failure (StateM σ) α

namespace Action

variable {σ α : Type}

/-- A computation that leaves the state alone. -/
def ofExcept (x : Except Failure α) : Action σ α := ExceptT.mk (pure x)

/-- A computation on values. -/
def ofValues (x : Except Fault α) : Action σ α := ofExcept (liftFault x)

/-- The outcome of a computation, which itself does not fail. -/
def outcome (x : Action σ α) : StateM σ (Except Failure α) := x.run

/-- A change of the state. -/
def update (f : σ → σ) : Action σ Unit := ExceptT.lift (modify f)

end Action

/-- What a reversal and an endpoint need of the host's data. -/
structure Access (σ : Type) where
  find : (entity : String) → (condition include_ : Value) → Action σ Value

/-- A source of plain rows, on top of which includes are attached. -/
structure Selector (σ : Type) where
  select : Entity → Value → Action σ (List Value)

/-- A find as it was asked for. -/
structure FindCall where
  entity : String
  condition : Value
  include_ : Value
  deriving Inhabited, BEq

/-- A select as it was asked for. -/
structure SelectCall where
  entity : String
  condition : Value
  deriving Inhabited, BEq

/-- The condition that a field is among values. -/
def membership (field : Scalar) (members : List Value) : Value :=
  .map [(field, .ofFields [("in", .list members)])]

end Semijoin
