import Semijoin.Filter.Source
import Semijoin.Path.Steps
import Semijoin.Reversal

/-!
# Compiling a filter

A filter may require conditions on far entities. Each is reversed into a condition on the root; the compiled
filter has no `require`, and its `where` is the conjunction of the original one, if there is one, and of the
conditions found, in the order of `require`. The conditions found are written out before they are joined. A filter
that requires nothing is left as it is: a mapping even if its other parts are malformed.
-/

set_option autoImplicit false

namespace Semijoin

/-- How filters are compiled. -/
structure CompileOptions extends Reversal.Options where
  normalizeCase : Bool := false
  deriving Inhabited

namespace Filter

/-- A filter that is ready, or one whose requirements must be reversed. -/
inductive Prepared where
  | done (filter : Value)
  | pending (filter : Value) (require : List (Scalar × Value))
  deriving Inhabited

/-- The part of a filter under a key; null if there is none. -/
def part (filter : Value) (key : String) : Value := (filter.get? key).getD .null

/-- Whether a filter is a mapping that requires nothing. -/
def requiresNothing : FilterSource → Bool
  | .value v => v.isMap && !(part v "require").truthy
  | _ => false

/-- Splits off the requirements of a parsed filter. -/
def split (filter : Value) : Prepared :=
  match part filter "require" with
  | .map [] => .done filter
  | .map require => .pending filter require
  | _ => .done filter

/-- Reads a filter as far as its requirements. -/
def prepare (source : FilterSource) : Except Failure Prepared :=
  match source with
  | .value v => if requiresNothing source then .ok (.done v) else (source.parse).map split
  | source => (source.parse).map split

/-- The entries of a filter without its requirements. -/
def withoutRequire (filter : Value) : List (Scalar × Value) :=
  match filter with
  | .map entries => entries.filter fun e => e.1 != .text "require"
  | _ => []

/-- The conjunction of a where, unless it is null, and further conditions. -/
def conjunction (condition : Value) (more : List Value) : Value :=
  .ofFields [("and", .list (if condition.isNull then more else condition :: more))]

/-- The filter with conditions in place of its requirements. -/
def merge (filter : Value) (conditions : List Value) : Value :=
  .map (Entries.insert (.text "where") (conjunction (part filter "where") conditions) (withoutRequire filter))

/-- The filter with conditions in place of its requirements, which are written out first. -/
def conclude (filter : Value) (conditions : List Value) : Except Failure Value := do
  discard (Value.list conditions).written
  return merge filter conditions

/-- The steps of the path of a requirement. -/
def entryPath (options : CompileOptions) (entry : Scalar × Value) : Except Failure (List Value) :=
  liftFault (Path.normalize (.scalar entry.1) options.normalizeCase)

/-- The plan of one requirement, which is made before anything is fetched. -/
def entryPlan (schema : Schema) (options : CompileOptions) (root : String) (entry : Scalar × Value) :
    Except Failure Reversal.Plan := do
  Reversal.plan schema options.maxDepth root (← entryPath options entry) entry.2

variable [Attributes] {σ : Type}

/-- Reverses one requirement. -/
def reverseEntry (access : Access σ) (schema : Schema) (options : CompileOptions) (root : String)
    (entry : Scalar × Value) : Action σ Value := do
  let path ← Action.ofExcept (entryPath options entry)
  Reversal.run access schema options.toOptions root path entry.2

/-- Reverses all requirements; the first failure in their order counts. -/
def reverseAll (access : Access σ) (schema : Schema) (options : CompileOptions) (root : String)
    (require : List (Scalar × Value)) : Action σ (List Value) :=
  ExceptT.mk do
    let outcomes ← require.mapM fun entry => (reverseEntry access schema options root entry).outcome
    return outcomes.mapM id

/-- Compiles a filter for a root. -/
def compile (access : Access σ) (schema : Schema) (options : CompileOptions) (root : String)
    (source : FilterSource) : Action σ Value := do
  match ← Action.ofExcept (prepare source) with
  | .done filter => return filter
  | .pending filter require => Action.ofExcept (conclude filter (← reverseAll access schema options root require))

end Filter

end Semijoin
