import Semijoin.Filter.Compile
import Semijoin.Http.Query
import Semijoin.Json.Write
import Semijoin.Settings.Basic

/-!
# Filters in requests

A request may carry a filter as a query parameter. The filter is compiled for a root, and the compiled filter
can be written again to take the place of the original one.
-/

set_option autoImplicit false

namespace Semijoin.Intercept

/-- The text of the filter that a request carries; an empty one counts as none. -/
def carried (settings : Settings) (parameters : Query.Parameters) : Option String :=
  (Query.last? settings.filterParam parameters).filter (· != "")

variable [Attributes]

/-- Compiles the filter that a request carries, and writes it out. -/
def compiled {σ : Type} (access : Access σ) (schema : Schema) (settings : Settings) (root : String)
    (parameters : Query.Parameters) : Action σ (Option Value) := do
  match carried settings parameters with
  | none => return none
  | some s =>
    let filter ← Filter.compile access schema settings.compileOptions root (.text s)
    let _ ← Action.ofValues filter.written
    return some filter

/-- A compiled filter as text. -/
def serialize (filter : Value) : String := Json.write Json.spaced filter

end Semijoin.Intercept
