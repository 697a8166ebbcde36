import Semijoin.Access.Attach
import Semijoin.Where.Basic

/-!
# Rows in memory

Tables of rows under entity names. A select evaluates the where on each row of the entity's table, in table
order, and is logged; an entity without table has no rows.
-/

set_option autoImplicit false

namespace Semijoin

/-- Rows under entity names. -/
abbrev Tables := List (String × List Value)

namespace Tables

/-- The rows of an entity. -/
def rows (tables : Tables) (entity : String) : List Value := (tables.lookup entity).getD []

/-- Adds rows at the end of a table, which is created if it is not there. -/
def insert (entity : String) (added : List Value) : Tables → Tables
  | [] => [(entity, added)]
  | (name, rows) :: rest =>
    if name = entity then (name, rows ++ added) :: rest else (name, rows) :: insert entity added rest

variable [Attributes]

/-- Selects from tables. -/
def selector (tables : Tables) : Selector (List SelectCall) where
  select entity condition := do
    Action.update (· ++ [⟨entity.name, condition⟩])
    Action.ofValues (Where.select condition (tables.rows entity.name))

/-- Finds in tables. -/
def access (tables : Tables) (schema : Schema) : Access (List SelectCall) := tables.selector.access schema

end Tables

end Semijoin
