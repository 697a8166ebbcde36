import Semijoin.Access.Attach
import Semijoin.Schema.Model
import Semijoin.Sql.Compile

/-!
# Finds in a database

The rows of models are kept in the tables of a database, each value in the form of its column's type. A select
gives the rows of a table, in their order, for which the condition is true, as mappings from column names. Of
several rows with one key the first is given for each.
-/

set_option autoImplicit false

namespace Semijoin.Sql

/-- Whether a float is a whole number that a column of integers can keep. -/
def wholeFloat? (x : Binary64) : Option Int := x.toInt?.filter fun n => -Int.pow 2 63 ≤ n ∧ n < Int.pow 2 63

/-- A value in the form of a column's type. -/
def stored (type : ColumnType) (s : Scalar) : Scalar :=
  match type, s with
  | .int, .bool b => .int (if b then 1 else 0)
  | .int, .float x => ((wholeFloat? x).map Scalar.int).getD s
  | .float, .bool b => .float (.ofInt (if b then 1 else 0))
  | .float, .int n => .float (.ofInt n)
  | .text, .bool b => .text (if b then "1" else "0")
  | .text, .int n => .text (toString n)
  | .text, .float x => .text x.text
  | _, s => s

/-- The row of a table that a mapping gives. -/
def rowOf (columns : List Column) (v : Value) : Row :=
  columns.map fun c => (c.name, stored c.type (operandScalar ((v.get? c.name).getD .null)))

/-- The tables of a database, and the models registered for access. -/
structure Store where
  tables : List (String × List Row)
  models : List Model
  deriving Inhabited

/-- Creates the tables of models, apart from those left out, and fills them. -/
def Store.create (models : List Model) (leftOut : List String) (unregistered : List String)
    (rows : List (String × List Value)) : Store :=
  let present := models.filter fun m => !leftOut.contains m.table
  ⟨present.map fun m => (m.table, ((rows.lookup m.table).getD []).map (rowOf m.columns)),
    models.filter fun m => !unregistered.contains m.name⟩

/-- The key of a row. -/
def rowKey (m : Model) (row : Row) : List Scalar := (m.columns.filter (·.isKey)).map fun c => row.get c.name

/-- Whether two keys are equal. -/
def sameKey (k l : List Scalar) : Bool := k.length == l.length && (k.zip l).all fun p => p.1.same p.2

/-- Replaces every row by the first one with its key. -/
def unify (m : Model) (rows : List Row) : List Row :=
  rows.map fun row => (rows.find? fun first => sameKey (rowKey m first) (rowKey m row)).getD row

/-- The field of a row that a column's name reads: the member of that name on the model. -/
def memberField (m : Model) (row : Row) (c : Column) : Except Fault (Scalar × Value) :=
  match m.member? c.name with
  | some held => .ok (.text c.name, .scalar (row.get held.name))
  | none => .error (.noAttribute m.name c.name)

/-- A row as a mapping; a row whose key is null stands for no instance. -/
def rowValue (m : Model) (row : Row) : Except Fault Value :=
  if (rowKey m row).all (· == .null) then .error (.noAttribute Kind.null.name "__table__")
  else do return .map (← m.columns.mapM (memberField m row))

/-- The failure of a select in the database. -/
def refused (entity : String) : Failure := .accessFailed entity "" none (some .database)

/-- The condition of a where, if there is one. -/
def conditionOf (m : Model) (condition : Value) : Except Failure (Option Expression) :=
  if condition.truthy then do return some (← compileWhere m.name (m.columns.map (·.name)) condition)
  else .ok none

/-- The rows of a table for which a condition is true. -/
def Store.rows (store : Store) (m : Model) (condition : Option Expression) : Except Failure (List Row) :=
  match store.tables.lookup m.table with
  | none => .error (refused m.name)
  | some rows =>
    match condition with
    | none => .ok rows
    | some e => if e.isBindable then .ok (rows.filter fun row => (e.eval row).selects) else .error (refused m.name)

/-- Selects the rows of an entity. -/
def Store.select (store : Store) (entity : String) (condition : Value) : Except Failure (List Value) :=
  match Model.find? store.models entity with
  | none => .error (.accessFailed entity "No model registered" none none)
  | some m => do
    let rows ← store.rows m (← conditionOf m condition)
    liftFault ((unify m rows).mapM (rowValue m))

variable {σ : Type}

/-- Selects from a database. -/
def Store.selector (store : Store) : Selector σ where
  select entity condition := Action.ofExcept (store.select entity.name condition)

/-- Finds in a database. -/
def Store.access (store : Store) (schema : Schema) : Access σ := store.selector.access schema

end Semijoin.Sql
