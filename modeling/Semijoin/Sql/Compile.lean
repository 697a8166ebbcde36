import Semijoin.Failure
import Semijoin.Sql.Expression
import Semijoin.Where.Operator

/-!
# Wheres as database conditions

A where is compiled to a condition on the columns of one table. A field must be a column. Null is compared
only for equality; an ordering comparison or a pattern that is null or a truth value is refused by the
database itself.
-/

set_option autoImplicit false

namespace Semijoin.Sql

/-- A comparison with an operand that the database accepts in it. -/
def plainOperand (make : Value → Test) (operand : Value) : Except Failure Test :=
  match operand with
  | .null => .error (.cause .database)
  | .bool _ => .error (.cause .database)
  | v => .ok (make v)

/-- The members of a list of operands; beside null all of them must be scalars. -/
def members (operand : Value) : Except Fault (List Value) := do
  let found ← operand.iterate
  if found.any Value.isNull then discard (found.mapM Value.asKey)
  return found

/-- The test that an operator makes of a column. -/
def testOf (op : Operator) (operand : Value) : Except Failure Test := do
  match op with
  | .eq => return if operand.isNull then .isNull else .equals operand
  | .neq => return if operand.isNull then .isPresent else .differs operand
  | .gt => plainOperand (.ordered .gt) operand
  | .gte => plainOperand (.ordered .ge) operand
  | .lt => plainOperand (.ordered .lt) operand
  | .lte => plainOperand (.ordered .le) operand
  | .among => return .among (← members operand)
  | .amongAlso => return .among (← members operand)
  | .notAmong => return .notAmong (← members operand)
  | .between => return .between (← operand.item 0) (← operand.item 1)
  | .like => plainOperand .like operand
  | .ilike => plainOperand .like operand

/-- The tests of one field, which must be a column. -/
def fieldTests (entity : String) (columns : List String) (key : Scalar) (condition : Value) :
    Except Failure (List Expression) :=
  if columns.contains key.shown then
    (Operator.conditions condition).mapM fun c => do return .test key.shown (← testOf c.1 c.2)
  else .error (.accessFailed entity ("Unknown field '" ++ key.shown ++ "'") none none)

/-- What compiling scalars as wheres gives: the first of them is no mapping. -/
def compileScalars : List Scalar → Except Failure (List Expression)
  | [] => .ok []
  | s :: _ => .error (.ofFault (.noMethod (.scalar s) "items"))

mutual

/-- Compiles a where. -/
def compileWhere (entity : String) (columns : List String) : Value → Except Failure Expression
  | .map entries => do return .all (← compileEntries entity columns entries)
  | v => .error (.ofFault (.noMethod v "items"))

/-- Compiles the entries of a where. -/
def compileEntries (entity : String) (columns : List String) :
    List (Scalar × Value) → Except Failure (List Expression)
  | [] => .ok []
  | (key, v) :: rest => do
    let here ←
      if key = .text "and" then do pure [Expression.all (← compileGroup entity columns v)]
      else if key = .text "or" then do pure [Expression.any (← compileGroup entity columns v)]
      else fieldTests entity columns key v
    return here ++ (← compileEntries entity columns rest)

/-- Compiles the members of a group. -/
def compileGroup (entity : String) (columns : List String) : Value → Except Failure (List Expression)
  | .list items => compileAll entity columns items
  | .map entries => compileScalars (entries.map (·.1))
  | .text s => compileScalars (s.toList.map fun c => .text (String.singleton c))
  | v => .error (.ofFault (.notIterable v.kind))

def compileAll (entity : String) (columns : List String) : List Value → Except Failure (List Expression)
  | [] => .ok []
  | v :: rest => do
    let here ← compileWhere entity columns v
    return here :: (← compileAll entity columns rest)

end

end Semijoin.Sql
