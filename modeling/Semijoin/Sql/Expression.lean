import Semijoin.Sql.Truth
import Semijoin.Value.Equality
import Semijoin.Value.Fault
import Semijoin.Value.Order
import Semijoin.Value.Text

/-!
# Database conditions

A condition tests columns against operands, and groups tests by conjunction and disjunction. Evaluating it on
a row is three-valued. An operand that is a list or a mapping can not be handed to the database.
-/

set_option autoImplicit false

namespace Semijoin.Sql

/-- A test of one column; patterns are matched without regard to the case of basic letters. -/
inductive Test where
  | isNull
  | isPresent
  | equals (operand : Value)
  | differs (operand : Value)
  | ordered (op : Comparison) (operand : Value)
  | among (operands : List Value)
  | notAmong (operands : List Value)
  | between (low high : Value)
  | like (pattern : Value)
  deriving Inhabited, BEq

/-- A condition on a row. -/
inductive Expression where
  | test (column : String) (test : Test)
  | all (parts : List Expression)
  | any (parts : List Expression)
  deriving Inhabited

/-- A stored row: its columns with their values. -/
abbrev Row := List (String × Scalar)

/-- The value of a column; one that is not there is null. -/
def Row.get (row : Row) (column : String) : Scalar := (row.lookup column).getD .null

/-- An operand as the database sees it. -/
def operandScalar : Value → Scalar
  | .scalar s => s
  | _ => .null

namespace Test

/-- Whether a scalar is null. -/
def isNullScalar (s : Scalar) : Bool := s == .null

/-- Equality with an operand. -/
def equality (x : Scalar) (operand : Value) : Truth :=
  let y := operandScalar operand
  if isNullScalar x || isNullScalar y then .unknown else .ofBool (x.same y)

/-- An ordering comparison; every number comes before every text. -/
def compareScalars (op : Comparison) (x y : Scalar) : Bool :=
  match x.compare op y with
  | .ok b => b
  | .error _ => op.ofCounts (if x.number?.isSome then 0 else 1) (if y.number?.isSome then 0 else 1)

/-- An ordering comparison with an operand. -/
def ordering (op : Comparison) (x : Scalar) (operand : Value) : Truth :=
  let y := operandScalar operand
  if isNullScalar x || isNullScalar y then .unknown else .ofBool (compareScalars op x y)

/-- Membership; nothing is a member of an empty list, not even null. -/
def membership (x : Scalar) (operands : List Value) : Truth := Truth.any (operands.map (equality x))

/-- What is left of a text after each of its beginnings. -/
def endings : List Char → List (List Char)
  | [] => [[]]
  | c :: rest => (c :: rest) :: endings rest

/-- Whether characters match a pattern: `%` takes any run of characters, `_` takes one. -/
def hits (cs : List Char) : List Char → Bool
  | [] => cs.isEmpty
  | p :: ps =>
    if p = '%' then (endings cs).any fun rest => hits rest ps
    else
      match cs with
      | [] => false
      | c :: rest => (p = '_' || p.toLower == c.toLower) && hits rest ps

/-- Whether the text of a column matches a pattern. -/
def matching (x : Scalar) (pattern : Value) : Truth :=
  let y := operandScalar pattern
  if isNullScalar x || isNullScalar y then .unknown else .ofBool (hits x.shown.toList y.shown.toList)

/-- Evaluates a test on the value of its column. -/
def eval (x : Scalar) : Test → Truth
  | isNull => .ofBool (isNullScalar x)
  | isPresent => .ofBool (!isNullScalar x)
  | equals operand => equality x operand
  | differs operand => (equality x operand).not
  | ordered op operand => ordering op x operand
  | among operands => membership x operands
  | notAmong operands => (membership x operands).not
  | between low high => (ordering .ge x low).and (ordering .le x high)
  | like pattern => matching x pattern

/-- The operands of a test. -/
def operands : Test → List Value
  | isNull => []
  | isPresent => []
  | equals operand => [operand]
  | differs operand => [operand]
  | ordered _ operand => [operand]
  | among operands => operands
  | notAmong operands => operands
  | between low high => [low, high]
  | like pattern => [pattern]

end Test

namespace Expression

mutual

/-- Evaluates a condition on a row. -/
def eval (row : Row) : Expression → Truth
  | .test column t => t.eval (row.get column)
  | .all parts => evalAll row parts
  | .any parts => evalAny row parts

def evalAll (row : Row) : List Expression → Truth
  | [] => .yes
  | e :: rest => (eval row e).and (evalAll row rest)

def evalAny (row : Row) : List Expression → Truth
  | [] => .no
  | e :: rest => (eval row e).or (evalAny row rest)

end

mutual

/-- Whether all operands of a condition can be handed to the database. -/
def isBindable : Expression → Bool
  | .test _ t => t.operands.all fun v => v.asKey?.isSome
  | .all parts => areBindable parts
  | .any parts => areBindable parts

def areBindable : List Expression → Bool
  | [] => true
  | e :: rest => isBindable e && areBindable rest

end

end Expression

end Semijoin.Sql
