import Semijoin.Value.Basic

/-!
# Equality of values

Numbers are equal when their exact values are, whatever their kinds: true is 1 and 1.0. Lists are equal
item by item, mappings entry by entry whatever the order. A record equals nothing.

A NaN equals nothing either. But whatever holds values, a list, a mapping or the ids collected so far, finds in
it the very value that is looked for, without asking whether that equals itself; and all NaNs that documents give
are one value. So there are two relations: `Value.equals` is the operator, and `same` is how keys, members and
items are told apart.
-/

set_option autoImplicit false

namespace Semijoin

/-- The exact value of a scalar that is a number. -/
def Scalar.number? : Scalar → Option Extended
  | .bool b => some (.ofInt (if b then 1 else 0))
  | .int n => some (.ofInt n)
  | .float x => some (.ofBinary64 x)
  | _ => none

/-- Whether two scalars are the same key or member: equal, or both NaN. -/
def Scalar.same (a b : Scalar) : Bool :=
  match a.number?, b.number? with
  | some x, some y => x == y
  | none, none => a == b
  | _, _ => false

/-- The first entry under a key. -/
def Entries.find? {α : Type} (key : Scalar) : List (Scalar × α) → Option α
  | [] => none
  | (k, v) :: rest => if k.same key then some v else Entries.find? key rest

/-- Puts a value under a key: in place if the key is there, else at the end. -/
def Entries.insert {α : Type} (key : Scalar) (value : α) : List (Scalar × α) → List (Scalar × α)
  | [] => [(key, value)]
  | (k, v) :: rest => if k.same key then (k, value) :: rest else (k, v) :: Entries.insert key value rest

namespace Value

mutual

/-- Whether two values are the same item or member: equal, or both NaN. -/
def same : Value → Value → Bool
  | .scalar a, .scalar b => a.same b
  | .list xs, .list ys => sameItems xs ys
  | .map es, .map fs => es.length == fs.length && sameEntries es fs
  | _, _ => false

/-- Whether two lists are the same item by item. -/
def sameItems : List Value → List Value → Bool
  | [], [] => true
  | x :: xs, y :: ys => x.same y && sameItems xs ys
  | _, _ => false

/-- Whether every entry has the same under its key. -/
def sameEntries : List (Scalar × Value) → List (Scalar × Value) → Bool
  | [], _ => true
  | (k, v) :: es, fs =>
    (match Entries.find? k fs with
      | some w => v.same w
      | none => false) && sameEntries es fs

end

/-- Whether a value is NaN. -/
def isNan : Value → Bool
  | .float .nan => true
  | _ => false

/-- Equality of values; a NaN equals nothing. -/
def equals (v w : Value) : Bool := v.same w && !v.isNan

/-- The value under a text key of a mapping. -/
def get? (v : Value) (key : String) : Option Value :=
  match v with
  | .map entries => Entries.find? (.text key) entries
  | _ => none

end Value

namespace Scalar

/-- Whether a scalar is among the members of a list. -/
def isIn (s : Scalar) (members : List Scalar) : Bool := members.any (·.same s)

/-- The first of every group of equal members, in order. -/
def distinctFrom (seen : List Scalar) : List Scalar → List Scalar
  | [] => []
  | s :: rest => if s.isIn seen then distinctFrom seen rest else s :: distinctFrom (s :: seen) rest

/-- The first of every group of equal members, in order. -/
def distinct (members : List Scalar) : List Scalar := distinctFrom [] members

end Scalar

end Semijoin
