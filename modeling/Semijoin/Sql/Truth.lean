/-!
# Three-valued logic

A comparison with null is neither true nor false but unknown. A conjunction is false if some part is, a
disjunction true if some part is; otherwise an unknown part makes them unknown.
-/

set_option autoImplicit false

namespace Semijoin.Sql

inductive Truth where
  | yes | no | unknown
  deriving DecidableEq, Inhabited

namespace Truth

def ofBool (b : Bool) : Truth := if b then yes else no

def and : Truth → Truth → Truth
  | no, _ => no
  | _, no => no
  | yes, yes => yes
  | _, _ => unknown

def or : Truth → Truth → Truth
  | yes, _ => yes
  | _, yes => yes
  | no, no => no
  | _, _ => unknown

def not : Truth → Truth
  | yes => no
  | no => yes
  | unknown => unknown

/-- The conjunction of all. -/
def all : List Truth → Truth
  | [] => yes
  | t :: rest => t.and (all rest)

/-- The disjunction of all. -/
def any : List Truth → Truth
  | [] => no
  | t :: rest => t.or (any rest)

/-- Whether a row with this truth is selected. -/
def selects (t : Truth) : Bool := t == yes

end Truth

end Semijoin.Sql
