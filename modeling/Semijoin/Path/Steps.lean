import Semijoin.Path.Case
import Semijoin.Value.Access

/-!
# Relation paths

A path is a dotted text or a list of steps. The empty text has no steps; any other text has one more step
than it has points.
-/

set_option autoImplicit false

namespace Semijoin.Path

/-- The parts of a text between points; `part` is the current one, last character first. -/
def partsFrom (part : List Char) : List Char → List String
  | [] => [String.ofList part.reverse]
  | c :: rest => if c = '.' then String.ofList part.reverse :: partsFrom [] rest else partsFrom (c :: part) rest

/-- The steps of a dotted text. -/
def split (s : String) : List String := if s = "" then [] else partsFrom [] s.toList

/-- The steps of a path: of a dotted text, or what iterating the value gives. -/
def steps (path : Value) : Except Fault (List Value) :=
  match path with
  | .text s => .ok ((split s).map .text)
  | v => v.iterate

/-- A step in snake case. -/
def normalizeStep : Value → Except Fault Value
  | .text s => .ok (.text (snakeCase s))
  | v => .error (.notText v.kind)

/-- The steps of a path, in snake case if asked. -/
def normalize (path : Value) (snake : Bool) : Except Fault (List Value) := do
  let found ← steps path
  if snake then found.mapM normalizeStep else return found

end Semijoin.Path
