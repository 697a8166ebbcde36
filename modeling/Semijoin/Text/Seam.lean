/-!
# Seams in a text

A pattern consists of pieces, each of which takes one character of a class or a run of such characters. A run is as long
as it can be with the pieces after it still matching, and has at least one character. A seam is where the pieces on its
left meet those on its right; it is found from the left of a text, and no two of the matches overlap.
-/

set_option autoImplicit false

namespace Semijoin.Text

/-- A part of a pattern: one character of a class, or a run of them. -/
inductive Piece where
  | one (takes : Char → Bool)
  | run (takes : Char → Bool)

section Taking

variable {α : Type}

/-- Takes a run and goes on behind it, with the longest run that lets it go on. -/
def takeRun (takes : Char → Bool) (goOn : List Char → Option α) : List Char → Option (List Char × α)
  | [] => none
  | c :: rest =>
    if takes c then
      match takeRun takes goOn rest with
      | some (more, a) => some (c :: more, a)
      | none => (goOn rest).map fun a => ([c], a)
    else none

/-- Takes what a piece matches and goes on behind it. -/
def Piece.take (goOn : List Char → Option α) : Piece → List Char → Option (List Char × α)
  | .one _, [] => none
  | .one takes, c :: rest => if takes c then (goOn rest).map fun a => ([c], a) else none
  | .run takes, cs => takeRun takes goOn cs

/-- Takes what pieces match, one after the other, and goes on behind them. -/
def takeAll (goOn : List Char → Option α) : List Piece → List Char → Option (List Char × α)
  | [], cs => (goOn cs).map fun a => ([], a)
  | p :: more, cs => (p.take (takeAll goOn more) cs).map fun (taken, later, a) => (taken ++ later, a)

end Taking

/-- Where the match of some pieces meets that of others. -/
structure Seam where
  left : List Piece
  right : List Piece

namespace Seam

/-- What is left and right of the seam that a text starts with. -/
def find? (s : Seam) (cs : List Char) : Option (List Char × List Char) :=
  (takeAll (fun rest => (takeAll (fun _ => some ()) s.right rest).map (·.1)) s.left cs)

/-- Puts a mark into every seam of a text. As many characters as `written` were already written with a match. -/
def markFrom (s : Seam) (mark : Char) (written : Nat) : List Char → List Char
  | [] => []
  | c :: rest =>
    match written with
    | n + 1 => s.markFrom mark n rest
    | 0 =>
      match s.find? (c :: rest) with
      | some (left, right) => left ++ mark :: right ++ s.markFrom mark (left.length + right.length - 1) rest
      | none => c :: s.markFrom mark 0 rest

/-- Puts a mark into every seam of a text. -/
def mark (s : Seam) (mark : Char) (cs : List Char) : List Char := s.markFrom mark 0 cs

end Seam

end Semijoin.Text
