/-!
# Regular expressions

A part of the language of regular expressions. A character stands for itself, a point for any character but a
line break, and a star after one of them for any run of such characters. `^` stands for the start of a text and
`$` for its end, or the place before a line break that ends it. A backslash takes its special meaning from a
character. Groups, sets, counts and alternatives are not read.
-/

set_option autoImplicit false

namespace Semijoin.Regex

/-- What a single character is compared with. -/
inductive Atom where
  | literal (c : Char)
  | any
  deriving DecidableEq, Inhabited

/-- What the text of an expression consists of. -/
inductive Token where
  | start
  | stop
  | star
  | atom (a : Atom)
  deriving DecidableEq, Inhabited

/-- One part of an expression: a place in the text, one character, or a run of characters. -/
inductive Part where
  | start
  | stop
  | one (a : Atom)
  | many (a : Atom)
  deriving DecidableEq, Inhabited

/-- The characters that are written after a backslash where they are to stand for themselves. -/
def special : List Char :=
  ['(', ')', '[', ']', '\x7b', '\x7d', '?', '*', '+', '-', '|', '^', '$', '\\', '.', '&', '~', '#', ' ', '\t',
    '\n', '\r', '\x0b', '\x0c']

/-- A text as an expression for exactly this text. -/
def escape (cs : List Char) : List Char := cs.flatMap fun c => if c ∈ special then ['\\', c] else [c]

/-- What begins a part of the language that is not read. -/
def unread : List Char := ['\\', '(', ')', '[', ']', '\x7b', '\x7d', '?', '+', '|']

/-- The token that a character is where no backslash stands before it. -/
def token? (c : Char) : Option Token :=
  if c = '^' then some .start
  else if c = '$' then some .stop
  else if c = '*' then some .star
  else if c = '.' then some (.atom .any)
  else if c ∈ unread then none
  else some (.atom (.literal c))

/-- The tokens of a text. After a backslash, letters and digits have meanings that are not read. -/
def tokens : List Char → Option (List Token)
  | [] => some []
  | '\\' :: c :: rest => if c.isAlphanum then none else (tokens rest).map (.atom (.literal c) :: ·)
  | c :: rest => (token? c).bind fun t => (tokens rest).map (t :: ·)

/-- The parts that tokens make up: a star belongs to the atom before it, and there must be one. -/
def parts : List Token → Option (List Part)
  | [] => some []
  | .atom a :: .star :: rest => (parts rest).map (.many a :: ·)
  | .atom a :: rest => (parts rest).map (.one a :: ·)
  | .start :: rest => (parts rest).map (.start :: ·)
  | .stop :: rest => (parts rest).map (.stop :: ·)
  | .star :: _ => none

/-- Reads the text of an expression. -/
def read (expression : List Char) : Option (List Part) := (tokens expression).bind parts

theorem isAlphanum_of_special {c : Char} (h : c ∈ special) : c.isAlphanum = false := by
  have none : (special.all fun c => !c.isAlphanum) = true := rfl
  simpa using List.all_eq_true.1 none c h

theorem tokens_plain {c : Char} {t : Token} (h : token? c = some t) (rest : List Char) :
    tokens (c :: rest) = (tokens rest).map (t :: ·) := by
  have plain : c ≠ '\\' := by
    rintro rfl
    rw [(by decide : token? '\\' = none)] at h
    cases h
  rw [tokens, h, Option.bind_some]
  exact fun _ _ eq => absurd eq plain

theorem tokens_escaped {c : Char} (h : c ∈ special) (rest : List Char) :
    tokens ('\\' :: c :: rest) = (tokens rest).map (.atom (.literal c) :: ·) := by
  simp [tokens, isAlphanum_of_special h]

theorem token?_of_not_special {c : Char} (h : c ∉ special) : token? c = some (.atom (.literal c)) := by
  have apart (d : Char) (mem : d ∈ special) : c ≠ d := fun eq => h (eq ▸ mem)
  have all : (unread.all special.contains) = true := rfl
  have known : c ∉ unread := fun mem => h (by simpa using List.all_eq_true.1 all c mem)
  simp [token?, apart '^' (by decide), apart '$' (by decide), apart '*' (by decide), apart '.' (by decide), known]

/-- An escaped character is read as itself. -/
theorem tokens_escape (c : Char) (rest : List Char) :
    tokens (escape [c] ++ rest) = (tokens rest).map (.atom (.literal c) :: ·) := by
  by_cases h : c ∈ special
  · simpa [escape, h] using tokens_escaped h rest
  · simpa [escape, h] using tokens_plain (token?_of_not_special h) rest

/-- An atom without a star after it stands for one character. -/
theorem parts_atom (a : Atom) {rest : List Token} (single : rest.head? ≠ some .star) :
    parts (.atom a :: rest) = (parts rest).map (.one a :: ·) := by
  rw [parts]
  rintro more rfl
  exact single rfl

section Matching

variable (same : Char → Char → Bool)

/-- Whether an atom takes a character, with `same literal c` deciding on single characters. -/
def Atom.takes : Atom → Char → Bool
  | .literal p, c => same p c
  | .any, c => c != '\n'

/-- What is left of a text after a run of characters, the longest run first; `fresh` says whether nothing of the
text was read yet. -/
def remainders (takes : Char → Bool) (fresh : Bool) : List Char → List (Bool × List Char)
  | [] => [(fresh, [])]
  | c :: rest => (if takes c then remainders takes false rest else []) ++ [(fresh, c :: rest)]

/-- Whether the parts of an expression hold one after the other of what is left of a text. -/
def holdFrom : List Part → Bool → List Char → Bool
  | [], _, _ => true
  | .start :: parts, fresh, cs => fresh && holdFrom parts fresh cs
  | .stop :: parts, fresh, cs => (cs == [] || cs == ['\n']) && holdFrom parts fresh cs
  | .one a :: parts, _, cs =>
    match cs with
    | [] => false
    | c :: rest => a.takes same c && holdFrom parts false rest
  | .many a :: parts, fresh, cs =>
    (remainders (a.takes same) fresh cs).any fun left => holdFrom parts left.1 left.2

/-- Whether an expression matches a text from its start on. -/
def matchesStart (expression : List Part) (cs : List Char) : Bool := holdFrom same expression true cs

end Matching

end Semijoin.Regex
