import Semijoin.Text.Casing
import Semijoin.Text.Regex

/-!
# Wildcards

In a pattern `%` stands for any run of characters without a line break, `_` for one character other than a line
break, and every other character for itself. A pattern is written as a regular expression that spans the text:
first each character with a special meaning there is taken it from, then the two wildcards are replaced. Neither
wildcard has a special meaning, so escaping leaves them to be found, and what replaces the one holds no other:
`read_expression` says what a pattern is read as.
-/

set_option autoImplicit false

namespace Semijoin.Wildcard

/-- Puts a text in the place of every occurrence of a character. -/
def replace (old : Char) (new : List Char) (cs : List Char) : List Char :=
  cs.flatMap fun c => if c = old then new else [c]

/-- A pattern as the text of a regular expression. -/
def expression (pattern : List Char) : List Char :=
  '^' :: replace '_' ['.'] (replace '%' ['.', '*'] (Regex.escape pattern)) ++ ['$']

/-- The part of an expression that a character of a pattern stands for. -/
def part (c : Char) : Regex.Part :=
  if c = '%' then .many .any else if c = '_' then .one .any else .one (.literal c)

/-- The text that a character of a pattern is written as. -/
def spelled (c : Char) : List Char :=
  if c = '%' then ['.', '*'] else if c = '_' then ['.'] else Regex.escape [c]

/-- Each character of a pattern is written on its own. -/
theorem expression_eq (pattern : List Char) : expression pattern = '^' :: pattern.flatMap spelled ++ ['$'] := by
  have each (c : Char) : replace '_' ['.'] (replace '%' ['.', '*'] (Regex.escape [c])) = spelled c := by
    by_cases run : c = '%'
    · subst run
      rfl
    by_cases single : c = '_'
    · subst single
      rfl
    by_cases special : c ∈ Regex.special <;> simp [spelled, Regex.escape, replace, run, single, special]
  suffices all : replace '_' ['.'] (replace '%' ['.', '*'] (Regex.escape pattern)) = pattern.flatMap spelled by
    rw [expression, all]
  induction pattern with
  | nil => rfl
  | cons c rest ih =>
    rw [List.flatMap_cons, ← ih, ← each]
    simp only [replace, Regex.escape, List.flatMap_cons, List.flatMap_append, List.flatMap_nil, List.append_nil]

/-- The tokens that a character of a pattern is read as. -/
def tokens (c : Char) : List Regex.Token :=
  if c = '%' then [.atom .any, .star] else if c = '_' then [.atom .any] else [.atom (.literal c)]

theorem tokens_spelled (c : Char) (rest : List Char) :
    Regex.tokens (spelled c ++ rest) = (Regex.tokens rest).map (tokens c ++ ·) := by
  have point : Regex.token? '.' = some (.atom .any) := by decide
  have star : Regex.token? '*' = some .star := by decide
  by_cases run : c = '%'
  · subst run
    show Regex.tokens ('.' :: '*' :: rest) = _
    rw [Regex.tokens_plain point, Regex.tokens_plain star, Option.map_map]
    rfl
  by_cases single : c = '_'
  · subst single
    exact Regex.tokens_plain point rest
  rw [spelled, tokens, if_neg run, if_neg single, if_neg run, if_neg single]
  exact Regex.tokens_escape c rest

theorem tokens_expression (pattern : List Char) :
    Regex.tokens (expression pattern) = some (.start :: pattern.flatMap tokens ++ [.stop]) := by
  have start : Regex.token? '^' = some .start := by decide
  suffices body : Regex.tokens (pattern.flatMap spelled ++ ['$']) = some (pattern.flatMap tokens ++ [.stop]) by
    rw [expression_eq, List.cons_append, Regex.tokens_plain start, body]
    rfl
  induction pattern with
  | nil => decide
  | cons c rest ih =>
    rw [List.flatMap_cons, List.append_assoc, tokens_spelled, ih, List.flatMap_cons, List.append_assoc]
    rfl

/-- A star stands only after the point of the same character of a pattern. -/
theorem parts_tokens (c : Char) {rest : List Regex.Token} (apart : rest.head? ≠ some .star) :
    Regex.parts (tokens c ++ rest) = (Regex.parts rest).map (part c :: ·) := by
  by_cases run : c = '%'
  · subst run
    rfl
  by_cases single : c = '_'
  · subst single
    exact Regex.parts_atom .any apart
  rw [tokens, part, if_neg run, if_neg single, if_neg run, if_neg single]
  exact Regex.parts_atom (.literal c) apart

/-- **A pattern is read** as one part for each of its characters, between the two ends of the text. -/
theorem read_expression (pattern : List Char) :
    Regex.read (expression pattern) = some (.start :: pattern.map part ++ [.stop]) := by
  suffices body : Regex.parts (pattern.flatMap tokens ++ [.stop]) = some (pattern.map part ++ [.stop]) by
    rw [Regex.read, tokens_expression, Option.bind_some, List.cons_append, Regex.parts, body]
    rfl
  induction pattern with
  | nil => rfl
  | cons c rest ih =>
    have apart : (rest.flatMap tokens ++ [Regex.Token.stop]).head? ≠ some .star := by
      cases rest with
      | nil => simp
      | cons d more =>
        by_cases run : d = '%' <;> by_cases single : d = '_' <;> simp [tokens, run, single]
    rw [List.flatMap_cons, List.append_assoc, parts_tokens c apart, ih]
    rfl

/-- The regular expression of a pattern; every pattern has one. -/
def regex (pattern : String) : List Regex.Part :=
  (Regex.read (expression pattern.toList)).get (by rw [read_expression]; rfl)

theorem regex_eq (pattern : String) : regex pattern = .start :: pattern.toList.map part ++ [.stop] := by
  simp only [regex, read_expression, Option.get_some]

/-- Matching of exact characters. -/
def matchesExactly (pattern s : String) : Bool := Regex.matchesStart (fun p c => p == c) (regex pattern) s.toList

/-- Matching without regard to case. -/
def matchesBlindly (pattern s : String) : Bool := Regex.matchesStart Text.sameButCase (regex pattern) s.toList

end Semijoin.Wildcard
