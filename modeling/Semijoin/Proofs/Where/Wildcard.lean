import Mathlib.Data.List.Forall2
import Semijoin.Proofs.Value.Written
import Semijoin.Where.Operator

/-!
# What a pattern matches

A pattern matches a text that can be cut into pieces, one for each of its characters, with a line break left over
at the end or not. The regular expression that a pattern is written as and read as finds such pieces by trying
every run that a wildcard may take; `holdFrom_iff` says that it finds them whenever there are any.
-/

namespace Semijoin
set_option autoImplicit false

namespace Regex

/-- What is left after a run is the text without a first piece whose characters are all taken. -/
theorem mem_remainders {takes : Char → Bool} {fresh f : Bool} {cs left : List Char} :
    (f, left) ∈ remainders takes fresh cs ↔
      ∃ piece, cs = piece ++ left ∧ (∀ c ∈ piece, takes c = true) ∧ f = (fresh && piece.isEmpty) := by
  induction cs generalizing fresh with
  | nil =>
    simp only [remainders, List.mem_singleton, Prod.mk.injEq]
    constructor
    · rintro ⟨rfl, rfl⟩
      exact ⟨[], rfl, by simp, by simp⟩
    · rintro ⟨piece, eq, -, rfl⟩
      obtain ⟨rfl, rfl⟩ := List.append_eq_nil_iff.1 eq.symm
      simp
  | cons c rest ih =>
    rw [remainders, List.mem_append, List.mem_singleton, Prod.mk.injEq]
    constructor
    · rintro (more | ⟨rfl, rfl⟩)
      · by_cases taken : takes c = true
        · rw [if_pos taken] at more
          obtain ⟨piece, rfl, all, rfl⟩ := ih.1 more
          exact ⟨c :: piece, rfl, by simpa [taken] using all, by simp⟩
        · rw [if_neg taken] at more
          cases more
      · exact ⟨[], rfl, by simp, by simp⟩
    · rintro ⟨piece, eq, all, rfl⟩
      cases piece with
      | nil => exact .inr ⟨by simp, eq.symm⟩
      | cons d piece =>
        obtain ⟨rfl, rfl⟩ := List.cons.inj eq
        obtain ⟨taken, later⟩ := List.forall_mem_cons.1 all
        refine .inl ?_
        rw [if_pos taken]
        exact ih.2 ⟨piece, rfl, later, by simp⟩

end Regex

namespace Wildcard

/-- What a character of a pattern takes of a text. -/
inductive Takes (Same : Char → Char → Prop) : Char → List Char → Prop
  | run {piece : List Char} (unbroken : '\n' ∉ piece) : Takes Same '%' piece
  | single {c : Char} (unbroken : c ≠ '\n') : Takes Same '_' [c]
  | literal {p c : Char} (plain : p ≠ '%' ∧ p ≠ '_') (same : Same p c) : Takes Same p [c]

/-- A text can be cut into consecutive pieces that the characters of a pattern take one by one. -/
def Splits (Same : Char → Char → Prop) (pattern text : List Char) : Prop :=
  ∃ pieces : List (List Char), pieces.flatten = text ∧ List.Forall₂ (Takes Same) pattern pieces

/-- A text fits a pattern: it can be cut into its pieces, or it can without the line break that ends it. -/
def Fits (Same : Char → Char → Prop) (pattern text : List Char) : Prop :=
  Splits Same pattern text ∨ ∃ line, text = line ++ ['\n'] ∧ Splits Same pattern line

variable {Same : Char → Char → Prop} {same : Char → Char → Bool}

theorem splits_nil {text : List Char} : Splits Same [] text ↔ text = [] := by
  constructor
  · rintro ⟨pieces, rfl, none⟩
    cases none
    rfl
  · rintro rfl
    exact ⟨[], rfl, .nil⟩

theorem splits_cons {p : Char} {pattern text : List Char} : Splits Same (p :: pattern) text ↔
    ∃ piece left, text = piece ++ left ∧ Takes Same p piece ∧ Splits Same pattern left := by
  constructor
  · rintro ⟨_, rfl, all⟩
    cases all with
    | @cons _ piece _ pieces here later =>
      exact ⟨piece, pieces.flatten, rfl, here, pieces, rfl, later⟩
  · rintro ⟨piece, _, rfl, here, pieces, rfl, later⟩
    exact ⟨piece :: pieces, rfl, .cons here later⟩

theorem takes_run {piece : List Char} : Takes Same '%' piece ↔ ∀ c ∈ piece, (c != '\n') = true := by
  constructor
  · intro h c mem
    cases h with
    | run unbroken => exact bne_iff_ne.2 fun eq => unbroken (eq ▸ mem)
    | literal plain => exact absurd rfl plain.1
  · exact fun all => .run fun mem => absurd (all _ mem) (by decide)

/-- A character other than `%` takes one character. -/
theorem takes_one {p : Char} (one : p ≠ '%') {piece : List Char} : Takes Same p piece ↔
    ∃ c, (if p = '_' then c ≠ '\n' else Same p c) ∧ piece = [c] := by
  constructor
  · intro h
    cases h with
    | run => exact absurd rfl one
    | @single c unbroken => exact ⟨c, by simpa using unbroken, rfl⟩
    | @literal _ c plain same => exact ⟨c, by rwa [if_neg plain.2], rfl⟩
  · rintro ⟨c, taken, rfl⟩
    by_cases single : p = '_'
    · subst single
      exact .single (by simpa using taken)
    · exact .literal ⟨one, single⟩ (by rwa [if_neg single] at taken)

theorem part_one (same : Char → Char → Bool) {p : Char} (one : p ≠ '%') : ∃ a, part p = .one a ∧
    ∀ c, a.takes same c = true ↔ if p = '_' then c ≠ '\n' else same p c = true := by
  rw [part, if_neg one]
  by_cases single : p = '_'
  · exact ⟨.any, if_pos single, fun c => by simp [Regex.Atom.takes, single]⟩
  · exact ⟨.literal p, if_neg single, fun c => by simp [Regex.Atom.takes, single]⟩

/-- The part of an expression that a character of a pattern stands for holds of a piece that it takes. -/
theorem holdFrom_part (p : Char) (parts : List Regex.Part) (fresh : Bool) (cs : List Char) :
    Regex.holdFrom same (part p :: parts) fresh cs = true ↔
      ∃ piece left, cs = piece ++ left ∧ Takes (fun p c => same p c = true) p piece ∧
        Regex.holdFrom same parts (fresh && piece.isEmpty) left = true := by
  by_cases run : p = '%'
  · subst run
    show ((Regex.remainders (Regex.Atom.any.takes same) fresh cs).any fun left => _) = true ↔ _
    rw [List.any_eq_true]
    constructor
    · rintro ⟨⟨f, left⟩, mem, holds⟩
      obtain ⟨piece, rfl, all, rfl⟩ := Regex.mem_remainders.1 mem
      exact ⟨piece, left, rfl, takes_run.2 all, holds⟩
    · rintro ⟨piece, left, rfl, taken, holds⟩
      exact ⟨(_, left), Regex.mem_remainders.2 ⟨piece, rfl, takes_run.1 taken, rfl⟩, holds⟩
  · obtain ⟨a, eq, takes⟩ := part_one same run
    rw [eq]
    cases cs with
    | nil =>
      refine iff_of_false (by simp [Regex.holdFrom]) ?_
      rintro ⟨piece, left, none, taken, -⟩
      obtain ⟨c, -, rfl⟩ := (takes_one run).1 taken
      cases none
    | cons c rest =>
      show (a.takes same c && Regex.holdFrom same parts false rest) = true ↔ _
      rw [Bool.and_eq_true, takes]
      constructor
      · rintro ⟨taken, holds⟩
        exact ⟨[c], rest, rfl, (takes_one run).2 ⟨c, taken, rfl⟩, by simpa using holds⟩
      · rintro ⟨piece, left, cut, taken, holds⟩
        obtain ⟨d, allowed, rfl⟩ := (takes_one run).1 taken
        obtain ⟨rfl, rfl⟩ := List.cons.inj cut
        exact ⟨allowed, by simpa using holds⟩

/-- The parts of a pattern up to the end of a text hold exactly of the texts that fit it. -/
theorem holdFrom_iff (pattern : List Char) (fresh : Bool) (cs : List Char) :
    Regex.holdFrom same (pattern.map part ++ [.stop]) fresh cs = true ↔
      Fits (fun p c => same p c = true) pattern cs := by
  induction pattern generalizing fresh cs with
  | nil =>
    rw [Fits]
    simp only [splits_nil]
    simp [Regex.holdFrom]
  | cons p rest ih =>
    rw [List.map_cons, List.cons_append, holdFrom_part]
    simp only [ih, Fits, splits_cons]
    constructor
    · rintro ⟨piece, left, rfl, taken, split | ⟨line, rfl, split⟩⟩
      · exact .inl ⟨piece, left, rfl, taken, split⟩
      · exact .inr ⟨piece ++ line, by simp, piece, line, rfl, taken, split⟩
    · rintro (⟨piece, left, rfl, taken, split⟩ | ⟨_, rfl, piece, line, rfl, taken, split⟩)
      · exact ⟨piece, left, rfl, taken, .inl split⟩
      · exact ⟨piece, line ++ ['\n'], by simp, taken, .inr ⟨line, rfl, split⟩⟩

/-- **Matching** by the regular expression of a pattern is fitting the pattern, whatever counts as the same
character. -/
theorem matchesStart_iff (pattern text : String) :
    Regex.matchesStart same (regex pattern) text.toList = true ↔
      Fits (fun p c => same p c = true) pattern.toList text.toList := by
  rw [regex_eq, Regex.matchesStart, List.cons_append, Regex.holdFrom, Bool.true_and, holdFrom_iff]

theorem matchesExactly_iff (pattern text : String) :
    matchesExactly pattern text = true ↔ Fits (· = ·) pattern.toList text.toList := by
  rw [matchesExactly, matchesStart_iff]
  simp only [beq_iff_eq]

end Wildcard

namespace Operator

/-- **Patterns are wildcards.** The operator has a result exactly if the pattern and the field have texts; it holds of the
fields other than null whose text fits the pattern, in which all characters but the two wildcards stand for themselves. -/
theorem like_fits (v operand : Value) :
    (operand.isWritable = true ∧ v.isWritable = true ∧ ∃ b, like.apply v operand = .ok b ∧
      (b = true ↔ v.isNull = false ∧ Wildcard.Fits (· = ·) operand.shown.toList v.shown.toList)) ∨
    (¬ (operand.isWritable = true ∧ v.isWritable = true) ∧ like.apply v operand = .error .longInteger) := by
  rw [apply, matchesPattern]
  cases text : operand.isWritable with
  | false => exact .inr ⟨by simp, by rw [Value.written_of_long text]; rfl⟩
  | true =>
    rw [Value.written_of_isWritable text]
    cases null : v.isNull with
    | true =>
      obtain rfl := Value.isNull_iff.1 null
      exact .inl ⟨rfl, rfl, false, rfl, by simp⟩
    | false =>
      cases text' : v.isWritable with
      | false => exact .inr ⟨by simp, by rw [Value.written_of_long text']; rfl⟩
      | true =>
        refine .inl ⟨rfl, rfl, Wildcard.matchesExactly operand.shown v.shown, ?_, ?_⟩
        · rw [Value.written_of_isWritable text']
          rfl
        · rw [Wildcard.matchesExactly_iff]
          simp

end Operator

end Semijoin
