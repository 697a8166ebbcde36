import Mathlib.Data.List.Infix
import Semijoin.Proofs.Json.Document
import Semijoin.Proofs.Json.String

/-!
# How reading ends

A reader takes up a part of the text and leaves the rest, or halts. It halts at a problem with a place, or, if at
all else, at an integer with more digits than the limit, which then stands somewhere in the text. Floats may have any
number of digits.
-/

namespace Semijoin.Json
set_option autoImplicit false

/-- Somewhere in a text stands an integer of so many digits: neither a fraction nor an exponent follows. -/
def HoldsInteger (n : Nat) (cs : List Char) : Prop :=
  ∃ before digits after, cs = before ++ (digits ++ after) ∧ digits.length = n ∧ (∀ c ∈ digits, c.isDigit = true) ∧
    (fraction after).1 = [] ∧ exponent? after = none

theorem HoldsInteger.mono {n : Nat} {cs cs' : List Char} (h : HoldsInteger n cs') (part : cs' <:+ cs) :
    HoldsInteger n cs := by
  obtain ⟨more, rfl⟩ := part
  obtain ⟨before, digits, after, rfl, rest⟩ := h
  exact ⟨more ++ before, digits, after, (List.append_assoc _ _ _).symm, rest⟩

/-- How reading from a text ends: with what is left of it, at a problem, or at an integer that is too long. -/
inductive Ends {α : Type} (cs : List Char) : Except Halt (α × List Char) → Prop
  | read (a : α) {rest : List Char} (left : rest <:+ cs) : Ends cs (.ok (a, rest))
  | problem (problem : Problem) (left : Nat) : Ends cs (.error (.at problem left))
  | tooLong {n : Nat} (long : maxDigits < n) (held : HoldsInteger n cs) : Ends cs (.error (.tooLong n))

namespace Ends

variable {α β : Type} {cs cs' : List Char}

theorem mono {r : Except Halt (α × List Char)} (h : Ends cs' r) (part : cs' <:+ cs) : Ends cs r := by
  cases h with
  | read a left => exact .read a (left.trans part)
  | problem problem left => exact .problem problem left
  | tooLong long held => exact .tooLong long (held.mono part)

/-- One reading goes on where another one ended. -/
theorem bind {r : Except Halt (α × List Char)} {f : α × List Char → Except Halt (β × List Char)} (h : Ends cs r)
    (next : ∀ a rest, rest <:+ cs → Ends cs (f (a, rest))) : Ends cs (r >>= f) := by
  cases h with
  | read a left => exact next a _ left
  | problem problem left => exact .problem problem left
  | tooLong long held => exact .tooLong long held

end Ends

theorem ends_stringBody (start : Nat) (high : Option Nat) (read cs : List Char) :
    Ends cs (stringBody start high read cs) := by
  fun_induction stringBody start high read cs
  case case2 => exact .read _ (List.suffix_cons _ _)
  -- an escape of four digits, of one letter, and a plain character
  case case6 ih | case7 ih | case8 ih | case9 ih => exact ih.mono ⟨[_, _, _, _, _, _], rfl⟩
  case case11 ih => exact ih.mono ⟨[_, _], rfl⟩
  case case14 ih => exact ih.mono (List.suffix_cons _ _)
  all_goals exact .problem _ _

section Numbers

theorem wholeDigits_split (cs : List Char) :
    cs = (wholeDigits cs).1 ++ (wholeDigits cs).2 ∧ ∀ c ∈ (wholeDigits cs).1, c.isDigit = true := by
  unfold wholeDigits
  split
  · exact ⟨rfl, by simp⟩
  · rw [List.span_eq_takeWhile_dropWhile]
    exact ⟨List.takeWhile_append_dropWhile.symm, fun c mem => List.mem_takeWhile_imp mem⟩

/-- A fraction takes up its point and digits, or nothing. -/
theorem fraction_split (cs : List Char) :
    (fraction cs).2 <:+ cs ∧ ((fraction cs).1 = [] → (fraction cs).2 = cs) := by
  unfold fraction
  split
  · rename_i rest
    split
    · exact ⟨List.suffix_refl _, fun _ => rfl⟩
    · rename_i some_
      rw [List.span_eq_takeWhile_dropWhile]
      exact ⟨(List.dropWhile_suffix _).trans (List.suffix_cons _ _), fun none => absurd (List.isEmpty_iff.2 none) some_⟩
  · exact ⟨List.suffix_refl _, fun _ => rfl⟩

theorem exponentDigits_suffix {negative : Bool} {body rest : List Char} {e : Int}
    (h : exponentDigits negative body = some (e, rest)) : rest <:+ body := by
  unfold exponentDigits at h
  split at h
  · cases h
  · cases h
    exact List.dropWhile_suffix _

theorem exponent_suffix {cs rest : List Char} {e : Int} (h : exponent? cs = some (e, rest)) : rest <:+ cs := by
  cases cs with
  | nil => cases h
  | cons c more =>
    by_cases mark : c = 'e' ∨ c = 'E'
    · by_cases sign : ∃ body, more = '-' :: body ∨ more = '+' :: body
      · obtain ⟨body, rfl | rfl⟩ := sign
        · rw [exponent_minus mark] at h
          exact (exponentDigits_suffix h).trans ⟨[_, _], rfl⟩
        · rw [exponent_plus mark] at h
          exact (exponentDigits_suffix h).trans ⟨[_, _], rfl⟩
      · rw [exponent_unsigned mark] at h
        · exact (exponentDigits_suffix h).trans (List.suffix_cons _ _)
        · intro d head
          cases more with
          | nil => cases head
          | cons d' body =>
            cases head
            exact ⟨fun minus => sign ⟨body, .inl (by rw [minus])⟩, fun plus => sign ⟨body, .inr (by rw [plus])⟩⟩
    · simp [exponent?, mark] at h

theorem ends_unsigned (negative : Bool) (left : Nat) (body : List Char) :
    Ends body (unsigned negative left body) := by
  obtain ⟨split, digits⟩ := wholeDigits_split body
  have afterWhole : (wholeDigits body).2 <:+ body := ⟨_, split.symm⟩
  obtain ⟨part, kept⟩ := fraction_split (wholeDigits body).2
  unfold unsigned
  simp only
  split
  · exact .problem _ _
  · split
    · rename_i read found
      exact .read _ ((exponent_suffix found).trans (part.trans afterWhole))
    · rename_i noExponent
      split
      · exact .read _ (part.trans afterWhole)
      · rename_i fractional
        have noFraction : (fraction (wholeDigits body).2).1 = [] := by simpa using fractional
        split
        · rename_i long
          rw [kept noFraction] at noExponent
          exact .tooLong long ⟨[], _, _, split, rfl, digits, noFraction, noExponent⟩
        · exact .read _ (part.trans afterWhole)

theorem ends_number (cs : List Char) : Ends cs (number cs) := by
  cases cs with
  | nil => exact .problem _ _
  | cons c body =>
    by_cases minus : c = '-'
    · subst minus
      rw [number_minus]
      exact (ends_unsigned true _ body).mono (List.suffix_cons _ _)
    · rw [number_unsigned (by simpa using minus)]
      exact ends_unsigned false _ _

end Numbers

theorem skipSpace_suffix (cs : List Char) : skipSpace cs <:+ cs := List.dropWhile_suffix _

/-- How the readers end at a bound on what is still to be read. -/
structure ReadersEnd (fuel : Nat) : Prop where
  value : ∀ cs, Ends cs (value fuel cs)
  members : ∀ read cs, Ends cs (members fuel read cs)
  items : ∀ read cs, Ends cs (items fuel read cs)

namespace ReadersEnd

variable {fuel : Nat}

theorem value_succ (h : ReadersEnd fuel) (cs : List Char) : Ends cs (Json.value (fuel + 1) cs) := by
  unfold Json.value
  split
  · refine ((ends_stringBody _ _ _ _).mono (List.suffix_cons _ _)).bind fun s rest left => .read _ left
  · rename_i rest
    have inside : skipSpace rest <:+ '\x7b' :: rest := (skipSpace_suffix rest).trans (List.suffix_cons _ _)
    split
    · rename_i after eq
      rw [eq] at inside
      exact .read _ ((List.suffix_cons _ _).trans inside)
    · exact ((h.members _ _).mono inside).bind fun fields after left => .read _ left
  · rename_i rest
    have inside : skipSpace rest <:+ '[' :: rest := (skipSpace_suffix rest).trans (List.suffix_cons _ _)
    split
    · rename_i after eq
      rw [eq] at inside
      exact .read _ ((List.suffix_cons _ _).trans inside)
    · exact ((h.items _ _).mono inside).bind fun found after left => .read _ left
  · exact .read _ ⟨[_, _, _, _], rfl⟩
  · exact .read _ ⟨[_, _, _, _], rfl⟩
  · exact .read _ ⟨[_, _, _, _, _], rfl⟩
  · exact .read _ ⟨[_, _, _], rfl⟩
  · exact .read _ ⟨[_, _, _, _, _, _, _, _], rfl⟩
  · exact .read _ ⟨[_, _, _, _, _, _, _, _, _], rfl⟩
  · exact ends_number _

theorem members_succ (h : ReadersEnd fuel) (read : List (String × Value)) (cs : List Char) :
    Ends cs (Json.members (fuel + 1) read cs) := by
  unfold Json.members
  split
  · refine ((ends_stringBody _ _ _ _).mono (List.suffix_cons _ _)).bind fun name rest left => ?_
    have afterName := (skipSpace_suffix rest).trans left
    simp only
    split
    · rename_i after eq
      rw [eq] at afterName
      have inside := (skipSpace_suffix after).trans ((List.suffix_cons _ _).trans afterName)
      refine ((h.value _).mono inside).bind fun v rest left => ?_
      have afterValue := (skipSpace_suffix rest).trans left
      simp only
      split
      · rename_i after eq
        rw [eq] at afterValue
        exact .read _ ((List.suffix_cons _ _).trans afterValue)
      · rename_i after eq
        rw [eq] at afterValue
        exact (h.members _ _).mono ((skipSpace_suffix after).trans ((List.suffix_cons _ _).trans afterValue))
      · exact .problem _ _
    · exact .problem _ _
  · exact .problem _ _

theorem items_succ (h : ReadersEnd fuel) (read : List Value) (cs : List Char) :
    Ends cs (Json.items (fuel + 1) read cs) := by
  unfold Json.items
  refine (h.value cs).bind fun v rest left => ?_
  have afterValue := (skipSpace_suffix rest).trans left
  simp only
  split
  · rename_i after eq
    rw [eq] at afterValue
    exact .read _ ((List.suffix_cons _ _).trans afterValue)
  · rename_i after eq
    rw [eq] at afterValue
    exact (h.items _ _).mono ((skipSpace_suffix after).trans ((List.suffix_cons _ _).trans afterValue))
  · exact .problem _ _

end ReadersEnd

theorem readersEnd (fuel : Nat) : ReadersEnd fuel := by
  induction fuel with
  | zero =>
    refine ⟨fun cs => ?_, fun read cs => ?_, fun read cs => ?_⟩
    · rw [value]
      exact .problem _ _
    · rw [members]
      exact .problem _ _
    · rw [items]
      exact .problem _ _
  | succ fuel ih => exact ⟨ih.value_succ, ih.members_succ, ih.items_succ⟩

/-- **Only an integer that is too long stops reading without a place.** -/
theorem document_tooLong {cs : List Char} {n : Nat} (h : document cs = .error (.tooLong n)) :
    maxDigits < n ∧ HoldsInteger n cs := by
  have ends := ((readersEnd (cs.length + 1)).value (skipSpace cs)).mono (skipSpace_suffix cs)
  unfold document at h
  generalize value (cs.length + 1) (skipSpace cs) = read at h ends
  cases ends with
  | read v left =>
    simp only [bind, Except.bind] at h
    split at h <;> cases h
  | problem problem left => cases h
  | tooLong long held =>
    cases h
    exact ⟨long, held⟩

section TooLong

variable {digits rest : List Char}

/-- An integer that is too long halts where it stands, before what continues no number. -/
theorem number_tooLong (all : ∀ c ∈ digits, c.isDigit = true) (head : digits.head? ≠ some '0')
    (long : maxDigits < digits.length) (ends : EndsNumber rest) :
    number (digits ++ rest) = .error (.tooLong digits.length) := by
  have some_ : digits ≠ [] := by
    rintro rfl
    cases long
  have plain : (digits ++ rest).head? ≠ some '-' := by
    obtain ⟨c, more, rfl⟩ := List.exists_cons_of_ne_nil some_
    intro minus
    cases minus
    exact absurd (all '-' (by simp)) (by decide)
  have whole : (wholeDigits (digits ++ rest)) = (digits, rest) := by
    rw [wholeDigits_append ends, wholeDigits_of_digits all head]
    rfl
  have after : fraction rest = ([], rest) ∧ exponent? rest = none := by
    have noFraction := fraction_append ends []
    have noExponent := exponent_append ends []
    exact ⟨noFraction, noExponent⟩
  rw [number_unsigned plain]
  unfold unsigned
  simp only [whole, after.1, after.2, List.isEmpty_iff, if_neg some_, List.isEmpty_nil, Bool.not_true,
    Bool.false_eq_true, if_false, if_pos long]

/-- A value that starts with a digit is a number. -/
theorem value_of_digit (fuel : Nat) {c : Char} (digit : c.isDigit = true) (more : List Char) :
    value (fuel + 1) (c :: more) = number (c :: more) := by
  unfold value
  split
  case h_10 => rfl
  all_goals
    rename_i eq
    cases eq
    cases digit

/-- A mapping whose first member halts, halts there. -/
theorem value_of_member {fuel : Nat} {c : Char} {halt : Halt} (layout : Layout) (name : String)
    (printed : isSpace c = false) (more : List Char) (h : value (fuel + 1) (c :: more) = .error halt) :
    value (fuel + 3) ('\x7b' :: ((stringText layout name).toList ++ ':' :: ' ' :: c :: more)) = .error halt := by
  obtain ⟨body, quoted, reads⟩ := stringBody_stringText layout name
  have skipped : skipSpace (' ' :: c :: more) = c :: more := by
    rw [skipSpace, List.dropWhile_cons_of_pos rfl, List.dropWhile_cons_of_neg (by simp [printed])]
  have first : members (fuel + 2) [] ('"' :: (body ++ ':' :: ' ' :: c :: more)) = .error halt := by
    rw [members, reads]
    show (value (fuel + 1) (skipSpace (' ' :: c :: more)) >>= _) = _
    rw [skipped, h]
    rfl
  rw [quoted, List.cons_append]
  show (members (fuel + 2) [] ('"' :: (body ++ ':' :: ' ' :: c :: more)) >>= _) = _
  rw [first]
  rfl

/-- The text of a mapping with one member, which is written in digits. -/
def memberText (name digits : String) : String := "\x7b" ++ stringText spaced name ++ ": " ++ digits ++ "\x7d"

/-- **An integer with too many digits stops the reader**, under whatever name it stands. -/
theorem read_memberText (name : String) {digits : String} (all : ∀ c ∈ digits.toList, c.isDigit = true)
    (head : digits.toList.head? ≠ some '0') (long : maxDigits < digits.length) :
    read (memberText name digits) = .error (.tooLong digits.length) := by
  obtain ⟨c, more, eq⟩ : ∃ c more, digits.toList = c :: more := by
    refine List.exists_cons_of_ne_nil fun none => ?_
    rw [String.length, none] at long
    cases long
  have digit : c.isDigit = true := all c (by simp [eq])
  have printed : isSpace c = false := by
    obtain ⟨_, _, same, printed, -⟩ := startsValue_digit digit more
    cases same
    exact printed
  have chars : (memberText name digits).toList =
      '\x7b' :: ((stringText spaced name).toList ++ ':' :: ' ' :: c :: (more ++ ['\x7d'])) := by
    simp [memberText, eq]
  have number : value ((memberText name digits).toList.length - 2 + 1) (c :: (more ++ ['\x7d'])) =
      .error (.tooLong digits.length) := by
    rw [value_of_digit _ digit, ← List.cons_append, ← eq]
    exact number_tooLong all head long (endsNumber_cons (by simp) [])
  have fuel : (memberText name digits).toList.length - 2 + 3 = (memberText name digits).toList.length + 1 := by
    rw [chars]
    simp only [List.length_cons, List.length_append]
    omega
  have whole := value_of_member spaced name printed (more ++ ['\x7d']) number
  rw [fuel, ← chars] at whole
  have start : skipSpace (memberText name digits).toList = (memberText name digits).toList := by
    rw [chars]
    rfl
  have unmarked : read (memberText name digits) = readChars (memberText name digits).toList := by
    unfold read
    rw [chars]
    rfl
  rw [unmarked, readChars, document, start, whole]
  rfl

end TooLong

end Semijoin.Json
