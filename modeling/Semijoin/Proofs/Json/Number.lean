import Mathlib.Data.List.Induction
import Mathlib.Data.List.TakeDrop
import Mathlib.Data.List.TakeWhile
import Semijoin.Json.Syntax
import Semijoin.Json.Write
import Semijoin.Proofs.Value.Written

/-!
# Reading numbers

Where a number ends depends on the character after it only: one that continues no number leaves what was read
before it as it is. So the digits of an integer read as that integer in any place where it may be written, and
so does the text of a float that reads back at all.
-/

namespace Semijoin.Json
set_option autoImplicit false

/-- What follows does not continue a number. -/
def EndsNumber (rest : List Char) : Prop :=
  ∀ c ∈ rest.head?, c.isDigit = false ∧ c ≠ '.' ∧ c ≠ 'e' ∧ c ≠ 'E' ∧ c ≠ '+' ∧ c ≠ '-'

theorem endsNumber_nil : EndsNumber [] := by
  intro c mem
  cases mem

theorem endsNumber_cons {c : Char} (mark : c = ',' ∨ c = ']' ∨ c = '\x7d') (rest : List Char) :
    EndsNumber (c :: rest) := by
  intro d mem
  cases mem
  rcases mark with rfl | rfl | rfl <;> decide

/-- The digits of an exponent, whose mark and sign are read. -/
def exponentDigits (negative : Bool) (body : List Char) : Option (Int × List Char) :=
  if (body.takeWhile Char.isDigit).isEmpty then none
  else
    let n : Int := digitsValue (body.takeWhile Char.isDigit)
    some (if negative then -n else n, body.dropWhile Char.isDigit)

section Exponent

variable {c : Char} (mark : c = 'e' ∨ c = 'E')
include mark

theorem exponent_minus (body : List Char) : exponent? (c :: '-' :: body) = exponentDigits true body := by
  simp [exponent?, exponentDigits, mark]

theorem exponent_plus (body : List Char) : exponent? (c :: '+' :: body) = exponentDigits false body := by
  simp [exponent?, exponentDigits, mark]

theorem exponent_unsigned {body : List Char} (h : ∀ d ∈ body.head?, d ≠ '-' ∧ d ≠ '+') :
    exponent? (c :: body) = exponentDigits false body := by
  cases body with
  | nil => simp [exponent?, exponentDigits, mark]
  | cons d more =>
    obtain ⟨minus, plus⟩ := h d rfl
    simp [exponent?, exponentDigits, mark, minus, plus]

end Exponent

/-- The number after its sign; where it starts, so many characters are left. -/
def unsigned (negative : Bool) (left : Nat) (body : List Char) : Except Halt (Value × List Char) :=
  let whole := (wholeDigits body).1
  let fractional := (fraction (wholeDigits body).2).1
  let after := (fraction (wholeDigits body).2).2
  if whole.isEmpty then .error (.at .expectingValue left)
  else
    match exponent? after with
    | some read =>
      .ok (.float (.ofDecimal negative (digitsValue (whole ++ fractional)) (read.1 - fractional.length)), read.2)
    | none =>
      if !fractional.isEmpty then
        .ok (.float (.ofDecimal negative (digitsValue (whole ++ fractional)) (-fractional.length)), after)
      else if maxDigits < whole.length then .error (.tooLong whole.length)
      else
        let n : Int := digitsValue whole
        .ok (.int (if negative then -n else n), after)

theorem number_minus (body : List Char) : number ('-' :: body) = unsigned true (body.length + 1) body := by
  unfold number unsigned
  simp only
  rcases exponent? (fraction (wholeDigits body).2).2 with _ | ⟨e, rest⟩ <;> rfl

theorem number_unsigned {cs : List Char} (h : cs.head? ≠ some '-') : number cs = unsigned false cs.length cs := by
  unfold number unsigned
  split
  rename_i negative body eq
  have plain : (false, cs) = (negative, body) := by
    rw [← eq]
    split
    · exact absurd rfl h
    · rfl
  cases plain
  simp only
  rcases exponent? (fraction (wholeDigits cs).2).2 with _ | ⟨e, rest⟩ <;> rfl

section Ends

variable {rest : List Char} (ends : EndsNumber rest)
include ends

theorem takeWhile_append (cs : List Char) : (cs ++ rest).takeWhile Char.isDigit = cs.takeWhile Char.isDigit := by
  induction cs with
  | nil =>
    cases rest with
    | nil => rfl
    | cons c more => simp [(ends c rfl).1]
  | cons c more ih =>
    rw [List.cons_append, List.takeWhile_cons, List.takeWhile_cons, ih]

theorem dropWhile_append (cs : List Char) :
    (cs ++ rest).dropWhile Char.isDigit = cs.dropWhile Char.isDigit ++ rest := by
  induction cs with
  | nil =>
    cases rest with
    | nil => rfl
    | cons c more => simp [(ends c rfl).1]
  | cons c more ih =>
    rw [List.cons_append, List.dropWhile_cons, List.dropWhile_cons, ih]
    split <;> rfl

theorem span_append (cs : List Char) :
    (cs ++ rest).span Char.isDigit = ((cs.span Char.isDigit).1, (cs.span Char.isDigit).2 ++ rest) := by
  rw [List.span_eq_takeWhile_dropWhile, List.span_eq_takeWhile_dropWhile, takeWhile_append ends, dropWhile_append ends]

theorem wholeDigits_append (cs : List Char) :
    wholeDigits (cs ++ rest) = ((wholeDigits cs).1, (wholeDigits cs).2 ++ rest) := by
  cases cs with
  | nil =>
    cases rest with
    | nil => rfl
    | cons c more =>
      have digit := (ends c rfl).1
      have zero : c ≠ '0' := by
        rintro rfl
        cases digit
      simp [wholeDigits, zero, digit, List.span_eq_takeWhile_dropWhile]
  | cons c more =>
    by_cases zero : c = '0'
    · subst zero
      rfl
    · have spans (tail : List Char) : wholeDigits (c :: tail) = (c :: tail).span Char.isDigit := by
        simp [wholeDigits, zero]
      rw [List.cons_append, spans, spans, ← List.cons_append, span_append ends]

theorem fraction_append (cs : List Char) : fraction (cs ++ rest) = ((fraction cs).1, (fraction cs).2 ++ rest) := by
  cases cs with
  | nil =>
    cases rest with
    | nil => rfl
    | cons c more =>
      have point := (ends c rfl).2.1
      simp [fraction, point]
  | cons c more =>
    by_cases point : c = '.'
    · subst point
      simp only [List.cons_append, fraction, takeWhile_append ends, span_append ends]
      split <;> simp
    · simp [fraction, point]

theorem exponentDigits_append (negative : Bool) (body : List Char) : exponentDigits negative (body ++ rest) =
    (exponentDigits negative body).map fun read => (read.1, read.2 ++ rest) := by
  unfold exponentDigits
  rw [takeWhile_append ends, dropWhile_append ends]
  split <;> rfl

theorem exponent_append (cs : List Char) :
    exponent? (cs ++ rest) = (exponent? cs).map fun read => (read.1, read.2 ++ rest) := by
  cases cs with
  | nil =>
    cases rest with
    | nil => rfl
    | cons c more =>
      obtain ⟨-, -, small, large, -, -⟩ := ends c rfl
      simp [exponent?, small, large]
  | cons c more =>
    by_cases mark : c = 'e' ∨ c = 'E'
    · rw [List.cons_append]
      cases more with
      | nil =>
        have unsigned : ∀ d ∈ ([] ++ rest).head?, d ≠ '-' ∧ d ≠ '+' := fun d mem =>
          ⟨(ends d mem).2.2.2.2.2, (ends d mem).2.2.2.2.1⟩
        rw [exponent_unsigned mark unsigned, exponentDigits_append ends, exponent_unsigned mark (by simp)]
      | cons d body =>
        by_cases minus : d = '-'
        · subst minus
          rw [List.cons_append, exponent_minus mark, exponent_minus mark, exponentDigits_append ends]
        · by_cases plus : d = '+'
          · subst plus
            rw [List.cons_append, exponent_plus mark, exponent_plus mark, exponentDigits_append ends]
          · rw [exponent_unsigned mark (by simp [minus, plus]), exponentDigits_append ends,
              exponent_unsigned mark (by simp [minus, plus])]
    · simp [exponent?, mark]

/-- A number reads the same before what does not continue it. -/
theorem unsigned_append {negative : Bool} {left left' : Nat} {body after : List Char} {v : Value}
    (h : unsigned negative left body = .ok (v, after)) :
    unsigned negative left' (body ++ rest) = .ok (v, after ++ rest) := by
  unfold unsigned at h ⊢
  simp only [wholeDigits_append ends, fraction_append ends, exponent_append ends]
  by_cases digits : (wholeDigits body).1.isEmpty = true
  · rw [if_pos digits] at h
    cases h
  · rw [if_neg digits] at h ⊢
    cases read : exponent? (fraction (wholeDigits body).2).2 with
    | some e =>
      rw [read] at h
      cases h
      rfl
    | none =>
      rw [read] at h
      simp only [Option.map_none] at h ⊢
      by_cases fractional : (!(fraction (wholeDigits body).2).1.isEmpty) = true
      · rw [if_pos fractional] at h ⊢
        cases h
        rfl
      · rw [if_neg fractional] at h ⊢
        by_cases long : maxDigits < (wholeDigits body).1.length
        · rw [if_pos long] at h
          cases h
        · rw [if_neg long] at h ⊢
          cases h
          rfl

end Ends

/-- A number stays below the power of ten of its digits. -/
theorem digitsValue_lt {digits : List Char} (all : ∀ c ∈ digits, c.isDigit = true) :
    digitsValue digits < 10 ^ digits.length := by
  -- over the last digit, which is the last one that is added
  induction digits using List.reverseRecOn with
  | nil => decide
  | append_singleton before c ih =>
    have below := ih fun d mem => all d (List.mem_append_left _ mem)
    have digit := all c (by simp)
    have value : digitsValue (before ++ [c]) = 10 * digitsValue before + (c.toNat - '0'.toNat) := by
      rw [digitsValue, List.foldl_append]
      rfl
    have small : c.toNat - '0'.toNat ≤ 9 := by
      simp only [Char.isDigit, Bool.and_eq_true, decide_eq_true_eq, UInt32.le_iff_toNat_le] at digit
      exact Nat.sub_le_of_le_add digit.2
    rw [value, List.length_append, List.length_singleton, Nat.pow_succ]
    omega

theorem isDigit_wholeDigits (cs : List Char) : ∀ c ∈ (wholeDigits cs).1, c.isDigit = true := by
  unfold wholeDigits
  split
  · simp
  · rw [List.span_eq_takeWhile_dropWhile]
    exact fun c mem => List.mem_takeWhile_imp mem

/-- What is read as a number is a scalar with a text. -/
theorem unsigned_scalar {negative : Bool} {left : Nat} {body after : List Char} {v : Value}
    (h : unsigned negative left body = .ok (v, after)) : ∃ k, v = .scalar k ∧ k.isWritable = true := by
  unfold unsigned at h
  simp only at h
  split at h
  · cases h
  · split at h
    · cases h
      exact ⟨_, rfl, rfl⟩
    · split at h
      · cases h
        exact ⟨_, rfl, rfl⟩
      · split at h
        · cases h
        · rename_i short
          cases h
          refine ⟨_, rfl, Scalar.isWritable_int ?_⟩
          have sign : ∀ n : Nat, (if negative = true then -(n : Int) else n).natAbs = n := by
            intro n
            split <;> omega
          rw [sign]
          exact (digitsValue_lt (isDigit_wholeDigits body)).trans_le (Nat.pow_le_pow_right (by decide) (Nat.not_lt.1 short))

theorem number_scalar {cs rest : List Char} {v : Value} (h : number cs = .ok (v, rest)) :
    ∃ k, v = .scalar k ∧ k.isWritable = true := by
  by_cases minus : cs.head? = some '-'
  · obtain ⟨body, rfl⟩ : ∃ body, cs = '-' :: body := by
      cases cs with
      | nil => cases minus
      | cons c body => cases minus; exact ⟨body, rfl⟩
    rw [number_minus] at h
    exact unsigned_scalar h
  · rw [number_unsigned minus] at h
    exact unsigned_scalar h

/-- A number starts with a digit. -/
theorem unsigned_head {negative : Bool} {left : Nat} {body after : List Char} {v : Value}
    (h : unsigned negative left body = .ok (v, after)) : ∃ c more, body = c :: more ∧ c.isDigit = true := by
  cases body with
  | nil => cases h
  | cons c more =>
    refine ⟨c, more, rfl, ?_⟩
    by_contra digit
    have zero : c ≠ '0' := by
      rintro rfl
      exact digit rfl
    have none : (wholeDigits (c :: more)).1 = [] := by
      simp [wholeDigits, zero, List.span_eq_takeWhile_dropWhile, digit]
    unfold unsigned at h
    simp only [none, List.isEmpty_nil, if_true] at h
    cases h

/-- A number starts with a digit, or with a minus before a digit. -/
theorem number_head {cs rest : List Char} {v : Value} (h : number cs = .ok (v, rest)) :
    (∃ c more, cs = c :: more ∧ c.isDigit = true) ∨ ∃ c more, cs = '-' :: c :: more ∧ c.isDigit = true := by
  by_cases minus : cs.head? = some '-'
  · cases cs with
    | nil => cases minus
    | cons c body =>
      cases minus
      rw [number_minus] at h
      obtain ⟨c, more, rfl, digit⟩ := unsigned_head h
      exact .inr ⟨c, more, rfl, digit⟩
  · rw [number_unsigned minus] at h
    exact .inl (unsigned_head h)

theorem number_append {rest : List Char} (ends : EndsNumber rest) {cs after : List Char} {v : Value}
    (h : number cs = .ok (v, after)) : number (cs ++ rest) = .ok (v, after ++ rest) := by
  rcases number_head h with ⟨c, more, rfl, digit⟩ | ⟨c, more, rfl, digit⟩
  · have plain (tail : List Char) : (c :: tail).head? ≠ some '-' := by
      intro minus
      cases minus
      cases digit
    rw [number_unsigned (plain more)] at h
    rw [List.cons_append, number_unsigned (plain _)]
    exact unsigned_append ends h
  · rw [number_minus] at h
    rw [List.cons_append, number_minus]
    exact unsigned_append ends h

theorem isDigit_toDigits (n : Nat) : ∀ c ∈ Nat.toDigits 10 n, c.isDigit = true := fun _ mem =>
  Nat.isDigit_of_mem_toDigits (by decide) (by decide) mem

/-- Only zero is written with a zero first. -/
theorem head_toDigits {n : Nat} (pos : n ≠ 0) : (Nat.toDigits 10 n).head? ≠ some '0' := by
  induction n using Nat.strongRecOn with
  | _ n ih =>
    rw [Nat.toDigits_eq_if (by decide)]
    split
    · rename_i small
      simpa using pos
    · rename_i large
      have more : n / 10 ≠ 0 := by omega
      obtain ⟨c, rest, eq⟩ := List.exists_cons_of_ne_nil (Nat.toDigits_ne_nil (n := n / 10) (b := 10))
      have first := ih (n / 10) (by omega) more
      rw [eq] at first ⊢
      exact first

/-- Digits that start with no zero are whole digits. -/
theorem wholeDigits_of_digits {digits : List Char} (all : ∀ c ∈ digits, c.isDigit = true)
    (head : digits.head? ≠ some '0') : wholeDigits digits = (digits, []) := by
  have spans : wholeDigits digits = digits.span Char.isDigit := by
    unfold wholeDigits
    split
    · exact absurd rfl head
    · rfl
  rw [spans, List.span_eq_takeWhile_dropWhile, List.takeWhile_eq_self_iff.2 all, List.dropWhile_eq_nil_iff.2 all]

/-- The digits of a natural are whole digits. -/
theorem wholeDigits_toDigits (n : Nat) : wholeDigits (Nat.toDigits 10 n) = (Nat.toDigits 10 n, []) := by
  by_cases zero : n = 0
  · subst zero
    rw [Nat.toDigits_zero]
    rfl
  · exact wholeDigits_of_digits (isDigit_toDigits n) (head_toDigits zero)

theorem digitsValue_toDigits (n : Nat) : digitsValue (Nat.toDigits 10 n) = n := Nat.ofDigitChars_ten_toDigits

/-- **An integer reads back from its digits**, if there are not too many. -/
theorem unsigned_toDigits {negative : Bool} {left n : Nat} (short : (Nat.toDigits 10 n).length ≤ maxDigits) :
    unsigned negative left (Nat.toDigits 10 n) = .ok (.int (if negative then -n else n), []) := by
  have whole : (Nat.toDigits 10 n).isEmpty = false := by simp
  unfold unsigned
  simp only [wholeDigits_toDigits, whole, fraction, exponent?, Nat.not_lt.2 short, digitsValue_toDigits]
  rfl

/-- **An integer reads back**, whatever its sign. -/
theorem number_toString (n : Int) (short : (toString n.natAbs).length ≤ maxDigits) :
    number (toString n).toList = .ok (.int n, []) := by
  have digits : (Nat.toDigits 10 n.natAbs).length ≤ maxDigits := by
    simpa [Nat.repr_eq_ofList_toDigits] using short
  rw [Int.toString_eq_repr, Int.repr_eq_if]
  by_cases sign : 0 ≤ n
  · obtain ⟨m, rfl⟩ := Int.eq_ofNat_of_zero_le sign
    have plain : (Nat.toDigits 10 m).head? ≠ some '-' := by
      intro minus
      have digit := isDigit_toDigits m _ (List.mem_of_mem_head? minus)
      cases digit
    simp only [Int.natAbs_natCast, Int.toNat_natCast, sign, if_true, Nat.toList_repr] at digits ⊢
    rw [number_unsigned plain, unsigned_toDigits digits]
    rfl
  · have text : (-n).toNat = n.natAbs := by omega
    have value : -(n.natAbs : Int) = n := by omega
    rw [if_neg sign, String.toList_append, text, Nat.toList_repr]
    show number ('-' :: Nat.toDigits 10 n.natAbs) = _
    rw [number_minus, unsigned_toDigits digits, if_pos rfl, value]

end Semijoin.Json
