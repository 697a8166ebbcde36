import Semijoin.Json.Syntax
import Semijoin.Json.Write

/-!
# Strings that read back

Whatever a character is written as, one step of the reader takes it up again: as itself, from a short escape,
from the four digits of a code unit, or from the two units of a surrogate pair. So a text in quotes reads back
in either layout. A string that is read is never at the end of the text, since its closing quote is still to
come.
-/

namespace Semijoin.Json
set_option autoImplicit false

/-- The four digits of a code unit. -/
def unitDigits (n : Nat) : List Char :=
  [Nat.digitChar (n / 4096), Nat.digitChar (n / 256 % 16), Nat.digitChar (n / 16 % 16), Nat.digitChar (n % 16)]

theorem toList_hexDigits {n : Nat} (unit : n < 65536) : (hexDigits 4 n).toList = unitDigits n := by
  have step (m : Nat) : Nat.toDigits 16 m =
      if m < 16 then [Nat.digitChar m] else Nat.toDigits 16 (m / 16) ++ [Nat.digitChar (m % 16)] :=
    Nat.toDigits_eq_if (by decide)
  have zero : Nat.digitChar 0 = '0' := rfl
  unfold hexDigits unitDigits
  rw [String.toList_ofList]
  by_cases one : n < 16
  · have eqs : n / 4096 = 0 ∧ n / 256 % 16 = 0 ∧ n / 16 % 16 = 0 ∧ n % 16 = n := by omega
    simp [step n, one, eqs, zero, List.replicate]
  · by_cases two : n < 256
    · have eqs : n / 4096 = 0 ∧ n / 256 % 16 = 0 ∧ n / 16 % 16 = n / 16 ∧ n / 16 < 16 := by omega
      simp [step n, step (n / 16), one, eqs, zero, List.replicate]
    · by_cases three : n < 4096
      · have eqs : n / 4096 = 0 ∧ n / 256 % 16 = n / 16 / 16 ∧ ¬n / 16 < 16 ∧ n / 16 / 16 < 16 := by omega
        simp [step n, step (n / 16), step (n / 16 / 16), one, eqs, zero]
      · have eqs : n / 4096 = n / 16 / 16 / 16 ∧ n / 256 % 16 = n / 16 / 16 % 16 ∧ ¬n / 16 < 16 ∧
            ¬n / 16 / 16 < 16 ∧ n / 16 / 16 / 16 < 16 := by omega
        simp [step n, step (n / 16), step (n / 16 / 16), step (n / 16 / 16 / 16), one, eqs]

theorem hexValue_digitChar {k : Nat} (digit : k < 16) : hexValue? (Nat.digitChar k) = some k := by
  revert k
  decide

theorem hex4_unitDigits {n : Nat} (unit : n < 65536) :
    hex4? (Nat.digitChar (n / 4096)) (Nat.digitChar (n / 256 % 16)) (Nat.digitChar (n / 16 % 16))
      (Nat.digitChar (n % 16)) = some n := by
  have digits : n / 4096 < 16 ∧ n / 256 % 16 < 16 ∧ n / 16 % 16 < 16 ∧ n % 16 < 16 := by omega
  have value : n / 4096 * 4096 + n / 256 % 16 * 256 + n / 16 % 16 * 16 + n % 16 = n := by omega
  simp [hex4?, hexValue_digitChar digits.1, hexValue_digitChar digits.2.1, hexValue_digitChar digits.2.2.1,
    hexValue_digitChar digits.2.2.2, value]

section Body

variable {start : Nat} {high : Option Nat} {read : List Char} {d : Char} {rest : List Char}

section Units

variable {n : Nat} (unit : n < 65536)
include unit

/-- A high surrogate is kept for the low one that may follow. -/
theorem stringBody_high (isHigh : isHighSurrogate n = true) :
    stringBody start high read ('\\' :: 'u' :: (unitDigits n ++ d :: rest)) =
      stringBody start (some n) (settle high read) (d :: rest) := by
  have four := hex4_unitDigits unit
  rw [stringBody.eq_def]
  simp [unitDigits, four, isHigh]

/-- A low surrogate makes a pair with the high one just before. -/
theorem stringBody_low {m : Nat} (notHigh : isHighSurrogate n = false) (isLow : isLowSurrogate n = true) :
    stringBody start (some m) read ('\\' :: 'u' :: (unitDigits n ++ d :: rest)) =
      stringBody start none (pairChar m n :: read) (d :: rest) := by
  have four := hex4_unitDigits unit
  rw [stringBody.eq_def]
  simp [unitDigits, four, notHigh, isLow]

/-- Any other unit is a character. -/
theorem stringBody_unit (notHigh : isHighSurrogate n = false) (notLow : isLowSurrogate n = false) :
    stringBody start high read ('\\' :: 'u' :: (unitDigits n ++ d :: rest)) =
      stringBody start none (unitChar n :: settle high read) (d :: rest) := by
  have four := hex4_unitDigits unit
  rw [stringBody.eq_def]
  simp [unitDigits, four, notHigh, notLow]

end Units

/-- The reader at a character that stands for itself. -/
theorem stringBody_plain {c : Char} (quote : c ≠ '"') (backslash : c ≠ '\\') (control : ¬c.toNat < 0x20) :
    stringBody start none read (c :: d :: rest) = stringBody start none (c :: read) (d :: rest) := by
  rw [stringBody.eq_def]
  simp only [if_neg quote, if_neg backslash, if_neg control]
  rfl

/-- A character's number is no half of a surrogate pair. -/
theorem toNat_valid (c : Char) : c.toNat < 0xd800 ∨ 0xdfff < c.toNat ∧ c.toNat < 0x110000 := c.valid

theorem toList_unitEscape {n : Nat} (unit : n < 65536) : (unitEscape n).toList = '\\' :: 'u' :: unitDigits n := by
  rw [unitEscape, String.toList_append, toList_hexDigits unit]
  rfl

/-- A character of the first plane reads back from its code unit. -/
theorem stringBody_escaped {c : Char} (unit : c.toNat < 65536) :
    stringBody start none read ((unitEscape c.toNat).toList ++ d :: rest) =
      stringBody start none (c :: read) (d :: rest) := by
  have valid := toNat_valid c
  have notHigh : isHighSurrogate c.toNat = false := by
    simp only [isHighSurrogate, Bool.and_eq_false_iff, decide_eq_false_iff_not]
    omega
  have notLow : isLowSurrogate c.toNat = false := by
    simp only [isLowSurrogate, Bool.and_eq_false_iff, decide_eq_false_iff_not]
    omega
  have self : unitChar c.toNat = c := by
    rw [unitChar, notHigh, notLow]
    exact Char.ofNat_toNat c
  rw [toList_unitEscape unit, List.cons_append, List.cons_append, stringBody_unit unit notHigh notLow, self]
  rfl

/-- A surrogate pair reads as its character. -/
theorem stringBody_pair {m n : Nat} (high : isHighSurrogate m = true) (low : isLowSurrogate n = true) :
    stringBody start none read ((unitEscape m ++ unitEscape n).toList ++ d :: rest) =
      stringBody start none (pairChar m n :: read) (d :: rest) := by
  have bounds : m < 65536 ∧ 0xdc00 ≤ n ∧ n < 65536 := by
    simp only [isHighSurrogate, isLowSurrogate, Bool.and_eq_true, decide_eq_true_eq] at high low
    omega
  have notHigh : isHighSurrogate n = false := by
    simp only [isHighSurrogate, Bool.and_eq_false_iff, decide_eq_false_iff_not]
    omega
  rw [String.toList_append, toList_unitEscape bounds.1, toList_unitEscape bounds.2.2]
  show stringBody start none read ('\\' :: 'u' :: (unitDigits m ++ '\\' :: 'u' :: (unitDigits n ++ d :: rest))) = _
  rw [stringBody_high bounds.1 high, stringBody_low bounds.2.2 notHigh low]
  rfl

/-- A character beyond the first plane is the one that its surrogate pair writes. -/
theorem pairChar_units {c : Char} (beyond : 65536 ≤ c.toNat) :
    isHighSurrogate (0xd800 + (c.toNat - 0x10000) / 0x400) = true ∧
      isLowSurrogate (0xdc00 + (c.toNat - 0x10000) % 0x400) = true ∧
        pairChar (0xd800 + (c.toNat - 0x10000) / 0x400) (0xdc00 + (c.toNat - 0x10000) % 0x400) = c := by
  have valid := toNat_valid c
  refine ⟨?_, ?_, ?_⟩
  · simp only [isHighSurrogate, Bool.and_eq_true, decide_eq_true_eq]
    omega
  · simp only [isLowSurrogate, Bool.and_eq_true, decide_eq_true_eq]
    omega
  · have number : 0x10000 + (0xd800 + (c.toNat - 0x10000) / 0x400 - 0xd800) * 0x400 +
        (0xdc00 + (c.toNat - 0x10000) % 0x400 - 0xdc00) = c.toNat := by omega
    rw [pairChar, number]
    exact Char.ofNat_toNat c

/-- **Every character reads back** from what it is written as. -/
theorem stringBody_char (layout : Layout) (c : Char) :
    stringBody start none read ((charText layout c).toList ++ d :: rest) =
      stringBody start none (c :: read) (d :: rest) := by
  unfold charText
  split
  -- a character without a short escape: a control, one beyond ASCII, or itself
  case h_8 c quote backslash newline return_ tab backspace feed =>
    split
    · rename_i control
      exact stringBody_escaped (by omega)
    · rename_i control
      split
      · split
        · rename_i unit
          exact stringBody_escaped unit
        · rename_i beyond
          obtain ⟨high, low, self⟩ := pairChar_units (Nat.le_of_not_lt beyond)
          rw [stringBody_pair high low, self]
      · rw [String.toList_singleton]
        exact stringBody_plain quote backslash control
  all_goals
    rw [stringBody.eq_def]
    rfl

/-- The characters of a text read back, one after the other. -/
theorem stringBody_chars (layout : Layout) (cs : List Char) (read : List Char) :
    stringBody start none read (cs.flatMap (fun c => (charText layout c).toList) ++ '"' :: rest) =
      .ok (String.ofList (read.reverse ++ cs), rest) := by
  induction cs generalizing read with
  | nil =>
    rw [stringBody.eq_def]
    simp [settle]
  | cons c more ih =>
    rw [List.flatMap_cons, List.append_assoc]
    have next : ∃ d after, more.flatMap (fun c => (charText layout c).toList) ++ '"' :: rest = d :: after := by
      cases more.flatMap (fun c => (charText layout c).toList) with
      | nil => exact ⟨_, _, rfl⟩
      | cons d after => exact ⟨_, _, rfl⟩
    obtain ⟨d, after, eq⟩ := next
    rw [eq, stringBody_char, ← eq, ih, List.reverse_cons, List.append_assoc, List.singleton_append]

end Body

theorem toList_stringText (layout : Layout) (s : String) :
    (stringText layout s).toList = '"' :: (s.toList.flatMap (fun c => (charText layout c).toList) ++ ['"']) := by
  have joined : (String.join (s.toList.map (charText layout))).toList =
      s.toList.flatMap (fun c => (charText layout c).toList) := by
    rw [String.toList_join, List.flatMap_map]
  rw [stringText, String.toList_append, String.toList_append, joined]
  rfl

/-- **A text in quotes reads back**, in either layout and before anything. -/
theorem stringBody_stringText (layout : Layout) (s : String) : ∃ body, (stringText layout s).toList = '"' :: body ∧
    ∀ start rest, stringBody start none [] (body ++ rest) = .ok (s, rest) := by
  refine ⟨_, toList_stringText layout s, ?_⟩
  intro start rest
  rw [List.append_assoc, List.singleton_append, stringBody_chars, List.reverse_nil, List.nil_append, String.ofList_toList]

end Semijoin.Json
