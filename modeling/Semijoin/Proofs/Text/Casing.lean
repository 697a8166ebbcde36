import Semijoin.Text.Casing

/-!
# Lower case of the basic letters

Of the characters below 128 only the capitals from `A` to `Z` are lowered, each by itself, so a text of them is lowered
character by character: the rules for sigmas and for the dotted capital I are for letters beyond.
-/

namespace Semijoin.Text
set_option autoImplicit false

theorem isUpper_iff {c : Char} : c.isUpper = true ↔ 65 ≤ c.toNat ∧ c.toNat ≤ 90 := by
  delta Char.isUpper
  simp [UInt32.le_iff_toNat_le, ← Char.toNat_val]

theorem isLower_iff {c : Char} : c.isLower = true ↔ 97 ≤ c.toNat ∧ c.toNat ≤ 122 := by
  delta Char.isLower
  simp [UInt32.le_iff_toNat_le, ← Char.toNat_val]

theorem isDigit_iff {c : Char} : c.isDigit = true ↔ 48 ≤ c.toNat ∧ c.toNat ≤ 57 := by
  delta Char.isDigit
  simp [UInt32.le_iff_toNat_le, ← Char.toNat_val]

theorem isUpper_of_isLower {c : Char} (small : c.isLower = true) : c.isUpper = false := by
  rw [isLower_iff] at small
  rw [← Bool.not_eq_true, isUpper_iff]
  omega

theorem toNat_toLower (c : Char) : c.toLower.toNat = if c.isUpper then c.toNat + 32 else c.toNat := by
  delta Char.isUpper Char.toLower
  simp only [← Char.toNat_val]
  split <;> grind [UInt32.toNat_add, UInt32.le_iff_toNat_le]

theorem toLower_eq {c : Char} (small : c.isUpper = false) : c.toLower = c := by
  rw [← Char.toNat_inj, toNat_toLower, small]
  rfl

theorem isUpper_toLower (c : Char) : c.toLower.isUpper = false := by
  rw [← Bool.not_eq_true, isUpper_iff, toNat_toLower]
  split
  · next capital =>
    rw [isUpper_iff] at capital
    omega
  · next small => rwa [isUpper_iff] at small

theorem toLower_lt {c : Char} (basic : c.toNat < 128) : c.toLower.toNat < 128 := by
  rw [toNat_toLower]
  split
  · next capital =>
    rw [isUpper_iff] at capital
    omega
  · exact basic

theorem lowerFrom_basic {cs : List Char} (basic : ∀ c ∈ cs, c.toNat < 128) (before : List Char) :
    lowerFrom before cs = cs.map Char.toLower := by
  induction cs generalizing before with
  | nil => rfl
  | cons c rest ih =>
    obtain ⟨here, later⟩ := List.forall_mem_cons.1 basic
    rw [lowerFrom, ih later, if_neg (by omega), if_neg (by omega), lowerChar, if_pos here]
    rfl

theorem toList_lower {s : String} (basic : ∀ c ∈ s.toList, c.toNat < 128) :
    (lower s).toList = s.toList.map Char.toLower := by
  rw [lower, String.toList_ofList, lowerFrom_basic basic]

end Semijoin.Text
