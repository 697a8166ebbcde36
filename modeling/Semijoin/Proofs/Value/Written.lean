import Mathlib.Data.Nat.Digits.Defs
import Semijoin.Proofs.Value.Document

/-!
# What has a text

An integer has a text if it is below the first power of ten with too many digits. A list or a mapping has one if all
that it holds has, and so does every document.
-/

namespace Semijoin
set_option autoImplicit false

namespace Scalar

theorem isWritable_int {n : Int} (small : n.natAbs < 10 ^ Text.maxDigits) :
    (Scalar.int n).isWritable = true := by
  rw [isWritable, decide_eq_true_iff]
  exact Nat.toDigits_length 10 n.natAbs Text.maxDigits (by decide) small

/-- The least natural number that has no text. -/
def leastLong : Scalar := .int (10 ^ Text.maxDigits)

theorem leastLong_long : leastLong.isWritable = false := by decide +kernel

end Scalar

namespace Value

theorem itemsAreWritable_iff {items : List Value} :
    itemsAreWritable items = true ↔ ∀ v ∈ items, v.isWritable = true := by
  induction items with
  | nil => simp [itemsAreWritable]
  | cons v rest ih => simp [itemsAreWritable, ih]

theorem isWritable_list {items : List Value} :
    (Value.list items).isWritable = true ↔ ∀ v ∈ items, v.isWritable = true := by
  rw [isWritable, itemsAreWritable_iff]

theorem isWritable_map {entries : List (Scalar × Value)} : (Value.map entries).isWritable = true ↔
    ∀ e ∈ entries, e.1.isWritable = true ∧ e.2.isWritable = true := by
  rw [isWritable]
  induction entries with
  | nil => simp [entriesAreWritable]
  | cons e rest ih => rw [entriesAreWritable, Bool.and_eq_true, Bool.and_eq_true, ih, List.forall_mem_cons]

/-- Every document has a text. -/
theorem isWritable_of_isDocument {v : Value} (document : v.isDocument = true) : v.isWritable = true := by
  match v with
  | .scalar s => exact document
  | .list items => exact isWritable_list.2 fun v mem => isWritable_of_isDocument (isDocument_list.1 document v mem)
  | .map entries =>
    have parts := isDocument_map.1 document
    refine isWritable_map.2 fun e mem => ⟨?_, isWritable_of_isDocument (parts.below e mem)⟩
    obtain ⟨s, text⟩ := parts.text e mem
    rw [text]
    rfl
  | .record _ => cases document
termination_by sizeOf v
decreasing_by
  · have := List.sizeOf_lt_of_mem mem
    simp only [Value.list.sizeOf_spec]
    omega
  · have := List.sizeOf_lt_of_mem mem
    obtain ⟨k, v⟩ := e
    simp only [Value.map.sizeOf_spec, Prod.mk.sizeOf_spec] at *
    omega

/-- A condition that names a value without a text has none. -/
theorem isWritable_equality {k : Scalar} (long : k.isWritable = false) (name : String) :
    (ofFields [(name, .scalar k)]).isWritable = false := by
  simp [ofFields, isWritable, entriesAreWritable, long]

theorem written_of_isWritable {v : Value} (writable : v.isWritable = true) : v.written = .ok v.shown := if_pos writable

theorem written_of_long {v : Value} (long : v.isWritable = false) : v.written = .error .longInteger :=
  if_neg (by simp [long])

end Value

end Semijoin
