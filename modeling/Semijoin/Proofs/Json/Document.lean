import Semijoin.Json.Bytes
import Semijoin.Proofs.Json.Number
import Semijoin.Proofs.Schema.Accepted

/-!
# What is read is a document

Whatever text or bytes a value was read from, its mappings have text keys, each once, at every level. What the
reader can do at a value is said once, in `value_eq_ok`.
-/

namespace Semijoin.Json
set_option autoImplicit false

theorem documentEntries_entriesOf {fields : List (String × Value)} (below : ∀ f ∈ fields, f.2.isDocument = true) :
    Value.DocumentEntries (entriesOf fields) := by
  have step (entries : List (Scalar × Value)) (h : Value.DocumentEntries entries) : Value.DocumentEntries
      (fields.foldl (fun entries f => Entries.insert (.text f.1) f.2 entries) entries) := by
    induction fields generalizing entries with
    | nil => exact h
    | cons f rest ih =>
      obtain ⟨here, later⟩ := List.forall_mem_cons.1 below
      exact ih later _ (h.insert f.1 here)
  exact step [] .nil

/-- What a value can start with: no white space, no closing bracket and no byte order mark. -/
def StartsValue (cs : List Char) : Prop :=
  ∃ c more, cs = c :: more ∧ isSpace c = false ∧ c ≠ ']' ∧ c ≠ '\ufeff'

theorem startsValue_digit {c : Char} (digit : c.isDigit = true) (more : List Char) : StartsValue (c :: more) := by
  refine ⟨c, more, rfl, ?_, ?_, ?_⟩
  · rw [isSpace]
    simp only [Bool.or_eq_false_iff, beq_eq_false_iff_ne]
    refine ⟨⟨⟨?_, ?_⟩, ?_⟩, ?_⟩ <;>
      · rintro rfl
        cases digit
  · rintro rfl
    cases digit
  · rintro rfl
    cases digit

/-- What one value is read as: a scalar, the members of an object or the items of an array. -/
inductive Taken (fuel : Nat) (rest : List Char) : Value → Prop
  | scalar {k : Scalar} (writable : k.isWritable = true) : Taken fuel rest (.scalar k)
  | emptyMap : Taken fuel rest (.map [])
  | map {cs : List Char} {fields : List (String × Value)} (read : members fuel [] cs = .ok (fields, rest)) :
      Taken fuel rest (.map (entriesOf fields))
  | emptyList : Taken fuel rest (.list [])
  | list {cs : List Char} {found : List Value} (read : items fuel [] cs = .ok (found, rest)) :
      Taken fuel rest (.list found)

theorem value_eq_ok {fuel : Nat} {cs rest : List Char} {v : Value} (h : value (fuel + 1) cs = .ok (v, rest)) :
    StartsValue cs ∧ Taken fuel rest v := by
  unfold value at h
  split at h
  case h_1 =>
    obtain ⟨⟨s, after⟩, -, eq⟩ := bind_eq_ok.1 h
    cases eq
    exact ⟨⟨_, _, rfl, by decide⟩, .scalar rfl⟩
  case h_2 =>
    refine ⟨⟨_, _, rfl, by decide⟩, ?_⟩
    split at h
    · cases h
      exact .emptyMap
    · obtain ⟨⟨fields, after⟩, read, eq⟩ := bind_eq_ok.1 h
      cases eq
      exact .map read
  case h_3 =>
    refine ⟨⟨_, _, rfl, by decide⟩, ?_⟩
    split at h
    · cases h
      exact .emptyList
    · obtain ⟨⟨found, after⟩, read, eq⟩ := bind_eq_ok.1 h
      cases eq
      exact .list read
  -- no quote, bracket or word: what is left is a number
  case h_10 =>
    obtain ⟨k, rfl, writable⟩ := number_scalar h
    rcases number_head h with ⟨c, more, rfl, digit⟩ | ⟨c, more, rfl, digit⟩
    · exact ⟨startsValue_digit digit more, .scalar writable⟩
    · exact ⟨⟨_, _, rfl, by decide⟩, .scalar writable⟩
  all_goals
    cases h
    exact ⟨⟨_, _, rfl, by decide⟩, .scalar rfl⟩

theorem startsValue_of_value {fuel : Nat} {cs rest : List Char} {v : Value} (h : value fuel cs = .ok (v, rest)) :
    StartsValue cs := by
  cases fuel with
  | zero =>
    rw [value] at h
    cases h
  | succ fuel => exact (value_eq_ok h).1

/-- What the readers give at a bound on what is still to be read. -/
structure ReadsDocuments (fuel : Nat) : Prop where
  value : ∀ cs v rest, value fuel cs = .ok (v, rest) → v.isDocument = true
  members : ∀ read cs fields rest, (∀ f ∈ read, f.2.isDocument = true) →
    members fuel read cs = .ok (fields, rest) → ∀ f ∈ fields, f.2.isDocument = true
  items : ∀ read cs found rest, (∀ v ∈ read, v.isDocument = true) →
    items fuel read cs = .ok (found, rest) → ∀ v ∈ found, v.isDocument = true

namespace ReadsDocuments

variable {fuel : Nat}

theorem value_succ (h : ReadsDocuments fuel) {cs rest : List Char} {v : Value}
    (eq : Json.value (fuel + 1) cs = .ok (v, rest)) : v.isDocument = true := by
  cases (value_eq_ok eq).2 with
  | scalar writable => exact writable
  | emptyMap => rfl
  | map read => exact Value.isDocument_map.2 (documentEntries_entriesOf (h.members _ _ _ _ (by simp) read))
  | emptyList => rfl
  | list read => exact Value.isDocument_list.2 (h.items _ _ _ _ (by simp) read)

theorem members_succ (h : ReadsDocuments fuel) {read fields : List (String × Value)} {cs rest : List Char}
    (before : ∀ f ∈ read, f.2.isDocument = true) (eq : Json.members (fuel + 1) read cs = .ok (fields, rest)) :
    ∀ f ∈ fields, f.2.isDocument = true := by
  unfold Json.members at eq
  split at eq
  · obtain ⟨⟨name, after⟩, -, eq⟩ := bind_eq_ok.1 eq
    simp only at eq
    split at eq
    · obtain ⟨⟨v, afterValue⟩, found, eq⟩ := bind_eq_ok.1 eq
      have more : ∀ f ∈ (name, v) :: read, f.2.isDocument = true :=
        List.forall_mem_cons.2 ⟨h.value _ _ _ found, before⟩
      simp only at eq
      split at eq
      · cases eq
        intro f mem
        exact more f (List.mem_reverse.1 mem)
      · exact h.members _ _ _ _ more eq
      · cases eq
    · cases eq
  · cases eq

theorem items_succ (h : ReadsDocuments fuel) {read found : List Value} {cs rest : List Char}
    (before : ∀ v ∈ read, v.isDocument = true) (eq : Json.items (fuel + 1) read cs = .ok (found, rest)) :
    ∀ v ∈ found, v.isDocument = true := by
  unfold Json.items at eq
  obtain ⟨⟨v, after⟩, here, eq⟩ := bind_eq_ok.1 eq
  have more : ∀ w ∈ v :: read, w.isDocument = true := List.forall_mem_cons.2 ⟨h.value _ _ _ here, before⟩
  simp only at eq
  split at eq
  · cases eq
    intro w mem
    exact more w (List.mem_reverse.1 mem)
  · exact h.items _ _ _ _ more eq
  · cases eq

end ReadsDocuments

theorem readsDocuments (fuel : Nat) : ReadsDocuments fuel := by
  induction fuel with
  | zero =>
    refine ⟨fun cs v rest h => ?_, fun read cs fields rest _ h => ?_, fun read cs found rest _ h => ?_⟩
    · rw [value] at h
      cases h
    · rw [members] at h
      cases h
    · rw [items] at h
      cases h
  | succ fuel ih => exact ⟨fun _ _ _ => ih.value_succ, fun _ _ _ _ => ih.members_succ, fun _ _ _ _ => ih.items_succ⟩

theorem isDocument_readChars {cs : List Char} {v : Value} (h : readChars cs = .ok v) : v.isDocument = true := by
  unfold readChars at h
  cases read : document cs with
  | error halt =>
    rw [read] at h
    cases h
  | ok w =>
    rw [read] at h
    cases h
    obtain ⟨⟨w, rest⟩, found, eq⟩ := bind_eq_ok.1 read
    simp only at eq
    split at eq
    · cases eq
      exact (readsDocuments _).value _ _ _ found
    · cases eq

/-- **What is read from text is a document.** -/
theorem isDocument_read {s : String} {v : Value} (h : read s = .ok v) : v.isDocument = true := by
  unfold read at h
  simp only at h
  split at h
  · cases h
  · exact isDocument_readChars h

theorem isDocument_readBytes {bytes : List UInt8} {v : Value} (h : readBytes bytes = .ok v) : v.isDocument = true := by
  unfold readBytes at h
  split at h
  · cases h
  · rename_i cs _
    cases read : readChars cs with
    | error f =>
      rw [read] at h
      cases h
    | ok w =>
      rw [read] at h
      cases h
      exact isDocument_readChars read

end Semijoin.Json
