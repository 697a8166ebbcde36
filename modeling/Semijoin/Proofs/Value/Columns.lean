import Semijoin.Shape
import Semijoin.Value.Access

/-!
# Columns of rows

What a row holds in a column, as a total function, and how the entries of mappings answer text keys.
Being the same is an equivalence of scalars; on it rests every comparison of keys, in a where, in an index and
in an id list alike. Away from NaN it is being equal.
-/

namespace Semijoin
set_option autoImplicit false

namespace Scalar

theorem same_comm (a b : Scalar) : a.same b = b.same a := by
  unfold same
  cases a.number? <;> cases b.number? <;> simp [Bool.beq_comm]

theorem same_trans {a b c : Scalar} (h : a.same b = true) (h' : b.same c = true) : a.same c = true := by
  unfold same at *
  cases ha : a.number? <;> cases hb : b.number? <;> cases hc : c.number? <;> simp_all

/-- Equal scalars are equal to the same scalars. -/
theorem same_congr {a b : Scalar} (h : a.same b = true) (c : Scalar) : a.same c = b.same c := by
  rw [Bool.eq_iff_iff]
  exact ⟨fun ac => same_trans (by rwa [same_comm]) ac, fun bc => same_trans h bc⟩

theorem same_self (a : Scalar) : a.same a = true := by
  unfold same
  cases a.number? <;> simp

/-- Only a text is equal to itself as a text. -/
theorem same_text (k : Scalar) (s : String) : k.same (.text s) = (k == .text s) := by
  cases k <;> simp [same, number?]

/-- Only null is equal to null. -/
theorem same_null (k : Scalar) : k.same .null = (k == .null) := by
  cases k <;> simp [same, number?]

/-- Only NaN is the same as NaN. -/
theorem same_nan (k : Scalar) : k.same (.float .nan) = (k == .float .nan) := by
  cases k with
  | float x =>
    cases x with
    | infinite negative => cases negative <;> rfl
    | _ => rfl
  | _ => rfl

end Scalar

namespace Entries

variable {α : Type}

theorem find?_cons (key k : Scalar) (v : α) (rest : List (Scalar × α)) :
    find? key ((k, v) :: rest) = if k.same key then some v else find? key rest := rfl

/-- A value that is found stands under an equal key. -/
theorem mem_of_find? {key : Scalar} {entries : List (Scalar × α)} {v : α}
    (h : find? key entries = some v) : ∃ k, (k, v) ∈ entries ∧ k.same key = true := by
  induction entries with
  | nil => simp [find?] at h
  | cons e rest ih =>
    obtain ⟨k, w⟩ := e
    by_cases same : k.same key = true
    · rw [find?, if_pos same, Option.some.injEq] at h
      exact ⟨k, by simp [h], same⟩
    · rw [find?, if_neg same] at h
      obtain ⟨k', mem, same'⟩ := ih h
      exact ⟨k', by simp [mem], same'⟩

theorem forall_of_find?_eq_none {key : Scalar} {entries : List (Scalar × α)} (h : find? key entries = none) :
    ∀ e ∈ entries, e.1.same key = false := by
  induction entries with
  | nil => simp
  | cons e rest ih =>
    obtain ⟨k, w⟩ := e
    by_cases same : k.same key = true
    · rw [find?, if_pos same] at h
      cases h
    · rw [find?, if_neg same] at h
      simpa using ⟨by simpa using same, fun a b hb => ih h (a, b) hb⟩

theorem find?_append (key : Scalar) (es fs : List (Scalar × α)) :
    find? key (es ++ fs) = (find? key es).or (find? key fs) := by
  induction es with
  | nil => rfl
  | cons e rest ih =>
    obtain ⟨k, v⟩ := e
    simp only [List.cons_append, find?_cons, ih]
    split <;> simp

theorem find?_insert_self (s : String) (v : α) (es : List (Scalar × α)) :
    find? (.text s) (insert (.text s) v es) = some v := by
  induction es with
  | nil => simp [insert, find?, Scalar.same_text]
  | cons e rest ih =>
    obtain ⟨k, w⟩ := e
    by_cases h : k.same (.text s) = true <;> simp [insert, find?, h, ih]

/-- Putting a value under a text leaves every other key alone. -/
theorem find?_insert_of_ne {s : String} {key : Scalar} (h : key ≠ .text s) (v : α) (es : List (Scalar × α)) :
    find? key (insert (.text s) v es) = find? key es := by
  have apart (k : Scalar) (hk : k = .text s) : k.same key = false := by
    rw [hk, Scalar.same_comm, Scalar.same_text]
    simpa using h
  induction es with
  | nil => simp [insert, find?, apart]
  | cons e rest ih =>
    obtain ⟨k, w⟩ := e
    by_cases hk : k.same (.text s) = true
    · have : k = .text s := by simpa [Scalar.same_text] using hk
      simp [insert, find?, hk, apart k this]
    · simp [insert, find?, hk, ih]

/-- Putting a value under a text adds an entry of that text at most. -/
theorem mem_insert {s : String} {v : α} {es : List (Scalar × α)} {e : Scalar × α}
    (h : e ∈ insert (.text s) v es) : e ∈ es ∨ e = (.text s, v) := by
  induction es with
  | nil => simpa [insert] using h
  | cons d rest ih =>
    obtain ⟨k, w⟩ := d
    by_cases hk : k.same (.text s) = true
    · have key : k = .text s := by simpa [Scalar.same_text] using hk
      rw [insert, if_pos hk] at h
      rcases List.mem_cons.1 h with rfl | later
      · exact .inr (by rw [key])
      · exact .inl (by simp [later])
    · rw [insert, if_neg hk] at h
      rcases List.mem_cons.1 h with rfl | later
      · exact .inl (by simp)
      · exact (ih later).imp_left fun mem => by simp [mem]

theorem keys_insert (s : String) (v : α) (es : List (Scalar × α)) : (insert (.text s) v es).map (·.1) =
    if .text s ∈ es.map (·.1) then es.map (·.1) else es.map (·.1) ++ [.text s] := by
  induction es with
  | nil => rfl
  | cons d rest ih =>
    obtain ⟨k, w⟩ := d
    by_cases hk : k.same (.text s) = true
    · have key : k = .text s := by simpa [Scalar.same_text] using hk
      subst key
      simp [insert, hk]
    · have key : k ≠ .text s := by simpa [Scalar.same_text] using hk
      simp only [insert, hk, Bool.false_eq_true, if_false, List.map_cons, ih, List.mem_cons, Ne.symm key, false_or]
      split <;> rfl

/-- A value under a key that is not there goes to the end. -/
theorem insert_of_fresh {key : Scalar} {es : List (Scalar × α)} (h : ∀ e ∈ es, e.1.same key = false) (v : α) :
    insert key v es = es ++ [(key, v)] := by
  induction es with
  | nil => rfl
  | cons e rest ih =>
    obtain ⟨k, w⟩ := e
    have here := h (k, w) (by simp)
    simp only [insert, here, Bool.false_eq_true, if_false, List.cons_append]
    rw [ih fun e he => h e (by simp [he])]

/-- Of distinct keys, a text has one entry at most. -/
theorem filter_text {es : List (Scalar × α)} (once : (es.map (·.1)).Nodup) (s : String) :
    es.filter (fun e => e.1 == .text s) = (find? (.text s) es).toList.map fun v => (.text s, v) := by
  induction es with
  | nil => rfl
  | cons e rest ih =>
    obtain ⟨k, v⟩ := e
    obtain ⟨fresh, later⟩ := List.nodup_cons.1 once
    rw [find?_cons, Scalar.same_text, List.filter_cons]
    by_cases key : k = .text s
    · subst key
      have none : rest.filter (fun e => e.1 == .text s) = [] :=
        List.filter_eq_nil_iff.2 fun e mem eq => fresh (List.mem_map.2 ⟨e, mem, by simpa using eq⟩)
      simp [none]
    · simpa [key] using ih later

/-- Putting a value under a text replaces what was there. -/
theorem insert_perm {es : List (Scalar × α)} (once : (es.map (·.1)).Nodup) (s : String) (v : α) :
    (insert (.text s) v es).Perm ((.text s, v) :: es.filter fun e => e.1 != .text s) := by
  induction es with
  | nil => exact .refl _
  | cons e rest ih =>
    obtain ⟨k, w⟩ := e
    obtain ⟨fresh, later⟩ := List.nodup_cons.1 once
    rw [insert, Scalar.same_text, List.filter_cons]
    by_cases key : k = .text s
    · subst key
      have all : rest.filter (fun e => e.1 != .text s) = rest :=
        List.filter_eq_self.2 fun e mem => bne_iff_ne.2 fun eq => fresh (List.mem_map.2 ⟨e, mem, eq⟩)
      simp [all]
    · have apart : (k != .text s) = true := bne_iff_ne.2 key
      rw [if_neg (by simpa using key), if_pos apart]
      exact ((ih later).cons _).trans (.swap _ _ _)

end Entries

namespace Value

theorem isMap_iff {v : Value} : v.isMap = true ↔ ∃ entries, v = .map entries := by
  cases v <;> simp [isMap]

theorem eq_of_asKey? {v : Value} {s : Scalar} (key : v.asKey? = some s) : v = .scalar s := by
  cases v <;> cases key
  rfl

/-- Keys are the scalars. -/
theorem asKey_eq_ok {v : Value} {k : Scalar} : v.asKey = .ok k ↔ v = .scalar k := by
  cases v <;> simp [asKey]

theorem isNull_iff {v : Value} : v.isNull = true ↔ v = .null := by
  cases v with
  | scalar s => cases s <;> simp [isNull]
  | _ => simp [isNull]

/-- What a row holds in a column; null if it holds nothing there. -/
def column (row field : Value) : Value :=
  match row, field with
  | .map entries, .scalar k => (Entries.find? k entries).getD .null
  | _, _ => .null

/-- What a row holds in a column, as a key. -/
def columnKey (row field : Value) : Scalar :=
  match row.column field with
  | .scalar k => k
  | _ => .null

theorem getKey_text {row : Value} (mapping : row.isMap = true) (s : String) :
    row.getKey (.text s) = .ok (row.column (.text s)) := by
  obtain ⟨entries, rfl⟩ := isMap_iff.1 mapping
  rfl

theorem getKey_get? {v : Value} (mapping : v.isMap = true) (s : String) :
    v.getKey (.text s) = .ok ((v.get? s).getD .null) := by
  obtain ⟨entries, rfl⟩ := isMap_iff.1 mapping
  rfl

theorem getKey_of_get? {v w : Value} {s : String} (mapping : v.isMap = true) (given : v.get? s = some w) :
    v.getKey (.text s) = .ok w := by
  rw [getKey_get? mapping, given]
  rfl

theorem field_text [Attributes] {row : Value} (mapping : row.isMap = true) (s : String) :
    row.field (.text s) = .ok (row.column (.text s)) := by
  obtain ⟨entries, rfl⟩ := isMap_iff.1 mapping
  rfl

/-- Only mappings have keys, and under a key is what they hold in that column. -/
theorem getKey_eq_ok {row field v : Value} (read : row.getKey field = .ok v) : row.isMap = true ∧ row.column field = v := by
  cases row with
  | map entries =>
    cases field with
    | scalar k => exact ⟨rfl, Except.ok.inj read⟩
    | _ => cases read
  | _ => cases read

/-- A value other than null that is read under a key stands there. -/
theorem get?_of_getKey {v w : Value} {s : String} (read : v.getKey (.text s) = .ok w) (set : w ≠ .null) :
    v.get? s = some w := by
  cases v with
  | map entries =>
    have read : (Entries.find? (.text s) entries).getD .null = w := Except.ok.inj read
    cases found : Entries.find? (.text s) entries with
    | none => exact absurd (by rw [← read, found]; rfl) set
    | some x => rw [found] at read; rw [get?, found, ← read]; rfl
  | _ => cases read

theorem isMap_setField (row : Value) (name : String) (x : Value) : (row.setField name x).isMap = row.isMap := by
  cases row <;> rfl

theorem column_setField_self {row : Value} (mapping : row.isMap = true) (name : String) (x : Value) :
    (row.setField name x).column (.text name) = x := by
  obtain ⟨entries, rfl⟩ := isMap_iff.1 mapping
  simp [setField, column, Entries.find?_insert_self]

theorem column_setField_of_ne {field : Value} {name : String} (h : field ≠ .text name) (row x : Value) :
    (row.setField name x).column field = row.column field := by
  cases row with
  | map entries =>
    cases field with
    | scalar k =>
      have : k ≠ .text name := fun e => h (by rw [e])
      simp [setField, column, Entries.find?_insert_of_ne this]
    | _ => rfl
  | _ => rfl

/-- A column holds a scalar, which may be NaN. -/
def HoldsScalar (row field : Value) : Prop := row.column field = .scalar (row.columnKey field)

instance (row field : Value) : Decidable (row.HoldsScalar field) :=
  decidable_of_iff ((match row.column field with | .scalar _ => true | _ => false) = true) (by
    unfold HoldsScalar columnKey
    split <;> simp_all)

/-- A column holds a key: a scalar other than NaN. -/
def HoldsKey (row field : Value) : Prop := ∃ k : Scalar, row.column field = .scalar k ∧ k ≠ .float .nan

instance (row field : Value) : Decidable (row.HoldsKey field) :=
  decidable_of_iff ((match row.column field with | .scalar k => decide (k ≠ .float .nan) | _ => false) = true) (by
    unfold HoldsKey
    split <;> simp_all)

theorem HoldsKey.column_eq {row field : Value} (h : row.HoldsKey field) :
    row.column field = .scalar (row.columnKey field) := by
  obtain ⟨k, eq, -⟩ := h
  rw [columnKey, eq]

theorem HoldsKey.scalar {row field : Value} (h : row.HoldsKey field) : row.HoldsScalar field := h.column_eq

theorem HoldsScalar.column_eq {row field : Value} (h : row.HoldsScalar field) :
    row.column field = .scalar (row.columnKey field) := h

/-- A row holds a scalar where another does that has the same there. -/
theorem HoldsScalar.congr {row row' field : Value} (h : row.HoldsScalar field)
    (same : row'.column field = row.column field) : row'.HoldsScalar field := by
  rw [HoldsScalar, columnKey, same]
  exact h

theorem isNull_scalar (k : Scalar) : (Value.scalar k).isNull = (k == .null) := by
  cases k <;> rfl

theorem same_scalar (a b : Scalar) : (Value.scalar a).same (.scalar b) = a.same b := by
  rw [same]

theorem isNan_iff {v : Value} : v.isNan = true ↔ v = .float .nan := by
  cases v with
  | scalar s =>
    cases s with
    | float x => cases x <;> simp [isNan]
    | _ => simp [isNan]
  | _ => simp [isNan]

/-- Away from NaN, what is the same is equal. -/
theorem equals_eq_same {v w : Value} (number : w.isNan = false) : v.equals w = v.same w := by
  cases nan : v.isNan with
  | false => rw [equals, nan, Bool.not_false, Bool.and_true]
  | true =>
    have apart : v.same w = false := by
      rw [isNan_iff.1 nan]
      cases w with
      | scalar b =>
        rw [same_scalar, Scalar.same_comm, Scalar.same_nan]
        exact beq_false_of_ne fun eq => by simp [eq, isNan] at number
      | _ => rfl
    rw [equals, apart, Bool.false_and]

theorem textsFrom_texts (position : Nat) (names : List String) : textsFrom position (names.map .text) = .ok names := by
  induction names generalizing position with
  | nil => rfl
  | cons name rest ih =>
    rw [List.map_cons, textsFrom, ih]
    rfl

theorem joinPoints_texts (names : List String) : joinPoints (names.map .text) = .ok (".".intercalate names) := by
  rw [joinPoints, textsFrom_texts]
  rfl

end Value

end Semijoin
