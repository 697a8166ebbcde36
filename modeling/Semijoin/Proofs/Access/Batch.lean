import Semijoin.Proofs.Access.Lookup
import Semijoin.Proofs.Access.Outcome
import Semijoin.Proofs.Value.Distinct
import Semijoin.Proofs.Where.Selection

/-!
# One batch

The parts of attaching one relation: the keys of the rows at hand, the select of what is related to any of
them, and the index from which the selected rows are handed out again. `rowsUnder_index` is the fact that
batches rest on: under a row's key the index holds what the row would have found alone.
-/

namespace Semijoin
set_option autoImplicit false

variable {σ : Type} {s : String}

/-- Rows that hold a scalar in a column. -/
def KeyedBy (field : Value) (rows : List Value) : Prop := ∀ row ∈ rows, row.isMap = true ∧ row.HoldsScalar field

theorem KeyedBy.tail {field row : Value} {rows : List Value} (h : KeyedBy field (row :: rows)) : KeyedBy field rows :=
  fun r hr => h r (by simp [hr])

theorem rowKey_eq {row : Value} (mapping : row.isMap = true) (key : row.HoldsScalar (.text s)) :
    rowKey (.text s) row = .ok (row.columnKey (.text s)) := by
  rw [rowKey, Value.getKey_text mapping, key.column_eq]
  rfl

/-- The keys that the rows at hand hold, nulls left out. -/
def heldKeys (field : Value) (rows : List Value) : List Scalar :=
  (rows.map (·.columnKey field)).filter (· != .null)

theorem mem_heldKeys {field : Value} {rows : List Value} {k : Scalar} :
    k ∈ heldKeys field rows ↔ k ≠ .null ∧ ∃ row ∈ rows, row.columnKey field = k := by
  rw [heldKeys, List.mem_filter, List.mem_map, bne_iff_ne, and_comm]

theorem distinctKeysFrom_eq {rows : List Value} (keyed : KeyedBy (.text s) rows) (seen : List Scalar) :
    distinctKeysFrom (.text s) seen rows = .ok (Scalar.distinctFrom seen (heldKeys (.text s) rows)) := by
  induction rows generalizing seen with
  | nil => rfl
  | cons row rest ih =>
    obtain ⟨mapping, key⟩ := keyed row (by simp)
    have read : row.getKey (.text s) = .ok (.scalar (row.columnKey (.text s))) := by
      rw [Value.getKey_text mapping, key.column_eq]
    rw [distinctKeysFrom, read, heldKeys, List.map_cons, List.filter_cons]
    by_cases null : row.columnKey (.text s) = .null
    · simp only [null, bind, Except.bind, Value.isNull_scalar, bne_self_eq_false, Bool.false_eq_true, if_false,
        beq_self_eq_true, if_true]
      exact ih keyed.tail seen
    · have set : (Value.scalar (row.columnKey (.text s))).isNull = false := by
        rw [Value.isNull_scalar]
        simpa using null
      simp only [bind, Except.bind, set, Bool.false_eq_true, if_false, Value.asKey, bne_iff_ne, ne_eq, null,
        not_false_eq_true, if_true, Scalar.distinctFrom]
      split
      · exact ih keyed.tail seen
      · rw [ih keyed.tail]
        rfl

/-- The keys of a batch are the held ones, each once. -/
theorem distinctKeys_eq {rows : List Value} (keyed : KeyedBy (.text s) rows) :
    distinctKeys (.text s) rows = .ok (Scalar.distinct (heldKeys (.text s) rows)) := distinctKeysFrom_eq keyed []

/-- Rows of which keys are collected hold scalars under the field, and the keys are the held ones, each once. -/
theorem distinctKeysFrom_eq_ok {field : Value} {rows : List Value} {seen keys : List Scalar}
    (h : distinctKeysFrom field seen rows = .ok keys) :
    KeyedBy field rows ∧ keys = Scalar.distinctFrom seen (heldKeys field rows) := by
  induction rows generalizing seen keys with
  | nil =>
    cases h
    exact ⟨by simp [KeyedBy], rfl⟩
  | cons row rest ih =>
    rw [distinctKeysFrom] at h
    obtain ⟨v, read, h⟩ := bind_eq_ok.1 h
    obtain ⟨mapping, column⟩ := Value.getKey_eq_ok read
    have keyed {k : Scalar} (eq : v = .scalar k) : row.HoldsScalar field ∧ row.columnKey field = k := by
      rw [Value.HoldsScalar, Value.columnKey, column, eq]
      exact ⟨rfl, rfl⟩
    by_cases null : v.isNull = true
    · obtain ⟨key, none⟩ := keyed (Value.isNull_iff.1 null)
      rw [if_pos null] at h
      obtain ⟨later, rfl⟩ := ih h
      refine ⟨List.forall_mem_cons.2 ⟨⟨mapping, key⟩, later⟩, ?_⟩
      simp [heldKeys, none]
    · rw [if_neg null] at h
      obtain ⟨k, isKey, h⟩ := bind_eq_ok.1 h
      have eq : v = .scalar k := Value.asKey_eq_ok.1 isKey
      obtain ⟨key, same⟩ := keyed eq
      have set : k ≠ .null := fun none => null (by rw [eq, none]; rfl)
      have held : heldKeys field (row :: rest) = k :: heldKeys field rest := by simp [heldKeys, same, set]
      rw [held, Scalar.distinctFrom]
      by_cases known : k.isIn seen = true
      · rw [if_pos known] at h ⊢
        obtain ⟨later, rfl⟩ := ih h
        exact ⟨List.forall_mem_cons.2 ⟨⟨mapping, key⟩, later⟩, rfl⟩
      · rw [if_neg known] at h ⊢
        obtain ⟨more, rest', eq⟩ := bind_eq_ok.1 h
        cases eq
        obtain ⟨later, rfl⟩ := ih rest'
        exact ⟨List.forall_mem_cons.2 ⟨⟨mapping, key⟩, later⟩, rfl⟩

/-- Keys can not be collected only if a row has none. -/
theorem exists_of_distinctKeysFrom_error {field : Value} {rows : List Value} {seen : List Scalar} {g : Fault}
    (h : distinctKeysFrom field seen rows = .error g) : ∃ row ∈ rows, rowKey field row = .error g := by
  induction rows generalizing seen with
  | nil => cases h
  | cons row rest ih =>
    have later {seen : List Scalar} (h : distinctKeysFrom field seen rest = .error g) :
        ∃ r ∈ row :: rest, rowKey field r = .error g := by
      obtain ⟨r, mem, unread⟩ := ih h
      exact ⟨r, List.mem_cons_of_mem row mem, unread⟩
    rw [distinctKeysFrom] at h
    rcases bind_eq_error.1 h with unread | ⟨v, read, h⟩
    · exact ⟨row, List.mem_cons_self, bind_eq_error.2 (.inl unread)⟩
    · split at h
      · exact later h
      · rcases bind_eq_error.1 h with composite | ⟨key, -, h⟩
        · exact ⟨row, List.mem_cons_self, bind_eq_error.2 (.inr ⟨v, read, composite⟩)⟩
        · split at h
          · exact later h
          · rcases bind_eq_error.1 h with h | ⟨_, -, h⟩
            · exact later h
            · cases h

/-- Rows are handed out unless one of them has no key. -/
theorem exists_of_handOutAll_error {relation : Relation} {rowField childField : Value} {rows children : List Value}
    {g : Fault} (h : handOutAll relation rowField childField rows children = .error g) :
    (∃ row ∈ rows, rowKey rowField row = .error g) ∨ ∃ row ∈ children, rowKey childField row = .error g := by
  rcases bind_eq_error.1 h with h | ⟨index, -, h⟩
  · obtain ⟨child, mem, h⟩ := exists_of_mapM_error h
    rcases bind_eq_error.1 h with unread | ⟨_, -, h⟩
    · exact .inr ⟨child, mem, unread⟩
    · cases h
  · obtain ⟨row, mem, h⟩ := exists_of_mapM_error h
    rcases bind_eq_error.1 h with unread | ⟨_, -, h⟩
    · exact .inl ⟨row, mem, unread⟩
    · cases h

/-- The rows whose column is among keys. -/
def rowsAmong (field : Value) (keys : List Scalar) (rows : List Value) : List Value :=
  rows.filter fun row => (row.columnKey field).isIn keys

/-- A select gives the stored rows that its where accepts, if it decides on all of them. -/
theorem Tables.select_ends [Attributes] {tables : Tables} {e : Entity} {condition : Value}
    (decides : ∀ row ∈ tables.rows e.name, Where.Decides condition row) : (tables.selector.select e condition).Ends
      (.ok ((tables.rows e.name).filter (Where.accepts condition))) :=
  .bind (Action.ends_update _) (Action.ends_ofValues (Where.select_eq decides))

/-- A select by keys gives the stored rows that hold one of them; without keys there are none. -/
theorem selectAmong_ends [Attributes] {tables : Tables} {target : Entity} (plain : s ≠ "and" ∧ s ≠ "or")
    (keyed : KeyedBy (.text s) (tables.rows target.name)) (keys : List Scalar) :
    (selectAmong tables.selector target (.text s) keys).Ends
      (.ok (rowsAmong (.text s) keys (tables.rows target.name))) := by
  have holds {row : Value} (mem : row ∈ tables.rows target.name) :
      Where.holds row (membership (.text s) (keys.map .scalar)) = .ok ((row.columnKey (.text s)).isIn keys) := by
    obtain ⟨mapping, key⟩ := keyed row mem
    exact Where.holds_scalars mapping plain key keys
  unfold selectAmong
  split
  · rename_i none
    rw [List.isEmpty_iff] at none
    subst none
    simpa [rowsAmong, Scalar.isIn] using Action.ends_pure _
  · have selected : (tables.rows target.name).filter (Where.accepts (membership (.text s) (keys.map .scalar))) =
        rowsAmong (.text s) keys (tables.rows target.name) :=
      List.filter_congr fun row mem => Where.accepts_of_holds (holds mem)
    rw [← selected]
    exact .bind (Action.ends_ofValues rfl) (Tables.select_ends fun row mem => ⟨_, holds mem⟩)

theorem keyed_eq {rows : List Value} (keyed : KeyedBy (.text s) rows) :
    Semijoin.keyed (.text s) rows = .ok (rows.map fun row => (row.columnKey (.text s), row)) := by
  refine mapM_ok fun row mem => ?_
  obtain ⟨mapping, key⟩ := keyed row mem
  rw [rowKey_eq mapping key]
  rfl

/-- Keyed rows are handed out by their keys. -/
theorem handOutAll_keyed {relation : Relation} {rowField childField : Value} {owned target : String}
    (ownedBy : rowField = .text owned) (targetBy : childField = .text target) {rows children : List Value}
    (rowsKeyed : KeyedBy rowField rows) (childrenKeyed : KeyedBy childField children) :
    handOutAll relation rowField childField rows children =
      .ok (rows.map fun row => row.setField relation.name (handOut relation.kind
        (rowsUnder (row.columnKey rowField) (children.map fun child => (child.columnKey childField, child))))) := by
  subst ownedBy targetBy
  rw [handOutAll, keyed_eq childrenKeyed]
  refine mapM_ok fun row mem => ?_
  obtain ⟨mapping, key⟩ := rowsKeyed row mem
  rw [rowKey_eq mapping key]
  rfl

theorem rowsUnder_keyed (key : Scalar) (field : Value) (rows : List Value) :
    rowsUnder key (rows.map fun row => (row.columnKey field, row)) =
      rows.filter fun row => (row.columnKey field).same key := by
  rw [rowsUnder, List.filter_map, List.map_map]
  exact List.map_id _

/-- Among the rows selected for all held keys, those under one of them are those that its holder would find
alone; under null there are none. -/
theorem rowsAmong_filter {field : Value} {key : Scalar} {held : List Scalar} (rows : List Value)
    (mem : key ≠ .null → key ∈ held) (set : .null ∉ held) :
    ((rowsAmong field (Scalar.distinct held) rows).filter fun row => (row.columnKey field).same key) =
      rows.filter fun row => key != .null && key.same (row.columnKey field) := by
  rw [rowsAmong, List.filter_filter]
  refine List.filter_congr fun row _ => ?_
  rw [Scalar.isIn_distinct, Scalar.same_comm key]
  by_cases same : (row.columnKey field).same key = true
  · rw [Scalar.isIn_congr same, same]
    by_cases null : key = .null
    · have none : Scalar.isIn .null held = false := by
        refine Bool.eq_false_iff.2 fun h => ?_
        obtain ⟨m, hm, eq⟩ := Scalar.isIn_iff.1 h
        rw [Scalar.same_null, beq_iff_eq] at eq
        exact set (eq ▸ hm)
      simp [null, none]
    · have known : key.isIn held = true := Scalar.isIn_iff.2 ⟨key, mem null, Scalar.same_self key⟩
      simp [null, known]
  · simp [same]

/-- **Batches lose nothing and mix nothing**: under a held key, the index of the rows selected for all keys,
whatever was done to them that keeps their keys, has what the holder would find alone. -/
theorem rowsUnder_index {field : Value} {key : Scalar} {held : List Scalar} {rows : List Value} {g : Value → Value}
    (stable : ∀ row ∈ rows, (g row).columnKey field = row.columnKey field)
    (mem : key ≠ .null → key ∈ held) (set : .null ∉ held) :
    rowsUnder key (((rowsAmong field (Scalar.distinct held) rows).map g).map fun row => (row.columnKey field, row)) =
      (rows.filter fun row => key != .null && key.same (row.columnKey field)).map g := by
  have keeps : ∀ row ∈ rowsAmong field (Scalar.distinct held) rows,
      (g row).columnKey field = row.columnKey field := fun row hr => stable row (List.mem_filter.1 hr).1
  rw [rowsUnder_keyed, List.filter_map, ← rowsAmong_filter rows mem set]
  refine congrArg _ (List.filter_congr fun row hr => ?_)
  rw [Function.comp_apply, keeps row hr]

end Semijoin
