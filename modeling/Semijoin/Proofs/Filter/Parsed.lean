import Semijoin.Filter.Compile
import Semijoin.Proofs.Json.Document

/-!
# What a parsed filter is

A filter that arrives as JSON, in whatever form, is parsed to a mapping that is a document with well-formed
sections: what it requires are conditions, each a mapping or null.
-/

namespace Semijoin
set_option autoImplicit false

/-- A filter as JSON gives it: in text or bytes, a document, or a document that was checked. -/
def FilterSource.IsJson : FilterSource → Prop
  | .text _ => True
  | .bytes _ => True
  | .value v => v.isDocument = true
  | .checked f => ∃ fields : Value, fields.isDocument = true ∧ CheckedFilter.ofValue fields = .ok f

namespace Filter

/-- A mapping with well-formed sections. -/
structure WellFormed (filter : Value) : Prop where
  mapping : filter.isMap = true
  document : filter.isDocument = true
  issues : Shape.filterIssues filter = []

theorem checkedValue_eq_ok {v filter : Value} :
    FilterSource.checkedValue v = .ok filter ↔ v = filter ∧ filter.isMap = true ∧ Shape.filterIssues filter = [] := by
  unfold FilterSource.checkedValue
  cases mapping : v.isMap with
  | false =>
    simp only [Bool.not_false, if_true, reduceCtorEq, false_iff, not_and]
    rintro rfl
    simp [mapping]
  | true =>
    cases issues : Shape.filterIssues v with
    | nil =>
      simp only [Bool.not_true, Bool.false_eq_true, if_false, Except.ok.injEq]
      constructor
      · rintro rfl
        exact ⟨rfl, mapping, issues⟩
      · exact And.left
    | cons issue more =>
      simp only [Bool.not_true, Bool.false_eq_true, if_false, reduceCtorEq, false_iff, not_and]
      rintro rfl
      simp [issues]

theorem wellFormed_of_checkedValue {v filter : Value} (document : v.isDocument = true)
    (h : FilterSource.checkedValue v = .ok filter) : WellFormed filter := by
  obtain ⟨rfl, mapping, issues⟩ := checkedValue_eq_ok.1 h
  exact ⟨mapping, document, issues⟩

theorem parseText_eq_ok {s : String} {filter : Value} :
    FilterSource.parseText s = .ok filter ↔ ∃ v, Json.read s = .ok v ∧ FilterSource.checkedValue v = .ok filter := by
  unfold FilterSource.parseText
  cases Json.read s <;> simp

theorem wellFormed_of_parseText {s : String} {filter : Value} (h : FilterSource.parseText s = .ok filter) :
    WellFormed filter := by
  obtain ⟨v, read, checked⟩ := parseText_eq_ok.1 h
  exact wellFormed_of_checkedValue (Json.isDocument_read read) checked

/-- The entries of a filter beside its sections. -/
def besides (fields : Value) : List (Scalar × Value) :=
  match fields with
  | .map entries => entries.filter fun e => e.1 != .text "where" && e.1 != .text "require"
  | _ => []

section Checked

variable {fields : Value} {f : CheckedFilter}

theorem ofValue_eq_ok (h : CheckedFilter.ofValue fields = .ok f) :
    Shape.filterIssues fields = [] ∧ f = ⟨fields.get? "where", fields.get? "require", besides fields⟩ := by
  unfold CheckedFilter.ofValue at h
  split at h
  · rename_i issues
    cases h
    exact ⟨issues, rfl⟩
  · cases h

/-- One entry for a section that was given. -/
theorem documentEntries_section {name : String} {given : Option Value}
    (document : ∀ v, given = some v → v.isDocument = true) :
    Value.DocumentEntries (given.toList.map fun v => (.text name, v)) := by
  cases given with
  | none => exact .nil
  | some v => exact ⟨by simp, by simp, by simpa using document v rfl⟩

theorem documentEntries_besides (document : fields.isDocument = true) : Value.DocumentEntries (besides fields) := by
  unfold besides
  split
  · exact (Value.isDocument_map.1 document).filter _
  · exact .nil

theorem besides_apart : ∀ e ∈ besides fields, e.1 ≠ .text "where" ∧ e.1 ≠ .text "require" := by
  unfold besides
  split
  · intro e mem
    simpa using (List.mem_filter.1 mem).2
  · simp

theorem get?_toValue (f : CheckedFilter) (apart : ∀ e ∈ f.extra, e.1 ≠ .text "where" ∧ e.1 ≠ .text "require") :
    f.toValue.get? "where" = f.condition ∧ f.toValue.get? "require" = f.require := by
  have absent {name : String} (h : ∀ e ∈ f.extra, e.1 ≠ .text name) : Entries.find? (.text name) f.extra = none := by
    cases found : Entries.find? (.text name) f.extra with
    | none => rfl
    | some v =>
      obtain ⟨k, mem, same⟩ := Entries.mem_of_find? found
      exact absurd (by simpa [Scalar.same_text] using same) (h _ mem)
  have noWhere := absent fun e mem => (apart e mem).1
  have noRequire := absent fun e mem => (apart e mem).2
  obtain ⟨condition, require, extra⟩ := f
  cases condition <;> cases require <;>
    simp_all [CheckedFilter.toValue, Value.get?, Entries.find?, Scalar.same_text]

/-- A document that was checked is well-formed. -/
theorem wellFormed_toValue (document : fields.isDocument = true) (h : CheckedFilter.ofValue fields = .ok f) :
    WellFormed f.toValue := by
  obtain ⟨issues, rfl⟩ := ofValue_eq_ok h
  obtain ⟨condition, require⟩ := get?_toValue ⟨fields.get? "where", fields.get? "require", besides fields⟩ besides_apart
  have sections : Value.DocumentEntries (((fields.get? "where").toList.map fun v => (.text "where", v)) ++
      (fields.get? "require").toList.map fun v => (.text "require", v)) :=
    (documentEntries_section fun v given => Value.isDocument_get? document given).append
      (documentEntries_section fun v given => Value.isDocument_get? document given) (by simp)
  refine ⟨rfl, Value.isDocument_map.2 (sections.append (documentEntries_besides document) ?_), ?_⟩
  · intro e mem e' mem'
    obtain ⟨noWhere, noRequire⟩ := besides_apart e' mem'
    rcases List.mem_append.1 mem with held | held
    · obtain ⟨v, -, rfl⟩ := List.mem_map.1 held
      exact noWhere.symm
    · obtain ⟨v, -, rfl⟩ := List.mem_map.1 held
      exact noRequire.symm
  · rw [Shape.filterIssues, condition, require]
    exact issues

end Checked

/-- **A filter that arrives as JSON is parsed to a well-formed document.** -/
theorem wellFormed_of_parse {source : FilterSource} (json : source.IsJson) {filter : Value}
    (parsed : source.parse = .ok filter) : WellFormed filter := by
  unfold FilterSource.parse at parsed
  split at parsed
  · exact wellFormed_of_parseText parsed
  · split at parsed
    · rename_i read
      exact wellFormed_of_checkedValue (Json.isDocument_readBytes read) parsed
    · cases parsed
  · exact wellFormed_of_parseText parsed
  · exact wellFormed_of_checkedValue json parsed
  · obtain ⟨fields, document, checked⟩ := json
    cases parsed
    exact wellFormed_toValue document checked

/-- What a well-formed filter requires are conditions: each is null or a mapping. -/
theorem WellFormed.conditions {filter : Value} (h : WellFormed filter) {require : List (Scalar × Value)}
    (requires : part filter "require" = .map require) :
    ∀ entry ∈ require, entry.2.isNull = true ∨ entry.2.isMap = true := by
  have given : filter.get? "require" = some (.map require) := by
    unfold part at requires
    cases found : filter.get? "require" with
    | none =>
      rw [found] at requires
      cases requires
    | some v =>
      rw [found] at requires
      exact congrArg some requires
  have document := Value.isDocument_map.1 (Value.isDocument_get? h.document given)
  have issues := (List.append_eq_nil_iff.1 h.issues).2
  rw [given, Shape.requireIssues, List.flatMap_eq_nil_iff] at issues
  intro entry mem
  obtain ⟨name, text⟩ := document.text entry mem
  have none := issues entry mem
  rw [text] at none
  simp only [Shape.mappingIssues] at none
  by_cases ok : (entry.2.isNull || entry.2.isMap) = true
  · simpa using ok
  · rw [if_neg ok] at none
    cases none

/-- A filter that is left pending was parsed, and requires something. -/
theorem parse_of_prepare {source : FilterSource} {filter : Value} {require : List (Scalar × Value)}
    (prepared : prepare source = .ok (.pending filter require)) :
    source.parse = .ok filter ∧ part filter "require" = .map require := by
  have parsed : (source.parse).map split = .ok (.pending filter require) := by
    unfold prepare at prepared
    split at prepared
    · split at prepared
      · cases prepared
      · exact prepared
    · exact prepared
  cases read : source.parse with
  | error f =>
    rw [read] at parsed
    cases parsed
  | ok v =>
    rw [read] at parsed
    have splits : split v = .pending filter require := Except.ok.inj parsed
    unfold split at splits
    split at splits
    · cases splits
    · rename_i found
      cases splits
      exact ⟨rfl, found⟩
    · cases splits

end Filter

end Semijoin
