import Semijoin.Proofs.Filter.Acceptance
import Semijoin.Proofs.Filter.Merge
import Semijoin.Proofs.Json.RoundTrip

/-!
# The forms of a filter

An accepted filter may arrive as text, as bytes, as a value or checked. All forms compile alike: they ask the same of
the data, in the same order, and come to the same failure or to mappings of the same entries. What is not accepted is
refused in each form.
-/

namespace Semijoin
set_option autoImplicit false

/-- A text or bytes that hold a value. -/
inductive FilterSource.Encodes (m : Value) : FilterSource → Prop
  | text {t : String} (read : Json.read t = .ok m) : Encodes m (.text t)
  | bytes {content : List UInt8} (read : Json.readBytes content = .ok m) : Encodes m (.bytes content)
  | textValue {t : String} (read : Json.read t = .ok m) : Encodes m (.value (.text t))

namespace Filter

/-- Outcomes that are the same failure, or mappings of the same entries in some order. -/
inductive Alike : Except Failure Value → Except Failure Value → Prop
  | failed (f : Failure) : Alike (.error f) (.error f)
  | mapping {es fs : List (Scalar × Value)} (once : (es.map (·.1)).Nodup) (perm : es.Perm fs) :
      Alike (.ok (.map es)) (.ok (.map fs))

section Order

variable {es fs gs : List (Scalar × Value)}

/-- Entries that stand in some order are alike. -/
theorem alike_of_perm (once : (gs.map (·.1)).Nodup) (left : es.Perm gs) (right : fs.Perm gs) :
    Alike (.ok (.map es)) (.ok (.map fs)) :=
  .mapping ((left.map _).nodup_iff.2 once) (left.trans right.symm)

/-- The entries of a document are its sections and what stands beside them. -/
theorem sections_perm (document : Value.DocumentEntries es) :
    (((Entries.find? (.text "where") es).toList.map fun v => (Scalar.text "where", v)) ++
      ((Entries.find? (.text "require") es).toList.map fun v => (Scalar.text "require", v)) ++
      besides (.map es)).Perm es := by
  have others : besides (.map es) =
      (es.filter fun e => !(e.1 == .text "where")).filter fun e => !(e.1 == .text "require") := by
    rw [List.filter_filter]
    exact List.filter_congr fun e _ => Bool.and_comm _ _
  have require : es.filter (fun e => e.1 == .text "require") =
      (es.filter fun e => !(e.1 == .text "where")).filter fun e => e.1 == .text "require" := by
    rw [List.filter_filter]
    refine List.filter_congr fun e _ => ?_
    by_cases key : e.1 = .text "require" <;> simp [key]
  rw [← Entries.filter_text document.once, ← Entries.filter_text document.once, List.append_assoc, others, require]
  exact ((List.filter_append_perm _ _).append_left _).trans (List.filter_append_perm _ _)

/-- A merged document has the conjunction, and what stood beside its sections. -/
theorem merge_perm (document : Value.DocumentEntries es) (conditions : List Value) :
    ∃ merged, merge (.map es) conditions = .map merged ∧
      merged.Perm ((.text "where", conjunction (part (.map es) "where") conditions) :: besides (.map es)) := by
  refine ⟨_, rfl, (Entries.insert_perm (document.filter _).once _ _).trans ?_⟩
  rw [List.filter_filter]
  exact .refl _

theorem once_where_besides (document : Value.DocumentEntries es) (v : Value) :
    (((.text "where", v) :: besides (.map es)).map (·.1)).Nodup := by
  have others : Value.DocumentEntries (besides (.map es)) := document.filter _
  refine List.nodup_cons.2 ⟨fun mem => ?_, others.once⟩
  obtain ⟨e, held, eq⟩ := List.mem_map.1 mem
  exact (besides_apart e held).1 eq

end Order

theorem besides_toValue {f : CheckedFilter} (apart : ∀ e ∈ f.extra, e.1 ≠ .text "where" ∧ e.1 ≠ .text "require") :
    besides f.toValue = f.extra := by
  have all : f.extra.filter (fun e => e.1 != .text "where" && e.1 != .text "require") = f.extra :=
    List.filter_eq_self.2 fun e mem => by simpa using apart e mem
  obtain ⟨condition, require, extra⟩ := f
  cases condition <;> cases require <;> simpa [besides, CheckedFilter.toValue] using all

section Compile

variable {σ : Type} {access : Access σ} {schema : Schema} {options : CompileOptions} {root : String} {m : Value}

theorem split_of_entries {entry : Scalar × Value} {more : List (Scalar × Value)}
    (requires : part m "require" = .map (entry :: more)) : split m = .pending m (entry :: more) := by
  rw [split, requires]

/-- A filter without requirements to reverse is left as it is. -/
theorem split_of_no_entries (h : ∀ entry more, part m "require" ≠ .map (entry :: more)) : split m = .done m := by
  unfold split
  split
  · rfl
  · rename_i entries some_ requires
    cases entries with
    | nil => exact absurd rfl some_
    | cons entry more => exact absurd requires (h entry more)
  · rfl

/-- A filter is split the same whether or not it is checked before. -/
theorem prepare_value (mapping : m.isMap = true) (parsed : (FilterSource.value m).parse = .ok m) :
    prepare (.value m) = .ok (split m) := by
  unfold prepare
  cases nothing : requiresNothing (.value m) with
  | true =>
    have falsy : (part m "require").truthy = false := by simpa [requiresNothing, mapping] using nothing
    have none (entry : Scalar × Value) (more : List (Scalar × Value)) : part m "require" ≠ .map (entry :: more) := by
      intro requires
      rw [requires] at falsy
      cases falsy
    rw [split_of_no_entries none]
    rfl
  | false =>
    rw [parsed]
    rfl

variable [Attributes]

/-- Compiling depends only on what a filter is prepared to. -/
theorem compile_prepared {source source' : FilterSource} (same : prepare source = prepare source') :
    compile access schema options root source = compile access schema options root source' := by
  rw [compile, compile, same]

/-- Documents with the same sections, and the same beside them, compile alike. -/
theorem compile_alike {source source' : FilterSource} {es fs : List (Scalar × Value)}
    (prepared : prepare source = .ok (split (.map es))) (prepared' : prepare source' = .ok (split (.map fs)))
    (document : Value.DocumentEntries es) (perm : fs.Perm es) (others : besides (.map fs) = besides (.map es))
    (condition : part (.map fs) "where" = part (.map es) "where")
    (require : part (.map fs) "require" = part (.map es) "require") (s : σ) :
    Alike ((compile access schema options root source').step s).1
        ((compile access schema options root source).step s).1 ∧
      ((compile access schema options root source').step s).2 =
        ((compile access schema options root source).step s).2 := by
  have document' : Value.DocumentEntries fs := ⟨fun e mem => document.text e (perm.mem_iff.1 mem),
    (perm.map _).nodup_iff.2 document.once, fun e mem => document.below e (perm.mem_iff.1 mem)⟩
  by_cases pending : ∃ entry more, part (.map es) "require" = .map (entry :: more)
  · obtain ⟨entry, more, requires⟩ := pending
    rw [split_of_entries requires] at prepared
    rw [split_of_entries (require.trans requires)] at prepared'
    obtain ⟨outcomes, s', reversed⟩ := exists_reversed (reverseEntry access schema options root) s (entry :: more)
    rw [compile_step prepared reversed, compile_step prepared' reversed]
    refine ⟨?_, rfl⟩
    cases outcomes.mapM id with
    | error f => exact .failed f
    | ok conditions =>
      obtain ⟨merged, eq, order⟩ := merge_perm document conditions
      obtain ⟨merged', eq', order'⟩ := merge_perm document' conditions
      rw [condition, others] at order'
      show Alike (conclude (.map fs) conditions) (conclude (.map es) conditions)
      rw [conclude_eq, conclude_eq, eq, eq']
      split
      · exact alike_of_perm (once_where_besides document _) order' order
      · exact .failed _
  · have none (entry : Scalar × Value) (more : List (Scalar × Value)) :
        part (.map es) "require" ≠ .map (entry :: more) := fun requires => pending ⟨entry, more, requires⟩
    rw [split_of_no_entries none] at prepared
    rw [split_of_no_entries (require ▸ none)] at prepared'
    rw [compile_done prepared, compile_done prepared']
    exact ⟨alike_of_perm document.once perm (.refl _), rfl⟩

end Compile

theorem parse_of_encodes {source : FilterSource} {m : Value} (encodes : source.Encodes m) :
    source.parse = FilterSource.checkedValue m := by
  cases encodes with
  | text read => rw [FilterSource.parse, FilterSource.parseText, read]
  | bytes read => rw [FilterSource.parse, read]
  | textValue read => rw [FilterSource.parse, FilterSource.parseText, read]

/-- Text and bytes are parsed first. -/
theorem prepare_of_encodes {source : FilterSource} {m : Value} (encodes : source.Encodes m) :
    prepare source = (source.parse).map split := by
  cases encodes <;> rfl

/-- A checked document is alike in its sections and what stands beside them, whatever their order was. -/
theorem toValue_sections {es : List (Scalar × Value)} (document : Value.DocumentEntries es) {f : CheckedFilter}
    (checked : CheckedFilter.ofValue (.map es) = .ok f) :
    ∃ fs, f.toValue = .map fs ∧ fs.Perm es ∧ besides (.map fs) = besides (.map es) ∧
      part (.map fs) "where" = part (.map es) "where" ∧ part (.map fs) "require" = part (.map es) "require" := by
  obtain ⟨-, rfl⟩ := ofValue_eq_ok checked
  have apart : ∀ e ∈ besides (.map es), e.1 ≠ .text "where" ∧ e.1 ≠ .text "require" := besides_apart
  have others := besides_toValue (f := ⟨(Value.map es).get? "where", (Value.map es).get? "require", _⟩) apart
  obtain ⟨condition, require⟩ := get?_toValue ⟨(Value.map es).get? "where", (Value.map es).get? "require", _⟩ apart
  exact ⟨_, rfl, sections_perm document, others, congrArg (·.getD .null) condition, congrArg (·.getD .null) require⟩

/-- **The forms of a filter are interchangeable.** A document that is accepted is parsed to itself from any text or
bytes that hold it, and checked. Over every data, whatever it keeps of what it was asked, every form compiles to the
same failure or to the same entries, and leaves the same behind. A document that is not accepted is refused in each
form, and a mapping with a report of its offending places. What a text holds is said for texts without escapes of lone
surrogates: such an escape names no character, and is read here as the replacement character. -/
theorem compile_forms [Attributes] {m : Value} (document : m.isDocument = true) :
    (Accepts m → ∃ f, CheckedFilter.ofValue m = .ok f ∧
      (∀ source : FilterSource, source.Encodes m ∨ source = .value m → source.parse = .ok m) ∧
      ∀ {σ : Type} (access : Access σ) (schema : Schema) (options : CompileOptions) (root : String),
        (∀ source : FilterSource, source.Encodes m →
          compile access schema options root source = compile access schema options root (.value m)) ∧
        ∀ s, Alike ((compile access schema options root (.checked f)).step s).1
            ((compile access schema options root (.value m)).step s).1 ∧
          ((compile access schema options root (.checked f)).step s).2 =
            ((compile access schema options root (.value m)).step s).2) ∧
    (¬ Accepts m → ∀ source : FilterSource, source.Encodes m ∨ (source = .value m ∧ m.isText = false) →
      ∃ f, source.parse = .error f ∧ Refuses m f) := by
  constructor
  · intro accepted
    obtain ⟨entries, rfl⟩ := Value.isMap_iff.1 accepted.mapping
    have valid := checkedValue_of_accepts document accepted
    obtain ⟨-, issues⟩ := (accepts_iff document).1 accepted
    obtain ⟨f, checked⟩ : ∃ f, CheckedFilter.ofValue (.map entries) = .ok f := by
      rw [CheckedFilter.ofValue, issues]
      exact ⟨_, rfl⟩
    have parses (source : FilterSource) (form : source.Encodes (.map entries) ∨ source = .value (.map entries)) :
        source.parse = .ok (.map entries) := by
      rcases form with encodes | rfl
      · rw [parse_of_encodes encodes, valid]
      · exact valid
    have prepared := prepare_value rfl (parses (.value (.map entries)) (.inr rfl))
    refine ⟨f, checked, parses, fun access schema options root => ⟨fun source encodes => ?_, fun s => ?_⟩⟩
    · refine compile_prepared (Eq.trans ?_ prepared.symm)
      rw [prepare_of_encodes encodes, parses source (.inl encodes)]
      rfl
    · obtain ⟨fs, eq, perm, others, condition, require⟩ := toValue_sections (Value.isDocument_map.1 document) checked
      have prepared' : prepare (.checked f) = .ok (split (.map fs)) := by
        rw [← eq]
        rfl
      exact compile_alike prepared prepared' (Value.isDocument_map.1 document) perm others condition require s
  · intro not source form
    obtain ⟨f, refused, why⟩ := checkedValue_of_not_accepts document not
    refine ⟨f, ?_, why⟩
    rcases form with encodes | ⟨rfl, other⟩
    · rw [parse_of_encodes encodes, refused]
    · rw [← refused]
      cases m with
      | scalar k => cases k <;> first | rfl | cases other
      | _ => rfl

end Filter

namespace Sample

/-- A filter whose entries stand in no particular order. -/
def scattered : Value :=
  .ofFields [("limit", .int 5), ("require", .map requirements), ("order", .text "id"), ("where", .null)]

/-- What it compiles to for persons. -/
def gathered : Value :=
  .ofFields [("limit", .int 5), ("order", .text "id"), ("where", .ofFields [("and", .list [
    .ofFields [("city_id", .ofFields [("in", .list [.int 20])])],
    .ofFields [("city_id", .ofFields [("in", .list [.int 20])])]])])]

/-- A mapping with two offending places. -/
def offending : Value :=
  .ofFields [("require", .ofFields [("city", .map []), ("home", .int 1)]), ("where", .list [])]

end Sample

namespace Filter

/-- A filter in text and checked, and a mapping that is none. -/
theorem compile_forms_scattered :
    (∃ f, CheckedFilter.ofValue Sample.scattered = .ok f ∧
      Alike ((compile (Sample.tables.access Sample.schema) Sample.schema { normalizeCase := true } "Person"
          (.checked f)).step []).1 (.ok Sample.gathered) ∧
        (compile (Sample.tables.access Sample.schema) Sample.schema { normalizeCase := true } "Person"
          (.text (Json.write Json.spaced Sample.scattered))).step [] =
          (.ok Sample.gathered, Sample.requirements.map fun entry => ⟨"City", entry.2⟩)) ∧
    ∃ issues, (FilterSource.value Sample.offending).parse = .error (.invalidFilter issues) ∧
      Reports (Offends Sample.offending) (places Sample.offending) issues ∧
      issues.map (·.place) = [[.key "where"], [.key "require", .key "home"]] := by
  have read : Json.read (Json.write Json.spaced Sample.scattered) = .ok Sample.scattered :=
    Json.read_write Json.spaced_punctuates (by decide +kernel) (by decide +kernel)
  have accepted : Accepts Sample.scattered := (accepts_iff (by decide +kernel)).2 ⟨rfl, rfl⟩
  constructor
  · obtain ⟨f, checked, -, forms⟩ := (compile_forms (m := Sample.scattered) (by decide +kernel)).1 accepted
    obtain ⟨encoded, alike⟩ :=
      forms (Sample.tables.access Sample.schema) Sample.schema { normalizeCase := true } "Person"
    refine ⟨f, checked, (alike []).1, ?_⟩
    rw [encoded _ (.text read)]
    rfl
  · have refused : ¬ Accepts Sample.offending := fun accepts => by
      have none := ((accepts_iff (by decide +kernel)).1 accepts).2
      cases none
    obtain ⟨f, parsed, why⟩ := (compile_forms (m := Sample.offending) (by decide +kernel)).2 refused
      (.value Sample.offending) (.inr ⟨rfl, rfl⟩)
    cases why with
    | notMapping other => cases other
    | sections mapping some_ reported =>
      refine ⟨_, parsed, reported, ?_⟩
      cases parsed
      rfl

end Filter

end Semijoin
