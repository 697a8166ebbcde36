import Semijoin.Http.Intercept
import Semijoin.Proofs.Filter.Merge
import Semijoin.Proofs.Filter.Parsed
import Semijoin.Proofs.Json.RoundTrip
import Semijoin.Proofs.Reversal.Condition
import Semijoin.Proofs.Reversal.Scalars

/-!
# Compiled filters in place of filters

A compiled filter can be written and take the place of the filter it was compiled from: it reads back, is
accepted, and requires nothing more, so a request that carries it has it compiled to itself without any find. The
names of keys become keys of the compiled filter, which JSON writes as texts; a name that is no text comes back
as another key.
-/

namespace Semijoin
set_option autoImplicit false

/-- A membership among scalars under a text is a document, if it has a text. -/
theorem isDocument_membership (name : String) {members : List Value} (scalars : ∀ x ∈ members, ∃ k, x = .scalar k)
    (writable : (membership (.text name) members).isWritable = true) :
    (membership (.text name) members).isDocument = true := by
  have texts : (Value.list members).isWritable = true := by
    simpa [membership, Value.ofFields, Value.isWritable, Value.entriesAreWritable, Scalar.isWritable] using writable
  have all : (Value.list members).isDocument = true := by
    refine Value.isDocument_list.2 fun x mem => ?_
    have written := Value.isWritable_list.1 texts x mem
    obtain ⟨k, rfl⟩ := scalars x mem
    exact written
  have inside : (Value.ofFields [("in", .list members)]).isDocument = true :=
    Value.isDocument_ofFields (by simp) (by simpa using all)
  exact @Value.isDocument_ofFields [(name, .ofFields [("in", .list members)])] (by simp) (by simpa using inside)

namespace Filter

/-- A filter that nothing is left to do for: a document with well-formed sections, which requires nothing. -/
structure Settled (filter : Value) : Prop extends WellFormed filter where
  requires : split filter = .done filter

section Settle

variable {filter : Value}

theorem split_done {r : Value} (h : split filter = .done r) : r = filter := by
  unfold split at h
  split at h
  · cases h
    rfl
  · cases h
  · cases h
    rfl

theorem withoutRequire_document (document : filter.isDocument = true) :
    Value.DocumentEntries (withoutRequire filter) := by
  cases filter with
  | map entries => exact (Value.isDocument_map.1 document).filter _
  | _ => exact .nil

theorem part_document (document : filter.isDocument = true) (key : String) : (part filter key).isDocument = true := by
  unfold part
  cases found : filter.get? key with
  | none => rfl
  | some v => exact Value.isDocument_get? document found

theorem conjunction_document {condition : Value} (document : condition.isDocument = true) {more : List Value}
    (documents : ∀ c ∈ more, c.isDocument = true) : (conjunction condition more).isDocument = true := by
  have all : (Value.list (if condition.isNull then more else condition :: more)).isDocument = true := by
    refine Value.isDocument_list.2 ?_
    split
    · exact documents
    · exact List.forall_mem_cons.2 ⟨document, documents⟩
  exact Value.isDocument_ofFields (by simp) (by simpa using all)

/-- **A merged filter is settled**, if the filter and the conditions are documents. -/
theorem settled_merge (document : filter.isDocument = true) {conditions : List Value}
    (documents : ∀ c ∈ conditions, c.isDocument = true) : Settled (merge filter conditions) := by
  have conjoins := merge_conjoins filter conditions
  have required : (merge filter conditions).get? "require" = none := conjoins.required
  have condition : (merge filter conditions).get? "where" = some (conjunction (part filter "where") conditions) := by
    rw [merge, Value.get?, Entries.find?_insert_self]
  refine ⟨⟨rfl, ?_, ?_⟩, ?_⟩
  · refine Value.isDocument_map.2 ((withoutRequire_document document).insert "where" ?_)
    exact conjunction_document (part_document document "where") documents
  · rw [Shape.filterIssues, condition, required]
    rfl
  · rw [split, part, required]
    rfl

end Settle

section Compile

variable [Attributes] {σ : Type} {access : Access σ} {schema : Schema} {options : CompileOptions} {root : String}

/-- What a requirement is reversed to is a document, if it has a text, the names of keys are texts and the ids
scalars. -/
theorem reverseEntry_document (texts : schema.TextKeys)
    (scalars : access.CollectsScalars schema options.toOptions root) {entry : Scalar × Value} {s s' : σ} {c : Value}
    (h : (reverseEntry access schema options root entry).step s = (.ok c, s')) (writable : c.isWritable = true) :
    c.isDocument = true := by
  obtain ⟨path, _, -, run⟩ := Action.step_bind_eq_ok h
  obtain ⟨p, _, planned, run⟩ := Action.step_bind_eq_ok run
  obtain ⟨planned, -⟩ := Action.step_ofExcept_eq_ok planned
  obtain ⟨found, _, fetched, condition⟩ := Action.step_bind_eq_ok run
  obtain ⟨condition, -⟩ := Action.step_ofExcept_eq_ok condition
  obtain ⟨ids, kept, f, collected, keep, key, rfl⟩ := Reversal.condition_eq_ok.1 condition
  obtain ⟨name, text⟩ := texts _ (Reversal.plan_keys planned).1
  obtain rfl : .text name = f := Value.scalar.inj (text.symm.trans (Reversal.Plan.key_eq_ok.1 key).2.2)
  have ids := scalars _ _ _ _ _ _ _ planned fetched collected
  exact isDocument_membership name (Reversal.Options.keep_scalars keep ids) writable

/-- **What a filter text compiles to is settled.** -/
theorem settled_of_compile (texts : schema.TextKeys) (scalars : access.CollectsScalars schema options.toOptions root)
    {text : String} {s s' : σ} {c : Value}
    (h : (compile access schema options root (.text text)).step s = (.ok c, s')) : Settled c := by
  have parses {ready : Prepared} (prepared : prepare (.text text) = .ok ready) :
      ∃ filter, WellFormed filter ∧ split filter = ready := by
    have mapped : (FilterSource.parse (.text text)).map split = .ok ready := prepared
    cases parsed : FilterSource.parse (.text text) with
    | error f =>
      rw [parsed] at mapped
      cases mapped
    | ok filter =>
      rw [parsed] at mapped
      exact ⟨filter, wellFormed_of_parseText parsed, Except.ok.inj mapped⟩
  rcases compile_eq_ok h with done | ⟨filter, require, conditions, prepared, writable, rfl, each⟩
  · obtain ⟨filter, wellFormed, splits⟩ := parses done
    obtain rfl := split_done splits
    exact ⟨wellFormed, splits⟩
  · obtain ⟨parsed, -⟩ := parse_of_prepare prepared
    refine settled_merge (wellFormed_of_parseText parsed).document fun c mem => ?_
    obtain ⟨entry, -, t, t', reversed⟩ := each c mem
    exact reverseEntry_document texts scalars reversed (Value.isWritable_list.1 writable c mem)

section Read

variable {filter : Value} (settled : Settled filter) {text : String} (reads : Json.read text = .ok filter)
include settled reads

omit [Attributes] in
/-- A settled filter is accepted where its text is read. -/
theorem parse_settled : (FilterSource.text text).parse = .ok filter :=
  parseText_eq_ok.2 ⟨filter, reads, checkedValue_eq_ok.2 ⟨rfl, settled.mapping, settled.issues⟩⟩

/-- **A settled filter compiles to itself**, and nothing is fetched. -/
theorem compile_settled (s : σ) : (compile access schema options root (.text text)).step s = (.ok filter, s) := by
  have prepared : prepare (.text text) = .ok (.done filter) := by
    show ((FilterSource.text text).parse).map split = _
    rw [parse_settled settled reads, ← settled.requires]
    rfl
  exact compile_done prepared s

end Read

end Compile

end Filter

namespace Intercept

/-- A mapping is not written as no text. -/
theorem serialize_ne_empty {filter : Value} (mapping : filter.isMap = true) : serialize filter ≠ "" := by
  obtain ⟨entries, rfl⟩ := Value.isMap_iff.1 mapping
  intro empty
  have text := congrArg String.toList empty
  rw [serialize, Json.toList_write_map] at text
  cases text

section Carried

variable {settings : Settings} {parameters : Query.Parameters}

theorem carried_of_last {text : String} (nonempty : text ≠ "")
    (last : Query.last? settings.filterParam parameters = some text) : carried settings parameters = some text := by
  rw [carried, last]
  simp [nonempty]

variable [Attributes] {σ : Type} {access : Access σ} {schema : Schema} {root : String}

/-- What is intercepted is what the text carried compiles to. -/
theorem compile_of_compiled {s s' : σ} {c : Value}
    (h : (compiled access schema settings root parameters).step s = (.ok (some c), s')) :
    ∃ text, (Filter.compile access schema settings.compileOptions root (.text text)).step s = (.ok c, s') := by
  unfold compiled at h
  split at h
  · cases h
  · rename_i text _
    obtain ⟨c', _, compiles, written⟩ := Action.step_bind_eq_ok h
    obtain ⟨_, -, eq⟩ := Action.step_ofValues_bind_eq_ok written
    cases eq
    exact ⟨text, compiles⟩

/-- A text that compiles to a filter with a text is intercepted as it. -/
theorem compiled_step {text : String} (carries : carried settings parameters = some text) {s s' : σ} {c : Value}
    (h : (Filter.compile access schema settings.compileOptions root (.text text)).step s = (.ok c, s'))
    (writable : c.isWritable = true) :
    (compiled access schema settings root parameters).step s = (.ok (some c), s') := by
  unfold compiled
  rw [carries, Action.step_bind_ok h, Value.written_of_isWritable writable]
  rfl

/-- A text that stands for a filter with requirements is intercepted as what the filter compiles to. -/
theorem compiled_of_read {text : String} (nonempty : text ≠ "")
    (last : Query.last? settings.filterParam parameters = some text) {filter : Value}
    (reads : Json.read text = .ok filter) (mapping : filter.isMap = true)
    (requires : Filter.requiresNothing (.value filter) = false) {s s' : σ} {c : Value}
    (h : (Filter.compile access schema settings.compileOptions root (.value filter)).step s = (.ok c, s'))
    (writable : c.isWritable = true) :
    (compiled access schema settings root parameters).step s = (.ok (some c), s') := by
  have read : (FilterSource.value filter).parse = (FilterSource.text text).parse := by
    show _ = FilterSource.parseText text
    rw [FilterSource.parseText, reads]
    obtain ⟨entries, rfl⟩ := Value.isMap_iff.1 mapping
    rfl
  have prepared : Filter.prepare (.value filter) = Filter.prepare (.text text) := by
    rw [Filter.prepare, requires, read]
    rfl
  have same : Filter.compile access schema settings.compileOptions root (.value filter) =
      Filter.compile access schema settings.compileOptions root (.text text) := by
    unfold Filter.compile
    rw [prepared]
  exact compiled_step (carried_of_last nonempty last) (same ▸ h) writable

end Carried

/-- **A compiled filter takes the place of the filter**, on every schema whose key names are texts: its text reads
back, is accepted, and whatever request carries it has it compiled to itself, without a find. -/
theorem compiled_again [Attributes] {σ : Type} {access : Access σ} {schema : Schema} {settings : Settings} {root : String}
    {parameters : Query.Parameters} (texts : schema.TextKeys)
    (scalars : access.CollectsScalars schema settings.compileOptions.toOptions root) {s s' : σ} {c : Value}
    (intercepted : (compiled access schema settings root parameters).step s = (.ok (some c), s'))
    (readable : ∀ k ∈ c.scalars, Json.ReadsBack k) :
    serialize c ≠ "" ∧ Json.read (serialize c) = .ok c ∧ (FilterSource.text (serialize c)).parse = .ok c ∧
    ∀ {σ' : Type} (access' : Access σ') (schema' : Schema) (settings' : Settings) (root' : String)
      (parameters' : Query.Parameters), Query.last? settings'.filterParam parameters' = some (serialize c) →
        compiled access' schema' settings' root' parameters' = pure (some c) := by
  obtain ⟨text, compiles⟩ := compile_of_compiled intercepted
  have settled := Filter.settled_of_compile texts scalars compiles
  have reads : Json.read (serialize c) = .ok c := Json.read_write Json.spaced_punctuates settled.document readable
  have nonempty := serialize_ne_empty settled.mapping
  refine ⟨nonempty, reads, Filter.parse_settled settled reads, ?_⟩
  intro σ' access' schema' settings' root' parameters' last
  refine Action.ext fun t => ?_
  exact compiled_step (carried_of_last nonempty last) (Filter.compile_settled settled reads t)
    (Value.isWritable_of_isDocument settled.document)

end Intercept

namespace Sample

/-- A filter with characters that are escaped, a float and a requirement. -/
def searched (area : Binary64) : Value := .ofFields [
  ("where", .ofFields [("name", .text "Zürich 😀\n"), ("area", .ofFields [("lt", .float area)])]),
  ("require", .ofFields [("cities", .ofFields [("country_id", .text "1")])])]

/-- The filter with the countries of its cities. -/
def searchedCountries (area : Binary64) : Value := .ofFields [("where", .ofFields [("and", .list [
  .ofFields [("name", .text "Zürich 😀\n"), ("area", .ofFields [("lt", .float area)])],
  .ofFields [("id", .ofFields [("in", .list [.text "1"])])]])])]

/-- The text of the filter, for one half. -/
def searchedText : String :=
  "\x7b\"where\": \x7b\"name\": \"Z\\u00fcrich \\ud83d\\ude00\\n\", \"area\": \x7b\"lt\": 0.5\x7d\x7d, " ++
    "\"require\": \x7b\"cities\": \x7b\"country_id\": \"1\"\x7d\x7d\x7d"

theorem textKeys : schema.TextKeys := by
  intro k mem
  simp only [Schema.keyNames, schema, country, city, person, List.flatMap_cons, List.flatMap_nil, List.map_cons,
    List.map_nil, List.append_nil, List.mem_append, List.mem_cons, List.not_mem_nil, or_false] at mem
  rcases mem with (rfl | rfl | rfl) | (rfl | rfl | rfl) | (rfl | rfl) <;> exact ⟨_, rfl⟩

theorem scalarRows : ∀ name, ∀ row ∈ tables.rows name,
    row.isMap = true ∧ ∀ k ∈ schema.keyNames, row.HoldsScalar k := by
  intro name row mem
  obtain ⟨table, held, stored⟩ := Tables.mem_of_rows mem
  have all : ∀ table ∈ tables, ∀ row ∈ table.2, row.isMap = true ∧ ∀ k ∈ schema.keyNames, row.HoldsScalar k := by
    decide +kernel
  exact all table held row stored

theorem searched_intercepted : (Intercept.compiled (tables.access schema) schema {} "Country"
    [("filter", searchedText)]).step [] = (.ok (some (searchedCountries (.ofDecimal false 5 (-1)))),
      [⟨"City", .ofFields [("country_id", .text "1")]⟩]) := by
  have written : Intercept.serialize (searched (.ofDecimal false 5 (-1))) = searchedText := by decide +kernel
  have reads : Json.read searchedText = .ok (searched (.ofDecimal false 5 (-1))) := by
    rw [← written]
    exact Json.read_write Json.spaced_punctuates (by decide +kernel) (by decide +kernel)
  have compiles (area : Binary64) : (Filter.compile (tables.access schema) schema {} "Country"
      (.value (searched area))).step [] =
        (.ok (searchedCountries area), [⟨"City", .ofFields [("country_id", .text "1")]⟩]) := rfl
  exact Intercept.compiled_of_read (by decide) rfl reads rfl rfl (compiles _) rfl

end Sample

/-- A text with a surrogate pair and a float: what it is intercepted as takes its place. -/
theorem Intercept.compiled_again_searched :
    Json.read (serialize (Sample.searchedCountries (.ofDecimal false 5 (-1)))) =
      .ok (Sample.searchedCountries (.ofDecimal false 5 (-1))) ∧
    ∀ (access : Access Nat), compiled access Sample.schema {} "Country"
        [("filter", serialize (Sample.searchedCountries (.ofDecimal false 5 (-1))))] =
      pure (some (Sample.searchedCountries (.ofDecimal false 5 (-1)))) := by
  obtain ⟨-, reads, -, again⟩ := Intercept.compiled_again Sample.textKeys
    (Sample.tables.collectsScalars Sample.textKeys Sample.scalarRows _ _) Sample.searched_intercepted
    (by decide +kernel)
  exact ⟨reads, fun access => again access _ _ _ _ rfl⟩

namespace Sample

/-- A graph in which the key of countries has no name. -/
def nullGraph : Value := .ofFields [("entities", .ofFields [
  ("Country", .ofFields [("primary_key", .null), ("relations", .ofFields [
    ("cities", relation "hasMany" "City" "country_id")])]),
  ("City", .ofFields [("relations", .ofFields [("country", relation "belongsTo" "Country" "country_id")])])])]

def nullSchema : Schema := ⟨.int 1, [
  ⟨"Country", .null, [], [⟨"cities", .hasMany, "City", .text "country_id"⟩]⟩,
  ⟨"City", .text "id", [], [⟨"country", .belongsTo, "Country", .text "country_id"⟩]⟩]⟩

def nullTables : Tables := [("City", [.ofFields [("id", .int 1), ("country_id", .int 7)]])]

/-- A filter for the country of some city, whose key is given. -/
def countryFilter (key : Scalar) : Value :=
  .ofFields [("where", .ofFields [("and", .list [.map [(key, .ofFields [("in", .list [.int 7])])]])])]

def citiesRequired : Value := .ofFields [("require", .ofFields [("cities", .map [])])]

end Sample

/-- Where a key has no name, its null comes back as the text `null`: what is read is another filter, and so is what
takes the first one's place. -/
theorem Intercept.compiled_null_key :
    Schema.ofValue Sample.nullGraph = .ok Sample.nullSchema ∧
    (compiled (Sample.nullTables.access Sample.nullSchema) Sample.nullSchema {} "Country"
      [("filter", "\x7b\"require\": \x7b\"cities\": \x7b\x7d\x7d\x7d")]).step [] =
        (.ok (some (Sample.countryFilter .null)), [⟨"City", .map []⟩]) ∧
    (∀ k ∈ (Sample.countryFilter .null).scalars, Json.ReadsBack k) ∧
    (FilterSource.text (serialize (Sample.countryFilter .null))).parse = .ok (Sample.countryFilter (.text "null")) ∧
    compiled (Sample.nullTables.access Sample.nullSchema) Sample.nullSchema {} "Country"
      [("filter", serialize (Sample.countryFilter .null))] = pure (some (Sample.countryFilter (.text "null"))) ∧
    (Sample.countryFilter .null).same (Sample.countryFilter (.text "null")) = false := by
  have required : Json.read "\x7b\"require\": \x7b\"cities\": \x7b\x7d\x7d\x7d" = .ok Sample.citiesRequired := by
    have written : serialize Sample.citiesRequired = "\x7b\"require\": \x7b\"cities\": \x7b\x7d\x7d\x7d" := by
      decide +kernel
    rw [← written]
    exact Json.read_write Json.spaced_punctuates (by decide +kernel) (by decide +kernel)
  have reads : Json.read (serialize (Sample.countryFilter .null)) = .ok (Sample.countryFilter (.text "null")) := by
    have alike : serialize (Sample.countryFilter .null) = serialize (Sample.countryFilter (.text "null")) := rfl
    rw [alike]
    exact Json.read_write Json.spaced_punctuates (by decide +kernel) (by decide +kernel)
  have settled : Filter.Settled (Sample.countryFilter (.text "null")) := ⟨⟨rfl, by decide +kernel, rfl⟩, rfl⟩
  refine ⟨rfl, ?_, by decide +kernel, Filter.parse_settled settled reads, ?_, rfl⟩
  · exact compiled_of_read (by decide) rfl required rfl rfl rfl rfl
  · refine Action.ext fun s => ?_
    exact compiled_step (carried_of_last (serialize_ne_empty rfl) rfl) (Filter.compile_settled settled reads s) rfl

end Semijoin
