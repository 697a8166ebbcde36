import Semijoin.Proofs.Filter.Parsed

/-!
# What is accepted as a filter

A filter is a mapping whose sections, where they are given, are null or mappings; what it requires are conditions,
null or mappings again. Anything else is refused as malformed, a mapping with a report of its places that are
neither: each of them once, in the order of the sections.
-/

namespace Semijoin
set_option autoImplicit false

namespace Value

/-- Null or a mapping. -/
def IsCondition (v : Value) : Prop := v.isNull = true ∨ v.isMap = true

instance (v : Value) : Decidable v.IsCondition := inferInstanceAs (Decidable (_ ∨ _))

end Value

namespace Filter

/-- A mapping that is accepted as a filter. Further keys are free. -/
structure Accepts (m : Value) : Prop where
  mapping : m.isMap = true
  condition : ∀ v, m.get? "where" = some v → v.IsCondition
  require : ∀ v, m.get? "require" = some v → v.isNull = true ∨ ∃ entries, v = .map entries ∧
    ∀ e ∈ entries, e.2.IsCondition

/-- A place of a mapping that keeps it from being a filter. -/
inductive Offends (m : Value) : List Step → Prop
  | condition {v : Value} (given : m.get? "where" = some v) (bad : ¬ v.IsCondition) : Offends m [.key "where"]
  | require {v : Value} (given : m.get? "require" = some v) (bad : ¬ v.IsCondition) : Offends m [.key "require"]
  | entry {entries : List (Scalar × Value)} {path : String} {v : Value}
      (given : m.get? "require" = some (.map entries)) (mem : (.text path, v) ∈ entries) (bad : ¬ v.IsCondition) :
      Offends m [.key "require", .key path]

/-- The entries of what a mapping requires. -/
def requirements (m : Value) : List (Scalar × Value) :=
  match m.get? "require" with
  | some (.map entries) => entries
  | _ => []

/-- The places of a mapping that are checked, in order. -/
def places (m : Value) : List (List Step) :=
  [.key "where"] :: [.key "require"] :: (requirements m).map fun e => [.key "require", .key e.1.shown]

/-- A list of issues names the places with a property, each once and in order. -/
structure Reports (offends : List Step → Prop) (order : List (List Step)) (issues : List Issue) : Prop where
  defect : ∀ i ∈ issues, i.defect = .notMapping
  place_iff : ∀ place, place ∈ issues.map (·.place) ↔ offends place
  once : (issues.map (·.place)).Nodup
  ordered : (issues.map (·.place)).Sublist order

/-- Why a value is refused as a filter. -/
inductive Refuses (v : Value) : Failure → Prop
  | notMapping (other : v.isMap = false) : Refuses v (.malformedFilter ("expected an object, got " ++ v.kind.name))
  | sections {issues : List Issue} (mapping : v.isMap = true) (some_ : issues ≠ [])
      (reported : Reports (Offends v) (places v) issues) : Refuses v (.invalidFilter issues)

/-- A mapping is accepted unless it has an offending place. -/
theorem accepts_iff_forall_not_offends {m : Value} (document : m.isDocument = true) :
    Accepts m ↔ m.isMap = true ∧ ∀ place, ¬ Offends m place := by
  constructor
  · intro accepted
    refine ⟨accepted.mapping, fun place offends => ?_⟩
    cases offends with
    | condition given bad => exact bad (accepted.condition _ given)
    | require given bad => exact bad ((accepted.require _ given).imp_right fun ⟨_, eq, _⟩ => by rw [eq]; rfl)
    | entry given mem bad =>
      rcases accepted.require _ given with null | ⟨entries, eq, all⟩
      · cases null
      · cases eq
        exact bad (all _ mem)
  · rintro ⟨mapping, none⟩
    refine ⟨mapping, fun v given => by_contra fun bad => none _ (.condition given bad), fun v given => ?_⟩
    rcases by_contra fun bad => none _ (.require given bad) with null | isMap
    · exact .inl null
    · obtain ⟨entries, rfl⟩ := Value.isMap_iff.1 isMap
      refine .inr ⟨entries, rfl, fun e mem => by_contra fun bad => ?_⟩
      obtain ⟨path, text⟩ := (Value.isDocument_map.1 (Value.isDocument_get? document given)).text e mem
      exact none _ (.entry given (show (.text path, e.2) ∈ entries from text ▸ mem) bad)

section Issues

variable {offends offends' : List Step → Prop} {order order' : List (List Step)} {issues issues' : List Issue}

theorem Reports.nil : Reports (fun _ => False) order [] := ⟨by simp, by simp, by simp, by simp⟩

/-- Reports on different places add up. -/
theorem Reports.append (h : Reports offends order issues) (h' : Reports offends' order' issues')
    (apart : ∀ place, offends place → ¬ offends' place) :
    Reports (fun place => offends place ∨ offends' place) (order ++ order') (issues ++ issues') := by
  refine ⟨fun i mem => (List.mem_append.1 mem).elim (h.defect i) (h'.defect i), fun place => ?_, ?_, ?_⟩
  · rw [List.map_append, List.mem_append, h.place_iff, h'.place_iff]
  · rw [List.map_append]
    refine List.nodup_append.2 ⟨h.once, h'.once, fun a ha b hb eq => ?_⟩
    exact apart a ((h.place_iff a).1 ha) (eq ▸ (h'.place_iff b).1 hb)
  · rw [List.map_append]
    exact h.ordered.append h'.ordered

theorem Reports.congr (h : Reports offends order issues) (same : ∀ place, offends place ↔ offends' place) :
    Reports offends' order issues :=
  ⟨h.defect, fun place => (h.place_iff place).trans (same place), h.once, h.ordered⟩

/-- An optional mapping is reported at its place, if it is neither null nor a mapping. -/
theorem reports_mappingIssues (place : List Step) (given : Option Value) :
    Reports (fun p => p = place ∧ ∃ v, given = some v ∧ ¬ v.IsCondition) [place]
      (Shape.mappingIssues place given) := by
  cases given with
  | none => exact Reports.nil.congr (by simp)
  | some v =>
    by_cases ok : v.IsCondition
    · rw [Shape.mappingIssues, if_pos (by simpa [Value.IsCondition] using ok)]
      exact Reports.nil.congr (by simp [ok])
    · rw [Shape.mappingIssues, if_neg (by simpa [Value.IsCondition] using ok)]
      exact ⟨by simp, by simp [ok], by simp, by simp⟩

/-- Required entries are reported under their paths, each that is neither null nor a mapping. -/
theorem reports_requireIssues {entries : List (Scalar × Value)} (document : Value.DocumentEntries entries) :
    Reports (fun p => ∃ path v, (.text path, v) ∈ entries ∧ ¬ v.IsCondition ∧ p = [.key "require", .key path])
      (entries.map fun e => [.key "require", .key e.1.shown]) (Shape.requireIssues (some (.map entries))) := by
  rw [Shape.requireIssues]
  induction entries with
  | nil => exact Reports.nil.congr (by simp)
  | cons e rest ih =>
    obtain ⟨k, v⟩ := e
    obtain ⟨⟨path, rfl⟩, text⟩ := List.forall_mem_cons.1 document.text
    obtain ⟨fresh, once⟩ := List.nodup_cons.1 document.once
    have later := ih ⟨text, once, (List.forall_mem_cons.1 document.below).2⟩
    have here := reports_mappingIssues [.key "require", .key path] (some v)
    refine (here.append later ?_).congr fun p => ?_
    · rintro p ⟨rfl, -⟩ ⟨path', v', mem, -, eq⟩
      obtain rfl : path = path' := by simpa using eq
      exact fresh (List.mem_map.2 ⟨_, mem, rfl⟩)
    · constructor
      · rintro (⟨rfl, w, eq, bad⟩ | ⟨path', v', mem, bad, rfl⟩)
        · cases eq
          exact ⟨path, v, by simp, bad, rfl⟩
        · exact ⟨path', v', List.mem_cons_of_mem _ mem, bad, rfl⟩
      · rintro ⟨path', v', mem, bad, rfl⟩
        rcases List.mem_cons.1 mem with eq | mem
        · cases eq
          exact .inl ⟨rfl, v, rfl, bad⟩
        · exact .inr ⟨path', v', mem, bad, rfl⟩

/-- The check of what a mapping requires reports its offending places. -/
theorem reports_require {m : Value} (document : m.isDocument = true) :
    Reports (fun p => Offends m p ∧ p ≠ [.key "where"])
      ([.key "require"] :: (requirements m).map fun e => [.key "require", .key e.1.shown])
      (Shape.requireIssues (m.get? "require")) := by
  by_cases entries : ∃ entries, m.get? "require" = some (.map entries)
  · obtain ⟨entries, given⟩ := entries
    have found := reports_requireIssues (Value.isDocument_map.1 (Value.isDocument_get? document given))
    rw [requirements, given]
    have here : Reports (fun _ => False) [[.key "require"]] [] := .nil
    refine (here.append found (by simp)).congr fun p => ?_
    constructor
    · rintro (none | ⟨path, v, mem, bad, rfl⟩)
      · exact none.elim
      · exact ⟨.entry given mem bad, by simp⟩
    · rintro ⟨offends, apart⟩
      cases offends with
      | condition => exact absurd rfl apart
      | require given' bad =>
        rw [given] at given'
        cases given'
        exact absurd (.inr rfl) bad
      | entry given' mem bad =>
        rw [given] at given'
        cases given'
        exact .inr ⟨_, _, mem, bad, rfl⟩
  · have single :
        Shape.requireIssues (m.get? "require") = Shape.mappingIssues [.key "require"] (m.get? "require") := by
      rw [Shape.requireIssues]
      exact fun all eq => entries ⟨all, eq⟩
    have none : requirements m = [] := by
      rw [requirements]
      split
      · exact absurd ⟨_, ‹_›⟩ entries
      · rfl
    rw [single, none]
    refine (reports_mappingIssues [.key "require"] (m.get? "require")).congr fun p => ?_
    constructor
    · rintro ⟨rfl, v, given, bad⟩
      exact ⟨.require given bad, by simp⟩
    · rintro ⟨offends, apart⟩
      cases offends with
      | condition => exact absurd rfl apart
      | require given bad => exact ⟨rfl, _, given, bad⟩
      | entry given => exact absurd ⟨_, given⟩ entries

/-- **A check reports the offending places of a mapping.** -/
theorem reports_filterIssues {m : Value} (document : m.isDocument = true) :
    Reports (Offends m) (places m) (Shape.filterIssues m) := by
  have condition := reports_mappingIssues [.key "where"] (m.get? "where")
  refine (condition.append (reports_require document) ?_).congr fun p => ?_
  · rintro p ⟨rfl, -⟩ ⟨-, apart⟩
    exact apart rfl
  · constructor
    · rintro (⟨rfl, v, given, bad⟩ | ⟨offends, -⟩)
      · exact .condition given bad
      · exact offends
    · intro offends
      cases offends with
      | condition given bad => exact .inl ⟨rfl, _, given, bad⟩
      | require given bad => exact .inr ⟨.require given bad, by simp⟩
      | entry given mem bad => exact .inr ⟨.entry given mem bad, by simp⟩

end Issues

section Checked

variable {m : Value}

theorem accepts_iff (document : m.isDocument = true) : Accepts m ↔ m.isMap = true ∧ Shape.filterIssues m = [] := by
  rw [accepts_iff_forall_not_offends document]
  refine and_congr_right fun _ => ?_
  rw [← List.map_eq_nil_iff (f := (·.place)), List.eq_nil_iff_forall_not_mem]
  exact forall_congr' fun place => not_congr ((reports_filterIssues document).place_iff place).symm

theorem checkedValue_of_accepts (document : m.isDocument = true) (accepted : Accepts m) :
    FilterSource.checkedValue m = .ok m :=
  checkedValue_eq_ok.2 ⟨rfl, (accepts_iff document).1 accepted⟩

/-- What is not accepted is refused. -/
theorem checkedValue_of_not_accepts (document : m.isDocument = true) (not : ¬ Accepts m) :
    ∃ f, FilterSource.checkedValue m = .error f ∧ Refuses m f := by
  unfold FilterSource.checkedValue
  cases mapping : m.isMap with
  | false => exact ⟨_, rfl, .notMapping mapping⟩
  | true =>
    have some_ : Shape.filterIssues m ≠ [] := fun none => not ((accepts_iff document).2 ⟨mapping, none⟩)
    refine ⟨_, ?_, .sections mapping some_ (reports_filterIssues document)⟩
    split
    · contradiction
    · split
      · contradiction
      · rfl

end Checked

end Filter

end Semijoin
