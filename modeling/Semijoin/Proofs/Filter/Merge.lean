import Mathlib.Tactic.Choose
import Semijoin.Filter.Compile
import Semijoin.Proofs.Access.Find
import Semijoin.Proofs.Access.Steady
import Semijoin.Proofs.Schema.Accepted
import Semijoin.Proofs.Value.Columns
import Semijoin.Proofs.Value.Written
import Semijoin.Proofs.Where.Selection

/-!
# Merging is conjunction

A compiled filter has the other entries of the filter as they were, and a where that holds of a row exactly
if the filter's own where and every reversed condition hold. Compiling fails if any reversal does, and otherwise
only if the conditions have no text. Over steady data this relates compilations to one another: a filter selects
what its where and its requirements select one by one, in whatever order they stand.
-/

namespace Semijoin
set_option autoImplicit false

theorem Value.falsy_of_isNull {v : Value} (h : v.isNull = true) : v.truthy = false := by
  cases v with
  | scalar s => cases s <;> simp_all [isNull, truthy]
  | _ => cases h

namespace Filter

/-- The value under any key of a filter. -/
def under? (filter : Value) (key : Scalar) : Option Value :=
  match filter with
  | .map entries => Entries.find? key entries
  | _ => none

/-- Whether the where of a filter holds of a row. -/
def Selects [Attributes] (filter row : Value) : Prop := Where.holds row (part filter "where") = .ok true

/-- A filter in which conditions took the place of its requirements. -/
structure Conjoins [Attributes] (filter : Value) (conditions : List Value) (result : Value) : Prop where
  required : under? result (.text "require") = none
  selecting : (under? result (.text "where")).isSome = true
  others : ∀ key, key ≠ .text "require" → key ≠ .text "where" → under? result key = under? filter key
  selects_iff : ∀ row, Selects result row ↔ Selects filter row ∧ ∀ c ∈ conditions, Where.holds row c = .ok true
  decides : ∀ row, Where.Decides (part filter "where") row → (∀ c ∈ conditions, Where.Decides c row) →
    Where.Decides (part result "where") row

theorem find?_withoutRequire {filter : Value} (key : Scalar) (other : key ≠ .text "require") :
    Entries.find? key (withoutRequire filter) = under? filter key := by
  cases filter with
  | map entries =>
    show Entries.find? key (entries.filter fun e => e.1 != .text "require") = Entries.find? key entries
    induction entries with
    | nil => rfl
    | cons e rest ih =>
      obtain ⟨k, v⟩ := e
      rw [List.filter_cons, Entries.find?_cons, ← ih]
      by_cases require : k = .text "require"
      · have apart : k.same key = false := by
          rw [Scalar.same_comm, require, Scalar.same_text]
          simpa using other
        rw [apart]
        simp [require]
      · simp [require, Entries.find?_cons]
  | _ => rfl

theorem find?_withoutRequire_self (filter : Value) :
    Entries.find? (.text "require") (withoutRequire filter) = none := by
  cases found : Entries.find? (.text "require") (withoutRequire filter) with
  | none => rfl
  | some v =>
    obtain ⟨k, mem, same⟩ := Entries.mem_of_find? found
    have key : k = .text "require" := by simpa [Scalar.same_text] using same
    subst key
    cases filter with
    | map entries => simpa using (List.mem_filter.1 mem).2
    | _ => cases mem

/-- **Merging is conjunction**, and loses no other entry. -/
theorem merge_conjoins [Attributes] (filter : Value) (conditions : List Value) :
    Conjoins filter conditions (merge filter conditions) := by
  have condition : part (merge filter conditions) "where" = conjunction (part filter "where") conditions := by
    rw [part, merge, Value.get?, Entries.find?_insert_self]
    rfl
  refine ⟨?_, ?_, ?_, fun row => ?_, fun row whereDecides conditionsDecide => ?_⟩
  · rw [merge, under?, Entries.find?_insert_of_ne (by simp), find?_withoutRequire_self]
  · rw [merge, under?, Entries.find?_insert_self]
    rfl
  · intro key notRequire notWhere
    rw [merge, under?, Entries.find?_insert_of_ne notWhere, find?_withoutRequire key notRequire]
  · rw [Selects, Selects, condition, conjunction, Where.holds_and, Where.allHold_iff]
    by_cases null : (part filter "where").isNull = true
    · have all : Where.holds row (part filter "where") = .ok true :=
        Where.holds_of_falsy row (Value.falsy_of_isNull null)
      rw [if_pos null]
      exact ⟨fun h => ⟨all, h⟩, fun h => h.2⟩
    · rw [if_neg null, List.forall_mem_cons]
  · rw [condition, conjunction]
    unfold Where.Decides
    rw [Where.holds_and]
    refine Where.allHold_decides ?_
    split
    · exact conditionsDecide
    · exact List.forall_mem_cons.2 ⟨whereDecides, conditionsDecide⟩

section Conclude

variable {filter r : Value} {conditions : List Value}

theorem conclude_eq : conclude filter conditions =
    if (Value.list conditions).isWritable then .ok (merge filter conditions) else .error (.ofFault .longInteger) := by
  unfold conclude Value.written
  split <;> rfl

/-- Conditions that have a text are joined. -/
theorem conclude_eq_ok :
    conclude filter conditions = .ok r ↔ (Value.list conditions).isWritable = true ∧ merge filter conditions = r := by
  rw [conclude_eq]
  split <;> simp [*]

/-- Conditions that have no text are not joined. -/
theorem conclude_long (long : (Value.list conditions).isWritable = false) :
    conclude filter conditions = .error (.ofFault .longInteger) := by
  rw [conclude_eq, if_neg (by simp [long])]

end Conclude

section Entry

variable [Attributes] {σ : Type} {schema : Schema} {options : CompileOptions} {root : String} {entry : Scalar × Value}

/-- A requirement without a plan fails before any find. -/
theorem reverseEntry_of_error (access : Access σ) {f : Failure} (h : entryPlan schema options root entry = .error f) :
    reverseEntry access schema options root entry = Action.ofExcept (.error f) := by
  unfold reverseEntry
  unfold entryPlan at h
  cases path : entryPath options entry with
  | error f' =>
    rw [path] at h
    cases h
    rfl
  | ok steps =>
    rw [path] at h
    have planned : Reversal.plan schema options.maxDepth root steps entry.2 = .error f := h
    refine Action.ext fun s => ?_
    show (Reversal.run access schema options.toOptions root steps entry.2).step s = _
    rw [Reversal.run, planned]
    rfl

/-- A requirement with a plan is reversed by it. -/
theorem reverseEntry_of_plan (access : Access σ) {p : Reversal.Plan}
    (h : entryPlan schema options root entry = .ok p) :
    reverseEntry access schema options root entry = p.run access options.toOptions entry.2 := by
  obtain ⟨steps, path, planned⟩ := bind_eq_ok.1 h
  unfold reverseEntry
  rw [path]
  refine Action.ext fun s => ?_
  show (Reversal.run access schema options.toOptions root steps entry.2).step s = _
  rw [Reversal.run, planned]
  rfl

end Entry

section Compile

variable {σ : Type} {reverse : Scalar × Value → Action σ Value}

/-- What reversing requirements gives, one after the other, each from the state that the last one left. -/
inductive Reversed (reverse : Scalar × Value → Action σ Value) :
    σ → List (Scalar × Value) → List (Except Failure Value) → σ → Prop
  | done (s : σ) : Reversed reverse s [] [] s
  | next {s s' s'' : σ} {entry : Scalar × Value} {require : List (Scalar × Value)} {r : Except Failure Value}
      {outcomes : List (Except Failure Value)} (here : (reverse entry).step s = (r, s'))
      (more : Reversed reverse s' require outcomes s'') :
      Reversed reverse s (entry :: require) (r :: outcomes) s''

/-- All requirements are reversed, whatever comes of each. -/
theorem mapM_outcome_iff {s s' : σ} {require : List (Scalar × Value)} {outcomes : List (Except Failure Value)} :
    (require.mapM fun entry => (reverse entry).outcome).run s = (outcomes, s') ↔
      Reversed reverse s require outcomes s' := by
  induction require generalizing s outcomes with
  | nil =>
    constructor
    · intro h
      cases h
      exact .done _
    · intro h
      cases h
      rfl
  | cons entry rest ih =>
    have run : ((entry :: rest).mapM fun entry => (reverse entry).outcome).run s =
        let later := (rest.mapM fun entry => (reverse entry).outcome).run ((reverse entry).step s).2
        (((reverse entry).step s).1 :: later.1, later.2) := by
      rw [List.mapM_cons]
      rfl
    rw [run]
    constructor
    · intro h
      cases h
      exact .next rfl (ih.1 rfl)
    · intro h
      cases h with
      | next here more =>
        rw [here]
        have later := ih.2 more
        rw [later]

/-- Every requirement comes to something. -/
theorem exists_reversed (reverse : Scalar × Value → Action σ Value) (s : σ) (require : List (Scalar × Value)) :
    ∃ outcomes s', Reversed reverse s require outcomes s' := ⟨_, _, mapM_outcome_iff.1 rfl⟩

/-- Every outcome is that of a requirement. -/
theorem Reversed.each {s s' : σ} {require : List (Scalar × Value)} {outcomes : List (Except Failure Value)}
    (h : Reversed reverse s require outcomes s') :
    ∀ r ∈ outcomes, ∃ entry ∈ require, ∃ t t', (reverse entry).step t = (r, t') := by
  induction h with
  | done s => simp
  | @next s s' s'' entry require r outcomes here more ih =>
    intro r' mem
    rcases List.mem_cons.1 mem with rfl | later
    · exact ⟨entry, List.mem_cons_self, s, s', here⟩
    · obtain ⟨entry', held, step⟩ := ih r' later
      exact ⟨entry', List.mem_cons_of_mem _ held, step⟩

/-- Outcomes are all conditions, or the first failure among them counts. -/
theorem mapM_id_cases (outcomes : List (Except Failure Value)) :
    (∃ conditions, outcomes = conditions.map .ok ∧ outcomes.mapM id = .ok conditions) ∨
      ∃ f, .error f ∈ outcomes ∧ outcomes.mapM id = .error f := by
  induction outcomes with
  | nil => exact .inl ⟨[], rfl, rfl⟩
  | cons r rest ih =>
    cases r with
    | error f => exact .inr ⟨f, by simp, rfl⟩
    | ok c =>
      rcases ih with ⟨conditions, rfl, eq⟩ | ⟨f, mem, eq⟩
      · refine .inl ⟨c :: conditions, rfl, ?_⟩
        rw [List.mapM_cons, eq]
        rfl
      · refine .inr ⟨f, by simp [mem], ?_⟩
        rw [List.mapM_cons, eq]
        rfl

variable {access : Access σ} {schema : Schema} {options : CompileOptions} {root : String} {source : FilterSource}
  {filter : Value} {require : List (Scalar × Value)}

/-- A filter that requires something is read up to its requirements, in whatever form it arrives. -/
theorem prepare_eq (parsed : source.parse = .ok filter) (requires : part filter "require" = .map require)
    (some_ : require ≠ []) : prepare source = .ok (.pending filter require) := by
  have split : split filter = .pending filter require := by
    rw [Filter.split, requires]
    cases require with
    | nil => exact absurd rfl some_
    | cons entry rest => rfl
  have read : source.parse.map Filter.split = .ok (.pending filter require) := by
    rw [parsed, ← split]
    rfl
  cases source with
  | value v =>
    have pending : requiresNothing (.value v) = false := by
      cases v with
      | map entries =>
        have same : filter = .map entries := by
          have checked : FilterSource.checkedValue (.map entries) = .ok filter := parsed
          unfold FilterSource.checkedValue at checked
          split at checked
          · cases checked
          · split at checked <;> cases checked
            rfl
        rw [requiresNothing, ← same, requires]
        cases require with
        | nil => exact absurd rfl some_
        | cons entry rest => simp [Value.truthy]
      | _ => rfl
    rw [prepare, pending]
    exact read
  | _ => exact read

variable [Attributes]

/-- A filter that can not be prepared fails, and nothing is fetched. -/
theorem compile_unprepared {f : Failure} (prepared : prepare source = .error f) (s : σ) :
    (compile access schema options root source).step s = (.error f, s) := by
  have first : (Action.ofExcept (prepare source) : Action σ Prepared).step s = (.error f, s) := by
    rw [Action.step_ofExcept, prepared]
  rw [compile, Action.step_bind_error first]

/-- A filter that requires nothing is compiled as it is, and nothing is fetched. -/
theorem compile_done {filter : Value} (prepared : prepare source = .ok (.done filter)) (s : σ) :
    (compile access schema options root source).step s = (.ok filter, s) := by
  have first : (Action.ofExcept (prepare source) : Action σ Prepared).step s = (.ok (.done filter), s) := by
    rw [Action.step_ofExcept, prepared]
  rw [compile, Action.step_bind_ok first]
  rfl

theorem compile_step (prepared : prepare source = .ok (.pending filter require)) {s s' : σ}
    {outcomes : List (Except Failure Value)}
    (reversed : Reversed (reverseEntry access schema options root) s require outcomes s') :
    (compile access schema options root source).step s = (outcomes.mapM id >>= conclude filter, s') := by
  have all : (reverseAll access schema options root require).step s = (outcomes.mapM id, s') := by
    have run := mapM_outcome_iff.2 reversed
    show ((require.mapM fun entry => (reverseEntry access schema options root entry).outcome) >>= fun found =>
      (pure (found.mapM id) : StateM σ _)).run s = _
    rw [StateT.run_bind, run]
    rfl
  have first : (Action.ofExcept (prepare source) : Action σ Prepared).step s = (.ok (.pending filter require), s) := by
    rw [Action.step_ofExcept, prepared]
  rw [compile, Action.step_bind_ok first]
  cases found : outcomes.mapM id with
  | error f => exact Action.step_bind_error (all.trans (by rw [found])) _
  | ok conditions =>
    exact (Action.step_bind_ok (all.trans (by rw [found])) _).trans (Action.step_ofExcept _ _)

/-- A compiled filter is the filter itself, if it requires nothing, or has conditions that its requirements were
reversed to and that have a text. -/
theorem compile_eq_ok {s s' : σ} {r : Value} (h : (compile access schema options root source).step s = (.ok r, s')) :
    prepare source = .ok (.done r) ∨ ∃ filter require conditions, prepare source = .ok (.pending filter require) ∧
      (Value.list conditions).isWritable = true ∧ r = merge filter conditions ∧ ∀ c ∈ conditions, ∃ entry ∈ require, ∃ t t',
        (reverseEntry access schema options root entry).step t = (.ok c, t') := by
  cases prepared : prepare source with
  | error f =>
    rw [compile_unprepared prepared] at h
    cases h
  | ok ready =>
    cases ready with
    | done filter =>
      rw [compile_done prepared] at h
      cases h
      exact .inl rfl
    | pending filter require =>
      obtain ⟨outcomes, after, reversed⟩ := exists_reversed (reverseEntry access schema options root) s require
      rw [compile_step prepared reversed] at h
      rcases mapM_id_cases outcomes with ⟨conditions, rfl, all⟩ | ⟨f, -, failed⟩
      · rw [all] at h
        obtain ⟨concluded, -⟩ := Prod.mk.inj h
        obtain ⟨writable, rfl⟩ := conclude_eq_ok.1 concluded
        refine .inr ⟨filter, require, conditions, rfl, writable, rfl, fun c mem => ?_⟩
        exact reversed.each (.ok c) (List.mem_map_of_mem mem)
      · rw [failed] at h
        cases h

/-- Requirements that are answered whenever they are asked are concluded from those answers. -/
theorem compile_ends (prepared : prepare source = .ok (.pending filter require)) {answers : Scalar × Value → Value}
    (answered : ∀ entry ∈ require, (reverseEntry access schema options root entry).Ends (.ok (answers entry))) :
    (compile access schema options root source).Ends (conclude filter (require.map answers)) := by
  have reversed (s : σ) :
      ∃ s', Reversed (reverseEntry access schema options root) s require (require.map fun e => .ok (answers e)) s' := by
    clear prepared
    induction require generalizing s with
    | nil => exact ⟨s, .done s⟩
    | cons entry rest ih =>
      obtain ⟨here, later⟩ := List.forall_mem_cons.1 answered
      obtain ⟨s', more⟩ := ih later ((reverseEntry access schema options root entry).step s).2
      exact ⟨s', .next (Prod.ext (here s) rfl) more⟩
  intro s
  obtain ⟨s', all⟩ := reversed s
  have ok : (require.map fun e => (Except.ok (answers e) : Except Failure Value)).mapM id =
      .ok (require.map answers) := by
    rw [List.mapM_map]
    exact mapM_ok fun _ _ => rfl
  rw [compile_step prepared all, ok]
  rfl

/-- If the answers have a text, they are joined. -/
theorem compile_ends_merged (prepared : prepare source = .ok (.pending filter require))
    {answers : Scalar × Value → Value}
    (answered : ∀ entry ∈ require, (reverseEntry access schema options root entry).Ends (.ok (answers entry)))
    (writable : ∀ entry ∈ require, (answers entry).isWritable = true) :
    (compile access schema options root source).Ends (.ok (merge filter (require.map answers))) := by
  rw [← conclude_eq_ok.2 ⟨Value.isWritable_list.2 (List.forall_mem_map.2 writable), rfl⟩]
  exact compile_ends prepared answered

omit [Attributes] in
/-- What a requirement always comes to is among the outcomes. -/
theorem Reversed.mem {reverse : Scalar × Value → Action σ Value} {answer : Scalar × Value → Except Failure Value}
    (ends : ∀ entry, (reverse entry).Ends (answer entry)) {s s' : σ} {outcomes : List (Except Failure Value)}
    (reversed : Reversed reverse s require outcomes s') : ∀ entry ∈ require, answer entry ∈ outcomes := by
  induction reversed with
  | done s => simp
  | @next s s' s'' entry require r outcomes here more ih =>
    have outcome : answer entry = r := by rw [← ends entry s, here]
    refine List.forall_mem_cons.2 ⟨by simp [outcome], fun e mem => List.mem_cons_of_mem _ (ih e mem)⟩

omit [Attributes] in
/-- Requirements that are answered whenever they are asked come to those answers. -/
theorem Reversed.answers_eq {reverse : Scalar × Value → Action σ Value} {answers : Scalar × Value → Value}
    {s s' : σ} {conditions : List Value} (reversed : Reversed reverse s require (conditions.map .ok) s')
    (answered : ∀ entry ∈ require, (reverse entry).Ends (.ok (answers entry))) : conditions = require.map answers := by
  generalize same : conditions.map Except.ok = outcomes at reversed
  induction reversed generalizing conditions with
  | done s => simpa using same
  | @next s s' s'' entry require r outcomes here more ih =>
    obtain ⟨answer, later⟩ := List.forall_mem_cons.1 answered
    obtain ⟨c, rest, rfl, rfl, tail⟩ := List.map_eq_cons_iff.1 same
    have outcome := answer s
    rw [here] at outcome
    obtain rfl := Except.ok.inj outcome
    rw [List.map_cons, ih later tail]

/-- Over steady data a run without failures shows what each requirement comes to. -/
theorem answers_of_run (steady : access.Steady) {s s' : σ} {conditions : List Value}
    (reversed : Reversed (reverseEntry access schema options root) s require (conditions.map .ok) s') :
    ∃ answers : Scalar × Value → Value,
      ∀ entry ∈ require, (reverseEntry access schema options root entry).Ends (.ok (answers entry)) := by
  have entries (entry : Scalar × Value) : (reverseEntry access schema options root entry).Steady :=
    (Action.steady_ofExcept _).bind fun path => Reversal.run_steady steady schema options.toOptions root path entry.2
  choose answer ends using entries
  refine ⟨fun entry => (answer entry).toOption.getD .null, fun entry mem => ?_⟩
  obtain ⟨c, -, eq⟩ := List.mem_map.1 (reversed.mem ends entry mem)
  have here := ends entry
  show Action.Ends _ (.ok ((answer entry).toOption.getD .null))
  rw [← eq] at here ⊢
  exact here

/-- A filter that requires something is compiled with all conditions found, or fails with one of the reversals, or
because the conditions have no text. -/
theorem compile_cases (prepared : prepare source = .ok (.pending filter require)) (s : σ) :
    ∃ outcomes s', Reversed (reverseEntry access schema options root) s require outcomes s' ∧
      ((∃ conditions result, outcomes = conditions.map .ok ∧ (Value.list conditions).isWritable = true ∧
          Conjoins filter conditions result ∧ (compile access schema options root source).step s = (.ok result, s')) ∨
        (∃ f, .error f ∈ outcomes ∧ (compile access schema options root source).step s = (.error f, s')) ∨
        ∃ conditions, outcomes = conditions.map .ok ∧ (Value.list conditions).isWritable = false ∧
          (compile access schema options root source).step s = (.error (.ofFault .longInteger), s')) := by
  obtain ⟨outcomes, s', reversed⟩ := exists_reversed (reverseEntry access schema options root) s require
  have step := compile_step prepared reversed
  refine ⟨outcomes, s', reversed, ?_⟩
  rcases mapM_id_cases outcomes with ⟨conditions, all, eq⟩ | ⟨f, mem, eq⟩
  · rw [eq] at step
    cases text : (Value.list conditions).isWritable with
    | true =>
      have concluded : conclude filter conditions = .ok (merge filter conditions) := conclude_eq_ok.2 ⟨text, rfl⟩
      exact .inl ⟨conditions, _, all, text, merge_conjoins filter conditions, step.trans (by rw [← concluded]; rfl)⟩
    | false => exact .inr (.inr ⟨conditions, all, text, step.trans (by rw [← conclude_long text]; rfl)⟩)
  · rw [eq] at step
    exact .inr (.inl ⟨f, mem, step⟩)

/-- Over steady data a filter that was compiled holds the answers of its requirements, and they have texts. -/
theorem answered_of_compile (prepared : prepare source = .ok (.pending filter require)) (steady : access.Steady)
    {s s' : σ} {result : Value} (ok : (compile access schema options root source).step s = (.ok result, s')) :
    ∃ answers : Scalar × Value → Value,
      (∀ entry ∈ require, (reverseEntry access schema options root entry).Ends (.ok (answers entry))) ∧
      (∀ entry ∈ require, (answers entry).isWritable = true) ∧ result = merge filter (require.map answers) := by
  obtain ⟨outcomes, s'', reversed, ⟨conditions, _, rfl, writable, -, -⟩ | ⟨f, -, failed⟩ | ⟨_, -, -, failed⟩⟩ :=
    compile_cases prepared s
  · obtain ⟨answers, answered⟩ := answers_of_run steady reversed
    obtain rfl := reversed.answers_eq answered
    have texts := List.forall_mem_map.1 (Value.isWritable_list.1 writable)
    have ends := compile_ends_merged prepared answered texts s
    rw [ok] at ends
    exact ⟨answers, answered, texts, Except.ok.inj ends⟩
  · rw [ok] at failed
    cases failed
  · rw [ok] at failed
    cases failed

end Compile

/-- **A compiled filter is the conjunction of its parts, and loses none.** Either every requirement is reversed
and the filter's entries are kept, its where joined with the conditions found, or one reversal fails and so
does the compilation, or the conditions found hold an integer that has no text, which is reported. Over steady
data, the rows selected are those that the where and the compilation of each single requirement select, and another
order of the requirements selects the same rows. -/
theorem compile_conjoins [Attributes] {σ : Type} (access : Access σ) (schema : Schema) (options : CompileOptions)
    (root : String) {source : FilterSource} {filter : Value} {require : List (Scalar × Value)}
    (parsed : source.parse = .ok filter) (requires : part filter "require" = .map require) (some_ : require ≠ []) :
    (∀ s, ∃ outcomes s', Reversed (reverseEntry access schema options root) s require outcomes s' ∧
      ((∃ conditions result, outcomes = conditions.map .ok ∧ (Value.list conditions).isWritable = true ∧
          Conjoins filter conditions result ∧ (compile access schema options root source).step s = (.ok result, s')) ∨
        (∃ f, .error f ∈ outcomes ∧ (compile access schema options root source).step s = (.error f, s')) ∨
        ∃ conditions, outcomes = conditions.map .ok ∧ (Value.list conditions).isWritable = false ∧
          (compile access schema options root source).step s = (.error (.ofFault .longInteger), s'))) ∧
    (access.Steady → ∀ s s' result, (compile access schema options root source).step s = (.ok result, s') →
      (∀ single : Scalar × Value → FilterSource,
        (∀ entry ∈ require, ∃ alone, (single entry).parse = .ok alone ∧ part alone "require" = .map [entry] ∧
          part alone "where" = .null) →
        ∃ only : Scalar × Value → Value,
          (∀ entry ∈ require, (compile access schema options root (single entry)).Ends (.ok (only entry))) ∧
          ∀ row, Selects result row ↔ Selects filter row ∧ ∀ entry ∈ require, Selects (only entry) row) ∧
      ∀ source' filter' require', source'.parse = .ok filter' → part filter' "require" = .map require' →
        require'.Perm require → part filter' "where" = part filter "where" →
        ∃ result', (compile access schema options root source').Ends (.ok result') ∧
          ∀ row, Selects result' row ↔ Selects result row) := by
  have prepared := prepare_eq parsed requires some_
  refine ⟨compile_cases prepared, fun steady s s' result ok => ?_⟩
  obtain ⟨answers, answered, writable, eq⟩ := answered_of_compile prepared steady ok
  have selects (row : Value) : Selects result row ↔
      Selects filter row ∧ ∀ entry ∈ require, Where.holds row (answers entry) = .ok true := by
    rw [eq, (merge_conjoins filter _).selects_iff, List.forall_mem_map]
  refine ⟨fun single alone => ?_, fun source' filter' require' parsed' requires' perm same => ?_⟩
  · have each : ∀ entry ∈ require, ∃ only, (compile access schema options root (single entry)).Ends (.ok only) ∧
        ∀ row, Selects only row ↔ Where.holds row (answers entry) = .ok true := by
      intro entry mem
      obtain ⟨filter, parsed, requires, noWhere⟩ := alone entry mem
      have all (row : Value) : Selects filter row := by
        rw [Selects, noWhere]
        rfl
      refine ⟨_, compile_ends_merged (prepare_eq parsed requires (by simp)) (by simpa using answered entry mem)
        (by simpa using writable entry mem), fun row => ?_⟩
      rw [(merge_conjoins filter _).selects_iff, List.map_singleton, List.forall_mem_singleton, and_iff_right (all row)]
    choose! only compiled selected using each
    refine ⟨only, compiled, fun row => ?_⟩
    rw [selects]
    exact and_congr_right fun _ => forall₂_congr fun entry mem => (selected entry mem row).symm
  · have answered' : ∀ entry ∈ require', (reverseEntry access schema options root entry).Ends (.ok (answers entry)) :=
      fun entry mem => answered entry (perm.mem_iff.1 mem)
    have some' : require' ≠ [] := fun none => some_ (by rw [none] at perm; exact perm.nil_eq.symm)
    refine ⟨_, compile_ends_merged (prepare_eq parsed' requires' some') answered'
      (fun entry mem => writable entry (perm.mem_iff.1 mem)), fun row => ?_⟩
    rw [selects, (merge_conjoins filter' _).selects_iff, List.forall_mem_map, Selects, Selects, same]
    exact and_congr_right fun _ => ⟨fun h e mem => h e (perm.mem_iff.2 mem), fun h e mem => h e (perm.mem_iff.1 mem)⟩

end Filter

namespace Sample

/-- Two requirements whose paths are one path in snake case. -/
def requirements : List (Scalar × Value) :=
  [(.text "City", .ofFields [("country_id", .text "1")]),
    (.text "city", .ofFields [("country_id", .ofFields [("in", .list [.text "1", .text "2"])])])]

def filter (require : List (Scalar × Value)) : Value :=
  .ofFields [("where", .ofFields [("name", .text "Jo")]), ("limit", .int 5), ("require", .map require)]

def compiled : Value := .ofFields [("where", .ofFields [("and", .list [.ofFields [("name", .text "Jo")],
  .ofFields [("city_id", .ofFields [("in", .list [.int 20])])],
  .ofFields [("city_id", .ofFields [("in", .list [.int 20])])]])]), ("limit", .int 5)]

end Sample

namespace Filter

/-- Requirements on one path both stay effective, in either order. -/
theorem compile_conjoins_city :
    (compile (Sample.tables.access Sample.schema) Sample.schema { normalizeCase := true } "Person"
      (.value (Sample.filter Sample.requirements))).step [] =
        (.ok Sample.compiled, Sample.requirements.map fun entry => ⟨"City", entry.2⟩) ∧
    ∃ result, (compile (Sample.tables.access Sample.schema) Sample.schema { normalizeCase := true } "Person"
      (.value (Sample.filter Sample.requirements.reverse))).Ends (.ok result) ∧
        ∀ row, Selects result row ↔ Selects Sample.compiled row :=
  ⟨rfl, ((compile_conjoins (Sample.tables.access Sample.schema) Sample.schema { normalizeCase := true } "Person"
    (rfl : (FilterSource.value (Sample.filter Sample.requirements)).parse = .ok _)
    (rfl : part (Sample.filter Sample.requirements) "require" = .map Sample.requirements)
    (by simp [Sample.requirements])).2 (Sample.tables.access_steady Sample.schema) [] _ Sample.compiled rfl).2
      (.value (Sample.filter Sample.requirements.reverse)) _ _ rfl rfl (List.reverse_perm _) rfl⟩

end Filter

end Semijoin
