import Semijoin.Proofs.Access.Records
import Semijoin.Proofs.Reversal.Collect
import Semijoin.Proofs.Reversal.Plan

/-!
# Ids are scalars

The ids that a reversal collects are under a key name in the rows at the end of its include. If the rows of tables
are mappings and hold scalars under the names of keys, these ids are scalars: each row found leads, relation by
relation, to further rows of tables, and only at the end is a key read.
-/

namespace Semijoin
set_option autoImplicit false

/-- The names of all keys are texts. -/
def Schema.TextKeys (schema : Schema) : Prop := ∀ k ∈ schema.keyNames, ∃ name, k = .text name

/-- All ids that are collected in reversals from a root are scalars. -/
def Access.CollectsScalars [Attributes] {σ : Type} (access : Access σ) (schema : Schema) (options : Reversal.Options)
    (root : String) : Prop :=
  ∀ path p condition s found s' ids, Reversal.plan schema options.maxDepth root path condition = .ok p →
    (p.fetch access condition).step s = (.ok found, s') → p.ids options.missing found = .ok ids →
      ∀ id ∈ ids, ∃ k, id = .scalar k

/-- A mapping leads along names to mappings that hold a scalar in a column. -/
def Path.Leads (column : Value) : List String → Value → Prop
  | [], node => node.isMap = true ∧ node.HoldsScalar column
  | name :: rest, node => node.isMap = true ∧ ∃ related, (∀ child ∈ related, Leads column rest child) ∧
      (node.column (.text name) = .list related ∨ node.column (.text name) ∈ related ∨
        node.column (.text name) = .null)

/-- What is attached along a chain of names leads along them. -/
theorem attach_leads {σ : Type} {schema : Schema} {selector : Selector σ} {column : Value}
    (gives : selector.Gives (Path.Leads column [])) {names : List String} {owner : Entity}
    (declared : schema.find? owner.name = some owner) {rows results : List Value}
    (held : ∀ row ∈ rows, Path.Leads column [] row) {s s' : σ}
    (h : (attach schema selector owner rows (IncludeTree.chain names)).step s = (.ok results, s')) :
    ∀ row ∈ results, Path.Leads column names row := by
  induction names generalizing owner rows results s s' with
  | nil =>
    rw [IncludeTree.chain, IncludeTree.empty, attach, attachAll] at h
    cases h
    exact held
  | cons name rest ih =>
    rw [IncludeTree.chain, attach] at h
    obtain ⟨attached, _, all, h⟩ := Action.step_bind_eq_ok h
    cases h
    rw [attachAll] at all
    obtain ⟨relation, _, named, all⟩ := Action.step_bind_eq_ok all
    obtain ⟨target, _, reached, all⟩ := Action.step_bind_eq_ok all
    have from' := Schema.hop?_eq_some
      (Schema.hop?_of_relation declared (Action.step_ofExcept_eq_ok named).1 (Action.step_ofExcept_eq_ok reached).1)
    split at all
    · cases all
    · obtain ⟨keys, _, -, all⟩ := Action.step_bind_eq_ok all
      obtain ⟨selected, _, found, all⟩ := Action.step_bind_eq_ok all
      obtain ⟨children, _, below, all⟩ := Action.step_bind_eq_ok all
      obtain ⟨handed, _, hands, all⟩ := Action.step_bind_eq_ok all
      rw [attachAll] at all
      cases all
      have leads := ih from'.target_found (selectAmong_gives gives found) below
      intro result mem
      obtain ⟨row, stored, related, among, rfl⟩ := handOutAll_mem (Action.step_ofValues_eq_ok hands).1 result mem
      have mapping := (held row stored).1
      refine ⟨by rw [Value.isMap_setField]; exact mapping, related, fun child mem => leads child (among child mem), ?_⟩
      rw [from'.name_eq, Value.column_setField_self mapping]
      exact handOut_cases _ _

namespace Path

theorem Leads.mapping {column node : Value} {names : List String} (h : Leads column names node) : node.isMap = true := by
  cases names with
  | nil => exact h.1
  | cons name rest => exact h.1

variable [Attributes]

/-- What is true of a node and passes on to what it holds under the first name of a path is true at the end of the
path, and so what it says of an id there is true of all ids collected. -/
theorem leavesFrom_forall {Q : List Value → Value → Prop} {P : Value → Prop} {policy : MissingPolicy}
    {full : List Value} {idField : Value}
    (leaf : ∀ node v, Q [] node → node.field idField = .ok v → v.isNull = false → P v)
    (items : ∀ segment rest node vs, Q (segment :: rest) node → node.field segment = .ok (.list vs) → ∀ v ∈ vs, Q rest v)
    (single : ∀ segment rest node v, Q (segment :: rest) node → node.field segment = .ok v → v ≠ .null →
      (∀ vs, v ≠ .list vs) → Q rest v) {path : List Value} {node : Value} (h : Q path node) {ids : List Value}
    (collected : leavesFrom policy full idField path node = .ok ids) : ∀ id ∈ ids, P id := by
  induction path generalizing node ids with
  | nil =>
    obtain ⟨v, read, eq⟩ := bind_eq_ok.1 collected
    cases eq
    intro id mem
    split at mem
    · cases mem
    · rename_i set
      rw [List.mem_singleton.1 mem]
      exact leaf node v h (liftFault_eq_ok.1 read) (Bool.eq_false_iff.2 set)
  | cons segment rest ih =>
    have none {ids : List Value} (collected : missing policy full segment = .ok ids) : ids = [] := by
      obtain ⟨segments, -, eq⟩ := bind_eq_ok.1 collected
      cases policy <;> cases eq
      rfl
    rw [leavesFrom] at collected
    obtain ⟨v, read, collected⟩ := bind_eq_ok.1 collected
    have read := liftFault_eq_ok.1 read
    split at collected
    · rw [none collected]
      simp
    · rename_i vs
      obtain ⟨found, each, eq⟩ := bind_eq_ok.1 collected
      cases eq
      intro id mem
      obtain ⟨part, mem, inside⟩ := List.mem_flatten.1 mem
      obtain ⟨item, held, eq⟩ := mapM_mem each part mem
      split at eq
      · rw [none eq] at inside
        cases inside
      · exact ih (items _ _ _ _ h read item held) eq id inside
    · rename_i set whole
      exact ih (single _ _ _ _ h read set whole) collected

/-- Under the first name there are nodes that lead on, one or a list of them, or null. -/
theorem Leads.field {column node v : Value} {name : String} {rest : List String} (h : Leads column (name :: rest) node)
    (read : node.field (.text name) = .ok v) :
    (∃ vs, v = .list vs ∧ ∀ child ∈ vs, Leads column rest child) ∨ Leads column rest v ∨ v = .null := by
  obtain ⟨mapping, related, below, shown⟩ := h
  rw [Value.field_text mapping] at read
  rw [Except.ok.inj read] at shown
  rcases shown with all | one | none
  · exact .inl ⟨related, all, below⟩
  · exact .inr (.inl (below _ one))
  · exact .inr (.inr none)

/-- The ids along a path are scalars for a node that leads there. -/
theorem leavesFrom_scalars {names : List String} {idField : String} {policy : MissingPolicy} {full : List Value}
    {node : Value} (h : Leads (.text idField) names node) {ids : List Value}
    (collected : leavesFrom policy full (.text idField) (names.map .text) node = .ok ids) :
    ∀ id ∈ ids, ∃ k, id = .scalar k := by
  refine leavesFrom_forall (Q := fun path node => ∃ names, path = names.map .text ∧ Leads (.text idField) names node)
    ?leaf ?items ?single ⟨names, rfl, h⟩ collected
  case leaf =>
    rintro node v ⟨names, eq, leads⟩ read -
    cases List.map_eq_nil_iff.1 eq.symm
    rw [Value.field_text leads.1, leads.2] at read
    cases read
    exact ⟨_, rfl⟩
  case items =>
    rintro segment rest node vs ⟨names, eq, leads⟩ read v mem
    obtain ⟨name, names, rfl, rfl, rfl⟩ := List.map_eq_cons_iff.1 eq.symm
    rcases leads.field read with ⟨_, list, below⟩ | leads | none
    · cases list
      exact ⟨names, rfl, below v mem⟩
    · cases leads.mapping
    · cases none
  case single =>
    rintro segment rest node v ⟨names, eq, leads⟩ read set whole
    obtain ⟨name, names, rfl, rfl, rfl⟩ := List.map_eq_cons_iff.1 eq.symm
    rcases leads.field read with ⟨vs, list, -⟩ | leads | none
    · exact absurd list (whole vs)
    · exact ⟨names, rfl, leads⟩
    · exact absurd none set

/-- No id collected is null. -/
theorem leavesFrom_not_null {policy : MissingPolicy} {full path : List Value} {idField node : Value} {ids : List Value}
    (collected : leavesFrom policy full idField path node = .ok ids) : ∀ id ∈ ids, id.isNull = false :=
  leavesFrom_forall (Q := fun _ _ => True) (fun _ _ _ _ set => set) (fun _ _ _ _ _ _ _ _ => trivial)
    (fun _ _ _ _ _ _ _ _ => trivial) trivial collected

end Path

variable [Attributes]

/-- What is true of all ids collected from each row found is true of all ids of a plan. -/
theorem Reversal.Plan.ids_forall {P : Value → Prop} {p : Reversal.Plan} {policy : MissingPolicy} {found : Value}
    (each : ∀ rows, found.iterate = .ok rows → ∀ row ∈ rows, ∀ ids,
      Path.leaves policy (p.back.map .text) p.idField row = .ok ids → ∀ id ∈ ids, P id) {ids : List Value}
    (collected : p.ids policy found = .ok ids) : ∀ id ∈ ids, P id := by
  obtain ⟨rows, iterated, collected⟩ := bind_eq_ok.1 collected
  obtain ⟨parts, mapped, eq⟩ := bind_eq_ok.1 collected
  cases eq
  intro id mem
  obtain ⟨part, mem, inside⟩ := List.mem_flatten.1 mem
  obtain ⟨row, held, eq⟩ := mapM_mem mapped part mem
  exact each rows (liftFault_eq_ok.1 iterated) row held part eq id inside

/-- **Tables with scalars under the names of keys collect scalars**, whatever is reversed over them. -/
theorem Tables.collectsScalars {schema : Schema} {tables : Tables} (texts : schema.TextKeys)
    (scalars : ∀ name, ∀ row ∈ tables.rows name, row.isMap = true ∧ ∀ k ∈ schema.keyNames, row.HoldsScalar k)
    (options : Reversal.Options) (root : String) : (tables.access schema).CollectsScalars schema options root := by
  intro path p condition s found s' ids planned fetched collected
  obtain ⟨name, text⟩ := texts _ (Reversal.plan_keys planned).2
  have stored : ∀ entity, ∀ row ∈ tables.rows entity, Path.Leads p.idField [] row := fun entity row mem =>
    ⟨(scalars entity row mem).1, (scalars entity row mem).2 _ (Reversal.plan_keys planned).2⟩
  have gives := tables.selector_gives stored
  obtain ⟨e, _, declared, find⟩ := Action.step_bind_eq_ok (Action.step_adapt_eq_ok fetched)
  obtain ⟨rows, _, selected, find⟩ := Action.step_bind_eq_ok find
  obtain ⟨attached, _, attachment, find⟩ := Action.step_bind_eq_ok find
  cases find
  rw [Reversal.Plan.include_, IncludeTree.ofValue_includeScope] at attachment
  have declared := Schema.find?_name (Schema.find?_of_entity_text (Action.step_ofExcept_eq_ok declared).1)
  have leads := attach_leads gives declared (gives _ _ _ _ _ selected) attachment
  refine Reversal.Plan.ids_forall (fun _ eq row held ids leaves => ?_) collected
  cases eq
  rw [text] at leads leaves
  exact Path.leavesFrom_scalars (leads row held) leaves

end Semijoin
