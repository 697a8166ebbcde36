import Semijoin.Proofs.Reversal.Collect
import Semijoin.Proofs.Reversal.Plan

/-!
# One select a level

Every relation of an include tree is a level of a find: rows at hand, and the hop along which they get what is related
to them. A level makes one select for all keys of its rows together, and none if all of them are null. So the selects
of a find are counted on the include alone, however many rows there are; the include of a reversal is a chain, and its
selects are at most the steps of the path.
-/

namespace Semijoin
set_option autoImplicit false

namespace IncludeTree

mutual

/-- The number of relations that an include tree names, at all levels. -/
def size : IncludeTree → Nat
  | .node branches _ => sizeAll branches

def sizeAll : List (Value × IncludeTree) → Nat
  | [] => 0
  | (_, nested) :: rest => 1 + nested.size + sizeAll rest

end

theorem size_eq (tree : IncludeTree) : tree.size = sizeAll tree.branches := by
  cases tree
  rw [size, branches]

theorem size_chain (names : List String) : (chain names).size = names.length := by
  induction names with
  | nil => simp [chain, empty, size, sizeAll]
  | cons name rest ih =>
    simp only [chain, size, sizeAll, ih, List.length_cons]
    omega

end IncludeTree

/-- One level of a find: a hop, and the rows that get what is related to them along it. -/
structure Level where
  hop : Hop
  parents : List Value

namespace Level

variable (l : Level)

/-- The keys of the parents, nulls left out, the first of equal ones, in the order of the parents. -/
def keys : List Scalar := Scalar.firsts (heldKeys l.hop.ownerColumn l.parents)

/-- The condition that a row of the target has one of the keys. -/
def condition : Value := membership (l.hop.targetColumn.asKey?.getD .null) (l.keys.map .scalar)

/-- The select that a level makes, unless there is no key. -/
def selects : List SelectCall := if l.keys.isEmpty then [] else [⟨l.hop.target.name, l.condition⟩]

/-- The stored rows that the select of a level gives. -/
def related [Attributes] (tables : Tables) : List Value :=
  if l.keys.isEmpty then [] else (tables.rows l.hop.target.name).filter (Where.accepts l.condition)

/-- A level asks for the keys of its parents at once: for each once, for no null, and not at all if there is none. -/
structure Batched : Prop where
  keyed : KeyedBy l.hop.ownerColumn l.parents
  set : .null ∉ l.keys
  once : l.keys.Pairwise fun a b => a.same b = false
  asks : ∀ call ∈ l.selects, ∃ key, l.hop.targetColumn = .scalar key ∧ l.keys ≠ [] ∧
    call = ⟨l.hop.target.name, membership key (l.keys.map .scalar)⟩
  silent : l.selects = [] ↔ ∀ row ∈ l.parents, row.column l.hop.ownerColumn = .null

variable {l}

theorem selects_of_no_key (none : l.keys = []) : l.selects = [] := by simp [selects, none]

theorem selects_of_key (some_ : l.keys ≠ []) : l.selects = [⟨l.hop.target.name, l.condition⟩] := by
  rw [selects, if_neg (by simpa using some_)]

theorem selects_length_le (l : Level) : l.selects.length ≤ 1 := by
  unfold selects
  split <;> simp

/-- There is no key exactly if all parents hold null. -/
theorem keys_eq_nil_iff (keyed : KeyedBy l.hop.ownerColumn l.parents) :
    l.keys = [] ↔ ∀ row ∈ l.parents, row.column l.hop.ownerColumn = .null := by
  have null {row : Value} (mem : row ∈ l.parents) :
      row.columnKey l.hop.ownerColumn = .null ↔ row.column l.hop.ownerColumn = .null := by
    rw [(keyed row mem).2.column_eq, Value.scalar.injEq]
  constructor
  · intro none row mem
    by_contra set
    have held : row.columnKey l.hop.ownerColumn ∈ heldKeys l.hop.ownerColumn l.parents :=
      mem_heldKeys.2 ⟨fun eq => set ((null mem).1 eq), row, mem, rfl⟩
    obtain ⟨m, kept, -⟩ := Scalar.mem_distinct held
    rw [Scalar.distinct_eq_firsts, ← keys, none] at kept
    cases kept
  · intro all
    have none : heldKeys l.hop.ownerColumn l.parents = [] := List.eq_nil_iff_forall_not_mem.2 fun k mem => by
      obtain ⟨set, row, held, rfl⟩ := mem_heldKeys.1 mem
      exact set ((null held).2 (all row held))
    rw [keys, none]
    rfl

/-- A level whose parents hold scalars, and whose target's column is a key if there is a key, is batched. -/
theorem batched (keyed : KeyedBy l.hop.ownerColumn l.parents)
    (column : l.keys ≠ [] → ∃ key, l.hop.targetColumn = .scalar key) : l.Batched where
  keyed := keyed
  set := fun mem => (mem_heldKeys.1 ((Scalar.firsts_sublist _).subset mem)).1 rfl
  once := Scalar.firsts_pairwise _
  asks := fun call mem => by
    have some_ : l.keys ≠ [] := fun none => by simp [selects_of_no_key none] at mem
    obtain ⟨key, eq⟩ := column some_
    rw [selects_of_key some_, List.mem_singleton] at mem
    exact ⟨key, eq, some_, by rw [mem, condition, eq]; rfl⟩
  silent := by
    rw [← keys_eq_nil_iff keyed]
    refine ⟨fun none => ?_, selects_of_no_key⟩
    by_contra some_
    simp [selects_of_key some_] at none

end Level

/-- Along branches of an include tree, the levels that rows go through, each before those that it nests, and the rows
that come of it. -/
inductive Attaches [Attributes] (schema : Schema) (tables : Tables) :
    Entity → List Value → List (Value × IncludeTree) → List Level → List Value → Prop
  | done (owner : Entity) (rows : List Value) : Attaches schema tables owner rows [] [] rows
  | level {owner : Entity} {rows children handed results : List Value} {name : Value} {nested : IncludeTree}
      {rest : List (Value × IncludeTree)} {hop : Hop} {lower later : List Level}
      (found : schema.hop? owner name = some hop) (kind : hop.relation.kind ≠ .hasAndBelongsToMany)
      (below : Attaches schema tables hop.target (Level.related ⟨hop, rows⟩ tables) nested.branches lower children)
      (hands : handOutAll hop.relation hop.ownerColumn hop.targetColumn rows children = .ok handed)
      (more : Attaches schema tables owner handed rest later results) :
      Attaches schema tables owner rows ((name, nested) :: rest) (⟨hop, rows⟩ :: (lower ++ later)) results

section Levels

variable [Attributes] {schema : Schema} {tables : Tables}

/-- There is a level for each relation that the branches name. -/
theorem Attaches.length_eq {owner : Entity} {rows results : List Value} {branches : List (Value × IncludeTree)}
    {levels : List Level} (h : Attaches schema tables owner rows branches levels results) :
    levels.length = IncludeTree.sizeAll branches := by
  induction h with
  | done => simp [IncludeTree.sizeAll]
  | level _ _ _ _ _ nestedLength restLength =>
    rw [IncludeTree.sizeAll, IncludeTree.size_eq, List.length_cons, List.length_append, nestedLength, restLength]
    omega

theorem Tables.select_step {e : Entity} {condition : Value} {rows : List Value} {log log' : List SelectCall}
    (h : (tables.selector.select e condition).step log = (.ok rows, log')) :
    rows = (tables.rows e.name).filter (Where.accepts condition) ∧ log' = log ++ [⟨e.name, condition⟩] := by
  obtain ⟨_, _, noted, found⟩ := Action.step_bind_eq_ok h
  cases noted
  obtain ⟨selected, eq⟩ := Action.step_ofValues_eq_ok found
  rw [Where.select_eq (Where.decides_of_select selected)] at selected
  exact ⟨(Except.ok.inj selected).symm, eq⟩

/-- The select of a level is made for its keys. -/
theorem selectAmong_step {l : Level} {rows : List Value} {log log' : List SelectCall}
    (h : (selectAmong tables.selector l.hop.target l.hop.targetColumn l.keys).step log = (.ok rows, log')) :
    rows = l.related tables ∧ log' = log ++ l.selects ∧ (l.keys ≠ [] → ∃ key, l.hop.targetColumn = .scalar key) := by
  unfold selectAmong at h
  by_cases none : l.keys.isEmpty = true
  · rw [if_pos none] at h
    cases h
    rw [List.isEmpty_iff] at none
    exact ⟨by simp [Level.related, none], by simp [Level.selects_of_no_key none], fun some_ => absurd none some_⟩
  · rw [if_neg none] at h
    obtain ⟨key, column, selected⟩ := Action.step_ofValues_bind_eq_ok h
    have isKey := Value.asKey_eq_ok.1 column
    have condition : membership key (l.keys.map .scalar) = l.condition := by
      rw [Level.condition, isKey]
      rfl
    rw [condition] at selected
    obtain ⟨rfl, rfl⟩ := Tables.select_step selected
    exact ⟨by rw [Level.related, if_neg none], by rw [Level.selects, if_neg none], fun _ => ⟨key, isKey⟩⟩

omit [Attributes] in
/-- A branch that is attached is along a hop whose relation is kept in keys. -/
theorem exists_hop_of_attachAll {σ : Type} {selector : Selector σ} {owner : Entity}
    (declared : schema.find? owner.name = some owner) {rows results : List Value} {name : Value} {nested : IncludeTree}
    {rest : List (Value × IncludeTree)} {s s' : σ}
    (h : (attachAll schema selector owner rows ((name, nested) :: rest)).step s = (.ok results, s')) :
    ∃ hop, schema.hop? owner name = some hop ∧ hop.relation.kind ≠ .hasAndBelongsToMany := by
  rw [attachAll] at h
  obtain ⟨relation, named, h⟩ := Action.step_ofExcept_bind_eq_ok h
  obtain ⟨target, found, h⟩ := Action.step_ofExcept_bind_eq_ok h
  refine ⟨_, Schema.hop?_of_relation declared named found, fun many => ?_⟩
  have columns : keyFields owner target relation = none := by simp [keyFields, show relation.kind = _ from many]
  rw [columns] at h
  cases h

mutual

/-- **Attaching goes level by level**: what is selected for an include tree are the selects of its levels. -/
theorem attach_levels {owner : Entity} (declared : schema.find? owner.name = some owner) {rows results : List Value}
    {log log' : List SelectCall} (tree : IncludeTree)
    (h : (attach schema tables.selector owner rows tree).step log = (.ok results, log')) :
    ∃ levels, Attaches schema tables owner rows tree.branches levels results ∧
      log' = log ++ levels.flatMap Level.selects ∧ ∀ l ∈ levels, l.Batched := by
  match tree with
  | .node branches fault =>
    rw [attach] at h
    obtain ⟨attached, _, all, ends⟩ := Action.step_bind_eq_ok h
    cases fault with
    | none =>
      cases ends
      exact attachAll_levels declared branches all
    | some f => cases ends

theorem attachAll_levels {owner : Entity} (declared : schema.find? owner.name = some owner) {rows results : List Value}
    {log log' : List SelectCall} (branches : List (Value × IncludeTree))
    (h : (attachAll schema tables.selector owner rows branches).step log = (.ok results, log')) :
    ∃ levels, Attaches schema tables owner rows branches levels results ∧
      log' = log ++ levels.flatMap Level.selects ∧ ∀ l ∈ levels, l.Batched := by
  match branches with
  | [] =>
    rw [attachAll] at h
    cases h
    exact ⟨[], .done owner rows, by simp, by simp⟩
  | (name, nested) :: rest =>
    obtain ⟨hop, found, kind⟩ := exists_hop_of_attachAll declared h
    have from' := Schema.hop?_eq_some found
    rw [attachAll_hop declared from' kind] at h
    obtain ⟨keys, distinct, selects⟩ := Action.step_ofValues_bind_eq_ok h
    obtain ⟨keyed, held⟩ := distinctKeysFrom_eq_ok distinct
    have same : keys = Level.keys ⟨hop, rows⟩ := by
      rw [Level.keys, ← Scalar.distinct_eq_firsts]
      exact held
    rw [same] at selects
    obtain ⟨selected, _, asked, nests⟩ := Action.step_bind_eq_ok selects
    obtain ⟨rfl, rfl, column⟩ := selectAmong_step asked
    obtain ⟨children, _, attached, hands⟩ := Action.step_bind_eq_ok nests
    obtain ⟨lower, below, rfl, lowerBatched⟩ := attach_levels from'.target_found nested attached
    obtain ⟨handed, out, more⟩ := Action.step_ofValues_bind_eq_ok hands
    obtain ⟨later, rests, rfl, laterBatched⟩ := attachAll_levels declared rest more
    refine ⟨_, .level found kind below out rests, by simp [List.append_assoc], ?_⟩
    refine List.forall_mem_cons.2 ⟨Level.batched keyed column, fun l mem => ?_⟩
    exact (List.mem_append.1 mem).elim (lowerBatched l) (laterBatched l)

end

omit [Attributes] in
/-- The selects of levels are at most as many as the levels. -/
theorem selects_length_le (levels : List Level) : (levels.flatMap Level.selects).length ≤ levels.length := by
  induction levels with
  | nil => simp
  | cons l rest ih =>
    have one := l.selects_length_le
    rw [List.flatMap_cons, List.length_append, List.length_cons]
    omega

/-- A find over tables selects the rows themselves, and then level by level what is attached to them. -/
theorem find_levels {entity : String} {condition include_ found : Value} {log log' : List SelectCall}
    (h : ((tables.access schema).find entity condition include_).step log = (.ok found, log')) :
    ∃ e levels results, schema.find? entity = some e ∧ found = .list results ∧
      Attaches schema tables e ((tables.rows entity).filter (Where.accepts condition))
        (IncludeTree.ofValue include_).branches levels results ∧
      log' = log ++ ⟨entity, condition⟩ :: levels.flatMap Level.selects ∧ ∀ l ∈ levels, l.Batched := by
  obtain ⟨e, named, select⟩ := Action.step_ofExcept_bind_eq_ok h
  have declared := Schema.find?_of_entity_text named
  obtain rfl := Schema.name_of_entity named
  obtain ⟨rows, _, selected, attachment⟩ := Action.step_bind_eq_ok select
  obtain ⟨rfl, rfl⟩ := Tables.select_step selected
  obtain ⟨results, _, attached, ends⟩ := Action.step_bind_eq_ok attachment
  cases ends
  obtain ⟨levels, attaches, rfl, batched⟩ := attach_levels declared _ attached
  exact ⟨e, levels, results, declared, rfl, attaches, by simp, batched⟩

end Levels

/-- **The selects of a find are counted on its include.** A find over tables makes one select for its where, and then
at most one for each relation of the include tree, at all levels, whatever rows there are. Each is for the keys of the
rows that it serves, none of them null and no two of them equal, in the order of these rows, and there is none where
all keys are null. So a reversal over tables, whose include is a chain, makes at least one select and at most as many as
its path has steps. -/
theorem selects_of_include [Attributes] (schema : Schema) (tables : Tables) :
    (∀ entity condition include_ log found log',
      ((tables.access schema).find entity condition include_).step log = (.ok found, log') →
        ∃ e levels results, schema.find? entity = some e ∧ found = .list results ∧
          Attaches schema tables e ((tables.rows entity).filter (Where.accepts condition))
            (IncludeTree.ofValue include_).branches levels results ∧
          log' = log ++ ⟨entity, condition⟩ :: levels.flatMap Level.selects ∧
          levels.length = (IncludeTree.ofValue include_).size ∧
          (levels.flatMap Level.selects).length ≤ (IncludeTree.ofValue include_).size ∧ ∀ l ∈ levels, l.Batched) ∧
    ∀ options root path condition p log found log', Reversal.plan schema options.maxDepth root path condition = .ok p →
      (p.fetch (tables.access schema) condition).step log = (.ok found, log') →
        ∃ calls, (Reversal.run (tables.access schema) schema options root path condition).step log =
            (p.condition options found, log ++ calls) ∧ 1 ≤ calls.length ∧ calls.length ≤ path.length := by
  constructor
  · intro entity condition include_ log found log' h
    obtain ⟨e, levels, results, declared, rows, attaches, calls, batched⟩ := find_levels h
    have length : levels.length = (IncludeTree.ofValue include_).size := by
      rw [attaches.length_eq, IncludeTree.size_eq]
    exact ⟨e, levels, results, declared, rows, attaches, calls, length, length ▸ selects_length_le levels, batched⟩
  · intro options root path condition p log found log' planned h
    obtain ⟨e, levels, results, -, -, attaches, rfl, -⟩ := find_levels (Action.step_adapt_eq_ok h)
    have length : levels.length + 1 = path.length := by
      rw [attaches.length_eq, ← IncludeTree.size_eq, Reversal.Plan.include_, IncludeTree.ofValue_includeScope,
        IncludeTree.size_chain, Reversal.plan_length planned]
    have run : (Reversal.run (tables.access schema) schema options root path condition).step log =
        (p.condition options found, log ++ ⟨p.furthest, Reversal.fetched condition⟩ :: levels.flatMap Level.selects) := by
      rw [Reversal.run, planned, Action.step_bind_ok (Action.step_ofExcept _ _), Reversal.Plan.run, Action.step_bind_ok h,
        Action.step_ofExcept]
    refine ⟨_, run, by simp, ?_⟩
    have at_most := selects_length_le levels
    rw [List.length_cons]
    omega

namespace Orders

/-- What a person bought, with its sellers, and what a person sold, with its buyers. -/
def trades : Value := .ofFields [("bought", .text "seller"), ("sold", .text "buyer")]

/-- Ann sold nothing, so no buyers are asked for. -/
def tradesOfAnn : List SelectCall := [
  ⟨"Person", .ofFields [("id", .text "ann")]⟩,
  ⟨"Order", membership (.text "buyer_id") [.text "ann"]⟩,
  ⟨"Person", membership (.text "id") [.text "bob"]⟩,
  ⟨"Order", membership (.text "seller_id") [.text "ann"]⟩]

end Orders

/-- Of four levels one has no parents and is silent; a reversal over two steps makes two selects. -/
theorem selects_of_include_ann :
    (∃ levels : List Level, levels.length = 4 ∧ levels.flatMap Level.selects = Orders.tradesOfAnn.tail ∧
      ∀ l ∈ levels, l.Batched) ∧
    ∃ calls, (Reversal.run (Orders.tables.access Orders.schema) Orders.schema {} "Person" [.text "sold", .text "seller"]
      (.map [])).step [] = (.ok (membership (.text "id") [.text "ann"]), calls) ∧ calls.length ≤ 2 := by
  have bounded := selects_of_include Orders.schema Orders.tables
  obtain ⟨e, levels, results, -, -, -, calls, length, -, batched⟩ :=
    bounded.1 "Person" (.ofFields [("id", .text "ann")]) Orders.trades [] _ Orders.tradesOfAnn rfl
  have size : (IncludeTree.ofValue Orders.trades).size = 4 := rfl
  refine ⟨⟨levels, length.trans size, (List.cons.inj calls).2.symm, batched⟩, ?_⟩
  obtain ⟨asked, run, -, steps⟩ := bounded.2 {} "Person" [.text "sold", .text "seller"] (.map []) _ [] _ _ rfl rfl
  exact ⟨asked, run, steps⟩

end Semijoin
