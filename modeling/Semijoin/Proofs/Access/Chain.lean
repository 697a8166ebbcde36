import Semijoin.Proofs.Access.Levels
import Semijoin.Proofs.Access.Refusal
import Semijoin.Proofs.Path.Naming

/-!
# Includes along a walk

An include that is built of relation names is read back name by name, each nested under the one before. For the names
found between entities, a find goes through these entities in order and asks for their rows, as long as there are keys
to ask for. The only thing that can be wrong with such an include is a relation that is not kept in keys; apart from
that a find fails only where rows can not be read.
-/

namespace Semijoin
set_option autoImplicit false

/-! ## Reading what was built -/

/-- An include names one relation and nests an include, which names the next, up to one that names none. -/
inductive Include.Unfolds : Value → List Value → Prop
  | done {include_ : Value} (none : pairs include_ = ⟨[], none⟩) : Unfolds include_ []
  | step {include_ name nested : Value} {names : List Value} (one : pairs include_ = ⟨[(name, nested)], none⟩)
      (more : Unfolds nested names) : Unfolds include_ (name :: names)

theorem Path.pairs_includeScope (names : List Value) : Include.pairs (includeScope names) =
    match names with
    | [] => ⟨[], none⟩
    | name :: rest => ⟨[(name, includeScope rest)], none⟩ := by
  match names with
  | [] => rfl
  | [_] => rfl
  | _ :: _ :: _ => rfl

theorem Path.unfolds_includeScope {names read : List Value} :
    Include.Unfolds (includeScope names) read ↔ read = names := by
  constructor
  · intro h
    induction names generalizing read with
    | nil =>
      cases h with
      | done => rfl
      | step one => cases (pairs_includeScope []).symm.trans one
    | cons name rest ih =>
      cases h with
      | done none => cases (pairs_includeScope (name :: rest)).symm.trans none
      | step one more =>
        cases (pairs_includeScope (name :: rest)).symm.trans one
        rw [ih more]
  · rintro rfl
    induction read with
    | nil => exact .done (pairs_includeScope [])
    | cons name rest ih => exact .step (pairs_includeScope (name :: rest)) ih

/-! ## What can be wrong with the include -/

/-- The failure of a hop over a relation that is not kept in keys. -/
def Hop.refusal (hop : Hop) : Failure :=
  .unsupportedKind hop.owner.name hop.relation.name (.text hop.relation.kind.name)

/-- The failure of the first of some hops that goes over a relation that is not kept in keys. -/
def Hop.firstRefusal? (hops : List Hop) : Option Failure :=
  (hops.find? (·.relation.kind == .hasAndBelongsToMany)).map Hop.refusal

theorem Hop.firstRefusal?_cons_of_kept {hop : Hop} (kind : hop.relation.kind ≠ .hasAndBelongsToMany) (hops : List Hop) :
    Hop.firstRefusal? (hop :: hops) = Hop.firstRefusal? hops := by
  rw [Hop.firstRefusal?, List.find?_cons_of_neg (by simpa using kind), Hop.firstRefusal?]

theorem Hop.firstRefusal?_cons_of_many {hop : Hop} (kind : hop.relation.kind = .hasAndBelongsToMany) (hops : List Hop) :
    Hop.firstRefusal? (hop :: hops) = some hop.refusal := by
  rw [Hop.firstRefusal?, List.find?_cons_of_pos (by simpa using kind), Option.map_some]

/-- Nothing, or a failure. -/
def passesUnless : Option Failure → Except Failure Unit
  | none => .ok ()
  | some f => .error f

section Chain

variable {schema : Schema} {tables : Tables}

/-- Along a walk nothing is wrong with an include but the kind of a relation. -/
theorem check_chain {owner last : Entity} {names : List String} {hops : List Hop}
    (walk : schema.Walks owner names hops last) (declared : schema.find? owner.name = some owner) :
    (IncludeTree.chain names).check schema owner = passesUnless (Hop.firstRefusal? hops) := by
  induction walk with
  | done e => rfl
  | step here _ ih =>
    have from' := Schema.hop?_eq_some here
    rw [IncludeTree.chain, IncludeTree.check, IncludeTree.checkAll, IncludeTree.checkAll,
      IncludeTree.checkBranch_hop declared here]
    split
    · rename_i kind
      rw [Hop.firstRefusal?_cons_of_many kind, Hop.refusal, from'.owner_eq]
      rfl
    · rename_i kind
      rw [Hop.firstRefusal?_cons_of_kept kind, ih from'.target_found]
      cases Hop.firstRefusal? _ <;> rfl

/-! ## What can be wrong with the rows -/

/-- A row of a table, which may have got what is related to it. -/
def Tables.Shows (tables : Tables) (e : Entity) (row : Value) : Prop :=
  ∃ stored ∈ tables.rows e.name, row = stored ∨ ∃ name x, row = stored.setField name x

variable [Attributes]

/-- Why the rows that a hop relates can not be read: a row has no key, or the keys can not be asked for. -/
inductive Tables.Unreadable (tables : Tables) (hop : Hop) : Fault → Prop
  | owner {row : Value} {g : Fault} (stored : row ∈ tables.rows hop.owner.name)
      (unread : rowKey hop.ownerColumn row = .error g) : Unreadable tables hop g
  | target {row : Value} {g : Fault} (shown : tables.Shows hop.target row)
      (unread : rowKey hop.targetColumn row = .error g) : Unreadable tables hop g
  | column {g : Fault} (composite : hop.targetColumn.asKey = .error g) : Unreadable tables hop g
  | select {key : Scalar} {keys : List Value} {g : Fault}
      (undecided : Where.select (membership key keys) (tables.rows hop.target.name) = .error g) : Unreadable tables hop g

/-- A select is made before any row is looked at. -/
theorem Tables.select_cases {e : Entity} {condition : Value} {log log' : List SelectCall}
    {r : Except Failure (List Value)} (h : (tables.selector.select e condition).step log = (r, log')) :
    r = liftFault (Where.select condition (tables.rows e.name)) ∧ log' = log ++ [⟨e.name, condition⟩] :=
  ⟨(congrArg Prod.fst h).symm, (congrArg Prod.snd h).symm⟩

/-- Without a key there is nothing to select, and none is made in a column that is no key; else it is made, and then
rows are read. -/
theorem selectAmong_cases {target : Entity} {field : Value} {keys : List Scalar} {log log' : List SelectCall}
    {r : Except Failure (List Value)} (h : (selectAmong tables.selector target field keys).step log = (r, log')) :
    (keys = [] ∧ r = .ok [] ∧ log' = log) ∨ (∃ g, field.asKey = .error g ∧ r = .error (.ofFault g) ∧ log' = log) ∨
      keys ≠ [] ∧ ∃ key, log' = log ++ [⟨target.name, membership key (keys.map .scalar)⟩] ∧
        r = liftFault (Where.select (membership key (keys.map .scalar)) (tables.rows target.name)) := by
  unfold selectAmong at h
  split at h
  · next none =>
    cases h
    exact .inl ⟨List.isEmpty_iff.1 none, rfl, rfl⟩
  · next some_ =>
    rcases Action.step_bind_cases h with ⟨_, stops, rfl⟩ | ⟨key, _, isKey, selects⟩
    · obtain ⟨g, composite, rfl, rfl⟩ := Action.step_ofValues_eq_error stops
      exact .inr (.inl ⟨g, composite, rfl, rfl⟩)
    · obtain ⟨-, rfl⟩ := Action.step_ofValues_eq_ok isKey
      obtain ⟨eq, calls⟩ := Tables.select_cases selects
      exact .inr (.inr ⟨fun none => some_ (List.isEmpty_iff.2 none), key, calls, eq⟩)

/-! ## Going along the walk -/

section Along

variable {owner : Entity} {name : String} {hop : Hop}

omit [Attributes] in
/-- Attaching along a walk whose first hop is over keys. -/
theorem attach_hop (declared : schema.find? owner.name = some owner) (here : schema.hop? owner (.text name) = some hop)
    (kind : hop.relation.kind ≠ .hasAndBelongsToMany) {σ : Type} (selector : Selector σ) (rows : List Value)
    (names : List String) : attach schema selector owner rows (IncludeTree.chain (name :: names)) = (do
      let keys ← Action.ofValues (distinctKeys hop.ownerColumn rows)
      let selected ← selectAmong selector hop.target hop.targetColumn keys
      let children ← attach schema selector hop.target selected (IncludeTree.chain names)
      Action.ofValues (handOutAll hop.relation hop.ownerColumn hop.targetColumn rows children)) := by
  rw [IncludeTree.chain, attach, attachAll_hop declared (Schema.hop?_eq_some here) kind]
  simp only [attachAll, bind_pure]

omit [Attributes] in
/-- Attaching along a walk whose first hop is not over keys. -/
theorem attach_refused (declared : schema.find? owner.name = some owner)
    (here : schema.hop? owner (.text name) = some hop) (kind : hop.relation.kind = .hasAndBelongsToMany) {σ : Type}
    (selector : Selector σ) (rows : List Value) (names : List String) (s : σ) :
    (attach schema selector owner rows (IncludeTree.chain (name :: names))).step s = (.error hop.refusal, s) := by
  have from' := Schema.hop?_eq_some here
  have columns : keyFields owner hop.target hop.relation = none := by simp [keyFields, kind]
  rw [IncludeTree.chain, attach, attachAll, from'.relation_eq declared, Action.ofExcept_ok_bind, from'.entity_eq,
    Action.ofExcept_ok_bind, columns, Hop.refusal, from'.owner_eq]
  rfl

end Along

/-- The rows that are attached to are those of the walk's start, and show at most one relation more. -/
theorem attach_shows {owner last : Entity} {names : List String} {hops : List Hop}
    (walk : schema.Walks owner names hops last) (declared : schema.find? owner.name = some owner)
    {rows results : List Value} (stored : ∀ row ∈ rows, row ∈ tables.rows owner.name) {log log' : List SelectCall}
    (h : (attach schema tables.selector owner rows (IncludeTree.chain names)).step log = (.ok results, log')) :
    ∀ row ∈ results, tables.Shows owner row := by
  cases walk with
  | done =>
    cases h
    exact fun row mem => ⟨row, stored row mem, .inl rfl⟩
  | @step _ _ _ _ hop _ here more =>
    have kind : hop.relation.kind ≠ .hasAndBelongsToMany := fun many => by
      cases (attach_refused declared here many _ _ _ _).symm.trans h
    rw [attach_hop declared here kind] at h
    obtain ⟨keys, _, -, h⟩ := Action.step_bind_eq_ok h
    obtain ⟨selected, _, -, h⟩ := Action.step_bind_eq_ok h
    obtain ⟨children, _, -, h⟩ := Action.step_bind_eq_ok h
    obtain ⟨index, -, h⟩ := bind_eq_ok.1 (Action.step_ofValues_eq_ok h).1
    intro result mem
    obtain ⟨row, held, eq⟩ := mapM_mem h result mem
    obtain ⟨key, -, eq⟩ := bind_eq_ok.1 eq
    cases eq
    exact ⟨row, stored row held, .inr ⟨_, _, rfl⟩⟩

/-- Selects are made for the entities of a walk in order, and none if there is no row at its start. -/
theorem attach_asks {owner last : Entity} {names : List String} {hops : List Hop}
    (walk : schema.Walks owner names hops last) (declared : schema.find? owner.name = some owner) {rows : List Value}
    {log log' : List SelectCall} {r : Except Failure (List Value)}
    (h : (attach schema tables.selector owner rows (IncludeTree.chain names)).step log = (r, log')) :
    ∃ calls, log' = log ++ calls ∧ calls.map (·.entity) <+: hops.map (·.target.name) ∧ (rows = [] → calls = []) := by
  induction walk generalizing rows log log' r with
  | done =>
    cases h
    exact ⟨[], by simp, List.prefix_rfl, fun _ => rfl⟩
  | @step _ _ _ rest hop hops here more ih =>
    have silent {log : List SelectCall} : ∃ calls, log = log ++ calls ∧
        calls.map (·.entity) <+: (hop :: hops).map (·.target.name) ∧ (rows = [] → calls = []) :=
      ⟨[], by simp, List.nil_prefix, fun _ => rfl⟩
    by_cases kind : hop.relation.kind = .hasAndBelongsToMany
    · cases (attach_refused declared here kind _ _ _ _).symm.trans h
      exact silent
    rw [attach_hop declared here kind] at h
    rcases Action.step_bind_cases h with ⟨_, stops, -⟩ | ⟨keys, begun, read, selects⟩
    · obtain ⟨_, -, -, rfl⟩ := Action.step_ofValues_eq_error stops
      exact silent
    obtain ⟨distinct, rfl⟩ := Action.step_ofValues_eq_ok read
    have noKeys : rows = [] → keys = [] := by
      rintro rfl
      cases distinct
      rfl
    -- the select along the hop, and what is asked for below: nothing, if it gives no row
    have parts : ∃ asked middle calls,
        (selectAmong tables.selector hop.target hop.targetColumn keys).step begun = (asked, middle) ∧
        log' = middle ++ calls ∧ calls.map (·.entity) <+: hops.map (·.target.name) ∧
        ((∀ selected, asked = .ok selected → selected = []) → calls = []) := by
      rcases Action.step_bind_cases selects with ⟨_, stops, -⟩ | ⟨selected, middle, asked, nests⟩
      · exact ⟨_, _, [], stops, by simp, List.nil_prefix, fun _ => rfl⟩
      · have nested : ∃ r, (attach schema tables.selector hop.target selected (IncludeTree.chain rest)).step middle =
            (r, log') := by
          rcases Action.step_bind_cases nests with ⟨_, stops, -⟩ | ⟨_, _, attached, hands⟩
          · exact ⟨_, stops⟩
          · cases hands
            exact ⟨_, attached⟩
        obtain ⟨_, nested⟩ := nested
        obtain ⟨calls, eq, order, none⟩ := ih (Schema.hop?_eq_some here).target_found nested
        exact ⟨_, _, calls, asked, eq, order, fun empty => none (empty selected rfl)⟩
    obtain ⟨asked, middle, calls, answers, rfl, order, none⟩ := parts
    rcases selectAmong_cases answers with ⟨-, rfl, rfl⟩ | ⟨_, -, rfl, rfl⟩ | ⟨some_, key, rfl, -⟩
    · have quiet : calls = [] := none fun _ eq => (Except.ok.inj eq).symm
      rw [quiet, List.append_nil]
      exact silent
    · have quiet : calls = [] := none fun _ eq => nomatch eq
      rw [quiet, List.append_nil]
      exact silent
    · refine ⟨_, List.append_assoc _ _ _, ?_, fun empty => absurd (noKeys empty) some_⟩
      rw [List.singleton_append, List.map_cons, List.map_cons, List.cons_prefix_cons]
      exact ⟨rfl, order⟩

/-- Attaching along a walk fails at the first relation that is not kept in keys, or where rows can not be read. -/
theorem attach_fails {owner last : Entity} {names : List String} {hops : List Hop}
    (walk : schema.Walks owner names hops last) (declared : schema.find? owner.name = some owner) {rows : List Value}
    (stored : ∀ row ∈ rows, row ∈ tables.rows owner.name) {log log' : List SelectCall} {f : Failure}
    (h : (attach schema tables.selector owner rows (IncludeTree.chain names)).step log = (.error f, log')) :
    Hop.firstRefusal? hops = some f ∨ ∃ g, f = .ofFault g ∧ ∃ hop ∈ hops, tables.Unreadable hop g := by
  induction walk generalizing rows log log' with
  | done => cases h
  | @step _ _ _ _ hop hops here more ih =>
    have from' := Schema.hop?_eq_some here
    by_cases kind : hop.relation.kind = .hasAndBelongsToMany
    · cases (attach_refused declared here kind _ _ _ _).symm.trans h
      exact .inl (Hop.firstRefusal?_cons_of_many kind _)
    · have unread {g : Fault} (unreadable : tables.Unreadable hop g) : Hop.firstRefusal? (hop :: hops) = some (.ofFault g) ∨
          ∃ g', Failure.ofFault g = .ofFault g' ∧ ∃ hop' ∈ hop :: hops, tables.Unreadable hop' g' :=
        .inr ⟨g, rfl, hop, List.mem_cons_self, unreadable⟩
      rw [attach_hop declared here kind] at h
      rcases Action.step_bind_cases h with ⟨_, stops, eq⟩ | ⟨keys, _, -, h⟩
      · cases eq
        obtain ⟨g, distinct, rfl, -⟩ := Action.step_ofValues_eq_error stops
        obtain ⟨row, mem, none⟩ := exists_of_distinctKeysFrom_error distinct
        exact unread (.owner (from'.owner_eq ▸ stored row mem) none)
      rcases Action.step_bind_cases h with ⟨_, stops, eq⟩ | ⟨selected, _, asked, h⟩
      · cases eq
        rcases selectAmong_cases stops with ⟨-, eq, -⟩ | ⟨g, composite, eq, -⟩ | ⟨-, _, -, eq⟩
        · cases eq
        · cases eq
          exact unread (.column composite)
        · obtain ⟨g, undecided, rfl⟩ := liftFault_eq_error.1 eq.symm
          exact unread (.select undecided)
      have held : ∀ row ∈ selected, row ∈ tables.rows hop.target.name := by
        rcases selectAmong_cases asked with ⟨-, eq, -⟩ | ⟨_, -, eq, -⟩ | ⟨-, _, -, eq⟩
        · cases eq
          exact List.forall_mem_nil _
        · cases eq
        · exact fun row mem => Where.mem_of_select (liftFault_eq_ok.1 eq.symm) mem
      rcases Action.step_bind_cases h with ⟨_, stops, eq⟩ | ⟨children, _, attached, hands⟩
      · cases eq
        rw [Hop.firstRefusal?_cons_of_kept kind]
        rcases ih from'.target_found held stops with refused | ⟨g, rfl, hop', mem, unreadable⟩
        · exact .inl refused
        · exact .inr ⟨g, rfl, hop', List.mem_cons_of_mem hop mem, unreadable⟩
      · obtain ⟨g, out, rfl, -⟩ := Action.step_ofValues_eq_error hands
        rcases exists_of_handOutAll_error out with ⟨row, mem, none⟩ | ⟨row, mem, none⟩
        · exact unread (.owner (from'.owner_eq ▸ stored row mem) none)
        · exact unread (.target (attach_shows more from'.target_found held attached row mem) none)

/-- The levels along a walk are its hops, and all of them are over relations that are kept in keys. -/
theorem hops_of_attaches {owner last : Entity} {names : List String} {hops : List Hop}
    (walk : schema.Walks owner names hops last) {rows results : List Value} {levels : List Level}
    (h : Attaches schema tables owner rows (IncludeTree.chain names).branches levels results) :
    levels.map (·.hop) = hops ∧ Hop.firstRefusal? hops = none := by
  induction walk generalizing rows levels results with
  | done =>
    cases h
    exact ⟨rfl, rfl⟩
  | step here _ ih =>
    cases h with
    | level found kind below _ more =>
      cases here.symm.trans found
      cases more
      obtain ⟨lower, none⟩ := ih below
      rw [List.append_nil, List.map_cons, lower, Hop.firstRefusal?_cons_of_kept kind]
      exact ⟨rfl, none⟩

/-- What a find from an entity along hops comes to, over tables whose log it continues. -/
structure Tables.FindsAlong (tables : Tables) (schema : Schema) (start : Entity) (hops : List Hop)
    (condition include_ : Value) (log : List SelectCall) (came : Except Failure Value × List SelectCall) : Prop where
  asks : ∃ calls, came.2 = log ++ calls ∧ calls.map (·.entity) <+: (start :: hops.map (·.target)).map (·.name)
  finds : ∀ found, came.1 = .ok found → Hop.firstRefusal? hops = none ∧ ∃ levels results, found = .list results ∧
    levels.map (·.hop) = hops ∧ came.2 = log ++ ⟨start.name, condition⟩ :: levels.flatMap Level.selects ∧
    Attaches schema tables start ((tables.rows start.name).filter (Where.accepts condition))
      (IncludeTree.ofValue include_).branches levels results
  fails : ∀ f, came.1 = .error f → Hop.firstRefusal? hops = some f ∨ ∃ g, f = .ofFault g ∧
    (Where.select condition (tables.rows start.name) = .error g ∨ ∃ hop ∈ hops, tables.Unreadable hop g)

theorem Tables.find_eq {e : Entity} (declared : schema.find? e.name = some e) (condition include_ : Value) :
    (tables.access schema).find e.name condition include_ = (do
      let rows ← tables.selector.select e condition
      return .list (← attach schema tables.selector e rows (IncludeTree.ofValue include_))) := by
  rw [Tables.access, Selector.access]
  dsimp only
  rw [Schema.entity_text declared]
  rfl

theorem find_along {start last : Entity} {names : List String} {hops : List Hop}
    (walk : schema.Walks start names hops last) (declared : schema.find? start.name = some start) (condition : Value)
    (log : List SelectCall) : tables.FindsAlong schema start hops condition (Path.includeScope (names.map .text)) log
      (((tables.access schema).find start.name condition (Path.includeScope (names.map .text))).step log) := by
  have tree := IncludeTree.ofValue_includeScope names
  cases came : ((tables.access schema).find start.name condition (Path.includeScope (names.map .text))).step log with
  | mk r log' =>
    have ran := came
    rw [Tables.find_eq declared, tree] at ran
    refine ⟨?_, ?_, ?_⟩
    · have asked {calls : List SelectCall} (order : calls.map (·.entity) <+: hops.map (·.target.name)) :
          ∃ more, log ++ [⟨start.name, condition⟩] ++ calls = log ++ more ∧
            more.map (·.entity) <+: (start :: hops.map (·.target)).map (·.name) := by
        refine ⟨⟨start.name, condition⟩ :: calls, by simp, ?_⟩
        rw [List.map_cons, List.map_cons, List.map_map, List.cons_prefix_cons]
        exact ⟨rfl, order⟩
      rcases Action.step_bind_cases ran with ⟨_, stops, -⟩ | ⟨rows, _, selects, attaching⟩
      · obtain ⟨-, rfl⟩ := Tables.select_cases stops
        simp
      · obtain ⟨-, rfl⟩ := Tables.select_cases selects
        rcases Action.step_bind_cases attaching with ⟨_, stops, -⟩ | ⟨_, _, attached, ends⟩
        · obtain ⟨calls, rfl, order, -⟩ := attach_asks walk declared stops
          exact asked order
        · cases ends
          obtain ⟨calls, rfl, order, -⟩ := attach_asks walk declared attached
          exact asked order
    · rintro found rfl
      obtain ⟨e, levels, results, declared', rfl, attaches, calls, -⟩ := find_levels came
      cases declared.symm.trans declared'
      have along := attaches
      rw [tree] at along
      obtain ⟨hops, none⟩ := hops_of_attaches walk along
      exact ⟨none, levels, results, rfl, hops, calls, attaches⟩
    · rintro f rfl
      rcases Action.step_bind_cases ran with ⟨_, stops, eq⟩ | ⟨rows, _, selects, attaching⟩
      · cases eq
        obtain ⟨g, undecided, rfl⟩ := liftFault_eq_error.1 (Tables.select_cases stops).1.symm
        exact .inr ⟨g, rfl, .inl undecided⟩
      · have selected := liftFault_eq_ok.1 (Tables.select_cases selects).1.symm
        rcases Action.step_bind_cases attaching with ⟨_, stops, eq⟩ | ⟨_, _, _, ends⟩
        · cases eq
          rcases attach_fails walk declared (fun row mem => Where.mem_of_select selected mem) stops with
            refused | ⟨g, rfl, unreadable⟩
          · exact .inl refused
          · exact .inr ⟨g, rfl, .inr unreadable⟩
        · cases ends

/-- **What is built of relation names is read back.** An include that is built of names, however many, is read as the
first of them with the include of the rest, so unfolding it gives the names in order. For the names found between
entities a find over tables goes through these entities in order: it asks for rows in this order, and if it succeeds its
levels are the hops between them. All that can be wrong with the include is a relation that is not kept in keys, and the
first of them is reported; other failures are faults of the where on a row or of rows that can not be read. Over rows
that fit, a find of the include succeeds unless there is such a relation. -/
theorem includeScope_agrees :
    (∀ names : List Value, (Include.pairs (Path.includeScope names) = match names with
        | [] => ⟨[], none⟩
        | name :: rest => ⟨[(name, Path.includeScope rest)], none⟩) ∧
      ∀ read, Include.Unfolds (Path.includeScope names) read ↔ read = names) ∧
    ∀ {graph : Value} {schema : Schema}, graph.isDocument = true → Schema.ofValue graph = .ok schema →
      ∀ {start : Entity} {visited : List Entity} {names : List String}, schema.find? start.name = some start →
        (∀ v ∈ visited, schema.find? v.name = some v) → Path.relationNames schema start.name visited = .ok names →
        let include_ := Path.includeScope (names.map .text)
        ∃ hops last, schema.Walks start names hops last ∧ hops.map (·.target) = visited ∧
          (IncludeTree.ofValue include_).check schema start = passesUnless (Hop.firstRefusal? hops) ∧
          ∀ (tables : Tables) (condition : Value),
            let find := (tables.access schema).find start.name condition include_
            (∀ log, tables.FindsAlong schema start hops condition include_ log (find.step log)) ∧
            (schema.PlainKeys → (∀ e ∈ schema.entities, ∀ r ∈ e.relations, .text r.name ∉ schema.keyNames) →
              tables.Fit schema → (∀ row ∈ tables.rows start.name, Where.Decides condition row) →
              find.EndsAs (passesUnless (Hop.firstRefusal? hops)) fun _ => True) := by
  refine ⟨fun names => ⟨Path.pairs_includeScope names, fun read => Path.unfolds_includeScope⟩, ?_⟩
  intro graph schema document accepted start visited names declared found named
  have sound := Schema.sound_of_ofValue document accepted
  obtain ⟨-, hops, last, walk, targets, -⟩ := Path.walk_of_relationNames sound declared found named
  have check : (IncludeTree.ofValue (Path.includeScope (names.map .text))).check schema start =
      passesUnless (Hop.firstRefusal? hops) := by
    rw [IncludeTree.ofValue_includeScope, check_chain walk declared]
  refine ⟨hops, last, walk, targets, check, fun tables condition => ⟨fun log => ?_, ?_⟩⟩
  · exact find_along walk declared condition log
  · intro plain apart fit decides
    exact check ▸ find_checked sound plain apart fit declared decides _

end Chain

/-- The people of the cities of a country are found by its name, and nobody else is asked for. -/
theorem includeScope_agrees_people :
    let include_ := Path.includeScope [.text "cities", .text "people"]
    Include.Unfolds include_ [.text "cities", .text "people"] ∧ ∃ found calls,
      ((Sample.tables.access Sample.schema).find "Country" (.ofFields [("name", .text "NZ")]) include_).step [] =
        (.ok found, calls) ∧ calls.map (·.entity) <+: ["Country", "City", "Person"] := by
  intro include_
  have declared : ∀ v ∈ [Sample.country, Sample.city, Sample.person], Sample.schema.find? v.name = some v := by
    simp [Sample.schema, Schema.find?, Sample.country, Sample.city, Sample.person]
  have named : Path.relationNames Sample.schema Sample.country.name [Sample.city, Sample.person] =
      .ok ["cities", "people"] := rfl
  obtain ⟨here, found⟩ := List.forall_mem_cons.1 declared
  obtain ⟨hops, last, -, targets, check, all⟩ :=
    includeScope_agrees.2 Sample.document Sample.accepted here found named
  obtain ⟨along, ends⟩ := all Sample.tables (.ofFields [("name", .text "NZ")])
  refine ⟨(includeScope_agrees.1 _).2 _ |>.2 rfl, ?_⟩
  have decides : ∀ row ∈ Sample.tables.rows Sample.country.name,
      Where.Decides (.ofFields [("name", .text "NZ")]) row :=
    List.forall_mem_cons.2 ⟨⟨true, rfl⟩, List.forall_mem_singleton.2 ⟨false, rfl⟩⟩
  have kept : passesUnless (Hop.firstRefusal? hops) = .ok () := check.symm.trans rfl
  obtain ⟨r, ends, passes, -⟩ := ends Sample.plain Sample.relations_apart Sample.keyed.fit decides
  rw [kept] at passes
  cases r with
  | error f => cases passes
  | ok rows =>
    obtain ⟨calls, ran⟩ := ends.step []
    obtain ⟨asked, eq, order⟩ := (along []).asks
    rw [ran] at eq
    rw [List.map_cons, targets] at order
    obtain rfl : calls = asked := eq
    exact ⟨rows, calls, ran, order⟩

end Semijoin
