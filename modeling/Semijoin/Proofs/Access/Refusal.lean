import Semijoin.Proofs.Access.Find
import Semijoin.Proofs.Place

/-!
# Includes that are refused

Whether a find fails for its include, and how, is decided by the schema: `IncludeTree.check` goes through the tree as
attaching does, but without rows. It fails with the first thing that is wrong, in the order in which the tree is read:
a name, what is nested under it, the next name, and at last the part that has none of the forms of an include. Attaching
to rows with scalar keys succeeds or fails as the check does, also where there is no row to attach to.
-/

namespace Semijoin
set_option autoImplicit false

/-- A name that names no relation of an entity: it can not be looked up, or it is not declared. -/
inductive Entity.Refuses (owner : Entity) : Value → Failure → Prop
  | unhashable {name : Value} (composite : name.asKey? = none) : Refuses owner name (.ofFault (.unhashable name.kind))
  | undeclared {k : Scalar} (none : ∀ r ∈ owner.relations, Value.scalar k ≠ .text r.name) :
      Refuses owner (.scalar k) (Schema.unknownRelation owner.name (.scalar k))

namespace Entity.Refuses

variable {schema : Schema} {owner : Entity} {name : Value} {f : Failure}

theorem unique (h : owner.Refuses name f) {g : Failure} (h' : owner.Refuses name g) : g = f := by
  cases h with
  | unhashable composite =>
    cases h' with
    | unhashable _ => rfl
    | undeclared _ => cases composite
  | undeclared _ =>
    cases h' with
    | unhashable composite => cases composite
    | undeclared _ => rfl

theorem hop?_eq_none (h : owner.Refuses name f) : schema.hop? owner name = none := by
  by_contra some_
  obtain ⟨hop, found⟩ := Option.ne_none_iff_exists'.1 some_
  have from' := Schema.hop?_eq_some found
  cases h with
  | unhashable composite =>
    rw [from'.name_eq] at composite
    cases composite
  | undeclared none => exact none _ from'.mem from'.name_eq

end Entity.Refuses

/-- A name on a declared entity is that of a hop or refused. -/
theorem Schema.relation_cases {schema : Schema} (sound : schema.Sound) {owner : Entity}
    (declared : schema.find? owner.name = some owner) (name : Value) : (∃ hop, schema.hop? owner name = some hop) ∨
      ∃ f, owner.Refuses name f ∧ schema.relation (.text owner.name) name = .error f := by
  cases name with
  | scalar k =>
    by_cases known : ∃ r ∈ owner.relations, Value.scalar k = .text r.name
    · obtain ⟨r, mem, eq⟩ := known
      have named := sound.find?_relation (Schema.find?_eq_some declared).1 mem
      obtain ⟨t, target⟩ := sound.closed owner (Schema.find?_eq_some declared).1 r mem
      obtain ⟨hop, found, -⟩ := Schema.exists_hop named target
      exact .inl ⟨hop, eq ▸ found⟩
    · have undeclared : ∀ r ∈ owner.relations, Value.scalar k ≠ .text r.name := fun r mem eq => known ⟨r, mem, eq⟩
      refine .inr ⟨_, .undeclared undeclared, ?_⟩
      cases k with
      | text n =>
        refine Schema.relation_undeclared declared (List.find?_eq_none.2 fun r mem same => undeclared r mem ?_)
        rw [eq_of_beq same]
      | _ =>
        rw [Schema.relation, Schema.entity_text declared]
        rfl
  | _ =>
    refine .inr ⟨_, .unhashable rfl, ?_⟩
    rw [Schema.relation, Schema.entity_text declared]
    rfl

namespace IncludeTree

variable (schema : Schema)

/-- Checks the name of a branch, and goes on with the target of its relation. -/
def checkBranch (owner : Entity) (name : Value) (below : Entity → Except Failure Unit) : Except Failure Unit := do
  let relation ← schema.relation (.text owner.name) name
  let target ← schema.entity (.text relation.target)
  if relation.kind = .hasAndBelongsToMany then
    throw (.unsupportedKind owner.name relation.name (.text relation.kind.name))
  below target

mutual

/-- Checks an include tree on an entity. -/
def check (owner : Entity) : IncludeTree → Except Failure Unit
  | .node branches fault => do
    checkAll owner branches
    match fault with
    | some f => throw (.ofFault f)
    | none => return ()

/-- Checks branches one after the other. -/
def checkAll (owner : Entity) : List (Value × IncludeTree) → Except Failure Unit
  | [] => return ()
  | (name, nested) :: rest => do
    checkBranch schema owner name fun target => nested.check target
    checkAll owner rest

end

mutual

/-- What is wrong at a place of an include tree on an entity: in the branch of a number, or after all branches. -/
inductive WrongAt : Entity → IncludeTree → List Nat → Failure → Prop
  | branch {owner : Entity} {branches : List (Value × IncludeTree)} {fault : Option Fault} {i : Nat} {name : Value}
      {nested : IncludeTree} {place : List Nat} {f : Failure} (at_ : branches[i]? = some (name, nested))
      (wrong : BranchWrongAt owner name nested place f) : WrongAt owner (.node branches fault) (i :: place) f
  | form {owner : Entity} {branches : List (Value × IncludeTree)} (f : Fault) :
      WrongAt owner (.node branches (some f)) [branches.length] (.ofFault f)

/-- What is wrong at a place of a branch: with its name, or in what it nests. -/
inductive BranchWrongAt : Entity → Value → IncludeTree → List Nat → Failure → Prop
  | name {owner : Entity} {name : Value} {nested : IncludeTree} {f : Failure} (refused : owner.Refuses name f) :
      BranchWrongAt owner name nested [] f
  | unsupported {owner : Entity} {name : Value} {nested : IncludeTree} {hop : Hop}
      (found : schema.hop? owner name = some hop) (kind : hop.relation.kind = .hasAndBelongsToMany) :
      BranchWrongAt owner name nested [] (.unsupportedKind owner.name hop.relation.name (.text hop.relation.kind.name))
  | inside {owner : Entity} {name : Value} {nested : IncludeTree} {hop : Hop} {place : List Nat} {f : Failure}
      (found : schema.hop? owner name = some hop) (kind : hop.relation.kind ≠ .hasAndBelongsToMany)
      (wrong : WrongAt hop.target nested place f) : BranchWrongAt owner name nested place f

end

end IncludeTree

section Check

variable {schema : Schema} {owner : Entity}

namespace IncludeTree

/-- The check of a branch along a hop goes on at its target, unless the kind of the relation is unsupported. -/
theorem checkBranch_hop (declared : schema.find? owner.name = some owner) {name : Value} {hop : Hop}
    (found : schema.hop? owner name = some hop) (below : Entity → Except Failure Unit) :
    checkBranch schema owner name below =
      if hop.relation.kind = .hasAndBelongsToMany then
        .error (.unsupportedKind owner.name hop.relation.name (.text hop.relation.kind.name))
      else below hop.target := by
  have from' := Schema.hop?_eq_some found
  unfold checkBranch
  rw [from'.relation_eq declared]
  simp only [bind, Except.bind, from'.entity_eq]
  split <;> rfl

theorem checkBranch_error {name : Value} {f : Failure} (refused : schema.relation (.text owner.name) name = .error f)
    (below : Entity → Except Failure Unit) : checkBranch schema owner name below = .error f := by
  rw [checkBranch, refused]
  rfl

/-- Along a hop nothing is wrong with the name but the kind of its relation. -/
theorem branchWrongAt_hop {name : Value} {hop : Hop} (found : schema.hop? owner name = some hop) {nested : IncludeTree}
    {place : List Nat} {f : Failure} : BranchWrongAt schema owner name nested place f ↔
      if hop.relation.kind = .hasAndBelongsToMany then
        place = [] ∧ f = .unsupportedKind owner.name hop.relation.name (.text hop.relation.kind.name)
      else nested.WrongAt schema hop.target place f := by
  constructor
  · intro wrong
    cases wrong with
    | name refused => cases found.symm.trans refused.hop?_eq_none
    | unsupported found' kind =>
      cases found.symm.trans found'
      rw [if_pos kind]
      exact ⟨rfl, rfl⟩
    | inside found' kind wrong =>
      cases found.symm.trans found'
      rwa [if_neg kind]
  · intro h
    split at h
    · rename_i kind
      obtain ⟨rfl, rfl⟩ := h
      exact .unsupported found kind
    · rename_i kind
      exact .inside found kind h

/-- In a branch whose name is refused nothing else is wrong. -/
theorem branchWrongAt_refused {name : Value} {g : Failure} (refused : owner.Refuses name g) {nested : IncludeTree}
    {place : List Nat} {f : Failure} : BranchWrongAt schema owner name nested place f ↔ place = [] ∧ f = g := by
  constructor
  · intro wrong
    cases wrong with
    | name refused' => exact ⟨rfl, refused.unique refused'⟩
    | unsupported found _ => cases found.symm.trans refused.hop?_eq_none
    | inside found _ _ => cases found.symm.trans refused.hop?_eq_none
  · rintro ⟨rfl, rfl⟩
    exact .name refused

/-- A branch is refused for its name, or else for the first thing that is wrong in what it nests. -/
theorem checkBranch_fails (sound : schema.Sound) (declared : schema.find? owner.name = some owner) (name : Value)
    {nested : IncludeTree} (inside : ∀ target, schema.find? target.name = some target →
      FailsAtFirst (nested.WrongAt schema target) (nested.check schema target)) :
    FailsAtFirst (BranchWrongAt schema owner name nested)
      (checkBranch schema owner name fun target => nested.check schema target) := by
  rcases Schema.relation_cases sound declared name with ⟨hop, found⟩ | ⟨g, refused, error⟩
  · rw [checkBranch_hop declared found]
    split
    · rename_i kind
      exact .one [] fun p g => by rw [branchWrongAt_hop found, if_pos kind]
    · rename_i kind
      refine (inside hop.target (Schema.hop?_eq_some found).target_found).congr fun p g => ?_
      rw [branchWrongAt_hop found, if_neg kind]
  · rw [checkBranch_error error]
    exact .one [] fun _ _ => branchWrongAt_refused refused

/-- Branches are refused for the first thing that is wrong in the first of them that is wrong. -/
theorem checkAll_fails {branches : List (Value × IncludeTree)}
    (each : ∀ b ∈ branches, FailsAtFirst (BranchWrongAt schema owner b.1 b.2)
      (checkBranch schema owner b.1 fun target => b.2.check schema target)) :
    FailsAtFirst (fun p f => ∃ i b q, branches[i]? = some b ∧ p = i :: q ∧ BranchWrongAt schema owner b.1 b.2 q f)
      (checkAll schema owner branches) := by
  have step (b : Value × IncludeTree) (rest : List (Value × IncludeTree)) : checkAll schema owner (b :: rest) = do
      return (fun (_ : Unit) (later : Unit) => later)
        (← checkBranch schema owner b.1 fun target => b.2.check schema target) (← checkAll schema owner rest) := by
    rw [checkAll]
    cases checkBranch schema owner b.1 fun target => b.2.check schema target with
    | error f => rfl
    | ok _ => cases checkAll schema owner rest <;> rfl
  have collected := FailsAtFirst.collected (checkAll schema owner) (fun (_ : Unit) (later : Unit) => later)
    (by rw [checkAll]; rfl) step each 0
  simpa only [Nat.zero_add] using collected

mutual

/-- **An include tree is refused for the first thing that is wrong in it.** -/
theorem check_fails (sound : schema.Sound) {owner : Entity} (declared : schema.find? owner.name = some owner)
    (tree : IncludeTree) : FailsAtFirst (tree.WrongAt schema owner) (tree.check schema owner) := by
  match tree with
  | .node branches fault =>
    have form : FailsAtFirst (fun p f => ∃ g, fault = some g ∧ p = [branches.length] ∧ f = .ofFault g)
        (match fault with
          | some f => throw (.ofFault f)
          | none => return () : Except Failure Unit) := by
      cases fault with
      | none => exact .nothing () (by simp)
      | some g => exact .one [branches.length] fun p f => by simp
    have all := checkAll_fails (branches_fail sound declared branches)
    rw [check.eq_def]
    refine (all.bind (fun _ => form) ?_).congr fun p f => ?_
    · rintro _ f _ f' ⟨i, b, q, at_, rfl, -⟩ ⟨g, -, rfl, -⟩
      obtain ⟨inside, -⟩ := List.getElem?_eq_some_iff.1 at_
      exact List.cons_lt_cons_iff.2 (.inl inside)
    · constructor
      · rintro (⟨i, b, q, at_, rfl, wrong⟩ | ⟨g, rfl, rfl, rfl⟩)
        · exact .branch at_ wrong
        · exact .form g
      · intro wrong
        cases wrong with
        | branch at_ wrong => exact .inl ⟨_, _, _, at_, rfl, wrong⟩
        | form g => exact .inr ⟨g, rfl, rfl, rfl⟩

theorem branches_fail (sound : schema.Sound) {owner : Entity} (declared : schema.find? owner.name = some owner)
    (branches : List (Value × IncludeTree)) : ∀ b ∈ branches, FailsAtFirst (BranchWrongAt schema owner b.1 b.2)
      (checkBranch schema owner b.1 fun target => b.2.check schema target) := by
  match branches with
  | [] => simp
  | (name, nested) :: rest =>
    exact List.forall_mem_cons.2 ⟨checkBranch_fails sound declared name fun target found => check_fails sound found nested,
      branches_fail sound declared rest⟩

end

end IncludeTree

end Check

/-- An action ends as a check does: it fails in the same way, and where the check passes its result has a property. -/
def Action.EndsAs {σ α : Type} (x : Action σ α) (checked : Except Failure Unit) (P : α → Prop) : Prop :=
  ∃ r, x.Ends r ∧ r.map (fun _ => ()) = checked ∧ ∀ a, r = .ok a → P a

namespace Action.EndsAs

variable {σ α β : Type} {x : Action σ α} {f : α → Action σ β} {checked checked' : Except Failure Unit}
  {P : α → Prop} {Q : β → Prop}

theorem passes {a : α} (h : x.Ends (.ok a)) (holds : P a) : x.EndsAs (.ok ()) P :=
  ⟨_, h, rfl, fun _ eq => by cases eq; exact holds⟩

theorem fails {e : Failure} (h : x.Ends (.error e)) : x.EndsAs (.error e) P := ⟨_, h, rfl, fun _ eq => by cases eq⟩

theorem bind (h : x.EndsAs checked P) (later : ∀ a, P a → (f a).EndsAs checked' Q) :
    (x >>= f).EndsAs (checked >>= fun _ => checked') Q := by
  obtain ⟨r, ends, rfl, holds⟩ := h
  cases r with
  | error e => exact fails (ends.bind_error f)
  | ok a =>
    obtain ⟨r', ends', eq, holds'⟩ := later a (holds a rfl)
    exact ⟨r', ends.bind ends', eq, holds'⟩

theorem map {g : α → β} (h : x.EndsAs checked P) (keeps : ∀ a, P a → Q (g a)) :
    (x >>= fun a => pure (g a)).EndsAs checked Q := by
  obtain ⟨r, ends, rfl, holds⟩ := h
  cases r with
  | error e => exact fails (ends.bind_error _)
  | ok a => exact passes (ends.bind (Action.ends_pure _)) (keeps a (holds a rfl))

/-- What always succeeds is not checked. -/
theorem after {a : α} (h : x.Ends (.ok a)) (later : (f a).EndsAs checked Q) : (x >>= f).EndsAs checked Q := by
  obtain ⟨r, ends, eq, holds⟩ := later
  exact ⟨r, h.bind ends, eq, holds⟩

end Action.EndsAs

section Attach

variable {schema : Schema} {tables : Tables}

/-- Rows with scalar keys are handed out to rows with scalar keys, which keep them. -/
theorem handOutAll_fits (plain : schema.PlainKeys)
    (apart : ∀ e ∈ schema.entities, ∀ r ∈ e.relations, .text r.name ∉ schema.keyNames) {owner : Entity}
    (declared : owner ∈ schema.entities) {name : Value} {hop : Hop} (from' : schema.HopFrom owner name hop)
    (kind : hop.relation.kind ≠ .hasAndBelongsToMany) {rows children : List Value}
    (fits : ∀ row ∈ rows, schema.Fits owner row) (childFits : ∀ row ∈ children, schema.Fits hop.target row) :
    ∃ handed, handOutAll hop.relation hop.ownerColumn hop.targetColumn rows children = .ok handed ∧
      ∀ row ∈ handed, schema.Fits owner row := by
  obtain ⟨⟨owned, ownedBy, -⟩, target, targetBy, -⟩ := from'.plainColumns plain declared kind
  have rowsKeyed : KeyedBy hop.ownerColumn rows := fun row mem =>
    ⟨(fits row mem).mapping, (fits row mem).scalars _ from'.ownerColumn_mem⟩
  have childrenKeyed : KeyedBy hop.targetColumn children := fun row mem =>
    ⟨(childFits row mem).mapping, (childFits row mem).scalars _ (from'.targetColumn_mem declared kind)⟩
  refine ⟨_, handOutAll_keyed ownedBy targetBy rowsKeyed childrenKeyed, ?_⟩
  exact List.forall_mem_map.2 fun row mem => (fits row mem).setField declared (apart owner declared _ from'.mem) _

variable [Attributes]

mutual

/-- **Attaching ends as the check of the include does**, whatever the rows are to which it is attached. -/
theorem attach_checked (sound : schema.Sound) (plain : schema.PlainKeys)
    (apart : ∀ e ∈ schema.entities, ∀ r ∈ e.relations, .text r.name ∉ schema.keyNames) (fit : tables.Fit schema)
    {owner : Entity} (declared : schema.find? owner.name = some owner) {rows : List Value}
    (fits : ∀ row ∈ rows, schema.Fits owner row) (tree : IncludeTree) :
    (attach schema tables.selector owner rows tree).EndsAs (tree.check schema owner)
      fun results => ∀ row ∈ results, schema.Fits owner row := by
  match tree with
  | .node branches fault =>
    rw [attach, IncludeTree.check.eq_def]
    refine (attachAll_checked sound plain apart fit declared fits branches).bind fun results held => ?_
    cases fault with
    | none => exact .passes (Action.ends_pure _) held
    | some f => exact .fails fun _ => rfl

theorem attachAll_checked (sound : schema.Sound) (plain : schema.PlainKeys)
    (apart : ∀ e ∈ schema.entities, ∀ r ∈ e.relations, .text r.name ∉ schema.keyNames) (fit : tables.Fit schema)
    {owner : Entity} (declared : schema.find? owner.name = some owner) {rows : List Value}
    (fits : ∀ row ∈ rows, schema.Fits owner row) (branches : List (Value × IncludeTree)) :
    (attachAll schema tables.selector owner rows branches).EndsAs (IncludeTree.checkAll schema owner branches)
      fun results => ∀ row ∈ results, schema.Fits owner row := by
  match branches with
  | [] =>
    rw [attachAll, IncludeTree.checkAll]
    exact .passes (Action.ends_pure _) fits
  | (name, nested) :: rest =>
    rcases Schema.relation_cases sound declared name with ⟨hop, found⟩ | ⟨f, -, error⟩
    · have from' := Schema.hop?_eq_some found
      have mem := (Schema.find?_eq_some declared).1
      rw [IncludeTree.checkAll, IncludeTree.checkBranch_hop declared found]
      by_cases kind : hop.relation.kind = .hasAndBelongsToMany
      · rw [if_pos kind, attachAll]
        refine .fails (.bind (Action.ends_ofExcept (from'.relation_eq declared))
          (.bind (Action.ends_ofExcept from'.entity_eq) ?_))
        have columns : keyFields owner hop.target hop.relation = none := by simp [keyFields, kind]
        rw [columns]
        exact fun _ => rfl
      · rw [if_neg kind, attachAll_hop declared from' kind]
        obtain ⟨keys, selected⟩ := branch_selects plain fit mem from' kind fits
        have stored : ∀ row ∈ rowsAmong hop.targetColumn (Scalar.distinct (heldKeys hop.ownerColumn rows))
            (tables.rows hop.target.name), schema.Fits hop.target row := fun row held =>
          fit _ (Schema.find?_eq_some from'.target).1 row (List.mem_filter.1 held).1
        refine .after (Action.ends_ofValues keys) (.after selected ?_)
        refine (attach_checked sound plain apart fit from'.target_found stored nested).bind fun children childFits => ?_
        obtain ⟨handed, hands, handedFits⟩ := handOutAll_fits plain apart mem from' kind fits childFits
        exact .after (Action.ends_ofValues hands) (attachAll_checked sound plain apart fit declared handedFits rest)
    · rw [attachAll, IncludeTree.checkAll, IncludeTree.checkBranch_error error]
      exact .fails (.bind_error (Action.ends_ofExcept error) _)

end

/-- A find ends as the check of its include does. -/
theorem find_checked (sound : schema.Sound) (plain : schema.PlainKeys)
    (apart : ∀ e ∈ schema.entities, ∀ r ∈ e.relations, .text r.name ∉ schema.keyNames) (fit : tables.Fit schema)
    {entity : String} {e : Entity} (declared : schema.find? entity = some e) {condition : Value}
    (decides : ∀ row ∈ tables.rows entity, Where.Decides condition row) (include_ : Value) :
    ((tables.access schema).find entity condition include_).EndsAs ((IncludeTree.ofValue include_).check schema e)
      fun _ => True := by
  obtain ⟨mem, rfl⟩ := Schema.find?_eq_some declared
  have fits : ∀ row ∈ (tables.rows e.name).filter (Where.accepts condition), schema.Fits e row :=
    fun row hr => fit e mem row (List.mem_filter.1 hr).1
  have attached := attach_checked sound plain apart fit declared fits (IncludeTree.ofValue include_)
  exact .after (Action.ends_ofExcept (Schema.entity_text declared))
    (.after (Tables.select_ends decides) (attached.map fun _ _ => trivial))

end Attach

/-- **Whether and how an include fails depends on the schema alone.** Over any two contents of tables with scalar keys,
on which the where is no fault, the finds of one include fail alike or both succeed: each fails with the first thing that
is wrong in the include tree on the entity, in the order of its places, and succeeds if nothing is wrong. -/
theorem finds_fail_alike [Attributes] {graph : Value} {schema : Schema} (document : graph.isDocument = true)
    (accepted : Schema.ofValue graph = .ok schema) (plain : schema.PlainKeys)
    (apart : ∀ e ∈ schema.entities, ∀ r ∈ e.relations, .text r.name ∉ schema.keyNames) {tables tables' : Tables}
    (fit : tables.Fit schema) (fit' : tables'.Fit schema) {entity : String} {e : Entity}
    (declared : schema.find? entity = some e) {condition : Value}
    (decides : ∀ row ∈ tables.rows entity, Where.Decides condition row)
    (decides' : ∀ row ∈ tables'.rows entity, Where.Decides condition row) (include_ : Value) :
    ∃ r r', ((tables.access schema).find entity condition include_).Ends r ∧
      ((tables'.access schema).find entity condition include_).Ends r' ∧ (∀ f, r = .error f ↔ r' = .error f) ∧
      FailsAtFirst ((IncludeTree.ofValue include_).WrongAt schema e) r ∧
      FailsAtFirst ((IncludeTree.ofValue include_).WrongAt schema e) r' := by
  have sound := Schema.sound_of_ofValue document accepted
  have first := IncludeTree.check_fails sound (Schema.find?_name declared) (IncludeTree.ofValue include_)
  obtain ⟨r, ends, checked, -⟩ := find_checked sound plain apart fit declared decides include_
  obtain ⟨r', ends', checked', -⟩ := find_checked sound plain apart fit' declared decides' include_
  have fails {r : Except Failure Value} {f : Failure} : r = .error f ↔ r.map (fun _ => ()) = .error f := by
    cases r <;> simp [Except.map]
  refine ⟨r, r', ends, ends', fun f => ?_, .of_map (checked ▸ first), .of_map (checked' ▸ first)⟩
  rw [fails, fails, checked, checked']

namespace Sample

theorem relations_apart : ∀ e ∈ schema.entities, ∀ r ∈ e.relations, Value.text r.name ∉ schema.keyNames := by
  simp [Schema.keyNames, schema, country, city, person]

/-- The people of the cities of a country, each with a planet. -/
def planets : Value := .ofFields [("cities", .ofFields [("people", .text "planet")])]

end Sample

/-- That no person has a planet is found out over no rows as well as over some. -/
theorem finds_fail_alike_planets :
    ((Tables.access [] Sample.schema).find "Country" .null Sample.planets).Ends
      (.error (.unknownRelation "Person" (.text "planet"))) ∧
    ((Sample.tables.access Sample.schema).find "Country" .null Sample.planets).Ends
      (.error (.unknownRelation "Person" (.text "planet"))) := by
  have none : Tables.Fit [] Sample.schema := fun e _ row mem => by simp [Tables.rows] at mem
  have all (row : Value) : Where.Decides .null row := ⟨true, Where.holds_of_falsy row rfl⟩
  have empty : ((Tables.access [] Sample.schema).find "Country" .null Sample.planets).Ends
      (.error (.unknownRelation "Person" (.text "planet"))) := fun _ => rfl
  obtain ⟨r, r', ends, ends', alike, -⟩ := finds_fail_alike Sample.document Sample.accepted Sample.plain
    Sample.relations_apart none Sample.keyed.fit (rfl : Sample.schema.find? "Country" = some Sample.country)
    (fun row _ => all row) (fun row _ => all row) Sample.planets
  refine ⟨empty, ?_⟩
  rw [← (alike _).1 (ends.unique empty)]
  exact ends'

end Semijoin
