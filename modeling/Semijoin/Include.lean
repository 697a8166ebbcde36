import Semijoin.Failure

/-!
# Include specifications

An include names relations to attach to rows, and under each what to attach to the related rows. It may be
null, a relation name, a list of includes, a mapping `relation` and `scope`, or a mapping from names to nested
includes. Reading stops at the first part that has none of these forms; what was read before still counts.

`Include.pairs` reads one level. `IncludeTree.ofValue` reads all levels, and `ofValue_eq` says that it is the
reading of one level, repeated.
-/

set_option autoImplicit false

namespace Semijoin

namespace Include

/-- Names with nested includes, up to a fault. -/
structure Pairs where
  read : List (Value × Value)
  fault : Option Fault
  deriving Inhabited, BEq

/-- Continues a reading that met no fault. -/
def Pairs.andThen (a b : Pairs) : Pairs :=
  match a.fault with
  | some f => ⟨a.read, some f⟩
  | none => ⟨a.read ++ b.read, b.fault⟩

/-- The nested include of a scope, if it counts as true. -/
def ofScope (scope : Value) : Except Fault Value :=
  if !scope.truthy then .ok .null
  else
    match scope with
    | .map entries => .ok ((Entries.find? (.text "include") entries).getD .null)
    | v => .error (.noMethod v "get")

/-- The name and nested include of a mapping that has the key `relation`. -/
def ofRelation (name : Value) (entries : List (Scalar × Value)) : Pairs :=
  match ofScope ((Entries.find? (.text "scope") entries).getD .null) with
  | .ok nested => ⟨[(name, nested)], none⟩
  | .error f => ⟨[], some f⟩

mutual

/-- The relation names of an include, each with its nested include. -/
def pairs : Value → Pairs
  | .null => ⟨[], none⟩
  | .text name => ⟨[(.text name, .null)], none⟩
  | .list items => pairsOfItems items
  | .map entries =>
    match Entries.find? (.text "relation") entries with
    | some name => ofRelation name entries
    | none => ⟨entries.map fun e => (.scalar e.1, e.2), none⟩
  | v => ⟨[], some (.ofInclude v)⟩

/-- The pairs of a list of includes, one after the other. -/
def pairsOfItems : List Value → Pairs
  | [] => ⟨[], none⟩
  | v :: rest => (pairs v).andThen (pairsOfItems rest)

end

end Include

/-- An include read at all levels: relation names with subtrees, up to a fault. -/
inductive IncludeTree where
  | node (branches : List (Value × IncludeTree)) (fault : Option Fault)
  deriving Inhabited

namespace IncludeTree

def branches : IncludeTree → List (Value × IncludeTree)
  | .node bs _ => bs

def fault : IncludeTree → Option Fault
  | .node _ f => f

def empty : IncludeTree := .node [] none

/-- Continues a reading that met no fault. -/
def andThen (a b : IncludeTree) : IncludeTree :=
  match a.fault with
  | some f => .node a.branches (some f)
  | none => .node (a.branches ++ b.branches) b.fault

mutual

/-- Reads an include at all levels. -/
def ofValue : Value → IncludeTree
  | .null => empty
  | .text name => .node [(.text name, empty)] none
  | .list items => ofItems items
  | .map entries =>
    match Entries.find? (.text "relation") entries with
    | some name =>
      match ofScopeEntry entries with
      | .ok nested => .node [(name, nested)] none
      | .error f => .node [] (some f)
    | none => .node (ofEntries entries) none
  | v => .node [] (some (.ofInclude v))

/-- Reads a list of includes, one after the other. -/
def ofItems : List Value → IncludeTree
  | [] => empty
  | v :: rest => (ofValue v).andThen (ofItems rest)

/-- Reads a mapping from names to nested includes. -/
def ofEntries : List (Scalar × Value) → List (Value × IncludeTree)
  | [] => []
  | (k, v) :: rest => (.scalar k, ofValue v) :: ofEntries rest

/-- Reads the include in the entry `scope`, if there is one. -/
def ofScopeEntry : List (Scalar × Value) → Except Fault IncludeTree
  | [] => .ok empty
  | (k, v) :: rest => if k.same (.text "scope") then ofScopeValue v else ofScopeEntry rest

/-- Reads the include in a scope. -/
def ofScopeValue : Value → Except Fault IncludeTree
  | .map entries => .ok (ofIncludeEntry entries)
  | .scalar s => if (Value.scalar s).truthy then .error (.noMethod (.scalar s) "get") else .ok empty
  | .list [] => .ok empty
  | v => .error (.noMethod v "get")

/-- Reads the entry `include`, if there is one. -/
def ofIncludeEntry : List (Scalar × Value) → IncludeTree
  | [] => empty
  | (k, v) :: rest => if k.same (.text "include") then ofValue v else ofIncludeEntry rest

end

theorem ofEntries_eq (entries : List (Scalar × Value)) :
    ofEntries entries = entries.map fun e => (.scalar e.1, ofValue e.2) := by
  induction entries with
  | nil => rfl
  | cons e rest ih => obtain ⟨k, v⟩ := e; simp [ofEntries, ih]

theorem ofIncludeEntry_eq (entries : List (Scalar × Value)) :
    ofIncludeEntry entries = ofValue ((Entries.find? (.text "include") entries).getD .null) := by
  induction entries with
  | nil => rfl
  | cons e rest ih =>
    obtain ⟨k, v⟩ := e
    by_cases h : k.same (.text "include") = true <;> simp [ofIncludeEntry, Entries.find?, h, ih]

theorem ofScopeValue_eq (v : Value) : ofScopeValue v = (Include.ofScope v).map ofValue := by
  cases v with
  | scalar s =>
    by_cases h : (Value.scalar s).truthy = true <;> simp [ofScopeValue, Include.ofScope, h, Except.map]
    rfl
  | list items => cases items <;> simp [ofScopeValue, Include.ofScope, Value.truthy, Except.map]; rfl
  | map entries =>
    cases entries with
    | nil => rfl
    | cons e rest => simp [ofScopeValue, Include.ofScope, Value.truthy, Except.map, ofIncludeEntry_eq]
  | record fields => simp [ofScopeValue, Include.ofScope, Value.truthy, Except.map]

theorem ofScopeEntry_eq (entries : List (Scalar × Value)) :
    ofScopeEntry entries = (Include.ofScope ((Entries.find? (.text "scope") entries).getD .null)).map ofValue := by
  induction entries with
  | nil => rfl
  | cons e rest ih =>
    obtain ⟨k, v⟩ := e
    by_cases h : k.same (.text "scope") = true <;> simp [ofScopeEntry, Entries.find?, h, ih, ofScopeValue_eq]

/-- The tree that one level of reading gives. -/
def ofPairs (p : Include.Pairs) : IncludeTree :=
  .node (p.read.map fun e => (e.1, ofValue e.2)) p.fault

theorem ofPairs_andThen (p q : Include.Pairs) : ofPairs (p.andThen q) = (ofPairs p).andThen (ofPairs q) := by
  obtain ⟨read, fault⟩ := p
  cases fault <;> simp [ofPairs, Include.Pairs.andThen, andThen, branches, IncludeTree.fault]

theorem ofMap_eq (entries : List (Scalar × Value)) :
    ofValue (.map entries) = ofPairs (Include.pairs (.map entries)) := by
  cases h : Entries.find? (.text "relation") entries with
  | none => simp [ofValue, Include.pairs, h, ofPairs, ofEntries_eq]
  | some name =>
    cases h' : Include.ofScope ((Entries.find? (.text "scope") entries).getD .null) with
    | ok nested =>
      simp [ofValue, Include.pairs, Include.ofRelation, h, h', ofPairs, ofScopeEntry_eq, Except.map]
    | error f =>
      simp [ofValue, Include.pairs, Include.ofRelation, h, h', ofPairs, ofScopeEntry_eq, Except.map]

mutual

/-- The tree of an include is its one-level reading with every nested include read again. -/
theorem ofValue_eq (v : Value) : ofValue v = ofPairs (Include.pairs v) := by
  match v with
  | .scalar s => cases s <;> rfl
  | .list items => exact ofItems_eq items
  | .map entries => exact ofMap_eq entries
  | .record _ => rfl

theorem ofItems_eq (items : List Value) : ofItems items = ofPairs (Include.pairsOfItems items) := by
  match items with
  | [] => rfl
  | v :: rest => rw [ofItems, Include.pairsOfItems, ofPairs_andThen, ← ofValue_eq v, ← ofItems_eq rest]

end

end IncludeTree

end Semijoin
