import Semijoin.Proofs.Where.Selection

/-!
# Trees of wheres

Conjunctions and disjunctions over wheres that are not looked into. A tree stands for a where of nested groups; if
none of its leaves is a fault, this where is the truth value of the tree. Branches may be replaced by alike ones and
put in another order.
-/

namespace Semijoin.Where
set_option autoImplicit false

/-- A tree of groups over wheres. -/
inductive Tree where
  | leaf (part : Value)
  | all (branches : List Tree)
  | any (branches : List Tree)

namespace Tree

@[induction_eliminator]
theorem induct {motive : Tree → Prop} (leaf : ∀ part, motive (.leaf part))
    (all : ∀ branches, (∀ t ∈ branches, motive t) → motive (.all branches))
    (any : ∀ branches, (∀ t ∈ branches, motive t) → motive (.any branches)) (t : Tree) : motive t :=
  @Tree.rec motive (fun branches => ∀ t ∈ branches, motive t) leaf all any (by simp)
    (fun _ _ here later => List.forall_mem_cons.2 ⟨here, later⟩) t

mutual

/-- Folds a tree from its leaves up. -/
def fold {α : Type} (leaf : Value → α) (all any : List α → α) : Tree → α
  | .leaf part => leaf part
  | .all branches => all (foldEach leaf all any branches)
  | .any branches => any (foldEach leaf all any branches)

def foldEach {α : Type} (leaf : Value → α) (all any : List α → α) : List Tree → List α
  | [] => []
  | t :: rest => fold leaf all any t :: foldEach leaf all any rest

end

theorem foldEach_eq {α : Type} (leaf : Value → α) (all any : List α → α) (branches : List Tree) :
    foldEach leaf all any branches = branches.map (fold leaf all any) := by
  induction branches with
  | nil => rfl
  | cons t rest ih => rw [foldEach, ih, List.map_cons]

/-- The where that a tree stands for. -/
def toWhere : Tree → Value :=
  fold id (fun members => .ofFields [("and", .list members)]) fun members => .ofFields [("or", .list members)]

/-- The truth value of a tree over that of its leaves. -/
def eval (truth : Value → Bool) : Tree → Bool := fold truth (·.all id) (·.any id)

/-- The leaves of a tree. -/
def leaves : Tree → List Value := fold (fun part => [part]) List.flatten List.flatten

section Equations

variable (part : Value) (branches : List Tree) (truth : Value → Bool)

@[simp] theorem toWhere_leaf : (leaf part).toWhere = part := rfl

@[simp] theorem toWhere_all : (all branches).toWhere = .ofFields [("and", .list (branches.map toWhere))] := by
  rw [toWhere, fold, foldEach_eq]

@[simp] theorem toWhere_any : (any branches).toWhere = .ofFields [("or", .list (branches.map toWhere))] := by
  rw [toWhere, fold, foldEach_eq]

@[simp] theorem eval_leaf : (leaf part).eval truth = truth part := rfl

@[simp] theorem eval_all : (all branches).eval truth = branches.all (eval truth) := by
  rw [eval, fold, foldEach_eq, List.all_map]
  rfl

@[simp] theorem eval_any : (any branches).eval truth = branches.any (eval truth) := by
  rw [eval, fold, foldEach_eq, List.any_map]
  rfl

@[simp] theorem leaves_leaf : (leaf part).leaves = [part] := rfl

@[simp] theorem leaves_all : (all branches).leaves = branches.flatMap leaves := by
  rw [leaves, fold, foldEach_eq]
  rfl

@[simp] theorem leaves_any : (any branches).leaves = branches.flatMap leaves := by
  rw [leaves, fold, foldEach_eq]
  rfl

end Equations

/-- The conjunction of trees; the one of a single tree is that tree, and the one of none the empty mapping. -/
def joint : List Tree → Tree
  | [] => .leaf (.map [])
  | [t] => t
  | branches => .all branches

theorem joint_cases (branches : List Tree) :
    (branches = [] ∧ joint branches = .leaf (.map [])) ∨
    (branches ≠ [] ∧ (joint branches).leaves = branches.flatMap leaves ∧
      ∀ truth, (joint branches).eval truth = branches.all (eval truth)) := by
  match branches with
  | [] => exact .inl ⟨rfl, rfl⟩
  | [t] => exact .inr ⟨by simp, by simp [joint], by simp [joint]⟩
  | _ :: _ :: _ => exact .inr ⟨by simp, by simp [joint], by simp [joint]⟩

theorem holds_joint [Attributes] (row : Value) (branches : List Tree) :
    holds row (joint branches).toWhere = allHold row (branches.map toWhere) := by
  match branches with
  | [] => rfl
  | [t] => exact (asked_last _).symm
  | t :: u :: rest => exact (congrArg (holds row) (toWhere_all _)).trans (holds_and row _)

/-- A tree of whose leaves none is a fault is its truth value. -/
theorem holds_toWhere [Attributes] {row : Value} {t : Tree} (h : ∀ part ∈ t.leaves, Decides part row) :
    holds row t.toWhere = .ok (t.eval fun part => accepts part row) := by
  induction t with
  | leaf part => exact (h part (by simp)).holds_eq
  | all branches ih =>
    rw [toWhere_all, eval_all, holds_and]
    exact allHold_settled fun t ht => ih t ht fun part mem => h part (by simpa using ⟨t, ht, mem⟩)
  | any branches ih =>
    rw [toWhere_any, eval_any, holds_or]
    exact someHolds_settled fun t ht => ih t ht fun part mem => h part (by simpa using ⟨t, ht, mem⟩)

/-! ## Trees of the same leaves and the same truth value -/

/-- Trees with the same leaves and the same truth value over them. -/
structure Alike (t u : Tree) : Prop where
  leaves : ∀ part, part ∈ t.leaves ↔ part ∈ u.leaves
  eval : ∀ truth, t.eval truth = u.eval truth

theorem Alike.refl (t : Tree) : Alike t t := ⟨fun _ => .rfl, fun _ => rfl⟩

theorem Alike.symm {t u : Tree} (h : Alike t u) : Alike u t :=
  ⟨fun part => (h.leaves part).symm, fun truth => (h.eval truth).symm⟩

theorem Alike.trans {t u v : Tree} (first : Alike t u) (second : Alike u v) : Alike t v :=
  ⟨fun part => (first.leaves part).trans (second.leaves part), fun truth => (first.eval truth).trans (second.eval truth)⟩

/-- Branches of which each is alike to some branch of the others. -/
structure EachAlike (branches branches' : List Tree) : Prop where
  left : ∀ t ∈ branches, ∃ u ∈ branches', Alike t u
  right : ∀ u ∈ branches', ∃ t ∈ branches, Alike t u

variable {branches branches' : List Tree}

theorem EachAlike.of_perm (perm : branches.Perm branches') : EachAlike branches branches' :=
  ⟨fun t ht => ⟨t, perm.mem_iff.1 ht, .refl t⟩, fun u hu => ⟨u, perm.mem_iff.2 hu, .refl u⟩⟩

theorem EachAlike.of_one {t u : Tree} (one : Alike t u) :
    EachAlike (branches ++ t :: branches') (branches ++ u :: branches') := by
  have each {t u : Tree} (one : Alike t u) :
      ∀ x ∈ branches ++ t :: branches', ∃ y ∈ branches ++ u :: branches', Alike x y := by
    intro x hx
    rw [List.mem_append, List.mem_cons] at hx
    obtain hx | rfl | hx := hx
    · exact ⟨x, by simp [hx], .refl x⟩
    · exact ⟨u, by simp, one⟩
    · exact ⟨x, by simp [hx], .refl x⟩
  exact ⟨each one, fun y hy => (each one.symm y hy).imp fun _ found => ⟨found.1, found.2.symm⟩⟩

section EachAlike

variable (h : EachAlike branches branches')
include h

theorem EachAlike.leaves (part : Value) : part ∈ branches.flatMap Tree.leaves ↔ part ∈ branches'.flatMap Tree.leaves := by
  rw [List.mem_flatMap, List.mem_flatMap]
  constructor
  · rintro ⟨t, ht, mem⟩
    obtain ⟨u, hu, alike⟩ := h.left t ht
    exact ⟨u, hu, (alike.leaves part).1 mem⟩
  · rintro ⟨u, hu, mem⟩
    obtain ⟨t, ht, alike⟩ := h.right u hu
    exact ⟨t, ht, (alike.leaves part).2 mem⟩

theorem EachAlike.eval_iff (truth : Value → Bool) (b : Bool) :
    (∃ t ∈ branches, t.eval truth = b) ↔ ∃ u ∈ branches', u.eval truth = b := by
  constructor
  · rintro ⟨t, ht, rfl⟩
    obtain ⟨u, hu, alike⟩ := h.left t ht
    exact ⟨u, hu, (alike.eval truth).symm⟩
  · rintro ⟨u, hu, rfl⟩
    obtain ⟨t, ht, alike⟩ := h.right u hu
    exact ⟨t, ht, alike.eval truth⟩

theorem EachAlike.all_eval (truth : Value → Bool) : branches.all (eval truth) = branches'.all (eval truth) := by
  rw [← Bool.not_inj_iff, List.not_all_eq_any_not, List.not_all_eq_any_not, Bool.eq_iff_iff]
  simpa using h.eval_iff truth false

theorem EachAlike.any_eval (truth : Value → Bool) : branches.any (eval truth) = branches'.any (eval truth) := by
  rw [Bool.eq_iff_iff]
  simpa using h.eval_iff truth true

theorem EachAlike.all : Alike (.all branches) (.all branches') :=
  ⟨by simpa using h.leaves, by simpa using h.all_eval⟩

theorem EachAlike.any : Alike (.any branches) (.any branches') :=
  ⟨by simpa using h.leaves, by simpa using h.any_eval⟩

theorem EachAlike.joint : Alike (joint branches) (joint branches') := by
  obtain ⟨rfl, -⟩ | ⟨nonempty, leaves, eval⟩ := joint_cases branches
  · have empty : branches' = [] := List.eq_nil_iff_forall_not_mem.2 fun u hu => by simpa using h.right u hu
    rw [empty]
    exact .refl _
  · obtain ⟨rfl, -⟩ | ⟨-, leaves', eval'⟩ := joint_cases branches'
    · exact absurd (List.eq_nil_iff_forall_not_mem.2 fun t ht => by simpa using h.left t ht) nonempty
    · exact ⟨by simpa only [leaves, leaves'] using h.leaves, fun truth => by rw [eval, eval', h.all_eval]⟩

end EachAlike

end Tree

end Semijoin.Where
