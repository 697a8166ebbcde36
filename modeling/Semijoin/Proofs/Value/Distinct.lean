import Mathlib.Data.List.FinRange
import Semijoin.Proofs.Value.Columns

/-!
# Distinct keys

Dropping repeated members of a list of keys loses no key: what is equal to a member is equal to one of
those that are kept. What is kept are the members that no member before them is equal to, in their order.
-/

namespace Semijoin.Scalar
set_option autoImplicit false

theorem isIn_iff {x : Scalar} {members : List Scalar} : x.isIn members = true ↔ ∃ m ∈ members, m.same x = true := by
  simp [isIn]

/-- Equal scalars are in the same lists. -/
theorem isIn_congr {x y : Scalar} (h : x.same y = true) (members : List Scalar) : x.isIn members = y.isIn members := by
  have each (m : Scalar) : m.same x = m.same y := by
    rw [same_comm m x, same_comm m y, same_congr h]
  simp only [isIn, each]

/-- The members kept beside those already seen are the members not seen. -/
theorem isIn_distinctFrom {x : Scalar} {seen : List Scalar} (unseen : x.isIn seen = false) (members : List Scalar) :
    x.isIn (distinctFrom seen members) = x.isIn members := by
  induction members generalizing seen with
  | nil => rfl
  | cons m rest ih =>
    by_cases known : m.isIn seen = true
    · have apart : m.same x = false := by
        refine Bool.eq_false_iff.2 fun h => ?_
        rw [isIn_congr h, unseen] at known
        cases known
      rw [distinctFrom, if_pos known, ih unseen]
      simp [isIn, apart]
    · rw [distinctFrom, if_neg known]
      by_cases same : m.same x = true
      · simp [isIn, same]
      · have unseen' : x.isIn (m :: seen) = false := by
          simpa [isIn, same] using unseen
        have := ih unseen'
        simp only [isIn, List.any_cons] at this ⊢
        rw [this]

theorem isIn_distinct (x : Scalar) (members : List Scalar) : x.isIn (distinct members) = x.isIn members :=
  isIn_distinctFrom rfl members

/-- A member that is not seen is kept, or one that is the same is. -/
theorem mem_distinctFrom {x : Scalar} {members : List Scalar} (mem : x ∈ members) (seen : List Scalar) :
    x.isIn seen = true ∨ ∃ m ∈ distinctFrom seen members, m.same x = true := by
  induction members generalizing seen with
  | nil => cases mem
  | cons m rest ih =>
    rw [distinctFrom]
    rcases List.mem_cons.1 mem with rfl | later
    · by_cases known : x.isIn seen = true
      · exact .inl known
      · rw [if_neg known]
        exact .inr ⟨x, by simp, same_self x⟩
    · by_cases known : m.isIn seen = true
      · rw [if_pos known]
        exact ih later seen
      · rw [if_neg known]
        rcases ih later (m :: seen) with known' | ⟨k, held, same⟩
        · simp only [isIn, List.any_cons, Bool.or_eq_true] at known'
          rcases known' with same | known'
          · exact .inr ⟨m, by simp, same⟩
          · exact .inl known'
        · exact .inr ⟨k, by simp [held], same⟩

theorem distinctFrom_subset {members seen : List Scalar} : distinctFrom seen members ⊆ members := by
  induction members generalizing seen with
  | nil => simp [distinctFrom]
  | cons m rest ih =>
    rw [distinctFrom]
    split
    · exact List.subset_cons_of_subset _ ih
    · exact List.cons_subset_cons _ ih

/-- Dropping repetitions drops no key. -/
theorem mem_distinct {x : Scalar} {members : List Scalar} (mem : x ∈ members) :
    ∃ m ∈ distinct members, m.same x = true := by
  rcases mem_distinctFrom mem [] with known | kept
  · cases known
  · exact kept

/-- The members that no member before them is equal to, in order. -/
def firsts (members : List Scalar) : List Scalar :=
  ((List.finRange members.length).filter fun i => ∀ j < i, (members.get j).same (members.get i) = false).map members.get

/-- The members at some of the places of a list with a first member: that member, if its place is one of them, and
those of the rest. -/
theorem filter_places_cons (m : Scalar) (rest : List Scalar) (p : Fin (m :: rest).length → Bool) :
    ((List.finRange (m :: rest).length).filter p).map (m :: rest).get =
      (if p 0 then [m] else []) ++ ((List.finRange rest.length).filter (p ∘ Fin.succ)).map rest.get := by
  have places : List.finRange (m :: rest).length = 0 :: (List.finRange rest.length).map Fin.succ := List.finRange_succ
  have tail : (m :: rest).get ∘ Fin.succ = rest.get := rfl
  rw [places, List.filter_cons, List.filter_map]
  split
  · rw [List.map_cons, List.map_map, tail]
    rfl
  · rw [List.map_map, tail]
    rfl

/-- The members kept beside those seen are the ones that are not seen and that no member before them is equal to. -/
theorem distinctFrom_eq (members seen : List Scalar) : distinctFrom seen members =
    ((List.finRange members.length).filter fun i => (members.get i).isIn seen = false ∧
      ∀ j < i, (members.get j).same (members.get i) = false).map members.get := by
  induction members generalizing seen with
  | nil => rfl
  | cons m rest ih =>
    have first : (∀ j < (0 : Fin (m :: rest).length), ((m :: rest).get j).same ((m :: rest).get 0) = false) ↔ True :=
      iff_true_intro fun j lt => absurd lt (Fin.not_lt_zero j)
    have later (i : Fin rest.length) : (∀ j : Fin (m :: rest).length, j < i.succ →
        ((m :: rest).get j).same ((m :: rest).get i.succ) = false) ↔
          m.same (rest.get i) = false ∧ ∀ j < i, (rest.get j).same (rest.get i) = false :=
      Fin.forall_fin_succ.trans (by simp [Fin.succ_lt_succ_iff])
    rw [distinctFrom, filter_places_cons]
    by_cases known : m.isIn seen = true
    · -- what is equal to a seen member is seen as well
      have unseen (i : Fin rest.length) (fresh : (rest.get i).isIn seen = false) : m.same (rest.get i) = false := by
        refine Bool.eq_false_iff.2 fun same => ?_
        rw [isIn_congr same, fresh] at known
        cases known
      rw [if_pos known, ih, if_neg (by simp [known]), List.nil_append]
      refine congrArg (List.map rest.get) (List.filter_congr fun i _ => decide_eq_decide.2 ?_)
      rw [later]
      exact ⟨fun ⟨fresh, apart⟩ => ⟨fresh, unseen i fresh, apart⟩, fun ⟨fresh, _, apart⟩ => ⟨fresh, apart⟩⟩
    · rw [if_neg known, ih, if_pos (decide_eq_true ⟨Bool.eq_false_iff.2 known, first.2 trivial⟩), List.singleton_append]
      refine congrArg (m :: ·) (congrArg (List.map rest.get) (List.filter_congr fun i _ => decide_eq_decide.2 ?_))
      rw [later, isIn, List.any_cons, Bool.or_eq_false_iff, ← isIn]
      exact ⟨fun ⟨⟨here, fresh⟩, apart⟩ => ⟨fresh, here, apart⟩, fun ⟨fresh, here, apart⟩ => ⟨⟨here, fresh⟩, apart⟩⟩

/-- What is kept of members are the first of equal ones. -/
theorem distinct_eq_firsts (members : List Scalar) : distinct members = firsts members := by
  rw [distinct, distinctFrom_eq, firsts]
  simp [isIn]

theorem firsts_sublist (members : List Scalar) : (firsts members).Sublist members := by
  have places := (List.filter_sublist (p := fun i : Fin members.length => decide
    (∀ j < i, (members.get j).same (members.get i) = false)) (l := List.finRange members.length)).map members.get
  rwa [List.map_get_finRange] at places

/-- No two of the first members are equal. -/
theorem firsts_pairwise (members : List Scalar) : (firsts members).Pairwise fun a b => a.same b = false := by
  rw [firsts, List.pairwise_map, List.pairwise_filter]
  refine (List.pairwise_lt_finRange _).imp fun {i j} lt _ first => ?_
  exact of_decide_eq_true first i lt

end Semijoin.Scalar
