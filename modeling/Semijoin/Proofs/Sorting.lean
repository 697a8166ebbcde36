import Mathlib.Data.List.Perm.Basic
import Semijoin.Sorting

/-!
# What sorting gives

Sorting evaluates the comparison only at a later item and an earlier one. Where it settles for all those pairs which
of the two goes first, and this is transitive, the items come out in that order, each once. To keep the order of items
of which neither is less is such an order too, so stability is no theorem of its own. A sort moves items by their
comparisons only, so it may be carried out on names for them.
-/

namespace Semijoin.Sorting
set_option autoImplicit false

variable {ε α : Type} {less : α → α → Except ε Bool} {goes : α → α → Prop}

/-- A comparison settles which of two items goes first: the second one if it is less, and else the first one. -/
def Settles (less : α → α → Except ε Bool) (goes : α → α → Prop) (a b : α) : Prop :=
  less b a = .ok true ∧ goes b a ∨ less b a = .ok false ∧ goes a b

/-- A comparison the other way round settles which of two items goes first: the second one if the first one is less. -/
def SettlesDown (less : α → α → Except ε Bool) (goes : α → α → Prop) (a b : α) : Prop :=
  less a b = .ok true ∧ goes b a ∨ less a b = .ok false ∧ goes a b

section Order

variable (trans : ∀ a b c, goes a b → goes b c → goes a c)
include trans

/-- An ascending run goes on in order, as it takes items that are not less than the last one. -/
theorem ascend_ordered {before : List α} {last : α} {items : List α}
    (run : (last :: before).reverse.Pairwise goes) (settled : (last :: items).Pairwise (Settles less goes)) :
    ∃ taken rest, ascend less before last items = .ok ((last :: before).reverse ++ taken, rest) ∧
      items = taken ++ rest ∧ ((last :: before).reverse ++ taken).Pairwise goes := by
  induction items generalizing before last with
  | nil => exact ⟨[], [], by simp [ascend], rfl, by simpa using run⟩
  | cons x rest ih =>
    obtain ⟨first, later⟩ := List.pairwise_cons.1 settled
    rcases first x (by simp) with ⟨less_, -⟩ | ⟨least, goes_⟩
    · exact ⟨[], x :: rest, by rw [ascend, less_, List.append_nil]; rfl, rfl, by rwa [List.append_nil]⟩
    · have run' : (x :: last :: before).reverse.Pairwise goes := by
        rw [List.pairwise_reverse] at run ⊢
        refine List.pairwise_cons.2 ⟨fun y mem => ?_, run⟩
        rcases List.mem_cons.1 mem with rfl | mem
        · exact goes_
        · exact trans _ _ _ (List.rel_of_pairwise_cons run mem) goes_
      obtain ⟨taken, rest', eq, rfl, ordered⟩ := ih run' later
      refine ⟨x :: taken, rest', ?_, rfl, by simpa using ordered⟩
      rw [ascend, least]
      exact eq.trans (by simp)

/-- A descending run, kept last first, goes on in order, as it takes items that are less than the last one. -/
theorem descend_ordered {before : List α} {last : α} {items : List α}
    (run : (last :: before).Pairwise goes) (settled : (last :: items).Pairwise (Settles less goes)) :
    ∃ taken rest, descend less before last items = .ok (taken.reverse ++ last :: before, rest) ∧
      items = taken ++ rest ∧ (taken.reverse ++ last :: before).Pairwise goes := by
  induction items generalizing before last with
  | nil => exact ⟨[], [], rfl, rfl, run⟩
  | cons x rest ih =>
    obtain ⟨first, later⟩ := List.pairwise_cons.1 settled
    rcases first x (by simp) with ⟨less_, goes_⟩ | ⟨least, -⟩
    · have run' : (x :: last :: before).Pairwise goes := by
        refine List.pairwise_cons.2 ⟨fun y mem => ?_, run⟩
        rcases List.mem_cons.1 mem with rfl | mem
        · exact goes_
        · exact trans _ _ _ goes_ (List.rel_of_pairwise_cons run mem)
      obtain ⟨taken, rest', eq, rfl, ordered⟩ := ih run' later
      refine ⟨x :: taken, rest', ?_, rfl, by simpa using ordered⟩
      rw [descend, less_]
      exact eq.trans (by simp)
    · exact ⟨[], x :: rest, by rw [descend, least]; rfl, rfl, run⟩

/-- The run at the head is made of the first items, in order. -/
theorem headRun_ordered {items : List α} (settled : items.Pairwise (Settles less goes)) :
    ∃ run taken rest, headRun less items = .ok (run, rest) ∧ items = taken ++ rest ∧ run.Perm taken ∧
      run.Pairwise goes := by
  match items with
  | [] => exact ⟨[], [], [], rfl, rfl, .refl _, .nil⟩
  | [x] => exact ⟨[x], [x], [], rfl, rfl, .refl _, List.pairwise_singleton _ _⟩
  | x :: y :: rest =>
    obtain ⟨first, later⟩ := List.pairwise_cons.1 settled
    rcases first y (by simp) with ⟨less_, goes_⟩ | ⟨least, goes_⟩
    · have run : [y, x].Pairwise goes := by simpa using goes_
      obtain ⟨taken, rest, eq, rfl, ordered⟩ := descend_ordered trans run later
      refine ⟨_, x :: y :: taken, rest, by rw [headRun, less_]; exact eq, rfl, ?_, ordered⟩
      have reversed : taken.reverse ++ [y, x] = (x :: y :: taken).reverse := by simp
      exact reversed ▸ List.reverse_perm _
    · have run : [y, x].reverse.Pairwise goes := by simpa using goes_
      obtain ⟨taken, rest, eq, rfl, ordered⟩ := ascend_ordered trans run later
      exact ⟨_, x :: y :: taken, rest, by rw [headRun, least]; exact eq, rfl, .refl _, ordered⟩

/-- Bisection finds where an item belongs. The items before the lower bound are known to go first, those from the upper
one on to go later. -/
theorem bisect_between {x : α} {sorted : List α} (ordered : sorted.Pairwise goes)
    (settled : ∀ y ∈ sorted, Settles less goes y x) {low high : Nat} (le : low ≤ high) (bound : high ≤ sorted.length)
    (first : ∀ y ∈ sorted.take low, goes y x) (later : ∀ y ∈ sorted.drop high, goes x y) :
    ∃ place, bisect less x sorted low high = .ok place ∧ (∀ y ∈ sorted.take place, goes y x) ∧
      ∀ y ∈ sorted.drop place, goes x y := by
  rw [bisect]
  by_cases open_ : low < high
  · rw [if_pos open_]
    have inside : (low + high) / 2 < sorted.length := by omega
    generalize middle : (low + high) / 2 = m at inside
    have at_ := List.getElem?_eq_getElem inside
    have parted := List.drop_eq_getElem_cons inside
    have taken := List.take_succ_eq_append_getElem inside
    generalize sorted[m] = y at at_ parted taken
    simp only [at_]
    have pairs := List.take_append_drop m sorted ▸ ordered
    rw [parted, List.pairwise_append, List.pairwise_cons] at pairs
    obtain ⟨-, ⟨follow, -⟩, precede⟩ := pairs
    rcases settled y (List.mem_of_getElem? at_) with ⟨less_, goes_⟩ | ⟨least, goes_⟩
    · rw [less_]
      refine bisect_between ordered settled (by omega) (by omega) first fun z mem => ?_
      rw [parted] at mem
      rcases List.mem_cons.1 mem with rfl | mem
      · exact goes_
      · exact trans _ _ _ goes_ (follow z mem)
    · rw [least]
      refine bisect_between ordered settled (by omega) (by omega) (fun z mem => ?_) later
      rw [taken] at mem
      rcases List.mem_append.1 mem with mem | mem
      · exact trans _ _ _ (precede z mem y (by simp)) goes_
      · rw [List.mem_singleton.1 mem]
        exact goes_
  · obtain rfl : low = high := by omega
    rw [if_neg open_]
    exact ⟨low, rfl, first, later⟩
termination_by high - low
decreasing_by all_goals omega

/-- Inserting items into a sorted list keeps it in order. -/
theorem insertAll_ordered {sorted items : List α} (ordered : sorted.Pairwise goes)
    (across : ∀ y ∈ sorted, ∀ x ∈ items, Settles less goes y x) (settled : items.Pairwise (Settles less goes)) :
    ∃ all, insertAll less sorted items = .ok all ∧ all.Perm (sorted ++ items) ∧ all.Pairwise goes := by
  induction items generalizing sorted with
  | nil => exact ⟨sorted, rfl, by simp, ordered⟩
  | cons x rest ih =>
    obtain ⟨first, later⟩ := List.pairwise_cons.1 settled
    obtain ⟨place, eq, before, behind⟩ := bisect_between trans ordered (fun y mem => across y mem x (by simp))
      (Nat.zero_le _) (Nat.le_refl _) (by simp) (by simp)
    have parts := List.take_append_drop place sorted
    have inserted : (sorted.take place ++ x :: sorted.drop place).Perm (x :: sorted) :=
      List.perm_middle.trans (by rw [parts])
    have ordered' : (sorted.take place ++ x :: sorted.drop place).Pairwise goes := by
      rw [← parts, List.pairwise_append] at ordered
      obtain ⟨left, right, cross⟩ := ordered
      refine List.pairwise_append.2 ⟨left, List.pairwise_cons.2 ⟨behind, right⟩, fun y mem z mem' => ?_⟩
      rcases List.mem_cons.1 mem' with rfl | mem'
      · exact before y mem
      · exact cross y mem z mem'
    have across' : ∀ y ∈ sorted.take place ++ x :: sorted.drop place, ∀ z ∈ rest, Settles less goes y z := by
      intro y mem z mem'
      rcases List.mem_cons.1 (inserted.mem_iff.1 mem) with rfl | mem
      · exact first z mem'
      · exact across y mem z (by simp [mem'])
    obtain ⟨all, done, perm, ordered⟩ := ih ordered' across' later
    refine ⟨all, by rw [insertAll, eq]; exact done, ?_, ordered⟩
    exact perm.trans ((inserted.append_right rest).trans List.perm_middle.symm)

/-- **A sort orders a list** by what its comparison settles. -/
theorem sort_ordered {items : List α} (settled : items.Pairwise (Settles less goes)) :
    ∃ sorted, sort less items = .ok sorted ∧ sorted.Perm items ∧ sorted.Pairwise goes := by
  obtain ⟨run, taken, rest, eq, rfl, perm, ordered⟩ := headRun_ordered trans settled
  obtain ⟨-, later, across⟩ := List.pairwise_append.1 settled
  obtain ⟨sorted, done, perm', ordered'⟩ :=
    insertAll_ordered trans ordered (fun y mem => across y (perm.mem_iff.1 mem)) later
  exact ⟨sorted, by rw [sort, eq]; exact done, perm'.trans (perm.append_right rest), ordered'⟩

/-- **A sort from the greatest to the least** lets the first of two items go first, unless it is less. -/
theorem sortDown_ordered {items : List α} (settled : items.Pairwise (SettlesDown less goes)) :
    ∃ sorted, sortDown less items = .ok sorted ∧ sorted.Perm items ∧ sorted.Pairwise goes := by
  have back : items.reverse.Pairwise (Settles less fun a b => goes b a) := List.pairwise_reverse.2 settled
  obtain ⟨sorted, eq, perm, ordered⟩ := sort_ordered (fun a b c ab bc => trans c b a bc ab) back
  refine ⟨sorted.reverse, by rw [sortDown, eq]; rfl, ?_, List.pairwise_reverse.2 ordered⟩
  exact (List.reverse_perm _).trans (perm.trans (List.reverse_perm _))

end Order

section Decided

variable {items : List α}

/-- A sort has a result where its comparison has one for every later item and earlier one. -/
theorem exists_sort (decided : items.Pairwise fun a b => ∃ r, less b a = .ok r) :
    ∃ sorted, sort less items = .ok sorted ∧ sorted.Perm items := by
  have settled : items.Pairwise (Settles less fun _ _ => True) := decided.imp fun ⟨r, eq⟩ => by
    cases r <;> simp [Settles, eq]
  obtain ⟨sorted, eq, perm, -⟩ := sort_ordered (fun _ _ _ _ _ => trivial) settled
  exact ⟨sorted, eq, perm⟩

theorem exists_sortDown (decided : items.Pairwise fun a b => ∃ r, less a b = .ok r) :
    ∃ sorted, sortDown less items = .ok sorted ∧ sorted.Perm items := by
  obtain ⟨sorted, eq, perm⟩ := exists_sort (List.pairwise_reverse.2 decided)
  exact ⟨sorted.reverse, by rw [sortDown, eq]; rfl,
    (List.reverse_perm _).trans (perm.trans (List.reverse_perm _))⟩

end Decided

section Naming

variable {ι : Type} (name : ι → α)

/-- The comparison of names by what they name. -/
def byName (less : α → α → Except ε Bool) (i j : ι) : Except ε Bool := less (name i) (name j)

/-- What a run of names and the names after it stand for. -/
def runNamed (run : List ι × List ι) : List α × List α := (run.1.map name, run.2.map name)

theorem ascend_map (before : List ι) (last : ι) (items : List ι) :
    ascend less (before.map name) (name last) (items.map name) =
      (ascend (byName name less) before last items).map (runNamed name) := by
  induction items generalizing before last with
  | nil => simp [ascend, Except.map, runNamed]
  | cons x rest ih =>
    rw [List.map_cons, ascend, ascend, byName]
    cases less (name x) (name last) with
    | error e => rfl
    | ok r =>
      cases r with
      | true =>
        show Except.ok _ = Except.ok _
        simp [runNamed]
      | false => exact ih (last :: before) x

theorem descend_map (before : List ι) (last : ι) (items : List ι) :
    descend less (before.map name) (name last) (items.map name) =
      (descend (byName name less) before last items).map (runNamed name) := by
  induction items generalizing before last with
  | nil => simp [descend, Except.map, runNamed]
  | cons x rest ih =>
    rw [List.map_cons, descend, descend, byName]
    cases less (name x) (name last) with
    | error e => rfl
    | ok r =>
      cases r with
      | true => exact ih (last :: before) x
      | false => rfl

theorem headRun_map (items : List ι) :
    headRun less (items.map name) = (headRun (byName name less) items).map (runNamed name) := by
  match items with
  | [] | [_] => rfl
  | x :: y :: rest =>
    rw [List.map_cons, List.map_cons, headRun, headRun, byName]
    cases less (name y) (name x) with
    | error e => rfl
    | ok r =>
      cases r with
      | true => exact descend_map name [x] y rest
      | false => exact ascend_map name [x] y rest

theorem bisect_map (x : ι) (sorted : List ι) (low high : Nat) :
    bisect less (name x) (sorted.map name) low high = bisect (byName name less) x sorted low high := by
  rw [bisect, bisect]
  by_cases open_ : low < high
  · rw [if_pos open_, if_pos open_]
    simp only [List.getElem?_map]
    cases sorted[(low + high) / 2]? with
    | none => rfl
    | some y =>
      show (do if ← less (name x) (name y) then _ else _) = do if ← less (name x) (name y) then _ else _
      cases less (name x) (name y) with
      | error e => rfl
      | ok r =>
        cases r with
        | true => exact bisect_map x sorted low ((low + high) / 2)
        | false => exact bisect_map x sorted ((low + high) / 2 + 1) high
  · rw [if_neg open_, if_neg open_]
termination_by high - low
decreasing_by all_goals omega

theorem insertAll_map (sorted items : List ι) :
    insertAll less (sorted.map name) (items.map name) =
      (insertAll (byName name less) sorted items).map (List.map name) := by
  induction items generalizing sorted with
  | nil => rfl
  | cons x rest ih =>
    rw [List.map_cons, insertAll, insertAll, List.length_map, bisect_map]
    cases bisect (byName name less) x sorted 0 sorted.length with
    | error e => rfl
    | ok place =>
      have inserted : (sorted.take place ++ x :: sorted.drop place).map name =
          (sorted.map name).take place ++ name x :: (sorted.map name).drop place := by simp
      have step := ih (sorted.take place ++ x :: sorted.drop place)
      rw [inserted] at step
      exact step

/-- **What is named is sorted as the names are** by the comparison of what they name. -/
theorem sort_map (items : List ι) :
    sort less (items.map name) = (sort (byName name less) items).map (List.map name) := by
  rw [sort, sort, headRun_map]
  cases headRun (byName name less) items with
  | error e => rfl
  | ok run => exact insertAll_map name run.1 run.2

theorem sortDown_map (items : List ι) :
    sortDown less (items.map name) = (sortDown (byName name less) items).map (List.map name) := by
  rw [sortDown, sortDown, ← List.map_reverse, sort_map]
  cases sort (byName name less) items.reverse with
  | error e => rfl
  | ok sorted => exact congrArg Except.ok List.map_reverse.symm

end Naming

end Semijoin.Sorting
