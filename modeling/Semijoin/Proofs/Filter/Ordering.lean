import Semijoin.Filter.Window
import Semijoin.Proofs.Path.Visits
import Semijoin.Proofs.Sorting
import Semijoin.Proofs.Value.Rank

/-!
# One lexicographic order

Items are sorted clause by clause, the minor clauses first. That comes to one order of their places: the first clause
that tells two items apart decides, and where none does, the place. Sorting by a clause keeps items that tie in the
order of the clauses after it, which is the induction; the values that a clause reads are only compared two by two, so
nothing is asked of a value on its own but that it holds no NaN.
-/

namespace Semijoin
set_option autoImplicit false

namespace Window

/-- A field value is below another one: it is less, or only the other one is null. -/
def Below (v w : Value) : Prop := v.isNull = false ∧ (w.isNull = true ∨ v.compare .lt w = .ok true)

instance (v w : Value) : Decidable (Below v w) :=
  decidable_of_iff
    (v.isNull = false ∧
      (w.isNull = true ∨ (match v.compare .lt w with | .ok less => less | .error _ => false) = true)) (by
    unfold Below
    cases v.compare .lt w <;> simp)

/-- Two field values can be put in order: one is null, or they can be compared to each other. -/
def Orderable (v w : Value) : Prop := v.isNull = true ∨ w.isNull = true ∨ v.Comparable w ∧ w.Comparable v

instance (v w : Value) : Decidable (Orderable v w) := inferInstanceAs (Decidable (_ ∨ _ ∨ _ ∧ _))

/-- False is below true. -/
def falseFirst (a b : Bool) : Bool := !a && b

theorem total_falseFirst : Total falseFirst where
  asymm {a b} := by cases a <;> cases b <;> simp [falseFirst]
  trans {a b c} := by cases a <;> cases b <;> cases c <;> simp [falseFirst]
  eq_of_not_lt {a b} := by cases a <;> cases b <;> simp [falseFirst]

/-- The order of two field values, with null above all others. -/
def keyOrder? (v w : Value) : Option Ordering := lexOrder? (some (orderOf falseFirst v.isNull w.isNull)) (v.order? w)

section Keys

variable {v w : Value} {o : Ordering}

theorem keyOrder?_swap (v w : Value) : keyOrder? w v = (keyOrder? v w).map Ordering.swap := by
  rw [keyOrder?, keyOrder?, ← lexOrder?_swap, Value.order?_swap v w, Option.map_some, total_falseFirst.orderOf_swap]

theorem keyOrder?_fit (u v w : Value) : Fit (keyOrder? u v) (keyOrder? v w) (keyOrder? u w) :=
  (Fit.of_total total_falseFirst _ _ _).lex (Value.order?_fit u v w)

theorem same_null (v : Value) : v.same .null = v.isNull ∧ Value.null.same v = v.isNull := by
  cases v with
  | scalar s => cases s <;> exact ⟨rfl, rfl⟩
  | _ => exact ⟨rfl, rfl⟩

/-- Field values are in order by null alone, or both are other values in order. -/
theorem keyOrder?_cases (h : keyOrder? v w = some o) :
    (v = .null ∧ w = .null ∧ o = .eq) ∨ (v.isNull = false ∧ w = .null ∧ o = .lt) ∨
      (v = .null ∧ w.isNull = false ∧ o = .gt) ∨ (v.isNull = false ∧ w.isNull = false ∧ v.order? w = some o) := by
  rw [keyOrder?] at h
  cases hv : v.isNull <;> cases hw : w.isNull <;> rw [hv, hw] at h
  · exact .inr (.inr (.inr ⟨rfl, rfl, h⟩))
  · exact .inr (.inl ⟨rfl, Value.isNull_iff.1 hw, (Option.some.inj h).symm⟩)
  · exact .inr (.inr (.inl ⟨Value.isNull_iff.1 hv, rfl, (Option.some.inj h).symm⟩))
  · obtain rfl := Value.isNull_iff.1 hv
    obtain rfl := Value.isNull_iff.1 hw
    exact .inl ⟨rfl, rfl, (Option.some.inj h).symm⟩

theorem same_iff (h : keyOrder? v w = some o) : v.same w = true ↔ o = .eq := by
  rcases keyOrder?_cases h with ⟨rfl, rfl, rfl⟩ | ⟨hv, rfl, rfl⟩ | ⟨rfl, hw, rfl⟩ | ⟨hv, hw, order⟩
  · exact ⟨fun _ => rfl, fun _ => rfl⟩
  · simp [(same_null v).1, hv]
  · simp [(same_null w).2, hw]
  · rw [(Value.order?_tells v w order).tie, beq_iff_eq]

theorem below_iff (h : keyOrder? v w = some o) : Below v w ↔ o = .lt := by
  rcases keyOrder?_cases h with ⟨rfl, rfl, rfl⟩ | ⟨hv, rfl, rfl⟩ | ⟨rfl, hw, rfl⟩ | ⟨hv, hw, order⟩
  · simp [Below, Value.isNull]
  · exact ⟨fun _ => rfl, fun _ => ⟨hv, .inl rfl⟩⟩
  · simp [Below, Value.isNull]
  · have tells := Value.order?_tells v w order
    constructor
    · rintro ⟨-, null | less⟩
      · rw [hw] at null
        cases null
      · exact tells.below less
    · rintro rfl
      exact ⟨hv, .inr (tells.apart (by simp))⟩

/-- The comparison that items are sorted by is that of the order. -/
theorem keyLess_eq (h : keyOrder? v w = some o) : keyLess v w = .ok (o == .lt) := by
  unfold keyLess
  rcases keyOrder?_cases h with ⟨rfl, rfl, rfl⟩ | ⟨hv, rfl, rfl⟩ | ⟨rfl, hw, rfl⟩ | ⟨hv, hw, order⟩
  · rfl
  · rw [hv]; rfl
  · rw [hw]; rfl
  · have tells := Value.order?_tells v w order
    rw [hv, hw, tells.tie]
    cases o with
    | eq => rfl
    | lt | gt => exact tells.apart (by simp)

/-- Values that can be put in order have one, if they hold no NaN. -/
theorem exists_keyOrder (orderable : Orderable v w) (hv : v.holdsNan = false) (hw : w.holdsNan = false) :
    ∃ o, keyOrder? v w = some o := by
  unfold keyOrder?
  cases nullV : v.isNull <;> cases nullW : w.isNull
  · rcases orderable with null | null | ⟨there, back⟩
    · rw [nullV] at null
      cases null
    · rw [nullW] at null
      cases null
    · exact Value.exists_order v w there back hv hw
  · exact ⟨_, rfl⟩
  · exact ⟨_, rfl⟩
  · rw [Value.isNull_iff.1 nullV, Value.isNull_iff.1 nullW]
    exact ⟨_, rfl⟩

end Keys

variable [Attributes]

namespace Clause

variable (c : Clause)

/-- A clause puts an item before another one, as its field goes up or down. -/
def Precedes (a b : Value) : Prop :=
  if c.descending then Below (b.under c.field) (a.under c.field) else Below (a.under c.field) (b.under c.field)

/-- A clause does not tell two items apart. -/
def Ties (a b : Value) : Prop := (a.under c.field).same (b.under c.field) = true

/-- Every two of some items can be put in order by a clause. -/
def Compares (items : List Value) : Prop := items.Pairwise fun a b => Orderable (a.under c.field) (b.under c.field)

instance (a b : Value) : Decidable (c.Precedes a b) :=
  inferInstanceAs (Decidable (if c.descending then Below _ _ else Below _ _))

instance (a b : Value) : Decidable (c.Ties a b) := inferInstanceAs (Decidable (_ = true))

instance (items : List Value) : Decidable (c.Compares items) := inferInstanceAs (Decidable (items.Pairwise _))

/-- The order in which a clause puts two items. -/
def order? (a b : Value) : Option Ordering :=
  if c.descending then keyOrder? (b.under c.field) (a.under c.field) else keyOrder? (a.under c.field) (b.under c.field)

theorem order?_swap (a b : Value) : c.order? b a = (c.order? a b).map Ordering.swap := by
  rw [order?, order?]
  split <;> exact keyOrder?_swap _ _

theorem order?_fit (a b d : Value) : Fit (c.order? a b) (c.order? b d) (c.order? a d) := by
  rw [order?, order?, order?]
  split
  · exact (keyOrder?_fit _ _ _).comm
  · exact keyOrder?_fit _ _ _

variable {c} {a b : Value} {o : Ordering}

theorem precedes_iff (h : c.order? a b = some o) : c.Precedes a b ↔ o = .lt := by
  rw [order?] at h
  rw [Precedes]
  split at h <;> simp only [*, if_true, Bool.false_eq_true, if_false] <;> exact below_iff h

theorem ties_iff (h : c.order? a b = some o) : c.Ties a b ↔ o = .eq := by
  rw [order?] at h
  rw [Ties]
  split at h
  · have back : keyOrder? (a.under c.field) (b.under c.field) = some o.swap := by rw [keyOrder?_swap, h]; rfl
    rw [same_iff back, Ordering.swap_eq_eq]
  · exact same_iff h

end Clause

section Places

variable (items : List Value)

/-- The item of one place goes before that of another one: by the first clause that tells them apart, or else in the
order of the places. -/
def Before : List Clause → Fin items.length → Fin items.length → Prop
  | [], i, j => i < j
  | c :: minor, i, j => c.Precedes items[i] items[j] ∨ c.Ties items[i] items[j] ∧ Before minor i j

instance decidableBefore : (cs : List Clause) → (i j : Fin items.length) → Decidable (Before items cs i j)
  | [], i, j => inferInstanceAs (Decidable (i < j))
  | c :: minor, i, j =>
    have := decidableBefore minor i j
    inferInstanceAs (Decidable (c.Precedes items[i] items[j] ∨ c.Ties items[i] items[j] ∧ Before items minor i j))

/-- An arrangement of items by clauses: every place once, in the order of the clauses. -/
structure Arranges (cs : List Clause) (places : List (Fin items.length)) : Prop where
  once : places.Perm (List.finRange items.length)
  ordered : places.Pairwise (Before items cs)

omit [Attributes] in
theorem total_places {n : Nat} : Total fun i j : Fin n => decide (i < j) where
  asymm h := decide_eq_false (Fin.lt_asymm (of_decide_eq_true h))
  trans h h' := decide_eq_true (Fin.lt_trans (of_decide_eq_true h) (of_decide_eq_true h'))
  eq_of_not_lt h h' :=
    Fin.le_antisymm (Fin.not_lt.1 (of_decide_eq_false h')) (Fin.not_lt.1 (of_decide_eq_false h))

/-- The order of two places. -/
def placeOrder? : List Clause → Fin items.length → Fin items.length → Option Ordering
  | [], i, j => some (orderOf (fun i j => decide (i < j)) i j)
  | c :: minor, i, j => lexOrder? (c.order? items[i] items[j]) (placeOrder? minor i j)

/-- Clauses put every two items in some order. -/
def Settled (cs : List Clause) : Prop :=
  ∀ c ∈ cs, ∀ i j : Fin items.length, i ≠ j → ∃ o, c.order? items[i] items[j] = some o

variable {items} {cs : List Clause} {i j k : Fin items.length}

theorem placeOrder?_swap (cs : List Clause) (i j : Fin items.length) :
    placeOrder? items cs j i = (placeOrder? items cs i j).map Ordering.swap := by
  induction cs with
  | nil => rw [placeOrder?, placeOrder?, Option.map_some, total_places.orderOf_swap]
  | cons c minor ih => rw [placeOrder?, placeOrder?, c.order?_swap items[i], ih, lexOrder?_swap]

theorem placeOrder?_fit (cs : List Clause) (i j k : Fin items.length) :
    Fit (placeOrder? items cs i j) (placeOrder? items cs j k) (placeOrder? items cs i k) := by
  induction cs with
  | nil => exact Fit.of_total total_places i j k
  | cons c minor ih => exact (c.order?_fit items[i] items[j] items[k]).lex ih

theorem before_iff {o : Ordering} (h : placeOrder? items cs i j = some o) : Before items cs i j ↔ o = .lt := by
  induction cs generalizing o with
  | nil =>
    cases h
    rw [Before, orderOf_eq_lt, decide_eq_true_eq]
  | cons c minor ih =>
    obtain ⟨x, y, first, later, rfl⟩ := lexOrder?_eq_some.1 h
    rw [Before, Clause.precedes_iff first, Clause.ties_iff first]
    cases x with
    | eq => simpa using ih (later rfl)
    | lt | gt => simp

theorem Settled.exists_order (settled : Settled items cs) (apart : i ≠ j) : ∃ o, placeOrder? items cs i j = some o := by
  induction cs with
  | nil => exact ⟨_, rfl⟩
  | cons c minor ih =>
    obtain ⟨x, first⟩ := settled c (by simp) i j apart
    obtain ⟨y, later⟩ := ih fun d mem => settled d (by simp [mem])
    exact ⟨x.then y, lexOrder?_eq_some.2 ⟨x, y, first, fun _ => later, rfl⟩⟩

/-- Of two places, one goes before the other, and not the other way round. -/
theorem Settled.before_asymm (settled : Settled items cs) (apart : i ≠ j) (h : Before items cs i j) :
    ¬ Before items cs j i := by
  obtain ⟨o, order⟩ := settled.exists_order apart
  obtain rfl := (before_iff order).1 h
  have back : placeOrder? items cs j i = some .gt := by rw [placeOrder?_swap, order]; rfl
  rw [before_iff back]
  simp

theorem Settled.before_trans (settled : Settled items cs) (i j k : Fin items.length) (ij : Before items cs i j)
    (jk : Before items cs j k) : Before items cs i k := by
  by_cases first : i = j
  · exact first ▸ jk
  · by_cases second : j = k
    · exact second ▸ ij
    · by_cases outer : i = k
      · subst outer
        exact absurd jk (settled.before_asymm first ij)
      · obtain ⟨a, orderIJ⟩ := settled.exists_order first
        obtain ⟨b, orderJK⟩ := settled.exists_order second
        obtain ⟨c, orderIK⟩ := settled.exists_order outer
        obtain rfl := (before_iff orderIJ).1 ij
        obtain rfl := (before_iff orderJK).1 jk
        rw [before_iff orderIK]
        exact placeOrder?_fit cs i j k _ _ _ orderIJ orderJK orderIK (.inr (.inr rfl))

/-- There is one arrangement at most. -/
theorem Settled.arranges_unique (settled : Settled items cs) {places places' : List (Fin items.length)}
    (h : Arranges items cs places) (h' : Arranges items cs places') : places = places' := by
  refine (h.once.trans h'.once.symm).eq_of_pairwise (fun i j _ _ ij ji => ?_) h.ordered h'.ordered
  by_contra apart
  exact settled.before_asymm apart ij ji

/-- Clauses that can compare all items put every two in order, if the fields hold no NaN. -/
theorem settled_of_compares (compares : ∀ c ∈ cs, c.Compares items)
    (numbers : ∀ c ∈ cs, ∀ a ∈ items, (a.under c.field).holdsNan = false) : Settled items cs := by
  have below (c : Clause) (mem : c ∈ cs) (i j : Fin items.length) (lt : i < j) :
      ∃ o, c.order? items[i] items[j] = some o := by
    have orderable := List.pairwise_iff_getElem.1 (compares c mem) i j i.2 j.2 lt
    have numberI := numbers c mem items[i] (List.getElem_mem i.2)
    have numberJ := numbers c mem items[j] (List.getElem_mem j.2)
    obtain ⟨o, order⟩ := exists_keyOrder orderable numberI numberJ
    rw [Clause.order?]
    split
    · exact ⟨o.swap, by rw [keyOrder?_swap]; exact congrArg _ order⟩
    · exact ⟨o, order⟩
  intro c mem i j apart
  rcases Fin.lt_or_lt_of_ne apart with lt | gt
  · exact below c mem i j lt
  · obtain ⟨o, order⟩ := below c mem j i gt
    exact ⟨o.swap, by rw [c.order?_swap items[j], order]; rfl⟩

end Places

section Sorted

variable {items : List Value} {cs : List Clause}

/-- The comparison of items by a clause that ascends. -/
def Clause.less (c : Clause) (a b : Value) : Except Fault Bool := keyLess (a.under c.field) (b.under c.field)

/-- Items are sorted as they are, although the fields they are sorted by stand beside them. -/
theorem sortBy_eq (c : Clause) (items : List Value) : sortBy c items =
    if c.descending then Sorting.sortDown c.less items else Sorting.sort c.less items := by
  let beside (item : Value) : Value × Value := (item.under c.field, item)
  let byField (a b : Value × Value) : Except Fault Bool := keyLess a.1 b.1
  have paired : keyed c.field items = .ok (items.map beside) :=
    mapM_ok fun item _ => by rw [Value.field_eq_under]; rfl
  have bare (sorted : Except Fault (List Value)) : (sorted.map (List.map beside)).map (List.map (·.2)) = sorted := by
    cases sorted with
    | error f => rfl
    | ok items => simp [Except.map, beside, Function.comp_def]
  rw [sortBy, paired]
  cases c.descending with
  | false =>
    show (Sorting.sort byField (items.map beside)).map (List.map (·.2)) = _
    rw [Sorting.sort_map, bare]
    rfl
  | true =>
    show (Sorting.sortDown byField (items.map beside)).map (List.map (·.2)) = _
    rw [Sorting.sortDown_map, bare]
    rfl

/-- A sort by a clause finds the second of two items less, or when it descends the first one, if they are out of order. -/
theorem Clause.less_eq {c : Clause} {a b : Value} {o : Ordering} (h : c.order? a b = some o) :
    (if c.descending then c.less a b else c.less b a) = .ok (o == .gt) := by
  have swapped : (o == .gt) = (o.swap == .lt) := by cases o <;> rfl
  rw [order?] at h
  rw [swapped]
  cases down : c.descending <;> rw [down] at h <;> exact keyLess_eq (by rw [keyOrder?_swap]; exact congrArg _ h)

/-- One more clause, the major one of all so far: items that it does not tell apart stay in the order of the others. -/
theorem sortBy_places {c : Clause} (settled : Settled items (c :: cs)) {places : List (Fin items.length)}
    (once : places.Nodup) (ordered : places.Pairwise (Before items cs)) :
    ∃ sorted : List (Fin items.length), sortBy c (places.map items.get) = .ok (sorted.map items.get) ∧
      sorted.Perm places ∧ sorted.Pairwise (Before items (c :: cs)) := by
  let out (i j : Fin items.length) : Except Fault Bool :=
    if c.descending then c.less items[i] items[j] else c.less items[j] items[i]
  have pairs : places.Pairwise fun i j => out i j = .ok true ∧ Before items (c :: cs) j i ∨
      out i j = .ok false ∧ Before items (c :: cs) i j := by
    refine (once.and ordered).imp fun {i j} ⟨apart, before⟩ => ?_
    obtain ⟨o, order⟩ := settled c (by simp) i j apart
    have asked : out i j = .ok (o == .gt) := Clause.less_eq order
    cases o with
    | lt => exact .inr ⟨asked, .inl ((Clause.precedes_iff order).2 rfl)⟩
    | eq => exact .inr ⟨asked, .inr ⟨(Clause.ties_iff order).2 rfl, before⟩⟩
    | gt =>
      have back : c.order? items[j] items[i] = some .lt := by rw [c.order?_swap items[i], order]; rfl
      exact .inl ⟨asked, .inl ((Clause.precedes_iff back).2 rfl)⟩
  rw [sortBy_eq]
  cases down : c.descending with
  | false =>
    simp only [out, down] at pairs
    have settles : places.Pairwise (Sorting.Settles (Sorting.byName items.get c.less) (Before items (c :: cs))) := pairs
    obtain ⟨sorted, eq, perm, ordered⟩ := Sorting.sort_ordered settled.before_trans settles
    exact ⟨sorted, by rw [if_neg Bool.false_ne_true, Sorting.sort_map, eq]; rfl, perm, ordered⟩
  | true =>
    simp only [out, down] at pairs
    have settles : places.Pairwise (Sorting.SettlesDown (Sorting.byName items.get c.less) (Before items (c :: cs))) :=
      pairs
    obtain ⟨sorted, eq, perm, ordered⟩ := Sorting.sortDown_ordered settled.before_trans settles
    exact ⟨sorted, by rw [if_pos rfl, Sorting.sortDown_map, eq]; rfl, perm, ordered⟩

/-- The clauses that values write, one by one. -/
def Reads (vs : List Value) (cs : List Clause) : Prop := List.Forall₂ (fun v c => Clause.ofValue? v = some c) vs cs

theorem sortByAll_cons {v : Value} {c : Clause} (read : Clause.ofValue? v = some c) (order : Value)
    (items rest : List Value) : sortByAll order (.list items) (v :: rest) =
      liftFault (sortBy c items) >>= fun sorted => sortByAll order (.list sorted) rest := by
  rw [sortByAll, read]
  rfl

theorem sortByAll_blank {v : Value} (blank : Clause.ofValue? v = none) (order items : Value) (rest : List Value) :
    sortByAll order items (v :: rest) = .error (.malformedFilter ("Empty order clause in " ++ order.quoted)) := by
  rw [sortByAll, blank]
  rfl

/-- Clauses are sorted by one after the other. -/
theorem sortByAll_append (order : Value) (items vs ws : List Value) : sortByAll order (.list items) (vs ++ ws) =
    sortByAll order (.list items) vs >>= fun sorted => sortByAll order sorted ws := by
  induction vs generalizing items with
  | nil => rfl
  | cons v rest ih =>
    rw [List.cons_append]
    cases read : Clause.ofValue? v with
    | none =>
      rw [sortByAll_blank read, sortByAll_blank read]
      rfl
    | some c =>
      rw [sortByAll_cons read, sortByAll_cons read]
      cases sortBy c items with
      | error f => rfl
      | ok sorted => exact ih sorted

/-- **Sorting clause by clause is one sort**: the places come out in the order of all clauses. -/
theorem sortByAll_places (order : Value) {vs : List Value} (reads : Reads vs cs) (settled : Settled items cs) :
    ∃ places, Arranges items cs places ∧
      sortByAll order (.list items) vs.reverse = .ok (.list (places.map items.get)) := by
  induction reads with
  | nil =>
    exact ⟨List.finRange items.length, ⟨.refl _, List.pairwise_lt_finRange _⟩, by rw [List.map_get_finRange]; rfl⟩
  | @cons v c vs minor read _ ih =>
    obtain ⟨places, ⟨once, ordered⟩, eq⟩ := ih fun d mem => settled d (by simp [mem])
    obtain ⟨sorted, eq', perm, ordered'⟩ :=
      sortBy_places settled (once.nodup_iff.2 (List.nodup_finRange _)) ordered
    refine ⟨sorted, ⟨perm.trans once, ordered'⟩, ?_⟩
    rw [List.reverse_cons, sortByAll_append, eq]
    show sortByAll order (.list (places.map items.get)) [v] = _
    rw [sortByAll_cons read, eq']
    rfl

end Sorted

section Outcome

variable {items : List Value}

omit [Attributes] in
theorem Orderable.symm {v w : Value} (h : Orderable v w) : Orderable w v := by
  rcases h with null | null | ⟨there, back⟩
  · exact .inr (.inl null)
  · exact .inl null
  · exact .inr (.inr ⟨back, there⟩)

omit [Attributes] in
/-- Values that can be put in order can be sorted by, NaN or not. -/
theorem Orderable.exists_keyLess {v w : Value} (h : Orderable v w) : ∃ less, keyLess v w = .ok less := by
  unfold keyLess
  cases nullV : v.isNull <;> cases nullW : w.isNull
  · rcases h with null | null | ⟨there, -⟩
    · rw [nullV] at null
      cases null
    · rw [nullW] at null
      cases null
    · by_cases tie : v.same w = true
      · exact ⟨false, by rw [tie]; rfl⟩
      · obtain ⟨less, eq⟩ := there.resolve_left tie
        exact ⟨less, by rw [Bool.not_eq_true] at tie; rw [tie]; exact eq⟩
  · exact ⟨true, rfl⟩
  · exact ⟨false, rfl⟩
  · rw [Value.isNull_iff.1 nullV, Value.isNull_iff.1 nullW]
    exact ⟨false, rfl⟩

/-- Items that a clause can compare are sorted by it without loss. -/
theorem exists_sortBy {c : Clause} (compares : c.Compares items) :
    ∃ kept, sortBy c items = .ok kept ∧ kept.Perm items := by
  rw [sortBy_eq]
  cases c.descending with
  | false => exact Sorting.exists_sort (compares.imp fun orderable => orderable.symm.exists_keyLess)
  | true => exact Sorting.exists_sortDown (compares.imp fun orderable => orderable.exists_keyLess)

/-- Sorting by values that write clauses comes to a list, unless one of them is blank. -/
theorem sortByAll_outcome (order : Value) {vs : List Value}
    (compares : ∀ v ∈ vs, ∀ c, Clause.ofValue? v = some c → c.Compares items) :
    (∀ v ∈ vs, ∃ c, Clause.ofValue? v = some c) ∧ (∃ kept, sortByAll order (.list items) vs = .ok (.list kept)) ∨
    (∃ v ∈ vs, Clause.ofValue? v = none) ∧
      ∃ reason, sortByAll order (.list items) vs = .error (.malformedFilter reason) := by
  induction vs generalizing items with
  | nil => exact .inl ⟨by simp, items, rfl⟩
  | cons v rest ih =>
    cases read : Clause.ofValue? v with
    | none => exact .inr ⟨⟨v, by simp, read⟩, _, sortByAll_blank read _ _ _⟩
    | some c =>
      obtain ⟨kept, eq, perm⟩ := exists_sortBy (compares v (by simp) c read)
      have compares' : ∀ w ∈ rest, ∀ d, Clause.ofValue? w = some d → d.Compares kept := fun w mem d reads =>
        (perm.pairwise_iff fun orderable => orderable.symm).2 (compares w (by simp [mem]) d reads)
      have step : sortByAll order (.list items) (v :: rest) = sortByAll order (.list kept) rest := by
        rw [sortByAll_cons read, eq]
        rfl
      rw [step]
      rcases ih compares' with ⟨all, sorted⟩ | ⟨⟨w, mem, blank⟩, malformed⟩
      · exact .inl ⟨List.forall_mem_cons.2 ⟨⟨c, read⟩, all⟩, sorted⟩
      · exact .inr ⟨⟨w, by simp [mem], blank⟩, malformed⟩

end Outcome

end Window

end Semijoin
