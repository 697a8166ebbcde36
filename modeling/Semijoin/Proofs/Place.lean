import Mathlib.Data.List.Nodup

/-!
# What there is at places

A place is a list of numbers, and places are ordered as they are read: lexicographically. What a walk over a tree
collects is said by what there is at which place, and so is what it fails with: the first that there is.
-/

namespace Semijoin
set_option autoImplicit false

section Numbered

variable {α β : Type} {part : α → List Nat → β → Prop} {l : List α} {start : Nat} {p p' : List Nat} {b b' : β}

/-- What there is for the members of a list: for the first, or for the others under the numbers that follow. -/
theorem numbered_cons {x : α} :
    ((∃ q, p = start :: q ∧ part x q b) ∨ ∃ i y q, l[i]? = some y ∧ p = (start + 1 + i) :: q ∧ part y q b) ↔
      ∃ i y q, (x :: l)[i]? = some y ∧ p = (start + i) :: q ∧ part y q b := by
  constructor
  · rintro (⟨q, rfl, held⟩ | ⟨i, y, q, at_, rfl, held⟩)
    · exact ⟨0, x, q, rfl, rfl, held⟩
    · exact ⟨i + 1, y, q, at_, by rw [Nat.add_right_comm, Nat.add_assoc], held⟩
  · rintro ⟨i, y, q, at_, rfl, held⟩
    cases i with
    | zero =>
      cases at_
      exact .inl ⟨q, rfl, held⟩
    | succ i => exact .inr ⟨i, y, q, at_, by rw [Nat.add_right_comm, Nat.add_assoc], held⟩

/-- Places under a number come before those under the numbers that follow. -/
theorem under_lt {first : List Nat → β → Prop} (here : ∃ q, p = start :: q ∧ first q b)
    (later : ∃ i y q, l[i]? = some y ∧ p' = (start + 1 + i) :: q ∧ part y q b') : p < p' := by
  obtain ⟨q, rfl, -⟩ := here
  obtain ⟨i, y, q', -, rfl, -⟩ := later
  exact List.cons_lt_cons_iff.2 (.inl (by omega))

end Numbered

/-- A list holds exactly what there is at some places: each once, and in the order of the places. -/
def Exactly {β : Type} (there : List Nat → β → Prop) (found : List β) : Prop :=
  ∃ placed : List (List Nat × β), found = placed.map (·.2) ∧ (placed.map (·.1)).Pairwise (· < ·) ∧
    ∀ place b, (place, b) ∈ placed ↔ there place b

namespace Exactly

variable {α β : Type} {there there' : List Nat → β → Prop} {found found' : List β}

theorem congr (h : Exactly there found) (same : ∀ place b, there place b ↔ there' place b) : Exactly there' found := by
  obtain ⟨placed, eq, ordered, iff⟩ := h
  exact ⟨placed, eq, ordered, fun place b => (iff place b).trans (same place b)⟩

theorem nothing (none : ∀ place b, ¬ there place b) : Exactly there [] :=
  ⟨[], rfl, .nil, fun place b => by simp [none place b]⟩

theorem one (place : List Nat) {b : β} (only : ∀ p x, there p x ↔ p = place ∧ x = b) : Exactly there [b] :=
  ⟨[(place, b)], rfl, by simp, fun p x => by simp [only]⟩

/-- What is at earlier places comes before what is at later ones. -/
theorem append (h : Exactly there found) (h' : Exactly there' found')
    (before : ∀ p x p' x', there p x → there' p' x' → p < p') :
    Exactly (fun p x => there p x ∨ there' p x) (found ++ found') := by
  obtain ⟨placed, rfl, ordered, iff⟩ := h
  obtain ⟨placed', rfl, ordered', iff'⟩ := h'
  refine ⟨placed ++ placed', by simp, ?_, fun p x => by rw [List.mem_append, iff, iff']⟩
  rw [List.map_append, List.pairwise_append]
  refine ⟨ordered, ordered', fun p mem p' mem' => ?_⟩
  obtain ⟨⟨q, x⟩, held, rfl⟩ := List.mem_map.1 mem
  obtain ⟨⟨q', x'⟩, held', rfl⟩ := List.mem_map.1 mem'
  exact before q x q' x' ((iff q x).1 held) ((iff' q' x').1 held')

/-- What is at places under a number. -/
theorem under (h : Exactly there found) (i : Nat) :
    Exactly (fun p x => ∃ q, p = i :: q ∧ there q x) found := by
  obtain ⟨placed, rfl, ordered, iff⟩ := h
  refine ⟨placed.map fun e => (i :: e.1, e.2), by simp, ?_, fun p x => ?_⟩
  · have nested : (placed.map fun e => (i :: e.1, e.2)).map (·.1) = (placed.map (·.1)).map (i :: ·) := by simp
    rw [nested, List.pairwise_map]
    exact ordered.imp fun lt => List.cons_lt_cons_iff.2 (.inr ⟨rfl, lt⟩)
  · rw [List.mem_map]
    constructor
    · rintro ⟨⟨q, y⟩, mem, eq⟩
      cases eq
      exact ⟨q, rfl, (iff q y).1 mem⟩
    · rintro ⟨q, rfl, held⟩
      exact ⟨(q, x), (iff q x).2 held, rfl⟩

/-- If what is there tells its place, it is found once. -/
theorem nodup (h : Exactly there found) (told : ∀ p p' x, there p x → there p' x → p = p') : found.Nodup := by
  obtain ⟨placed, rfl, ordered, iff⟩ := h
  have once : (placed.map (·.1)).Nodup := ordered.imp fun lt eq => by
    subst eq
    exact List.lt_irrefl _ lt
  refine List.Nodup.map_on ?_ (List.Nodup.of_map _ once)
  rintro ⟨p, x⟩ mem ⟨p', x'⟩ mem' eq
  obtain rfl : x = x' := eq
  rw [told p p' x ((iff p x).1 mem) ((iff p' x).1 mem')]

theorem eq_nil_iff (h : Exactly there found) : found = [] ↔ ∀ place b, ¬ there place b := by
  obtain ⟨placed, rfl, -, iff⟩ := h
  rw [List.map_eq_nil_iff, List.eq_nil_iff_forall_not_mem, Prod.forall]
  exact forall₂_congr fun place b => not_congr (iff place b)

/-- What is collected from one member of a list after another. -/
theorem collected {ε : Type} {one : α → Except ε (List β)} {all : List α → Except ε (List β)}
    {part : α → List Nat → β → Prop} (none : all [] = .ok [])
    (step : ∀ x rest, all (x :: rest) = do return (← one x) ++ (← all rest)) {l : List α}
    (each : ∀ x ∈ l, ∃ found, one x = .ok found ∧ Exactly (part x) found) (start : Nat) :
    ∃ found, all l = .ok found ∧
      Exactly (fun p b => ∃ i x q, l[i]? = some x ∧ p = (start + i) :: q ∧ part x q b) found := by
  induction l generalizing start with
  | nil => exact ⟨[], none, nothing (by simp)⟩
  | cons x rest ih =>
    obtain ⟨⟨here, first, exact_⟩, later⟩ := List.forall_mem_cons.1 each
    obtain ⟨more, next, exact'⟩ := ih later (start + 1)
    refine ⟨here ++ more, by rw [step, first, next]; rfl, ((exact_.under start).append exact' ?_).congr fun p b => ?_⟩
    · exact fun p y p' y' => under_lt
    · exact numbered_cons

end Exactly

/-- The first of what there is at some places. -/
def First {β : Type} (there : List Nat → β → Prop) (b : β) : Prop :=
  ∃ place, there place b ∧ ∀ place' b', there place' b' → ¬ place' < place

namespace Exactly

variable {β γ : Type} {there : List Nat → β → Prop} {found : List β}

/-- The members that a choice keeps are those at places where it keeps something. -/
theorem filterMap (h : Exactly there found) (choose : β → Option γ) :
    Exactly (fun place c => ∃ b, there place b ∧ choose b = some c) (found.filterMap choose) := by
  obtain ⟨placed, rfl, ordered, iff⟩ := h
  let chosen := placed.filterMap fun e => (choose e.2).map (e.1, ·)
  refine ⟨chosen, ?_, ?_, fun place c => ?_⟩
  · rw [List.filterMap_map, List.map_filterMap]
    refine List.filterMap_congr fun e _ => ?_
    cases h : choose e.2 <;> simp [h]
  · rw [List.pairwise_map] at ordered ⊢
    refine ordered.filterMap _ fun e e' lt c chosen c' chosen' => ?_
    obtain ⟨_, -, rfl⟩ := Option.map_eq_some_iff.1 chosen
    obtain ⟨_, -, rfl⟩ := Option.map_eq_some_iff.1 chosen'
    exact lt
  · rw [List.mem_filterMap]
    constructor
    · rintro ⟨⟨p, b⟩, mem, eq⟩
      obtain ⟨_, some_, eq⟩ := Option.map_eq_some_iff.1 eq
      cases eq
      exact ⟨b, (iff p b).1 mem, some_⟩
    · rintro ⟨b, held, some_⟩
      exact ⟨(place, b), (iff place b).2 held, by rw [some_]; rfl⟩

/-- The head of a list is the first there is. -/
theorem first (h : Exactly there found) {b : β} (head : found.head? = some b) : First there b := by
  obtain ⟨placed, rfl, ordered, iff⟩ := h
  cases placed with
  | nil => cases head
  | cons e rest =>
    cases head
    refine ⟨e.1, (iff _ _).1 List.mem_cons_self, fun place' b' held => ?_⟩
    rcases List.mem_cons.1 ((iff place' b').2 held) with rfl | later
    · exact List.lt_irrefl _
    · exact List.lt_asymm (List.rel_of_pairwise_cons ordered (List.mem_map.2 ⟨_, later, rfl⟩))

/-- What is listed for one member of a list after another. -/
theorem flatMap {α : Type} {one : α → List β} {part : α → List Nat → β → Prop} {l : List α}
    (each : ∀ x ∈ l, Exactly (part x) (one x)) :
    Exactly (fun p b => ∃ i x q, l[i]? = some x ∧ p = i :: q ∧ part x q b) (l.flatMap one) := by
  obtain ⟨found, eq, exact_⟩ := @collected α β Empty (fun x => .ok (one x)) (fun l => .ok (l.flatMap one)) part rfl
    (fun _ _ => rfl) l (fun x mem => ⟨_, rfl, each x mem⟩) 0
  cases eq
  simpa using exact_

end Exactly

/-- A computation fails with the first of what there is at some places, and has a result where there is nothing. -/
def FailsAtFirst {ε α : Type} (there : List Nat → ε → Prop) (x : Except ε α) : Prop :=
  (∃ a, x = .ok a) ∧ (∀ place f, ¬ there place f) ∨ ∃ f, x = .error f ∧ First there f

namespace FailsAtFirst

variable {ε α β : Type} {there there' : List Nat → ε → Prop} {x : Except ε α}

theorem congr (h : FailsAtFirst there x) (same : ∀ place f, there place f ↔ there' place f) :
    FailsAtFirst there' x := by
  have eq : there = there' := funext fun place => funext fun f => propext (same place f)
  exact eq ▸ h

theorem nothing (a : α) (none : ∀ place f, ¬ there place f) : FailsAtFirst there (.ok a) := .inl ⟨⟨a, rfl⟩, none⟩

theorem one (place : List Nat) {f : ε} (only : ∀ p g, there p g ↔ p = place ∧ g = f) :
    FailsAtFirst there (.error f : Except ε α) := by
  refine .inr ⟨f, rfl, place, (only _ _).2 ⟨rfl, rfl⟩, fun p g held => ?_⟩
  rw [((only p g).1 held).1]
  exact List.lt_irrefl _

theorem under (h : FailsAtFirst there x) (i : Nat) : FailsAtFirst (fun p f => ∃ q, p = i :: q ∧ there q f) x := by
  rcases h with ⟨ok, none⟩ | ⟨f, failed, place, held, first⟩
  · exact .inl ⟨ok, fun place f ⟨q, _, held⟩ => none q f held⟩
  · refine .inr ⟨f, failed, i :: place, ⟨place, rfl, held⟩, ?_⟩
    rintro _ g ⟨q, rfl, held⟩ lt
    exact first q g held ((List.cons_lt_cons_iff.1 lt).resolve_left (Nat.lt_irrefl i)).2

/-- What stops the first of two steps is at earlier places than what stops the second. -/
theorem bind {next : α → Except ε β} (h : FailsAtFirst there x) (h' : ∀ a, FailsAtFirst there' (next a))
    (before : ∀ p f p' f', there p f → there' p' f' → p < p') :
    FailsAtFirst (fun p f => there p f ∨ there' p f) (x >>= next) := by
  rcases h with ⟨⟨a, rfl⟩, none⟩ | ⟨f, rfl, place, held, first⟩
  · exact (h' a).congr fun p f => by simp [none p f]
  · refine .inr ⟨f, rfl, place, .inl held, fun p g => Or.rec (first p g) fun later => ?_⟩
    exact List.lt_asymm (before _ _ _ _ held later)

/-- A step that always has a result stops nothing. -/
theorem bind_total {next : α → Except ε β} (h : FailsAtFirst there x) (total : ∀ a, ∃ b, next a = .ok b) :
    FailsAtFirst there (x >>= next) := by
  rcases h with ⟨⟨a, rfl⟩, none⟩ | ⟨f, rfl, first⟩
  · exact .inl ⟨total a, none⟩
  · exact .inr ⟨f, rfl, first⟩

theorem map (h : FailsAtFirst there x) (g : α → β) : FailsAtFirst there (x >>= fun a => pure (g a)) :=
  h.bind_total fun a => ⟨g a, rfl⟩

/-- What becomes of a result stops nothing either. -/
theorem of_map {g : α → β} (h : FailsAtFirst there (x.map g)) : FailsAtFirst there x := by
  cases x with
  | error f =>
    rcases h with ⟨⟨_, ok⟩, -⟩ | ⟨f', failed, first⟩
    · cases ok
    · cases failed
      exact .inr ⟨f, rfl, first⟩
  | ok a =>
    rcases h with ⟨-, none⟩ | ⟨_, failed, -⟩
    · exact .inl ⟨⟨a, rfl⟩, none⟩
    · cases failed

/-- What stops the reading of one member of a list after another. -/
theorem collected {γ δ : Type} {one : γ → Except ε α} {part : γ → List Nat → ε → Prop} {empty : δ}
    (all : List γ → Except ε δ) (gather : α → δ → δ) (none : all [] = .ok empty)
    (step : ∀ x rest, all (x :: rest) = do return gather (← one x) (← all rest)) {l : List γ}
    (each : ∀ x ∈ l, FailsAtFirst (part x) (one x)) (start : Nat) :
    FailsAtFirst (fun p f => ∃ i x q, l[i]? = some x ∧ p = (start + i) :: q ∧ part x q f) (all l) := by
  induction l generalizing start with
  | nil => exact none ▸ nothing empty (by simp)
  | cons x rest ih =>
    obtain ⟨here, later⟩ := List.forall_mem_cons.1 each
    rw [step]
    exact ((here.under start).bind (fun a => (ih later (start + 1)).map (gather a)) fun _ _ _ _ => under_lt).congr
      fun _ _ => numbered_cons

end FailsAtFirst

end Semijoin
