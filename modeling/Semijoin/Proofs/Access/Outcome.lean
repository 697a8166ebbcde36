import Semijoin.Access.Basic

/-!
# Outcomes of actions

What an action on a state comes to. `Action.step` is one run from one state; `Action.Ends` says that the
result is the same from every state, which is how an action that only logs is used, and `Action.Steady` that
there is such a result.
-/

namespace Semijoin
set_option autoImplicit false

/-- Mapping a list with a function that never fails. -/
theorem mapM_ok {ε α β : Type} {f : α → Except ε β} {g : α → β} {l : List α} (h : ∀ x ∈ l, f x = .ok (g x)) :
    l.mapM f = .ok (l.map g) := by
  induction l with
  | nil => rfl
  | cons x rest ih =>
    rw [List.mapM_cons, h x (by simp), ih fun y hy => h y (by simp [hy])]
    rfl

theorem liftFault_eq_ok {α : Type} {x : Except Fault α} {a : α} : liftFault x = .ok a ↔ x = .ok a := by
  cases x with
  | error f => exact ⟨(nomatch ·), (nomatch ·)⟩
  | ok b =>
    constructor <;>
      · intro h
        cases h
        rfl

theorem liftFault_eq_error {α : Type} {x : Except Fault α} {f : Failure} :
    liftFault x = .error f ↔ ∃ g, x = .error g ∧ f = .ofFault g := by
  cases x with
  | error g =>
    constructor
    · intro h
      cases h
      exact ⟨g, rfl, rfl⟩
    · rintro ⟨_, eq, rfl⟩
      cases eq
      rfl
  | ok a =>
    constructor
    · intro h
      cases h
    · rintro ⟨_, eq, -⟩
      cases eq

/-- A list that is mapped without failure has no item that fails. -/
theorem mapM_each {ε α β : Type} {f : α → Except ε β} {l : List α} {results : List β} (h : l.mapM f = .ok results) :
    ∀ x ∈ l, ∃ y, f x = .ok y := by
  induction l generalizing results with
  | nil => simp
  | cons x rest ih =>
    rw [List.mapM_cons] at h
    cases here : f x with
    | error e =>
      rw [here] at h
      cases h
    | ok y =>
      cases later : rest.mapM f with
      | error e =>
        rw [here, later] at h
        cases h
      | ok ys => exact List.forall_mem_cons.2 ⟨⟨y, here⟩, ih later⟩

/-- Every result of a list that is mapped without failure is that of an item. -/
theorem mapM_mem {ε α β : Type} {f : α → Except ε β} {l : List α} {results : List β} (h : l.mapM f = .ok results) :
    ∀ y ∈ results, ∃ x ∈ l, f x = .ok y := by
  induction l generalizing results with
  | nil =>
    cases h
    simp
  | cons x rest ih =>
    rw [List.mapM_cons] at h
    cases here : f x with
    | error e =>
      rw [here] at h
      cases h
    | ok y =>
      cases later : rest.mapM f with
      | error e =>
        rw [here, later] at h
        cases h
      | ok ys =>
        rw [here, later] at h
        cases h
        refine List.forall_mem_cons.2 ⟨⟨x, by simp, here⟩, fun z mem => ?_⟩
        obtain ⟨w, held, eq⟩ := ih later z mem
        exact ⟨w, by simp [held], eq⟩

/-- A list whose mapping fails has an item that fails so. -/
theorem exists_of_mapM_error {ε α β : Type} {f : α → Except ε β} {l : List α} {e : ε} (h : l.mapM f = .error e) :
    ∃ x ∈ l, f x = .error e := by
  induction l with
  | nil => cases h
  | cons x rest ih =>
    rw [List.mapM_cons] at h
    cases here : f x with
    | error e' =>
      rw [here] at h
      cases h
      exact ⟨x, by simp, here⟩
    | ok y =>
      cases later : rest.mapM f with
      | error e' =>
        rw [here, later] at h
        cases h
        obtain ⟨z, mem, eq⟩ := ih later
        exact ⟨z, by simp [mem], eq⟩
      | ok ys =>
        rw [here, later] at h
        cases h

namespace Action

variable {σ α β : Type}

/-- One run of an action: its result and the state after it. -/
def step (x : Action σ α) (s : σ) : Except Failure α × σ := x.run.run s

/-- Actions are equal if each of their runs is. -/
theorem ext {x y : Action σ α} (h : ∀ s, x.step s = y.step s) : x = y := funext h

theorem step_ofExcept (x : Except Failure α) (s : σ) : step (ofExcept x) s = (x, s) := rfl

theorem ofExcept_ok_bind (a : α) (f : α → Action σ β) : (ofExcept (.ok a) >>= f) = f a := rfl

theorem step_lift_bind (x : StateM σ α) (f : α → Action σ β) (s : σ) :
    step (ExceptT.lift x >>= f) s = (f (x.run s).1).step (x.run s).2 := rfl

theorem step_bind_ok {x : Action σ α} {s s' : σ} {a : α} (h : x.step s = (.ok a, s')) (f : α → Action σ β) :
    (x >>= f).step s = (f a).step s' := by
  simp only [step, ExceptT.run_bind, StateT.run_bind] at h ⊢
  simp only [Bind.bind, h]

theorem step_bind_error {x : Action σ α} {s s' : σ} {e : Failure} (h : x.step s = (.error e, s'))
    (f : α → Action σ β) : (x >>= f).step s = (.error e, s') := by
  simp only [step, ExceptT.run_bind, StateT.run_bind] at h ⊢
  simp only [Bind.bind, h]
  rfl

/-- A run of two actions ends with the first if it fails, and else with the second. -/
theorem step_bind_cases {x : Action σ α} {f : α → Action σ β} {s s' : σ} {r : Except Failure β}
    (h : (x >>= f).step s = (r, s')) : (∃ e, x.step s = (.error e, s') ∧ r = .error e) ∨
      ∃ a middle, x.step s = (.ok a, middle) ∧ (f a).step middle = (r, s') := by
  cases first : x.step s with
  | mk r' middle =>
    cases r' with
    | error e =>
      rw [step_bind_error first] at h
      cases h
      exact .inl ⟨e, rfl, rfl⟩
    | ok a =>
      rw [step_bind_ok first] at h
      exact .inr ⟨a, middle, rfl, h⟩

/-- A run of two actions that succeeds is a run of the first and one of the second. -/
theorem step_bind_eq_ok {x : Action σ α} {f : α → Action σ β} {s s' : σ} {b : β}
    (h : (x >>= f).step s = (.ok b, s')) :
    ∃ a middle, x.step s = (.ok a, middle) ∧ (f a).step middle = (.ok b, s') := by
  rcases step_bind_cases h with ⟨_, -, eq⟩ | both
  · cases eq
  · exact both

/-- A computation on values that succeeds leaves the state alone. -/
theorem step_ofValues_eq_ok {x : Except Fault α} {s s' : σ} {a : α} (h : step (ofValues x) s = (.ok a, s')) :
    x = .ok a ∧ s' = s := by
  cases x with
  | error f => cases h
  | ok b => cases h; exact ⟨rfl, rfl⟩

/-- A computation on values fails with a fault, and leaves the state alone. -/
theorem step_ofValues_eq_error {x : Except Fault α} {s s' : σ} {f : Failure}
    (h : step (ofValues x : Action σ α) s = (.error f, s')) : ∃ g, x = .error g ∧ f = .ofFault g ∧ s' = s := by
  cases x with
  | error g =>
    cases h
    exact ⟨g, rfl, rfl, rfl⟩
  | ok a => cases h

theorem step_ofExcept_eq_ok {x : Except Failure α} {s s' : σ} {a : α} (h : step (ofExcept x) s = (.ok a, s')) :
    x = .ok a ∧ s' = s := by
  cases h
  exact ⟨rfl, rfl⟩

/-- What succeeds after a computation succeeds from the state before it. -/
theorem step_ofExcept_bind_eq_ok {x : Except Failure α} {f : α → Action σ β} {s s' : σ} {b : β}
    (h : (ofExcept x >>= f).step s = (.ok b, s')) : ∃ a, x = .ok a ∧ (f a).step s = (.ok b, s') := by
  obtain ⟨a, _, first, later⟩ := step_bind_eq_ok h
  obtain ⟨eq, rfl⟩ := step_ofExcept_eq_ok first
  exact ⟨a, eq, later⟩

theorem step_ofValues_bind_eq_ok {x : Except Fault α} {f : α → Action σ β} {s s' : σ} {b : β}
    (h : (ofValues x >>= f).step s = (.ok b, s')) : ∃ a, x = .ok a ∧ (f a).step s = (.ok b, s') := by
  obtain ⟨a, lifted, later⟩ := step_ofExcept_bind_eq_ok h
  exact ⟨a, liftFault_eq_ok.1 lifted, later⟩

theorem step_adapt (rename : Failure → Failure) (x : Action σ α) (s : σ) :
    step (ExceptT.adapt rename x : Action σ α) s = ((x.step s).1.mapError rename, (x.step s).2) := rfl

/-- Renaming failures makes no success. -/
theorem step_adapt_eq_ok {rename : Failure → Failure} {x : Action σ α} {s s' : σ} {a : α}
    (h : step (ExceptT.adapt rename x : Action σ α) s = (.ok a, s')) : x.step s = (.ok a, s') := by
  rw [step_adapt] at h
  cases run : x.step s with
  | mk r middle =>
    rw [run] at h
    cases r with
    | error e => cases h
    | ok b => cases h; rfl

/-- An action comes to a result, whatever the state it starts from. -/
def Ends (x : Action σ α) (r : Except Failure α) : Prop := ∀ s, (x.step s).1 = r

theorem ends_pure (a : α) : Ends (pure a : Action σ α) (.ok a) := fun _ => rfl

theorem ends_ofExcept {x r : Except Failure α} (h : x = r) : Ends (ofExcept x : Action σ α) r := fun _ => h

theorem ends_ofValues {x : Except Fault α} {a : α} (h : x = .ok a) : Ends (ofValues x : Action σ α) (.ok a) :=
  ends_ofExcept (by rw [h]; rfl)

theorem ends_update (f : σ → σ) : Ends (update f : Action σ Unit) (.ok ()) := fun _ => rfl

theorem Ends.bind {x : Action σ α} {a : α} {f : α → Action σ β} {r : Except Failure β} (first : x.Ends (.ok a))
    (next : (f a).Ends r) : (x >>= f).Ends r := by
  intro s
  have : x.step s = (.ok a, (x.step s).2) := by rw [← first s]
  rw [step_bind_ok this]
  exact next _

theorem Ends.bind_error {x : Action σ α} {e : Failure} (first : x.Ends (.error e)) (f : α → Action σ β) :
    (x >>= f).Ends (.error e) := by
  intro s
  have : x.step s = (.error e, (x.step s).2) := by rw [← first s]
  rw [step_bind_error this]

/-- Renaming failures leaves a result alone. -/
theorem Ends.adapt {x : Action σ α} {a : α} (h : x.Ends (.ok a)) (rename : Failure → Failure) :
    Ends (ExceptT.adapt rename x : Action σ α) (.ok a) := by
  intro s
  rw [step_adapt, h s]
  rfl

theorem Ends.step {x : Action σ α} {r : Except Failure α} (h : x.Ends r) (s : σ) : ∃ s', x.step s = (r, s') :=
  ⟨(x.step s).2, by rw [← h s]⟩

/-- An action comes to one result only. -/
theorem Ends.unique [Nonempty σ] {x : Action σ α} {r r' : Except Failure α} (h : x.Ends r) (h' : x.Ends r') :
    r = r' := by
  obtain ⟨s⟩ := ‹Nonempty σ›
  rw [← h s, h' s]

/-- An action comes to one result, whatever the state it starts from. -/
def Steady (x : Action σ α) : Prop := ∃ r, x.Ends r

theorem steady_pure (a : α) : Steady (pure a : Action σ α) := ⟨_, ends_pure a⟩

theorem steady_throw (f : Failure) : Steady (throw f : Action σ α) := ⟨_, fun _ => rfl⟩

theorem steady_ofExcept (x : Except Failure α) : Steady (ofExcept x : Action σ α) := ⟨_, ends_ofExcept rfl⟩

theorem steady_ofValues (x : Except Fault α) : Steady (ofValues x : Action σ α) := steady_ofExcept _

theorem Steady.bind {x : Action σ α} {f : α → Action σ β} (first : x.Steady) (next : ∀ a, (f a).Steady) :
    (x >>= f).Steady := by
  obtain ⟨r, ends⟩ := first
  cases r with
  | error e => exact ⟨_, ends.bind_error f⟩
  | ok a =>
    obtain ⟨r, later⟩ := next a
    exact ⟨r, ends.bind later⟩

theorem Steady.adapt {x : Action σ α} (h : x.Steady) (rename : Failure → Failure) :
    Steady (ExceptT.adapt rename x : Action σ α) := by
  obtain ⟨r, ends⟩ := h
  exact ⟨r.mapError rename, fun s => congrArg (Except.mapError rename) (ends s)⟩

end Action

end Semijoin
