import Semijoin.Sql.Connection

/-!
# One engine, and makers bound to it

Calls share what they make. `step_cases` says what one call can do: but for a close that works it only adds to what is
shared, and what it gives is shared after it. So between two closes that work all calls share one engine and one maker,
and the maker is bound to the engine whatever calls fail; after such a close nothing is shared, and what is made later is
new, since it is numbered by what was made before.
-/

namespace Semijoin.Sql.Connection
set_option autoImplicit false

/-- The maker that is shared is bound to the engine that is shared, which has been made. -/
structure Coherent (c : Connection) : Prop where
  bound : ∀ m, c.maker = some m → c.engine = some m.engine
  numbered : ∀ e, c.engine = some e → e.serial < c.made

/-- What is shared stays so, and an engine that comes to be shared is a new one. -/
structure Grows (c c' : Connection) : Prop where
  engine : ∀ e, c.engine = some e → c'.engine = some e
  maker : ∀ m, c.maker = some m → c'.maker = some m
  fresh : ∀ e, c'.engine = some e → c.engine = some e ∨ c.made ≤ e.serial
  made : c.made ≤ c'.made
  coherent : c.Coherent → c'.Coherent

namespace Grows

variable {c c' c'' : Connection}

theorem refl (c : Connection) : c.Grows c :=
  ⟨fun _ h => h, fun _ h => h, fun _ h => .inl h, Nat.le_refl _, id⟩

theorem trans (h : c.Grows c') (h' : c'.Grows c'') : c.Grows c'' where
  engine e shared := h'.engine e (h.engine e shared)
  maker m shared := h'.maker m (h.maker m shared)
  fresh e shared := by
    rcases h'.fresh e shared with before | new
    · exact h.fresh e before
    · exact .inr (Nat.le_trans h.made new)
  made := Nat.le_trans h.made h'.made
  coherent before := h'.coherent (h.coherent before)

/-- Where no engine is shared, a new one may come to be. -/
theorem of_engine (none : c.engine = none) (driver : String) :
    c.Grows { c with engine := some ⟨c.made, driver⟩, made := c.made + 1 } where
  engine e shared := by cases none.symm.trans shared
  maker _ shared := shared
  fresh e shared := by
    cases shared
    exact .inr (Nat.le_refl _)
  made := Nat.le_succ _
  coherent before := by
    refine ⟨fun m shared => ?_, fun e shared => ?_⟩
    · cases none.symm.trans (before.bound m shared)
    · cases shared
      exact Nat.lt_succ_self _

/-- Where no maker is shared, one that is bound to the engine may come to be. -/
theorem of_maker (none : c.maker = none) {e : Engine} (shared : c.engine = some e) :
    c.Grows { c with maker := some ⟨c.made, e⟩, made := c.made + 1 } where
  engine _ shared := shared
  maker m shared := by cases none.symm.trans shared
  fresh _ shared := .inl shared
  made := Nat.le_succ _
  coherent before := by
    refine ⟨fun m given => ?_, fun e' shared' => Nat.lt_succ_of_lt (before.numbered e' shared')⟩
    cases given
    exact shared

end Grows

/-! ## What a call does -/

section Call

variable (c : Connection) (driver? : Option String) (works : Bool)

theorem getEngine_cases : (∃ e, c.engine = some e ∧ c.getEngine driver? = (some e, c)) ∨
    c.engine = none ∧ ((driver? = none ∧ c.getEngine driver? = (none, c)) ∨
      ∃ driver, driver? = some driver ∧ c.getEngine driver? =
        (some ⟨c.made, driver⟩, { c with engine := some ⟨c.made, driver⟩, made := c.made + 1 })) := by
  unfold getEngine
  cases shared : c.engine with
  | some e => exact .inl ⟨e, rfl, rfl⟩
  | none =>
    cases driver? with
    | none => exact .inr ⟨rfl, .inl ⟨rfl, rfl⟩⟩
    | some driver => exact .inr ⟨rfl, .inr ⟨driver, rfl, rfl⟩⟩

/-- Asking for the engine adds at most the engine, and what is given is shared. -/
theorem getEngine_spec : c.Grows (c.getEngine driver?).2 ∧ (c.getEngine driver?).2.maker = c.maker ∧
    (∀ e, (c.getEngine driver?).1 = some e → (c.getEngine driver?).2.engine = some e) ∧
    ((c.getEngine driver?).1 = none → (c.getEngine driver?).2 = c) := by
  rcases c.getEngine_cases driver? with ⟨e, shared, eq⟩ | ⟨none, ⟨-, eq⟩ | ⟨driver, -, eq⟩⟩
  · rw [eq]
    refine ⟨.refl c, rfl, fun e' given => ?_, fun _ => rfl⟩
    cases given
    exact shared
  · rw [eq]
    exact ⟨.refl c, rfl, fun e given => (by cases given), fun _ => rfl⟩
  · rw [eq]
    refine ⟨.of_engine none driver, rfl, fun e given => given, fun failed => ?_⟩
    cases failed

/-- Asking for the maker adds at most an engine and a maker, and what is given is shared. -/
theorem getMaker_spec : c.Grows (c.getMaker driver?).2 ∧
    (∀ m, (c.getMaker driver?).1 = some m → (c.getMaker driver?).2.maker = some m) ∧
    ((c.getMaker driver?).1 = none → (c.getMaker driver?).2 = c) := by
  unfold getMaker
  cases shared : c.maker with
  | some m =>
    refine ⟨.refl c, fun m' given => ?_, fun failed => by cases failed⟩
    cases given
    exact shared
  | none =>
    obtain ⟨grows, maker, given, failed⟩ := c.getEngine_spec driver?
    cases asked : c.getEngine driver? with
    | mk e? c' =>
      rw [asked] at grows maker given failed
      cases e? with
      | none => exact ⟨grows, fun m given => (by cases given), fun _ => failed rfl⟩
      | some e =>
        refine ⟨grows.trans (.of_maker (maker.trans shared) (given e rfl)), fun m given => given, fun failed => ?_⟩
        cases failed

/-- What creating tables adds is the engine. -/
theorem createTables_grows : c.Grows (c.createTables driver? works).2 := by
  obtain ⟨grows, -⟩ := c.getEngine_spec driver?
  unfold createTables
  cases asked : c.getEngine driver? with
  | mk e? c' =>
    rw [asked] at grows
    cases e? <;> exact grows

/-- A data access that is built has the shared maker. -/
theorem buildAccess_spec : c.Grows (c.buildAccess driver? works).2 ∧
    ∀ m, (c.buildAccess driver? works).1 = some m → (c.buildAccess driver? works).2.maker = some m := by
  obtain ⟨grows, given, -⟩ := c.getMaker_spec driver?
  unfold buildAccess
  cases asked : c.getMaker driver? with
  | mk m? c' =>
    rw [asked] at grows given
    cases m? with
    | none => exact ⟨grows, fun m given => by cases given⟩
    | some m =>
      cases works with
      | false => exact ⟨grows, fun m given => by cases given⟩
      | true => exact ⟨grows, given⟩

/-- Closing leaves nothing shared, or fails and changes nothing. -/
theorem step_close_cases : c.step (.close works) = (.done, { c with engine := none, maker := none }) ∨
    c.step (.close works) = (.failed, c) := by
  rw [show c.step (.close works) = (c.close works).map .ofWorked id from rfl, close]
  split
  · exact .inr rfl
  · exact .inl rfl

end Call

/-- The engine that a reply is about: that which is given, or that of the maker which is given. -/
def Reply.engine? : Reply → Option Engine
  | .engine e => some e
  | .maker m => some m.engine
  | .done => none
  | .failed => none

namespace Reply

theorem ofEngine_eq_engine {e? : Option Engine} {e : Engine} : ofEngine e? = .engine e ↔ e? = some e := by
  cases e? <;> simp [ofEngine]

theorem ofEngine_eq_failed {e? : Option Engine} : ofEngine e? = .failed ↔ e? = none := by
  cases e? <;> simp [ofEngine]

theorem ofEngine_ne_maker (e? : Option Engine) (m : SessionMaker) : ofEngine e? ≠ .maker m := by
  cases e? <;> simp [ofEngine]

theorem ofMaker_eq_maker {m? : Option SessionMaker} {m : SessionMaker} : ofMaker m? = .maker m ↔ m? = some m := by
  cases m? <;> simp [ofMaker]

theorem ofMaker_eq_failed {m? : Option SessionMaker} : ofMaker m? = .failed ↔ m? = none := by
  cases m? <;> simp [ofMaker]

theorem ofMaker_ne_engine (m? : Option SessionMaker) (e : Engine) : ofMaker m? ≠ .engine e := by
  cases m? <;> simp [ofMaker]

end Reply

/-- **What one call can do**: a close that works leaves nothing shared, and any other call only adds to what is shared and
gives what is shared after it. -/
theorem step_cases (call : Call) (c : Connection) :
    (∃ works, call = .close works ∧ c.step call = (.done, { c with engine := none, maker := none })) ∨
    c.Grows (c.step call).2 ∧ (∀ e, (c.step call).1 = .engine e → (c.step call).2.engine = some e) ∧
      ∀ m, (c.step call).1 = .maker m → (c.step call).2.maker = some m := by
  have nothing (worked : Bool) : (∀ e, Reply.ofWorked worked ≠ .engine e) ∧ ∀ m, Reply.ofWorked worked ≠ .maker m := by
    cases worked <;> simp [Reply.ofWorked]
  cases call with
  | engine driver? =>
    obtain ⟨grows, -, given, -⟩ := c.getEngine_spec driver?
    refine .inr ⟨grows, fun e reply => given e (Reply.ofEngine_eq_engine.1 reply), fun m reply => ?_⟩
    exact absurd reply (Reply.ofEngine_ne_maker _ m)
  | maker driver? =>
    obtain ⟨grows, given, -⟩ := c.getMaker_spec driver?
    refine .inr ⟨grows, fun e reply => ?_, fun m reply => given m (Reply.ofMaker_eq_maker.1 reply)⟩
    exact absurd reply (Reply.ofMaker_ne_engine _ e)
  | tables driver? works =>
    have grows := c.createTables_grows driver? works
    exact .inr ⟨grows, fun e reply => absurd reply ((nothing _).1 e), fun m reply => absurd reply ((nothing _).2 m)⟩
  | access driver? works =>
    obtain ⟨grows, given⟩ := c.buildAccess_spec driver? works
    refine .inr ⟨grows, fun e reply => ?_, fun m reply => given m (Reply.ofMaker_eq_maker.1 reply)⟩
    exact absurd reply (Reply.ofMaker_ne_engine _ e)
  | close works =>
    rcases c.step_close_cases works with eq | eq
    · exact .inl ⟨works, rfl, eq⟩
    · rw [eq]
      exact .inr ⟨.refl c, fun e reply => (by cases reply), fun m reply => (by cases reply)⟩

variable {c : Connection}

theorem step_coherent (coherent : c.Coherent) (call : Call) : (c.step call).2.Coherent := by
  rcases step_cases call c with ⟨_, -, eq⟩ | ⟨grows, -⟩
  · rw [eq]
    refine ⟨fun _ shared => ?_, fun _ shared => ?_⟩
    · cases shared
    · cases shared
  · exact grows.coherent coherent

/-- The engine that a reply is about is shared after it. -/
theorem engine_of_step (coherent : c.Coherent) {call : Call} {e : Engine} (about : (c.step call).1.engine? = some e) :
    (c.step call).2.engine = some e := by
  have coherent' := step_coherent coherent call
  rcases step_cases call c with ⟨_, -, eq⟩ | ⟨-, engine, maker⟩
  · rw [eq] at about
    cases about
  · cases reply : (c.step call).1 with
    | engine e' =>
      rw [reply] at about
      cases about
      exact engine e reply
    | maker m =>
      rw [reply] at about
      cases about
      exact coherent'.bound m (maker m reply)
    | done =>
      rw [reply] at about
      cases about
    | failed =>
      rw [reply] at about
      cases about

theorem made_le_step (call : Call) (c : Connection) : c.made ≤ (c.step call).2.made := by
  rcases step_cases call c with ⟨_, -, eq⟩ | ⟨grows, -⟩
  · exact Nat.le_of_eq (congrArg (·.2.made) eq).symm
  · exact grows.made

/-! ## What calls do, one after the other -/

theorem after_coherent (coherent : c.Coherent) (calls : List Call) : (after calls c).Coherent := by
  induction calls generalizing c with
  | nil => exact coherent
  | cons call rest ih => exact ih (step_coherent coherent call)

theorem made_le_after (calls : List Call) (c : Connection) : c.made ≤ (after calls c).made := by
  induction calls generalizing c with
  | nil => exact Nat.le_refl _
  | cons call rest ih => exact Nat.le_trans (made_le_step call c) (ih _)

/-- Calls among which no close works. -/
def StaysOpen (calls : List Call) (c : Connection) : Prop := ∀ works, (.close works, .done) ∉ trace calls c

theorem after_grows {calls : List Call} (open_ : StaysOpen calls c) : c.Grows (after calls c) := by
  induction calls generalizing c with
  | nil => exact .refl c
  | cons call rest ih =>
    have later : StaysOpen rest (c.step call).2 := fun works mem => open_ works (List.mem_cons_of_mem _ mem)
    rcases step_cases call c with ⟨works, rfl, eq⟩ | ⟨grows, -⟩
    · refine absurd ?_ (open_ works)
      rw [trace, eq]
      exact List.mem_cons_self
    · exact grows.trans (ih later)

/-- As long as no close works, what any call gives is shared at the end. -/
theorem shared_of_trace (coherent : c.Coherent) {calls : List Call} (open_ : StaysOpen calls c) :
    ∀ p ∈ trace calls c, (∀ e, p.2.engine? = some e → (after calls c).engine = some e) ∧
      ∀ m, p.2 = .maker m → (after calls c).maker = some m := by
  induction calls generalizing c with
  | nil => exact List.forall_mem_nil _
  | cons call rest ih =>
    have later : StaysOpen rest (c.step call).2 := fun works mem => open_ works (List.mem_cons_of_mem _ mem)
    have grows := after_grows later
    refine List.forall_mem_cons.2 ⟨⟨fun e about => ?_, fun m given => ?_⟩, ih (step_coherent coherent call) later⟩
    · exact grows.engine e (engine_of_step coherent about)
    · rcases step_cases call c with ⟨_, -, eq⟩ | ⟨-, -, maker⟩
      · rw [eq] at given
        cases given
      · exact grows.maker m (maker m given)

/-- The engines that calls give were made by the end of them. -/
theorem made_of_trace (coherent : c.Coherent) (calls : List Call) :
    ∀ p ∈ trace calls c, ∀ e, p.2.engine? = some e → e.serial < (after calls c).made := by
  induction calls generalizing c with
  | nil => exact List.forall_mem_nil _
  | cons call rest ih =>
    have coherent' := step_coherent coherent call
    refine List.forall_mem_cons.2 ⟨fun e about => ?_, ih coherent'⟩
    exact Nat.lt_of_lt_of_le (coherent'.numbered e (engine_of_step coherent about)) (made_le_after rest _)

/-- If no engine is shared that was made before, none is given that was. -/
theorem new_of_trace {n : Nat} (coherent : c.Coherent) (new : ∀ e, c.engine = some e → n ≤ e.serial) (past : n ≤ c.made)
    (calls : List Call) : ∀ p ∈ trace calls c, ∀ e, p.2.engine? = some e → n ≤ e.serial := by
  induction calls generalizing c with
  | nil => exact List.forall_mem_nil _
  | cons call rest ih =>
    have new' : ∀ e, (c.step call).2.engine = some e → n ≤ e.serial := by
      intro e shared
      rcases step_cases call c with ⟨_, -, eq⟩ | ⟨grows, -⟩
      · rw [eq] at shared
        cases shared
      · rcases grows.fresh e shared with before | made
        · exact new e before
        · exact Nat.le_trans past made
    refine List.forall_mem_cons.2 ⟨fun e about => new' e (engine_of_step coherent about), ?_⟩
    exact ih (step_coherent coherent call) new' (Nat.le_trans past (made_le_step call c))

/-- A close that fails changes nothing, and neither does a failure to make what is asked for. -/
theorem step_failed {call : Call} (failed : (c.step call).1 = .failed) : c.Grows (c.step call).2 ∧
    ((∀ driver? works, call ≠ .tables driver? works ∧ call ≠ .access driver? works) → (c.step call).2 = c) := by
  rcases step_cases call c with ⟨_, -, eq⟩ | ⟨grows, -⟩
  · rw [eq] at failed
    cases failed
  · refine ⟨grows, fun other => ?_⟩
    cases call with
    | engine driver? =>
      obtain ⟨-, -, -, kept⟩ := c.getEngine_spec driver?
      exact kept (Reply.ofEngine_eq_failed.1 failed)
    | maker driver? =>
      obtain ⟨-, -, kept⟩ := c.getMaker_spec driver?
      exact kept (Reply.ofMaker_eq_failed.1 failed)
    | tables driver? works => exact absurd rfl (other driver? works).1
    | access driver? works => exact absurd rfl (other driver? works).2
    | close works =>
      rcases c.step_close_cases works with eq | eq
      · rw [eq] at failed
        cases failed
      · rw [eq]

/-- **What is shared stays coherent, whatever calls come in which order and whichever fail.** A maker is shared only with
the engine that it is bound to. As long as no close works, all calls give one engine and one maker; after one that works
nothing is shared, the engine is made when next asked for, and none that is given from then on was given before. A call
that fails takes nothing away, and adds at most what it had made by then. -/
theorem calls_coherent (before : List Call) :
    let c := after before {}
    (∀ m, c.maker = some m → c.engine = some m.engine) ∧
    (∀ calls, StaysOpen calls c → ∀ p ∈ trace calls c, ∀ p' ∈ trace calls c,
      (∀ e e', p.2.engine? = some e → p'.2.engine? = some e' → e = e') ∧
      ∀ m m', p.2 = .maker m → p'.2 = .maker m' → m = m') ∧
    (∀ works, (c.step (.close works)).1 = .done →
      let c' := (c.step (.close works)).2
      c'.engine = none ∧ c'.maker = none ∧ (∀ driver, ∃ e, (c'.step (.engine (some driver))).1 = .engine e) ∧
      ∀ calls, ∀ p ∈ trace before {}, ∀ p' ∈ trace calls c', ∀ e e',
        p.2.engine? = some e → p'.2.engine? = some e' → e ≠ e') ∧
    ∀ call, (c.step call).1 = .failed → (c.step call).2.Coherent ∧
      (∀ e, c.engine = some e → (c.step call).2.engine = some e) ∧
      (∀ m, c.maker = some m → (c.step call).2.maker = some m) ∧
      ((∀ driver? works, call ≠ .tables driver? works ∧ call ≠ .access driver? works) → (c.step call).2 = c) := by
  intro c
  have start : Coherent {} := ⟨fun _ shared => (by cases shared), fun _ shared => (by cases shared)⟩
  have coherent : c.Coherent := after_coherent start before
  refine ⟨coherent.bound, fun calls open_ p mem p' mem' => ?_, fun works done => ?_, fun call failed => ?_⟩
  · obtain ⟨engine, maker⟩ := shared_of_trace coherent open_ p mem
    obtain ⟨engine', maker'⟩ := shared_of_trace coherent open_ p' mem'
    refine ⟨fun e e' about about' => ?_, fun m m' given given' => ?_⟩
    · exact Option.some.inj ((engine e about).symm.trans (engine' e' about'))
    · exact Option.some.inj ((maker m given).symm.trans (maker' m' given'))
  · rcases c.step_close_cases works with closed | kept
    case inr =>
      rw [kept] at done
      cases done
    rw [closed]
    refine ⟨rfl, rfl, fun driver => ⟨_, rfl⟩, fun calls p mem p' mem' e e' about about' same => ?_⟩
    have past : e.serial < c.made := made_of_trace start before p mem e about
    have coherent' : Coherent { c with engine := none, maker := none } :=
      ⟨fun _ shared => (by cases shared), fun _ shared => (by cases shared)⟩
    have new := new_of_trace coherent' (fun _ shared => by cases shared) (Nat.le_refl _) calls p' mem' e' about'
    subst same
    exact absurd past (Nat.not_lt.2 new)
  · obtain ⟨grows, kept⟩ := step_failed failed
    exact ⟨grows.coherent coherent, grows.engine, grows.maker, kept⟩

namespace Sample

/-- The first call finds no driver, and the last fails to close. -/
def opening : List Call := [.engine none, .access (some "sqlite+aiosqlite") true, .close false]

/-- Nothing is made here, since all that is asked for is shared. -/
def using_ : List Call := [.tables none false, .engine none, .maker none]

/-- Asks anew. -/
def reopening : List Call := [.maker (some "sqlite+aiosqlite")]

end Sample

/-- What was opened is used without a driver; closed and opened again it is another engine. -/
theorem calls_coherent_reopened :
    let c := after Sample.opening {}
    (trace Sample.using_ c).map (·.2) = [.failed, .engine ⟨0, "sqlite+aiosqlite"⟩, .maker ⟨1, ⟨0, "sqlite+aiosqlite"⟩⟩] ∧
    StaysOpen Sample.using_ c ∧ (c.step (.close true)).1 = .done ∧ ∃ m,
      (trace Sample.reopening (c.step (.close true)).2).map (·.2) = [.maker m] ∧ m.engine ≠ ⟨0, "sqlite+aiosqlite"⟩ := by
  intro c
  obtain ⟨-, -, closes, -⟩ := calls_coherent Sample.opening
  obtain ⟨-, -, -, new⟩ := closes true rfl
  have open_ : StaysOpen Sample.using_ c := by
    intro works
    cases works <;> decide
  refine ⟨rfl, open_, rfl, ⟨3, ⟨2, _⟩⟩, rfl, ?_⟩
  exact (new Sample.reopening _ (List.mem_cons_of_mem _ List.mem_cons_self) _ List.mem_cons_self _ _ rfl rfl).symm

end Semijoin.Sql.Connection
