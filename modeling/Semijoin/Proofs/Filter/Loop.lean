import Mathlib.Data.List.Basic
import Semijoin.Filter.Race
import Semijoin.Proofs.Access.Outcome

/-!
# What the loop comes to

Tasks that come to one outcome whatever the state are ended by the loop in one order: by time, and then by
place. Every turn keeps the books: each task is under way, has ended or was cancelled, and is only one of
these; what has ended comes before what is under way; nothing has ended after the time of a failure, and what
was cancelled had a later time. At the end nothing is under way, so the first failure divides the tasks.
-/

namespace Semijoin.Race
set_option autoImplicit false

variable {σ : Type}

/-- The order in which tasks end: by time, and then by place. -/
def Completion.Before (c d : Completion) : Prop := c.ends < d.ends ∨ c.ends = d.ends ∧ c.place < d.place

theorem Completion.Before.le {c d : Completion} (h : c.Before d) : c.ends ≤ d.ends :=
  h.elim Nat.le_of_lt fun same => Nat.le_of_eq same.1

/-- The completion of a task that has the outcome at its place. -/
def Task.completed (outcome : Nat → Except Failure Value) (task : Task σ) : Completion :=
  ⟨task.place, task.started, task.ends, outcome task.place⟩

theorem next?_eq_none {tasks : List (Task σ)} (h : next? tasks = none) : tasks = [] := by
  cases tasks with
  | nil => rfl
  | cons task rest =>
    rw [next?] at h
    split at h
    · cases h
    · split at h <;> cases h

/-- The next task comes before all others, which keep their order. -/
theorem next?_spec (outcome : Nat → Except Failure Value) {tasks others : List (Task σ)} {task : Task σ}
    (places : tasks.Pairwise (·.place < ·.place)) (h : next? tasks = some (task, others)) :
    (task :: others).Perm tasks ∧ others.Sublist tasks ∧
      ∀ t ∈ others, (task.completed outcome).Before (t.completed outcome) := by
  induction tasks generalizing task others with
  | nil => cases h
  | cons first rest ih =>
    obtain ⟨behind, places⟩ := List.pairwise_cons.1 places
    rw [next?] at h
    split at h
    · next empty =>
      cases h
      rw [next?_eq_none empty]
      simp
    · next other others' found =>
      obtain ⟨perm, sublist, before⟩ := ih places found
      split at h <;> cases h
      · next sooner =>
        -- the first task ends no later than the next of the rest, and its place is before all of theirs
        refine ⟨.refl _, List.sublist_cons_self _ _, fun t mem => ?_⟩
        have upTo : other.ends ≤ t.ends := by
          rcases List.mem_cons.1 (perm.mem_iff.2 mem) with rfl | mem
          · exact Nat.le_refl _
          · exact (before t mem).le
        exact (Nat.lt_or_eq_of_le (Nat.le_trans sooner upTo)).imp id fun same => ⟨same, behind t mem⟩
      · next later =>
        refine ⟨(List.Perm.swap _ _ _).trans (perm.cons first), sublist.cons_cons first, ?_⟩
        exact List.forall_mem_cons.2 ⟨.inl (Nat.lt_of_not_le later), before⟩

namespace Loop

theorem brokenBefore_iff {loop : Loop σ} {time : Nat} :
    loop.brokenBefore time = true ↔ ∃ c ∈ loop.ended, c.failure?.isSome = true ∧ c.ends < time := by
  simp [brokenBefore]

/-- A turn ends the next task, or cancels all that are left. -/
theorem step_cases {loop after : Loop σ} (h : loop.step = some after) :
    ∃ task others, next? loop.waiting = some (task, others) ∧
      ((loop.brokenBefore task.ends = true ∧ after = { loop with waiting := [], cancelled := loop.waiting }) ∨
        (loop.brokenBefore task.ends = false ∧ after = { loop with
          waiting := others
          ended := loop.ended ++ [⟨task.place, task.started, task.ends, (task.work.step loop.state).1⟩]
          state := (task.work.step loop.state).2 })) := by
  unfold step at h
  split at h
  · cases h
  · next task others found =>
    split at h <;> cases h
    · next broken => exact ⟨task, others, found, .inl ⟨broken, rfl⟩⟩
    · next whole => exact ⟨task, others, found, .inr ⟨Bool.eq_false_iff.2 whole, rfl⟩⟩

/-- What every turn keeps holds when no task is left. -/
theorem exec_keeps {P : Loop σ → Prop} (keeps : ∀ loop after, P loop → loop.step = some after → P after)
    (loop : Loop σ) (start : P loop) : P loop.exec ∧ loop.exec.waiting = [] := by
  fun_induction exec loop with
  | case1 loop stops =>
    refine ⟨start, ?_⟩
    unfold step at stops
    split at stops
    · next empty => exact next?_eq_none empty
    · split at stops <;> cases stops
  | case2 loop after turn _ ih => exact ih (keeps loop after start turn)

/-- The books of a loop over tasks whose outcomes stand at their places. -/
structure Sound (outcome : Nat → Except Failure Value) (tasks : List (Task σ)) (loop : Loop σ) : Prop where
  sublist : loop.waiting.Sublist tasks
  all : (loop.ended ++ (loop.waiting ++ loop.cancelled).map (Task.completed outcome)).Perm
    (tasks.map (Task.completed outcome))
  sorted : loop.ended.Pairwise Completion.Before
  ahead : ∀ c ∈ loop.ended, ∀ t ∈ loop.waiting, c.Before (t.completed outcome)
  timely : ∀ c ∈ loop.ended, c.failure?.isSome = true → ∀ d ∈ loop.ended, d.ends ≤ c.ends
  late : ∀ t ∈ loop.cancelled, ∃ c ∈ loop.ended, c.failure?.isSome = true ∧ c.ends < t.ends
  cancelsLast : loop.waiting ≠ [] → loop.cancelled = []

section Books

variable {outcome : Nat → Except Failure Value} {tasks : List (Task σ)} {loop : Loop σ}

theorem sound_initial (s : σ) : Sound outcome tasks { waiting := tasks, state := s } :=
  ⟨.refl _, by simp, .nil, by simp, by simp, by simp, fun _ => rfl⟩

/-- Cancelling keeps the books: the failure before the next task is before all that are left. -/
theorem Sound.cancel (sound : Sound outcome tasks loop) (places : tasks.Pairwise (·.place < ·.place))
    {task : Task σ} {others : List (Task σ)} (found : next? loop.waiting = some (task, others))
    (broken : loop.brokenBefore task.ends = true) :
    Sound outcome tasks { loop with waiting := [], cancelled := loop.waiting } := by
  obtain ⟨perm, -, before⟩ := next?_spec outcome (places.sublist sound.sublist) found
  obtain ⟨c, mem, failed, earlier⟩ := brokenBefore_iff.1 broken
  have spared : loop.cancelled = [] := sound.cancelsLast (List.ne_nil_of_mem (perm.mem_iff.1 List.mem_cons_self))
  refine ⟨List.nil_sublist _, by simpa [spared] using sound.all, sound.sorted, by simp, sound.timely, ?_, by simp⟩
  intro t left
  refine ⟨c, mem, failed, ?_⟩
  rcases List.mem_cons.1 (perm.mem_iff.2 left) with rfl | left
  · exact earlier
  · exact Nat.lt_of_lt_of_le earlier (before t left).le

/-- Ending the next task keeps the books: no failure is before its time. -/
theorem Sound.finish (sound : Sound outcome tasks loop) (places : tasks.Pairwise (·.place < ·.place))
    {task : Task σ} {others : List (Task σ)} (found : next? loop.waiting = some (task, others))
    (whole : loop.brokenBefore task.ends = false) (s : σ) :
    Sound outcome tasks
      { loop with waiting := others, ended := loop.ended ++ [task.completed outcome], state := s } := by
  obtain ⟨perm, sublist, before⟩ := next?_spec outcome (places.sublist sound.sublist) found
  have here : task ∈ loop.waiting := perm.mem_iff.1 List.mem_cons_self
  have spared : loop.cancelled = [] := sound.cancelsLast (List.ne_nil_of_mem here)
  have upTo : ∀ c ∈ loop.ended, c.ends ≤ task.ends := fun c mem => (sound.ahead c mem task here).le
  have unbroken : ∀ c ∈ loop.ended, c.failure?.isSome = true → task.ends ≤ c.ends := by
    intro c mem failed
    refine Nat.le_of_not_lt fun earlier => ?_
    rw [brokenBefore_iff.2 ⟨c, mem, failed, earlier⟩] at whole
    cases whole
  refine ⟨sublist.trans sound.sublist, ?all, ?sorted, ?ahead, ?timely, by simp [spared], fun _ => spared⟩
  case all =>
    refine List.Perm.trans ?_ sound.all
    rw [spared, List.append_nil, List.append_nil, List.append_assoc]
    exact (perm.map (Task.completed outcome)).append_left loop.ended
  case sorted =>
    refine List.pairwise_append.2 ⟨sound.sorted, List.pairwise_singleton _ _, fun c mem d last => ?_⟩
    rw [List.mem_singleton.1 last]
    exact sound.ahead c mem task here
  case ahead =>
    intro c mem t left
    rcases List.mem_append.1 mem with mem | last
    · exact sound.ahead c mem t (sublist.mem left)
    · rw [List.mem_singleton.1 last]
      exact before t left
  case timely =>
    intro c mem failed d mem'
    rcases List.mem_append.1 mem with mem | last <;> rcases List.mem_append.1 mem' with mem' | last'
    · exact sound.timely c mem failed d mem'
    · rw [List.mem_singleton.1 last']
      exact unbroken c mem failed
    · rw [List.mem_singleton.1 last]
      exact upTo d mem'
    · have same : d = c := (List.mem_singleton.1 last').trans (List.mem_singleton.1 last).symm
      exact Nat.le_of_eq (congrArg Completion.ends same)

/-- A turn keeps the books. -/
theorem Sound.step (sound : Sound outcome tasks loop) (places : tasks.Pairwise (·.place < ·.place))
    (ends : ∀ t ∈ tasks, t.work.Ends (outcome t.place)) {after : Loop σ} (turn : loop.step = some after) :
    Sound outcome tasks after := by
  obtain ⟨task, others, found, ⟨broken, rfl⟩ | ⟨whole, rfl⟩⟩ := step_cases turn
  · exact sound.cancel places found broken
  · have mem : task ∈ tasks :=
      sound.sublist.mem ((next?_spec outcome (places.sublist sound.sublist) found).1.mem_iff.1 List.mem_cons_self)
    rw [ends task mem loop.state]
    exact sound.finish places found whole _

/-- The books at the end of a run. -/
theorem exec_sound (places : tasks.Pairwise (·.place < ·.place)) (ends : ∀ t ∈ tasks, t.work.Ends (outcome t.place))
    (s : σ) : Sound outcome tasks (exec { waiting := tasks, state := s }) ∧
      (exec { waiting := tasks, state := s }).waiting = [] :=
  exec_keeps (fun _ _ sound => sound.step places ends) _ (sound_initial s)

/-- If no task fails, all end and none is cancelled. -/
theorem Sound.of_success (sound : Sound outcome tasks loop) (done : loop.waiting = [])
    (succeeds : ∀ c ∈ tasks.map (Task.completed outcome), c.failure? = none) :
    loop.ended.Perm (tasks.map (Task.completed outcome)) ∧ loop.cancelled = [] := by
  have all := sound.all
  have spared : loop.cancelled = [] := by
    refine List.eq_nil_iff_forall_not_mem.2 fun t mem => ?_
    obtain ⟨c, ended, failed, -⟩ := sound.late t mem
    rw [succeeds c (all.mem_iff.1 (by simp [ended]))] at failed
    cases failed
  rw [done, spared] at all
  exact ⟨by simpa using all, spared⟩

/-- The first failure divides the tasks: what ends up to its time has ended, what ends later was cancelled. -/
theorem Sound.of_failure (sound : Sound outcome tasks loop) (done : loop.waiting = [])
    (fails : ∃ c ∈ tasks.map (Task.completed outcome), c.failure?.isSome = true) :
    ∃ c ∈ tasks.map (Task.completed outcome), ∃ f, c.failure? = some f ∧
      loop.ended.findSome? Completion.failure? = some f ∧
      (∀ d ∈ tasks.map (Task.completed outcome), d.failure?.isSome = true → d = c ∨ c.Before d) ∧
      loop.ended.Perm ((tasks.map (Task.completed outcome)).filter (·.ends ≤ c.ends)) ∧
      (loop.cancelled.map (Task.completed outcome)).Perm
        ((tasks.map (Task.completed outcome)).filter (c.ends < ·.ends)) := by
  have all : (loop.ended ++ loop.cancelled.map (Task.completed outcome)).Perm
      (tasks.map (Task.completed outcome)) := by simpa [done] using sound.all
  have failing : (loop.ended.findSome? Completion.failure?).isSome = true := by
    obtain ⟨d, mem, failed⟩ := fails
    rw [List.findSome?_isSome_iff]
    rcases List.mem_append.1 (all.mem_iff.2 mem) with ended | cancelled
    · exact ⟨d, ended, failed⟩
    · obtain ⟨t, mem, -⟩ := List.mem_map.1 cancelled
      obtain ⟨c, ended, failed, -⟩ := sound.late t mem
      exact ⟨c, ended, failed⟩
  obtain ⟨f, first⟩ := Option.isSome_iff_exists.1 failing
  obtain ⟨before, c, after, split, failed, unfailed⟩ := List.findSome?_eq_some_iff.1 first
  have mem : c ∈ loop.ended := by simp [split]
  have failed' : c.failure?.isSome = true := by simp [failed]
  have later : ∀ t ∈ loop.cancelled, c.ends < t.ends := by
    intro t cancelled
    obtain ⟨d, ended, broke, lt⟩ := sound.late t cancelled
    exact Nat.lt_of_le_of_lt (sound.timely d ended broke c mem) lt
  refine ⟨c, all.mem_iff.1 (by simp [mem]), f, failed, first, fun d among broke => ?least, ?ended, ?cancelled⟩
  case least =>
    rcases List.mem_append.1 (all.mem_iff.2 among) with ended | cancelled
    · rw [split, List.mem_append, List.mem_cons] at ended
      have sorted := sound.sorted
      rw [split, List.pairwise_append, List.pairwise_cons] at sorted
      rcases ended with ended | same | ended
      · rw [unfailed d ended] at broke
        cases broke
      · exact .inl same
      · exact .inr (sorted.2.1.1 d ended)
    · obtain ⟨t, mem, rfl⟩ := List.mem_map.1 cancelled
      exact .inr (.inl (later t mem))
  case ended =>
    have kept := all.filter (·.ends ≤ c.ends)
    rw [List.filter_append, List.filter_eq_self.2 (fun d ended => by simpa using sound.timely c mem failed' d ended),
      List.filter_eq_nil_iff.2 (by simpa [Task.completed] using later), List.append_nil] at kept
    exact kept
  case cancelled =>
    have kept := all.filter (c.ends < ·.ends)
    rw [List.filter_append,
      List.filter_eq_nil_iff.2 (fun d ended => by simpa using sound.timely c mem failed' d ended),
      List.filter_eq_self.2 (by simpa [Task.completed] using later), List.nil_append] at kept
    exact kept

end Books

end Loop

/-- Looking up each place in turn gives the items in order. -/
theorem filterMap_range {α β : Type} (g : α → Option β) (l : List α) :
    ((List.range l.length).filterMap fun i => l[i]?.bind g) = l.filterMap g := by
  induction l with
  | nil => rfl
  | cons a rest ih =>
    rw [List.length_cons, List.range_succ_eq_map, List.filterMap_cons, List.filterMap_map, List.filterMap_cons]
    simp only [List.getElem?_cons_zero, Option.bind_some, Function.comp_def, Nat.succ_eq_add_one,
      List.getElem?_cons_succ, ih]

/-- Values are gathered in the order of their places, whatever the order of the ends. -/
theorem gather_of_perm {ended all : List Completion} (perm : ended.Perm all)
    (placed : ∀ i (h : i < all.length), all[i].place = i) (succeeds : ∀ c ∈ all, c.failure? = none) :
    gather all.length ended = .ok (all.filterMap (·.outcome.toOption)) := by
  have found : ∀ i ∈ List.range all.length, (ended.find? (·.place == i)) = all[i]? := by
    intro i below
    have below : i < all.length := by simpa using below
    have stands : all[i] ∈ ended := perm.mem_iff.2 (List.getElem_mem below)
    obtain ⟨c, hit⟩ := Option.isSome_iff_exists.1
      (List.find?_isSome.2 ⟨all[i], stands, by simp [placed i below]⟩ : (ended.find? (·.place == i)).isSome = true)
    obtain ⟨j, within, rfl⟩ := List.mem_iff_getElem.1 (perm.mem_iff.1 (List.mem_of_find?_eq_some hit))
    have same : j = i := by simpa [placed j within] using List.find?_some hit
    subst same
    rw [hit, List.getElem?_eq_getElem below]
  have unfailed : ended.findSome? Completion.failure? = none :=
    List.findSome?_eq_none_iff.2 fun c mem => succeeds c (perm.mem_iff.1 mem)
  rw [gather, unfailed, ← filterMap_range _ all]
  refine congrArg Except.ok (List.filterMap_congr fun i below => ?_)
  rw [found i below]

end Semijoin.Race
