import Semijoin.Access.Tables
import Semijoin.Filter.Compile

/-!
# Finds that run at the same time

The requirements of a filter are reversed at the same time, each as a task. All tasks start, in order, before
any time passes, and go as far as their find, which ends after a delay of its own; a task that fails before
its find ends at time zero. A loop ends one task after the other, by time and then in the order of the
requirements. Once a task has failed, what would end later is cancelled, and what ends at that very time still
ends. The first failure decides; where there is none, each condition goes to the place of its requirement, unless they
can not all be written out.
-/

set_option autoImplicit false

namespace Semijoin

/-- When a find ends, and the text of the error that it ends with, if it fails. -/
structure FindScript where
  delay : Nat := 0
  error : Option String := none
  deriving Inhabited, DecidableEq

namespace Race

/-- Scripts under entity names; by default a find ends at once and does not fail. -/
abbrev Scripts := List (String × FindScript)

def Scripts.of (scripts : Scripts) (entity : String) : FindScript := (scripts.lookup entity).getD {}

/-- How finds go, each by the place of its requirement and the entity that it asks for. -/
abbrev Schedule := Nat → String → FindScript

variable {σ : Type}

/-- A requirement that is being reversed: its place, the find that it has started, if it came to that, when it
ends, and what it does then. -/
structure Task (σ : Type) where
  place : Nat
  started : Option String
  ends : Nat
  work : Action σ Value

/-- A task that has ended. -/
structure Completion where
  place : Nat
  started : Option String
  ends : Nat
  outcome : Except Failure Value
  deriving Inhabited

def Completion.failure? (c : Completion) : Option Failure :=
  match c.outcome with
  | .error f => some f
  | .ok _ => none

/-- The tasks under way in the order of their places, those that have ended in the order of their ends, those
that were cancelled, and the state of the data access. -/
structure Loop (σ : Type) where
  waiting : List (Task σ)
  ended : List Completion := []
  cancelled : List (Task σ) := []
  state : σ

/-- What happened in a race. -/
structure Report where
  result : Except Failure Value
  started : List String
  finished : List String
  cancelled : List String

/-- The finds of a data access under a script. -/
def scripted (access : Access σ) (script : FindScript) : Access σ where
  find entity condition include_ :=
    match script.error with
    | some text => throw (.cause (.host .runtime text))
    | none => access.find entity condition include_

/-- Starts to reverse the requirement at a place. -/
def start [Attributes] (access : Access σ) (schedule : Schedule) (schema : Schema) (options : CompileOptions)
    (root : String) (place : Nat) (entry : Scalar × Value) : Task σ :=
  match Filter.entryPlan schema options root entry with
  | .error f => ⟨place, none, 0, throw f⟩
  | .ok plan =>
    let script := schedule place plan.furthest
    ⟨place, some plan.furthest, script.delay, plan.run (scripted access script) options.toOptions entry.2⟩

/-- The task that ends next, the first of those that end together, and the others. -/
def next? : List (Task σ) → Option (Task σ × List (Task σ))
  | [] => none
  | task :: rest =>
    match next? rest with
    | none => some (task, rest)
    | some (other, others) =>
      if task.ends ≤ other.ends then some (task, rest) else some (other, task :: others)

theorem next?_length {tasks others : List (Task σ)} {task : Task σ} (h : next? tasks = some (task, others)) :
    others.length < tasks.length := by
  induction tasks generalizing task others with
  | nil => cases h
  | cons t rest ih =>
    rw [next?] at h
    split at h
    · cases h
      simp
    · next other others' found =>
      split at h <;> cases h
      · simp
      · simpa using ih found

namespace Loop

/-- Whether some task failed before a time. -/
def brokenBefore (loop : Loop σ) (time : Nat) : Bool :=
  loop.ended.any fun c => c.failure?.isSome && c.ends < time

/-- One turn: the next task ends, or, if a task failed before its time, all tasks that are left are cancelled. -/
def step (loop : Loop σ) : Option (Loop σ) :=
  match next? loop.waiting with
  | none => none
  | some (task, others) =>
    if loop.brokenBefore task.ends then some { loop with waiting := [], cancelled := loop.waiting }
    else
      let (outcome, state) := task.work.run.run loop.state
      some { loop with
        waiting := others
        ended := loop.ended ++ [⟨task.place, task.started, task.ends, outcome⟩]
        state }

theorem step_length {loop after : Loop σ} (h : loop.step = some after) :
    after.waiting.length < loop.waiting.length := by
  unfold step at h
  split at h
  · cases h
  · next task others found =>
    have shorter := next?_length found
    split at h <;> cases h
    · exact Nat.lt_of_le_of_lt (Nat.zero_le _) shorter
    · exact shorter

/-- Takes turns until no task is left. -/
def exec (loop : Loop σ) : Loop σ :=
  match h : loop.step with
  | none => loop
  | some after =>
    have := step_length h
    exec after
termination_by loop.waiting.length

end Loop

/-- The names of finds. -/
def names (started : List (Option String)) : List String := started.filterMap id

/-- The first failure among tasks that have ended, or else the value of each place below a count. -/
def gather (count : Nat) (ended : List Completion) : Except Failure (List Value) :=
  match ended.findSome? Completion.failure? with
  | some f => .error f
  | none => .ok ((List.range count).filterMap fun place =>
      (ended.find? (·.place == place)).bind (·.outcome.toOption))

/-- Reverses requirements at the same time, and puts the conditions found into a filter. -/
def settle (filter : Value) (tasks : List (Task σ)) (initial : σ) : Report :=
  let last := Loop.exec { waiting := tasks, state := initial }
  ⟨gather tasks.length last.ended >>= Filter.conclude filter, names (tasks.map (·.started)),
    names (last.ended.map (·.started)), (names (last.cancelled.map (·.started))).mergeSort⟩

variable [Attributes]

/-- Compiles a filter with its finds at the same time, as a schedule says. -/
def compile (access : Access σ) (initial : σ) (schedule : Schedule) (schema : Schema) (options : CompileOptions)
    (root : String) (source : FilterSource) : Report :=
  match Filter.prepare source with
  | .error f => ⟨.error f, [], [], []⟩
  | .ok (.done filter) => ⟨.ok filter, [], [], []⟩
  | .ok (.pending filter require) =>
    settle filter (require.mapIdx (start access schedule schema options root)) initial

/-- Compiles a filter over tables, all finds of an entity under one script. -/
def run (tables : Tables) (scripts : Scripts) (schema : Schema) (options : CompileOptions) (root : String)
    (source : FilterSource) : Report :=
  compile (tables.access schema) [] (fun _ => scripts.of) schema options root source

end Race

end Semijoin
