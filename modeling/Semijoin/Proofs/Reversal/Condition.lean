import Semijoin.Proofs.Access.Outcome
import Semijoin.Proofs.Schema.Accepted
import Semijoin.Proofs.Value.Written
import Semijoin.Reversal

/-!
# The condition that a reversal makes

A condition is a key of the root and the ids kept of those collected. Ids are compared only where repeated ones
are dropped, so only there must they be scalars; scalars are kept as scalars either way.
-/

namespace Semijoin
set_option autoImplicit false

namespace Reversal

variable {options : Options}

theorem distinctIds_eq (keys : List Scalar) :
    distinctIds (keys.map .scalar) = .ok ((Scalar.distinct keys).map .scalar) := by
  have each : keys.mapM (Value.asKey ∘ Value.scalar) = .ok (keys.map id) := mapM_ok fun _ _ => rfl
  rw [distinctIds, List.mapM_map, each, List.map_id]
  rfl

/-- The ids kept of those collected. -/
def Options.keep (options : Options) (ids : List Value) : Except Fault (List Value) :=
  if options.deduplicate then distinctIds ids else .ok ids

theorem keyed_of_distinctIds {ids kept : List Value} (h : distinctIds ids = .ok kept) : ∀ x ∈ ids, ∃ k, x = .scalar k := by
  obtain ⟨keys, each, -⟩ := bind_eq_ok.1 h
  intro x mem
  obtain ⟨k, key⟩ := mapM_each each x mem
  cases x with
  | scalar s => exact ⟨s, rfl⟩
  | _ => cases key

/-- Scalars are the values of their keys. -/
theorem exists_keys {ids : List Value} (scalars : ∀ x ∈ ids, ∃ k, x = .scalar k) :
    ∃ keys : List Scalar, ids = keys.map .scalar := by
  induction ids with
  | nil => exact ⟨[], rfl⟩
  | cons x rest ih =>
    obtain ⟨⟨k, rfl⟩, later⟩ := List.forall_mem_cons.1 scalars
    obtain ⟨keys, rfl⟩ := ih later
    exact ⟨k :: keys, rfl⟩

/-- Ids are kept if they need not be compared, or are scalars. -/
theorem Options.keep_iff {ids : List Value} :
    (∃ kept, options.keep ids = .ok kept) ↔ (options.deduplicate = true → ∀ x ∈ ids, ∃ k, x = .scalar k) := by
  unfold keep
  cases options.deduplicate with
  | false => simp
  | true =>
    simp only [if_true, forall_const]
    constructor
    · rintro ⟨kept, h⟩
      exact keyed_of_distinctIds h
    · intro scalars
      obtain ⟨keys, rfl⟩ := exists_keys scalars
      exact ⟨_, distinctIds_eq keys⟩

/-- Of scalars, scalars are kept. -/
theorem Options.keep_scalars {ids kept : List Value} (h : options.keep ids = .ok kept)
    (scalars : ∀ x ∈ ids, ∃ k, x = .scalar k) : ∀ x ∈ kept, ∃ k, x = .scalar k := by
  unfold keep at h
  split at h
  · obtain ⟨keys, rfl⟩ := exists_keys scalars
    rw [distinctIds_eq] at h
    cases h
    intro x mem
    obtain ⟨k, -, rfl⟩ := List.mem_map.1 mem
    exact ⟨k, rfl⟩
  · cases h
    exact scalars

/-- The keys kept of those collected. -/
def Options.kept (options : Options) (keys : List Scalar) : List Scalar :=
  if options.deduplicate then Scalar.distinct keys else keys

theorem Options.keep_keys (keys : List Scalar) :
    options.keep (keys.map .scalar) = .ok ((options.kept keys).map .scalar) := by
  unfold keep kept
  split
  · exact distinctIds_eq keys
  · rfl

theorem condition_steps [Attributes] (p : Plan) (options : Options) (found : Value) : p.condition options found = (do
    let ids ← p.ids options.missing found
    let kept ← liftFault (options.keep ids)
    return membership (← liftFault p.key) kept) := by
  unfold Plan.condition Options.keep
  cases options.deduplicate <;> rfl

/-- The fields of a plan that gives a key have texts, and the root's is that key. -/
theorem Plan.key_eq_ok {p : Plan} {f : Scalar} : p.key = .ok f ↔
    p.idField.isWritable = true ∧ p.rootField.isWritable = true ∧ p.rootField = .scalar f := by
  unfold key Value.written
  cases p.idField.isWritable with
  | false => simp [bind, Except.bind, discard, Functor.mapConst, Except.map]
  | true =>
    cases p.rootField.isWritable with
    | false => simp [bind, Except.bind, discard, Functor.mapConst, Except.map]
    | true => cases p.rootField <;> simp [bind, Except.bind, discard, Functor.mapConst, Except.map, Value.asKey]

/-- Fields with text names give the root's as a key. -/
theorem Plan.key_text {p : Plan} {f s : String} (root : p.rootField = .text f) (id : p.idField = .text s) :
    p.key = .ok (.text f) :=
  key_eq_ok.2 ⟨by rw [id]; rfl, by rw [root]; rfl, root⟩

variable [Attributes]

/-- A condition is made of a key of the root and the ids kept. -/
theorem condition_eq_ok {p : Plan} {found r : Value} : p.condition options found = .ok r ↔
    ∃ ids kept f, p.ids options.missing found = .ok ids ∧ options.keep ids = .ok kept ∧ p.key = .ok f ∧
      membership f kept = r := by
  rw [condition_steps, bind_eq_ok]
  simp only [bind_eq_ok, liftFault_eq_ok, pure, Except.pure, Except.ok.injEq]
  constructor
  · rintro ⟨ids, collected, kept, keep, f, key, eq⟩
    exact ⟨ids, kept, f, collected, keep, key, eq⟩
  · rintro ⟨ids, kept, f, collected, keep, key, eq⟩
    exact ⟨ids, collected, kept, keep, f, key, eq⟩

end Reversal

end Semijoin
