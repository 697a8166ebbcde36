import Semijoin.Proofs.Value.Document
import Semijoin.Value.Order

/-!
# Comparing the other way round

Equality is symmetric on values whose mappings have each key once: of two mappings of one size, each entry of the one
has its equal in the other. An ordering comparison is the mirrored one of the values in the other order, and so is its
fault.
-/

namespace Semijoin
set_option autoImplicit false

/-- Of two lists of one length, each member of the second has a partner if each member of the first has one, and no
two of the first share theirs. -/
theorem exists_partner {α β : Type} {R : α → β → Prop} {as : List α} {bs : List β} (length : bs.length = as.length)
    (each : ∀ a ∈ as, ∃ b ∈ bs, R a b) (apart : as.Pairwise fun a a' => ∀ b, R a b → ¬ R a' b) :
    ∀ b ∈ bs, ∃ a ∈ as, R a b := by
  induction as generalizing bs with
  | nil => simp [List.length_eq_zero_iff.1 length]
  | cons a as ih =>
    obtain ⟨⟨b, mem, partner⟩, others⟩ := List.forall_mem_cons.1 each
    obtain ⟨alone, apart⟩ := List.pairwise_cons.1 apart
    obtain ⟨before, after, rfl⟩ := List.append_of_mem mem
    -- Without the partner of the first, the lists are as long as one another again.
    have rest : ∀ b' ∈ before ++ after, ∃ a' ∈ as, R a' b' := by
      refine ih (by simp at length ⊢; omega) (fun a' ha' => ?_) apart
      obtain ⟨b', mem', partner'⟩ := others a' ha'
      have other : b' ≠ b := fun eq => alone a' ha' b partner (eq ▸ partner')
      exact ⟨b', by simpa [other] using mem', partner'⟩
    intro b' mem'
    by_cases eq : b' = b
    · exact ⟨a, by simp, eq ▸ partner⟩
    · obtain ⟨a', ha', partner'⟩ := rest b' (by simpa [eq] using mem')
      exact ⟨a', List.mem_cons_of_mem a ha', partner'⟩

namespace Entries

variable {α : Type}

/-- Entries of which no two stand under equal keys. -/
def Once (entries : List (Scalar × α)) : Prop := entries.Pairwise fun e e' => e.1.same e'.1 = false

/-- Under keys that stand once, any entry under an equal key is the one that is found. -/
theorem Once.find?_eq_some {entries : List (Scalar × α)} (once : Once entries) {key k : Scalar} {v : α}
    (mem : (k, v) ∈ entries) (same : k.same key = true) : find? key entries = some v := by
  induction entries with
  | nil => cases mem
  | cons e rest ih =>
    obtain ⟨fresh, once⟩ := List.pairwise_cons.1 once
    rw [find?_cons]
    obtain rfl | later := List.mem_cons.1 mem
    · rw [if_pos same]
    · have other : e.1.same key = false := by
        rw [Scalar.same_comm, ← Scalar.same_congr same, Scalar.same_comm]
        exact fresh _ later
      rw [if_neg (by simp [other]), ih once later]

end Entries

namespace Value

/-- A value in whose mappings each key stands once. -/
inductive KeyedOnce : Value → Prop
  | scalar (s : Scalar) : KeyedOnce (.scalar s)
  | list {items : List Value} (each : ∀ v ∈ items, KeyedOnce v) : KeyedOnce (.list items)
  | map {entries : List (Scalar × Value)} (once : Entries.Once entries) (each : ∀ e ∈ entries, KeyedOnce e.2) :
      KeyedOnce (.map entries)
  | record (fields : List (String × Value)) : KeyedOnce (.record fields)

theorem KeyedOnce.of_isDocument {v : Value} (h : v.isDocument = true) : v.KeyedOnce := by
  match v with
  | .scalar s => exact .scalar s
  | .list items => exact .list fun v hv => KeyedOnce.of_isDocument (isDocument_list.1 h v hv)
  | .map entries =>
    have document := documentEntries_of (by rwa [isDocument] at h)
    refine .map ?_ fun e he => KeyedOnce.of_isDocument (document.below e he)
    refine (List.pairwise_map.1 document.once).imp_of_mem fun {e e'} _ mem ne => ?_
    obtain ⟨s, eq⟩ := document.text e' mem
    rw [eq, Scalar.same_text]
    simpa [eq] using ne
termination_by sizeOf v
decreasing_by
  · have := List.sizeOf_lt_of_mem hv
    simp only [Value.list.sizeOf_spec]
    omega
  · have := List.sizeOf_lt_of_mem he
    obtain ⟨k, v⟩ := e
    simp only [Value.map.sizeOf_spec, Prod.mk.sizeOf_spec] at *
    omega

theorem sameEntries_iff {es fs : List (Scalar × Value)} :
    sameEntries es fs = true ↔ ∀ e ∈ es, ∃ w, Entries.find? e.1 fs = some w ∧ e.2.same w = true := by
  induction es with
  | nil => simp [sameEntries]
  | cons e rest ih =>
    obtain ⟨k, v⟩ := e
    rw [sameEntries, Bool.and_eq_true, ih, List.forall_mem_cons]
    refine and_congr_left fun _ => ?_
    cases Entries.find? k fs <;> simp

/-- Mappings of one size are equal either way, if the values in them are. -/
theorem sameEntries_swap {es fs : List (Scalar × Value)} (once : Entries.Once es) (length : fs.length = es.length)
    (comm : ∀ e ∈ es, ∀ f ∈ fs, e.2.same f.2 = f.2.same e.2) (h : sameEntries es fs = true) :
    sameEntries fs es = true := by
  have each : ∀ e ∈ es, ∃ f ∈ fs, f.1.same e.1 = true ∧ f.2.same e.2 = true := by
    intro e he
    obtain ⟨w, found, same⟩ := sameEntries_iff.1 h e he
    obtain ⟨k, mem, key⟩ := Entries.mem_of_find? found
    exact ⟨(k, w), mem, key, comm e he _ mem ▸ same⟩
  have apart : es.Pairwise fun e e' => ∀ f : Scalar × Value, f.1.same e.1 = true ∧ f.2.same e.2 = true →
      ¬ (f.1.same e'.1 = true ∧ f.2.same e'.2 = true) := by
    refine once.imp fun {e e'} fresh f partner partner' => ?_
    rw [← Scalar.same_congr partner.1, partner'.1] at fresh
    cases fresh
  refine sameEntries_iff.2 fun f hf => ?_
  obtain ⟨e, he, key, same⟩ := exists_partner length each apart f hf
  exact ⟨e.2, once.find?_eq_some he (by rwa [Scalar.same_comm]), same⟩

theorem sameItems_comm {xs ys : List Value} (comm : ∀ x ∈ xs, ∀ y ∈ ys, x.same y = y.same x) :
    sameItems xs ys = sameItems ys xs := by
  induction xs generalizing ys with
  | nil => cases ys <;> rfl
  | cons x xs ih =>
    cases ys with
    | nil => rfl
    | cons y ys =>
      rw [sameItems, sameItems, comm x (by simp) y (by simp),
        ih fun x hx y hy => comm x (List.mem_cons_of_mem _ hx) y (List.mem_cons_of_mem _ hy)]

/-- Equality is symmetric. -/
theorem KeyedOnce.same_comm {v w : Value} (hv : v.KeyedOnce) (hw : w.KeyedOnce) : v.same w = w.same v := by
  induction hv generalizing w with
  | scalar a =>
    cases hw with
    | scalar b => exact Scalar.same_comm a b
    | _ => rfl
  | list each ih =>
    cases hw with
    | list each' => exact sameItems_comm fun x hx y hy => ih x hx (each' y hy)
    | _ => rfl
  | @map es once each ih =>
    cases hw with
    | @map fs once' each' =>
      rw [same, same]
      by_cases length : fs.length = es.length
      · have comm : ∀ e ∈ es, ∀ f ∈ fs, e.2.same f.2 = f.2.same e.2 := fun e he f hf => ih e he (each' f hf)
        rw [length, beq_self_eq_true, Bool.true_and, Bool.true_and, Bool.eq_iff_iff]
        exact ⟨sameEntries_swap once length comm,
          sameEntries_swap once' length.symm fun f hf e he => (comm e he f hf).symm⟩
      · rw [beq_false_of_ne length, beq_false_of_ne (Ne.symm length), Bool.false_and, Bool.false_and]
    | _ => rfl
  | record fields => cases hw <;> rfl

end Value

namespace Comparison

/-- The comparison that holds of two values if this one holds of them in the other order. -/
def mirror : Comparison → Comparison
  | .lt => .gt
  | .le => .ge
  | .gt => .lt
  | .ge => .le

theorem ofNumbers_mirror (op : Comparison) (x y : Extended) : op.mirror.ofNumbers y x = op.ofNumbers x y := by
  cases op <;> simp [mirror, ofNumbers, Extended.equals_comm]

theorem ofTexts_mirror (op : Comparison) (s t : String) : op.mirror.ofTexts t s = op.ofTexts s t := by
  cases op <;> rfl

theorem ofCounts_mirror (op : Comparison) (m n : Nat) : op.mirror.ofCounts n m = op.ofCounts m n := by
  cases op <;> rfl

end Comparison

def Fault.mirror : Fault → Fault
  | .unordered op left right => .unordered op.mirror right left
  | f => f

namespace Scalar

/-- Scalars are compared as numbers, as texts, or not at all. -/
theorem compare_cases (a b : Scalar) :
    (∃ x y, a.number? = some x ∧ b.number? = some y) ∨ (∃ s t, a = .text s ∧ b = .text t) ∨
    ∀ op, a.compare op b = .error (.unordered op a.kind b.kind) ∧ b.compare op a = .error (.unordered op b.kind a.kind) := by
  cases a <;> cases b <;> first
    | exact .inl ⟨_, _, rfl, rfl⟩
    | exact .inr (.inl ⟨_, _, rfl, rfl⟩)
    | exact .inr (.inr fun _ => ⟨rfl, rfl⟩)

theorem compare_mirror (op : Comparison) (a b : Scalar) :
    b.compare op.mirror a = (a.compare op b).mapError Fault.mirror := by
  obtain ⟨x, y, hx, hy⟩ | ⟨s, t, rfl, rfl⟩ | fault := compare_cases a b
  · simp only [compare, hx, hy, Comparison.ofNumbers_mirror]
    rfl
  · exact congrArg Except.ok (op.ofTexts_mirror s t)
  · rw [(fault op).1, (fault op.mirror).2]
    rfl

end Scalar

namespace Value

theorem compareItems_mirror {op : Comparison} {xs ys : List Value} (comm : ∀ x ∈ xs, ∀ y ∈ ys, x.same y = y.same x)
    (each : ∀ x ∈ xs, ∀ y ∈ ys, y.compare op.mirror x = (x.compare op y).mapError Fault.mirror) :
    compareItems op.mirror ys xs = (compareItems op xs ys).mapError Fault.mirror := by
  induction xs generalizing ys with
  | nil => cases ys <;> exact congrArg Except.ok (op.ofCounts_mirror _ _)
  | cons x xs ih =>
    cases ys with
    | nil => exact congrArg Except.ok (op.ofCounts_mirror _ _)
    | cons y ys =>
      rw [compareItems, compareItems, comm x (by simp) y (by simp)]
      split
      · exact ih (fun x hx y hy => comm x (List.mem_cons_of_mem _ hx) y (List.mem_cons_of_mem _ hy))
          fun x hx y hy => each x (List.mem_cons_of_mem _ hx) y (List.mem_cons_of_mem _ hy)
      · exact each x (by simp) y (by simp)

/-- **A comparison the other way round** has the same truth value, or the mirrored fault. -/
theorem KeyedOnce.compare_mirror {v w : Value} (hv : v.KeyedOnce) (hw : w.KeyedOnce) (op : Comparison) :
    w.compare op.mirror v = (v.compare op w).mapError Fault.mirror := by
  induction hv generalizing w with
  | scalar a =>
    cases hw with
    | scalar b => exact Scalar.compare_mirror op a b
    | _ => rfl
  | list each ih =>
    cases hw with
    | list each' =>
      exact compareItems_mirror (fun x hx y hy => (each x hx).same_comm (each' y hy)) fun x hx y hy => ih x hx (each' y hy)
    | _ => rfl
  | map | record => cases hw <;> rfl

mutual

/-- A comparison is a truth value, or the fault that two values have no order. -/
theorem compare_outcome (op : Comparison) (v w : Value) :
    (∃ b, v.compare op w = .ok b) ∨ ∃ left right, v.compare op w = .error (.unordered op left right) := by
  match v, w with
  | .scalar a, .scalar b =>
    rw [compare]
    obtain ⟨x, y, hx, hy⟩ | ⟨s, t, rfl, rfl⟩ | fault := Scalar.compare_cases a b
    · exact .inl ⟨op.ofNumbers x y, by simp only [Scalar.compare, hx, hy]⟩
    · exact .inl ⟨_, rfl⟩
    · exact .inr ⟨_, _, (fault op).1⟩
  | .list xs, .list ys => exact compareItems_outcome op xs ys
  | .scalar _, .list _ | .scalar _, .map _ | .scalar _, .record _ | .list _, .scalar _ | .list _, .map _
  | .list _, .record _ | .map _, _ | .record _, _ => exact .inr ⟨_, _, rfl⟩

theorem compareItems_outcome (op : Comparison) (xs ys : List Value) :
    (∃ b, compareItems op xs ys = .ok b) ∨ ∃ left right, compareItems op xs ys = .error (.unordered op left right) := by
  match xs, ys with
  | x :: xs, y :: ys =>
    rw [compareItems]
    split
    · exact compareItems_outcome op xs ys
    · exact compare_outcome op x y
  | [], _ | _ :: _, [] => exact .inl ⟨_, rfl⟩

end

end Value

end Semijoin
