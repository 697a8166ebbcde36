import Semijoin.Proofs.Filter.Ordering
import Semijoin.Proofs.Value.Document

/-!
# What a window leaves

A window is cut out of one arrangement of the items: the one by all clauses of the order. Where the clauses can be read
and compared and the bounds are counts, there is nothing else to a window; everything else that a filter asks for is
malformed, with two exceptions. An order of a kind that can not be iterated, and a bound that is infinite, escape.
-/

namespace Semijoin
set_option autoImplicit false

namespace Window

section Clauses

/-- A text writes a clause: its first word is the field, and the clause descends exactly if a second word says so. -/
def Clause.Written (s : String) (c : Clause) : Prop :=
  ∃ others, Text.words s = c.field :: others ∧
    (c.descending = true ↔ ∃ second more, others = second :: more ∧ isDescending second = true)

/-- What an order asks for: a text for the clause it writes, a list of texts for theirs, and what counts as false for
none. -/
inductive Asks : Value → List Clause → Prop
  | nothing {order : Value} (falsy : order.truthy = false) : Asks order []
  | clause {s : String} {c : Clause} (written : c.Written s) : Asks (.text s) [c]
  | clauses {texts : List String} {cs : List Clause} (some : texts ≠ [])
      (written : List.Forall₂ (fun s c => Clause.Written s c) texts cs) : Asks (.list (texts.map .text)) cs

theorem Clause.Written.read {s : String} {c : Clause} (h : c.Written s) : Clause.ofValue? (.text s) = some c := by
  obtain ⟨field, descending⟩ := c
  obtain ⟨others, words, direction⟩ := h
  have shown : Text.words (Value.text s).shown = field :: others := words
  rw [ofValue?, shown]
  cases others with
  | nil =>
    have up : descending = false := Bool.eq_false_iff.2 fun down => by simpa using direction.1 down
    rw [up]
  | cons second more =>
    have same : descending = isDescending second := by
      rw [Bool.eq_iff_iff, direction]
      simp
    rw [same]

variable [Attributes]

/-- **Items are ordered as they are asked to be**: by an arrangement by the clauses. -/
theorem ordered_of_asks {order : Value} {cs : List Clause} {items : List Value} (asks : Asks order cs)
    (settled : Settled items cs) :
    ∃ places, Arranges items cs places ∧ ordered order (.list items) = .ok (.list (places.map items.get)) := by
  have reads : order.truthy = false ∧ cs = [] ∨ order.truthy = true ∧ ∃ vs, clauses order = .ok vs ∧ Reads vs cs := by
    cases asks with
    | nothing falsy => exact .inl ⟨falsy, rfl⟩
    | @clause s c written =>
      have some_ : s ≠ "" := by
        rintro rfl
        obtain ⟨_, words, -⟩ := written
        cases words
      exact .inr ⟨by simpa [Value.truthy] using some_, _, rfl, .cons written.read .nil⟩
    | @clauses texts _ some_ written =>
      refine .inr ⟨by simpa [Value.truthy] using some_, _, rfl, ?_⟩
      exact List.forall₂_map_left_iff.2 (written.imp fun _ _ => Clause.Written.read)
  rcases reads with ⟨falsy, rfl⟩ | ⟨truthy, vs, eq, reads⟩
  · refine ⟨List.finRange items.length, ⟨.refl _, List.pairwise_lt_finRange _⟩, ?_⟩
    rw [ordered, falsy, List.map_get_finRange]
    rfl
  · obtain ⟨places, arranges, sorted⟩ := sortByAll_places order reads settled
    refine ⟨places, arranges, ?_⟩
    rw [ordered, truthy, eq]
    exact sorted

end Clauses

section Bounds

/-- The whole number that a value stands for: true for one and false for zero, a float for its whole part, and a text
for the integer that it writes. -/
def whole? : Value → Option Int
  | .bool b => some (if b then 1 else 0)
  | .int n => some n
  | .float x => x.truncate?
  | .text s => Text.integer? s
  | _ => none

/-- The counts that values stand for as bounds: no negative numbers, and null for no bound. -/
inductive Bounds : Value → Option Nat → Prop
  | none : Bounds .null none
  | count {v : Value} {n : Nat} (whole : whole? v = some (n : Int)) : Bounds v (some n)

variable {key : String} {v : Value}

theorem Bounds.finite {n : Option Nat} (h : Bounds v n) (negative : Bool) : v ≠ .float (.infinite negative) := by
  rintro rfl
  cases h with
  | count whole => cases whole

theorem wholeNumber_eq (finite : ∀ negative, v ≠ .float (.infinite negative)) :
    wholeNumber key v = match whole? v with
      | some n => .ok n
      | none => .error (badBound key v) := by
  cases v with
  | scalar s =>
    cases s with
    | float x =>
      cases x with
      | infinite negative => exact absurd rfl (finite negative)
      | _ => rfl
    | text s =>
      simp only [whole?, wholeNumber]
      cases Text.integer? s <;> rfl
    | _ => rfl
  | _ => rfl

theorem bound_of_bounds {n : Option Nat} (h : Bounds v n) : bound key v = .ok n := by
  have finite := h.finite
  cases h with
  | none => rfl
  | @count _ n whole =>
    have set : v.isNull = false := Bool.eq_false_iff.2 fun null => by
      rw [Value.isNull_iff.1 null] at whole
      cases whole
    have count : ¬ (n : Int) < 0 := by omega
    rw [bound, set, wholeNumber_eq finite, whole]
    show (if (n : Int) < 0 then Except.error (badBound key v) else .ok (some (n : Int).toNat)) = _
    rw [if_neg count, Int.toNat_natCast]

/-- What is no count, and not infinite, is malformed. -/
theorem bound_bad (bad : ∀ n, ¬ Bounds v n) (finite : ∀ negative, v ≠ .float (.infinite negative)) :
    bound key v = .error (badBound key v) := by
  have set : v.isNull = false := Bool.eq_false_iff.2 fun null => bad none (Value.isNull_iff.1 null ▸ .none)
  rw [bound, set, wholeNumber_eq finite]
  cases whole : whole? v with
  | none => rfl
  | some k =>
    cases k with
    | ofNat n => exact absurd (.count whole) (bad n)
    | negSucc n =>
      show (if Int.negSucc n < 0 then Except.error (badBound key v) else .ok (some (Int.negSucc n).toNat)) = _
      rw [if_pos (Int.negSucc_lt_zero n)]

end Bounds

/-- The part of a list that bounds leave. -/
def cut {α : Type} (skip limit : Option Nat) (l : List α) : List α :=
  match limit with
  | some n => (l.drop (skip.getD 0)).take n
  | none => l.drop (skip.getD 0)

variable [Attributes]

theorem apply_of_bounds {items kept : List Value} {filter : Value} {skip limit : Option Nat}
    (eq : ordered (part filter "order" "order") (.list items) = .ok (.list kept))
    (skips : Bounds (part filter "skip" "offset") skip) (limits : Bounds (part filter "limit" "limit") limit) :
    apply (.list items) filter = .ok (.list (cut skip limit kept)) := by
  rw [apply, eq, bound_of_bounds skips, bound_of_bounds limits]
  cases limit <;> rfl

/-- **A window is cut out of one arrangement** of the items, by all clauses of the order. -/
theorem apply_arranges {items : List Value} {filter : Value} {cs : List Clause} {skip limit : Option Nat}
    (asks : Asks (part filter "order" "order") cs) (compares : ∀ c ∈ cs, c.Compares items)
    (numbers : ∀ c ∈ cs, ∀ a ∈ items, (a.under c.field).holdsNan = false)
    (skips : Bounds (part filter "skip" "offset") skip) (limits : Bounds (part filter "limit" "limit") limit) :
    ∃ places, Arranges items cs places ∧ (∀ others, Arranges items cs others → others = places) ∧
      apply (.list items) filter = .ok (.list (cut skip limit (places.map items.get))) := by
  have settled := settled_of_compares compares numbers
  obtain ⟨places, arranges, eq⟩ := ordered_of_asks asks settled
  exact ⟨places, arranges, fun _ h => settled.arranges_unique h arranges, apply_of_bounds eq skips limits⟩

end Window

namespace Sample

/-- Pupils with grades of two kinds, one without a grade, and two that no clause tells apart. -/
def pupils : List Value := [
  .ofFields [("name", .text "ada"), ("grade", .int 2), ("id", .int 1)],
  .ofFields [("name", .text "bob"), ("id", .int 2)],
  .ofFields [("name", .text "dan"), ("grade", .float (.ofInt 3)), ("id", .int 3)],
  .ofFields [("name", .text "ada"), ("grade", .int 2), ("id", .int 4)],
  .ofFields [("name", .text "cyd"), ("grade", .int 3), ("id", .int 5)]]

/-- The best pupils first, but for the first one. -/
def bestPupils : Value :=
  .ofFields [("order", .list [.text "grade desc", .text "name"]), ("offset", .text " 1 "), ("limit", .int 3)]

end Sample

namespace Window

/-- Pupils without a grade go first when grades descend; those of one grade go by name, and then as they were. -/
theorem apply_arranges_pupils : apply (.list Sample.pupils) Sample.bestPupils = .ok (.list [
    .ofFields [("name", .text "cyd"), ("grade", .int 3), ("id", .int 5)],
    .ofFields [("name", .text "dan"), ("grade", .float (.ofInt 3)), ("id", .int 3)],
    .ofFields [("name", .text "ada"), ("grade", .int 2), ("id", .int 1)]]) := by
  let cs : List Clause := [⟨"grade", true⟩, ⟨"name", false⟩]
  have written : List.Forall₂ (fun s c => Clause.Written s c) ["grade desc", "name"] cs :=
    .cons ⟨["desc"], rfl, by simp; decide⟩ (.cons ⟨[], rfl, by simp⟩ .nil)
  have asks : Asks (part Sample.bestPupils "order" "order") cs := .clauses (by simp) written
  have compares : ∀ c ∈ cs, c.Compares Sample.pupils := by decide +kernel
  have skips : Bounds (part Sample.bestPupils "skip" "offset") (some 1) := .count (by decide +kernel)
  have limits : Bounds (part Sample.bestPupils "limit" "limit") (some 3) := .count (by decide +kernel)
  obtain ⟨places, -, unique, eq⟩ := apply_arranges asks compares (by decide +kernel) skips limits
  have arranged : Arranges Sample.pupils cs
      [⟨1, by decide⟩, ⟨4, by decide⟩, ⟨2, by decide⟩, ⟨0, by decide⟩, ⟨3, by decide⟩] :=
    ⟨by decide +kernel, by decide +kernel⟩
  rw [eq, ← unique _ arranged]
  rfl

section Outcome

variable {items : List Value} {filter : Value}

/-- An order can be read: it counts as false, or its values write clauses. -/
def Readable (order : Value) : Prop :=
  order.truthy = false ∨ ∃ vs, clauses order = .ok vs ∧ ∀ v ∈ vs, ∃ c, Clause.ofValue? v = some c

/-- A filter with an order that can be read and bounds that are counts. -/
structure Accepts (filter : Value) : Prop where
  order : Readable (part filter "order" "order")
  skip : ∃ n, Bounds (part filter "skip" "offset") n
  limit : ∃ n, Bounds (part filter "limit" "limit") n

/-- What escapes from a window: a scalar as an order, no text and true, and the first bound that is infinite, if what is
read before it is in order. -/
inductive Escapes (filter : Value) : Failure → Prop
  | order {s : Scalar} (given : part filter "order" "order" = .scalar s) (truthy : (Value.scalar s).truthy = true)
      (number : s.kind ≠ .text) : Escapes filter (.ofFault (.notIterable s.kind))
  | skip {negative : Bool} (readable : Readable (part filter "order" "order"))
      (given : part filter "skip" "offset" = .float (.infinite negative)) : Escapes filter (.cause .infiniteInteger)
  | limit {n : Option Nat} {negative : Bool} (readable : Readable (part filter "order" "order"))
      (skips : Bounds (part filter "skip" "offset") n)
      (given : part filter "limit" "limit" = .float (.infinite negative)) : Escapes filter (.cause .infiniteInteger)

/-- Nothing escapes where each part that is read is of a kind that can be, and no bound that is read is infinite. -/
theorem not_escapes (text : ∀ s : Scalar, part filter "order" "order" = .scalar s →
      (Value.scalar s).truthy = true → s.kind = .text)
    (skip : Readable (part filter "order" "order") → ∀ negative,
      part filter "skip" "offset" ≠ .float (.infinite negative))
    (limit : Readable (part filter "order" "order") → (∃ n, Bounds (part filter "skip" "offset") n) → ∀ negative,
      part filter "limit" "limit" ≠ .float (.infinite negative)) (f : Failure) : ¬ Escapes filter f := by
  rintro (⟨given, truthy, number⟩ | ⟨readable, given⟩ | ⟨readable, skips, given⟩)
  · exact number (text _ given truthy)
  · exact skip readable _ given
  · exact limit readable ⟨_, skips⟩ _ given

/-- **A bound** is a count, or infinite, or malformed. -/
theorem bound_outcome (key : String) (v : Value) :
    (∃ n, Bounds v n ∧ bound key v = .ok n) ∨
    (∃ negative, v = .float (.infinite negative) ∧ bound key v = .error (.cause .infiniteInteger)) ∨
    (∀ n, ¬ Bounds v n) ∧ (∀ negative, v ≠ .float (.infinite negative)) ∧ bound key v = .error (badBound key v) := by
  by_cases infinite : ∃ negative, v = .float (.infinite negative)
  · obtain ⟨negative, rfl⟩ := infinite
    exact .inr (.inl ⟨negative, rfl, rfl⟩)
  · have finite : ∀ negative, v ≠ .float (.infinite negative) := fun negative eq => infinite ⟨negative, eq⟩
    by_cases bounds : ∃ n, Bounds v n
    · obtain ⟨n, bounds⟩ := bounds
      exact .inl ⟨n, bounds, bound_of_bounds bounds⟩
    · have bad : ∀ n, ¬ Bounds v n := fun n bounds' => bounds ⟨n, bounds'⟩
      exact .inr (.inr ⟨bad, finite, bound_bad bad finite⟩)

theorem Readable.text {s : Scalar} (readable : Readable (.scalar s)) (truthy : (Value.scalar s).truthy = true) :
    s.kind = .text := by
  rcases readable with falsy | ⟨vs, eq, -⟩
  · rw [truthy] at falsy
    cases falsy
  · cases s with
    | text s => rfl
    | _ => cases eq

/-- An order gives values to read, unless it is a scalar other than a text. -/
theorem clauses_outcome {order : Value} (document : order.isDocument = true) :
    (∃ vs, clauses order = .ok vs) ∧ (∀ s : Scalar, order = .scalar s → s.kind = .text) ∨
      ∃ s : Scalar, order = .scalar s ∧ s.kind ≠ .text ∧ clauses order = .error (.notIterable s.kind) := by
  cases order with
  | scalar s =>
    cases s with
    | text s => exact .inl ⟨⟨_, rfl⟩, by rintro _ ⟨⟩; rfl⟩
    | _ => exact .inr ⟨_, rfl, (nomatch ·), rfl⟩
  | list _ | map _ => exact .inl ⟨⟨_, rfl⟩, fun _ eq => by cases eq⟩
  | record _ => cases document

theorem isDocument_part (document : filter.isDocument = true) (key other : String) :
    (part filter key other).isDocument = true := by
  rw [part]
  cases given : filter.get? key with
  | some v => exact Value.isDocument_get? document given
  | none =>
    cases given' : filter.get? other with
    | some v => exact Value.isDocument_get? document given'
    | none => rfl

variable [Attributes]

/-- **An order** is followed, or it is no list, or malformed. -/
theorem ordered_outcome {order : Value} (document : order.isDocument = true)
    (compares : ∀ vs, clauses order = .ok vs → ∀ v ∈ vs, ∀ c, Clause.ofValue? v = some c → c.Compares items) :
    (Readable order ∧ ∃ kept, ordered order (.list items) = .ok (.list kept)) ∨
    (∃ s : Scalar, order = .scalar s ∧ order.truthy = true ∧ s.kind ≠ .text ∧
      ordered order (.list items) = .error (.ofFault (.notIterable s.kind))) ∨
    ¬ Readable order ∧ (∀ s : Scalar, order = .scalar s → s.kind = .text) ∧
      ∃ reason, ordered order (.list items) = .error (.malformedFilter reason) := by
  cases truthy : order.truthy with
  | false => exact .inl ⟨.inl truthy, items, by rw [ordered, truthy]; rfl⟩
  | true =>
    rcases clauses_outcome document with ⟨⟨vs, eq⟩, text⟩ | ⟨s, given, number, eq⟩
    · have sorting : ordered order (.list items) = sortByAll order (.list items) vs.reverse := by
        rw [ordered, truthy, eq]
        rfl
      rw [sorting]
      have compares' : ∀ v ∈ vs.reverse, ∀ c, Clause.ofValue? v = some c → c.Compares items :=
        fun v mem => compares vs eq v (List.mem_reverse.1 mem)
      rcases sortByAll_outcome order compares' with ⟨all, kept⟩ | ⟨⟨v, mem, blank⟩, malformed⟩
      · exact .inl ⟨.inr ⟨vs, eq, fun v mem => all v (List.mem_reverse.2 mem)⟩, kept⟩
      · refine .inr (.inr ⟨?_, text, malformed⟩)
        rintro (falsy | ⟨_, eq', all⟩)
        · rw [truthy] at falsy
          cases falsy
        · cases eq.symm.trans eq'
          obtain ⟨c, read⟩ := all v (List.mem_reverse.1 mem)
          rw [blank] at read
          cases read
    · exact .inr (.inl ⟨s, given, rfl, number, by rw [ordered, truthy, eq]; rfl⟩)

/-- **A window comes to a list or is malformed**, whatever a filter document asks for, with the exception of what
escapes. It comes to a list exactly if the order can be read and the bounds are counts. -/
theorem apply_outcome (document : filter.isDocument = true)
    (compares : ∀ vs, clauses (part filter "order" "order") = .ok vs → ∀ v ∈ vs, ∀ c, Clause.ofValue? v = some c →
      c.Compares items) :
    (∃ f, Escapes filter f ∧ apply (.list items) filter = .error f) ∨
    (∀ f, ¬ Escapes filter f) ∧
      ((Accepts filter ∧ ∃ kept, apply (.list items) filter = .ok (.list kept)) ∨
        (¬ Accepts filter ∧ ∃ reason, apply (.list items) filter = .error (.malformedFilter reason))) := by
  rcases ordered_outcome (isDocument_part document "order" "order") compares with
    ⟨readable, kept, eq⟩ | ⟨s, given, truthy, number, eq⟩ | ⟨unreadable, text, reason, eq⟩
  · have text : ∀ s : Scalar, part filter "order" "order" = .scalar s → (Value.scalar s).truthy = true →
        s.kind = .text := fun _ given truthy => (given ▸ readable).text truthy
    rcases bound_outcome "skip" (part filter "skip" "offset") with
      ⟨skip, skips, cutSkip⟩ | ⟨negative, given, cutSkip⟩ | ⟨bad, finite, cutSkip⟩
    · rcases bound_outcome "limit" (part filter "limit" "limit") with
        ⟨limit, limits, cutLimit⟩ | ⟨negative, given, cutLimit⟩ | ⟨bad, finite, cutLimit⟩
      · refine .inr ⟨not_escapes text (fun _ => skips.finite) (fun _ _ => limits.finite), .inl ?_⟩
        exact ⟨⟨readable, ⟨_, skips⟩, ⟨_, limits⟩⟩, _, apply_of_bounds eq skips limits⟩
      · exact .inl ⟨_, .limit readable skips given, by rw [apply, eq, cutSkip, cutLimit]; rfl⟩
      · have unbounded : ¬ ∃ n, Bounds (part filter "limit" "limit") n := fun ⟨n, limits⟩ => bad n limits
        refine .inr ⟨not_escapes text (fun _ => skips.finite) (fun _ _ => finite), .inr ?_⟩
        exact ⟨fun accepts => unbounded accepts.limit, _, by rw [apply, eq, cutSkip, cutLimit]; rfl⟩
    · exact .inl ⟨_, .skip readable given, by rw [apply, eq, cutSkip]; rfl⟩
    · have unbounded : ¬ ∃ n, Bounds (part filter "skip" "offset") n := fun ⟨n, skips⟩ => bad n skips
      refine .inr ⟨not_escapes text (fun _ => finite) (fun _ skips => absurd skips unbounded), .inr ?_⟩
      exact ⟨fun accepts => unbounded accepts.skip, _, by rw [apply, eq, cutSkip]; rfl⟩
  · exact .inl ⟨_, .order given (given ▸ truthy) number, by rw [apply, eq]; rfl⟩
  · refine .inr ⟨not_escapes (fun s given _ => text s given) (fun readable => absurd readable unreadable)
      (fun readable => absurd readable unreadable), .inr ?_⟩
    exact ⟨fun accepts => unreadable accepts.order, reason, by rw [apply, eq]; rfl⟩

end Outcome

end Window

namespace Sample

/-- The best pupils first, and no end of them. -/
def endless : Value :=
  .ofFields [("order", .list [.text "grade desc", .text "name"]), ("limit", .float (.infinite false))]

/-- The text of a filter whose number is too large for a float. -/
def hugeSkip : String := "\x7b\"skip\": 1e400\x7d"

end Sample

namespace Window

/-- An infinite limit is met once the items are in order, and escapes. -/
theorem apply_outcome_endless : Escapes Sample.endless (.cause .infiniteInteger) ∧
    apply (.list Sample.pupils) Sample.endless = .error (.cause .infiniteInteger) := by
  have compares : ∀ vs, clauses (part Sample.endless "order" "order") = .ok vs → ∀ v ∈ vs, ∀ c,
      Clause.ofValue? v = some c → c.Compares Sample.pupils := by
    rintro _ ⟨⟩ v mem c read
    rcases List.mem_pair.1 mem with rfl | rfl <;> cases read <;> decide +kernel
  have readable : Readable (part Sample.endless "order" "order") := by
    refine .inr ⟨_, rfl, fun v mem => ?_⟩
    rcases List.mem_pair.1 mem with rfl | rfl <;> exact ⟨_, rfl⟩
  have endless : Escapes Sample.endless (.cause .infiniteInteger) :=
    .limit readable (show Bounds (part Sample.endless "skip" "offset") none from .none) rfl
  rcases apply_outcome (by decide +kernel : Sample.endless.isDocument = true) compares with
    ⟨f, escapes, eq⟩ | ⟨none_, -⟩
  · cases escapes with
    | order given => cases given
    | skip _ given => cases given
    | limit => exact ⟨endless, eq⟩
  · exact absurd endless (none_ _)

/-- Not every filter that is read from a text comes to a list or is malformed. -/
theorem huge_skip_escapes : ¬ ∀ (text : String) (filter : Value) (items : List Value), Json.read text = .ok filter →
    (∀ vs, clauses (part filter "order" "order") = .ok vs → ∀ v ∈ vs, ∀ c, Clause.ofValue? v = some c →
      c.Compares items) →
    (∃ kept, apply (.list items) filter = .ok (.list kept)) ∨
      ∃ reason, apply (.list items) filter = .error (.malformedFilter reason) := by
  intro total
  have read : ∃ filter, Json.read Sample.hugeSkip = .ok filter ∧ (part filter "order" "order").asKey? = some .null ∧
      (part filter "skip" "offset").asKey? = some (.float (.infinite false)) := by
    have shape : (Json.read Sample.hugeSkip).toOption.any (fun filter =>
        (part filter "order" "order").asKey? = some .null ∧
          (part filter "skip" "offset").asKey? = some (.float (.infinite false))) = true := by decide +kernel
    cases eq : Json.read Sample.hugeSkip with
    | error f => simp [eq, Except.toOption] at shape
    | ok filter => exact ⟨filter, rfl, by simpa [eq, Except.toOption] using shape⟩
  obtain ⟨filter, eq, order, skip⟩ := read
  have failed : apply (.list []) filter = .error (.cause .infiniteInteger) := by
    rw [apply, Value.eq_of_asKey? order, Value.eq_of_asKey? skip]
    rfl
  rcases total _ filter [] eq (fun _ _ _ _ _ _ => .nil) with ⟨kept, ok⟩ | ⟨reason, malformed⟩
  · rw [failed] at ok
    cases ok
  · rw [failed] at malformed
    cases malformed

end Window

end Semijoin
