import Semijoin.Proofs.Value.Columns
import Semijoin.Value.Order

/-!
# The order of comparable values

Comparing two values may fail, and where it does not, a NaN is below nothing and above nothing. `Value.order?` is the
order of two values that are equal or of which one is less. Values that can be compared and hold no NaN have an order,
and among values that have one two by two, it is a total preorder whose ties are the equal values.
-/

namespace Semijoin
set_option autoImplicit false

/-- A test that is a strict total order. -/
structure Total {α : Type} (lt : α → α → Bool) : Prop where
  asymm : ∀ {a b}, lt a b = true → lt b a = false
  trans : ∀ {a b c}, lt a b = true → lt b c = true → lt a c = true
  eq_of_not_lt : ∀ {a b}, lt a b = false → lt b a = false → a = b

/-- The order of two elements by a test. -/
def orderOf {α : Type} (lt : α → α → Bool) (a b : α) : Ordering :=
  if lt a b then .lt else if lt b a then .gt else .eq

section OrderOf

variable {α : Type} {lt : α → α → Bool} {a b : α}

theorem orderOf_eq_lt : orderOf lt a b = .lt ↔ lt a b = true := by
  unfold orderOf
  cases lt a b <;> cases lt b a <;> simp

theorem Total.orderOf_eq_gt (total : Total lt) : orderOf lt a b = .gt ↔ lt b a = true := by
  unfold orderOf
  cases ab : lt a b
  · cases lt b a <;> simp
  · simp [total.asymm ab]

theorem Total.orderOf_eq_eq (total : Total lt) : orderOf lt a b = .eq ↔ a = b := by
  unfold orderOf
  constructor
  · intro h
    cases ab : lt a b <;> cases ba : lt b a <;> simp [ab, ba] at h
    exact total.eq_of_not_lt ab ba
  · rintro rfl
    have irrefl : lt a a = false := Bool.eq_false_iff.2 fun less => by simpa [less] using total.asymm less
    simp [irrefl]

theorem Total.orderOf_swap (total : Total lt) (a b : α) : orderOf lt b a = (orderOf lt a b).swap := by
  cases h : orderOf lt a b with
  | lt => exact total.orderOf_eq_gt.2 (orderOf_eq_lt.1 h)
  | eq => exact total.orderOf_eq_eq.2 (total.orderOf_eq_eq.1 h).symm
  | gt => exact orderOf_eq_lt.2 (total.orderOf_eq_gt.1 h)

end OrderOf

/-- The order of two pairs: that of the first parts, and where those tie, that of the others. -/
def lexOrder? (first later : Option Ordering) : Option Ordering :=
  match first with
  | some .eq => later
  | o => o

theorem lexOrder?_eq_some {first later : Option Ordering} {o : Ordering} :
    lexOrder? first later = some o ↔ ∃ x y, first = some x ∧ (x = .eq → later = some y) ∧ o = x.then y := by
  constructor
  · intro h
    cases first with
    | none => cases h
    | some x =>
      cases x with
      | eq => exact ⟨.eq, o, rfl, fun _ => h, rfl⟩
      | lt | gt =>
        cases h
        exact ⟨_, .eq, rfl, (nomatch ·), rfl⟩
  · rintro ⟨x, y, rfl, tied, rfl⟩
    cases x with
    | eq => exact tied rfl
    | lt | gt => rfl

theorem lexOrder?_swap (first later : Option Ordering) :
    lexOrder? (first.map Ordering.swap) (later.map Ordering.swap) = (lexOrder? first later).map Ordering.swap := by
  rcases first with _ | x
  · rfl
  · cases x <;> rfl

/-- The orders of three values fit together, if there are any: unless the first and the second value are ordered one
way, and the second and the third the other way, the first step that is no tie is the order of the outer values. -/
def Fit (a b c : Option Ordering) : Prop :=
  ∀ x y z, a = some x → b = some y → c = some z → x = .eq ∨ y = .eq ∨ x = y → z = x.then y

namespace Fit

theorem of_total {α : Type} {lt : α → α → Bool} (total : Total lt) (x y z : α) :
    Fit (some (orderOf lt x y)) (some (orderOf lt y z)) (some (orderOf lt x z)) := by
  rintro _ _ _ ⟨⟩ ⟨⟩ ⟨⟩ one_way
  cases first : orderOf lt x y with
  | eq => rw [total.orderOf_eq_eq.1 first]; rfl
  | lt =>
    cases second : orderOf lt y z with
    | lt => exact orderOf_eq_lt.2 (total.trans (orderOf_eq_lt.1 first) (orderOf_eq_lt.1 second))
    | eq => rw [← total.orderOf_eq_eq.1 second, first]; rfl
    | gt => rw [first, second] at one_way; simp at one_way
  | gt =>
    cases second : orderOf lt y z with
    | gt => exact total.orderOf_eq_gt.2 (total.trans (total.orderOf_eq_gt.1 second) (total.orderOf_eq_gt.1 first))
    | eq => rw [← total.orderOf_eq_eq.1 second, first]; rfl
    | lt => rw [first, second] at one_way; simp at one_way

theorem comm {a b c : Option Ordering} (h : Fit a b c) : Fit b a c := by
  intro x y z first second outer one_way
  rw [h y x z second first outer (by rcases one_way with rfl | rfl | rfl <;> simp)]
  rcases one_way with rfl | rfl | rfl
  · exact Ordering.then_eq
  · exact Ordering.then_eq.symm
  · rfl

theorem lex {a b c a' b' c' : Option Ordering} (heads : Fit a b c) (tails : Fit a' b' c') :
    Fit (lexOrder? a a') (lexOrder? b b') (lexOrder? c c') := by
  intro x y z first second outer one_way
  obtain ⟨x, x', rfl, tied, rfl⟩ := lexOrder?_eq_some.1 first
  obtain ⟨y, y', rfl, tied', rfl⟩ := lexOrder?_eq_some.1 second
  obtain ⟨z, z', rfl, tied'', rfl⟩ := lexOrder?_eq_some.1 outer
  have head := heads x y z rfl rfl rfl
  cases x with
  | eq =>
    obtain rfl : z = y := head (.inl rfl)
    cases z with
    | eq => exact tails x' y' z' (tied rfl) (tied' rfl) (tied'' rfl) one_way
    | lt | gt => cases x' <;> first | rfl | simp at one_way
  | lt | gt => cases y <;> cases y' <;> simp_all

end Fit

/-- An order is that which an equality and a comparison tell. Equal values need not be comparable. -/
structure Tells (o : Ordering) (same : Bool) (outcome : Except Fault Bool) : Prop where
  tie : same = (o == .eq)
  apart : o ≠ .eq → outcome = .ok (o == .lt)
  below : outcome = .ok true → o = .lt

theorem Tells.of_outcome {o : Ordering} {same : Bool} {outcome : Except Fault Bool} (tie : same = (o == .eq))
    (eq : outcome = .ok (o == .lt)) : Tells o same outcome where
  tie := tie
  apart _ := eq
  below less := by simpa using (Except.ok.inj (eq.symm.trans less))

theorem Tells.of_test {α : Type} {lt : α → α → Bool} {a b : α} {same : Bool} {outcome : Except Fault Bool}
    (tie : same = (orderOf lt a b == .eq)) (eq : outcome = .ok (lt a b)) : Tells (orderOf lt a b) same outcome := by
  refine .of_outcome tie (eq.trans (congrArg Except.ok ?_))
  rw [Bool.eq_iff_iff, beq_iff_eq, orderOf_eq_lt]

namespace Extended

/-- Numbers other than NaN. -/
abbrev Proper : Type := {x : Extended // x ≠ .nan}

/-- A number as one other than NaN. -/
def proper? (x : Extended) : Option Proper := if h : x ≠ .nan then some ⟨x, h⟩ else none

theorem lt_asymm {x y : Extended} (h : x.lt y = true) : y.lt x = false := by
  cases x <;> cases y <;> simp_all [lt]
  omega

theorem lt_trans {x y z : Extended} (h : x.lt y = true) (h' : y.lt z = true) : x.lt z = true := by
  cases x <;> cases y <;> cases z <;> simp_all [lt]
  omega

theorem eq_of_not_lt {x y : Extended} (hx : x ≠ .nan) (hy : y ≠ .nan) (h : x.lt y = false) (h' : y.lt x = false) :
    x = y := by
  cases x <;> cases y <;> simp_all [lt]
  omega

theorem total_proper : Total fun x y : Proper => x.1.lt y.1 where
  asymm := lt_asymm
  trans := lt_trans
  eq_of_not_lt {x y} h h' := Subtype.ext (eq_of_not_lt x.2 y.2 h h')

end Extended

theorem total_texts : Total fun s t : String => decide (s < t) where
  asymm h := decide_eq_false (String.lt_asymm (of_decide_eq_true h))
  trans h h' := decide_eq_true (String.lt_trans (of_decide_eq_true h) (of_decide_eq_true h'))
  eq_of_not_lt h h' := String.le_antisymm (of_decide_eq_false h') (of_decide_eq_false h)

/-- The place of a scalar among those of its sort. -/
inductive Rank where
  | number (x : Extended.Proper)
  | text (s : String)
  | null

namespace Rank

/-- The order of two places of one sort. -/
def order? : Rank → Rank → Option Ordering
  | .number x, .number y => some (orderOf (fun x y => x.1.lt y.1) x y)
  | .text s, .text t => some (orderOf (fun s t => decide (s < t)) s t)
  | .null, .null => some .eq
  | _, _ => none

theorem order?_swap (r s : Rank) : s.order? r = (r.order? s).map Ordering.swap := by
  cases r <;> cases s <;> first
    | exact congrArg some (Extended.total_proper.orderOf_swap _ _)
    | exact congrArg some (total_texts.orderOf_swap _ _)
    | rfl

theorem order?_fit (r s t : Rank) : Fit (r.order? s) (s.order? t) (r.order? t) := by
  cases r <;> cases s <;> cases t <;> first
    | exact Fit.of_total Extended.total_proper _ _ _
    | exact Fit.of_total total_texts _ _ _
    | (rintro _ _ _ ⟨⟩ ⟨⟩ ⟨⟩ <;> exact fun _ => rfl)

end Rank

namespace Scalar

/-- The place of a scalar; a NaN has none. -/
def rank? (a : Scalar) : Option Rank :=
  match a with
  | .text s => some (.text s)
  | .null => some .null
  | a => (a.number?.bind Extended.proper?).map .number

/-- The order of two scalars of one sort, unless one is NaN. -/
def order? (a b : Scalar) : Option Ordering := do (← a.rank?).order? (← b.rank?)

theorem order?_eq_some {a b : Scalar} {o : Ordering} :
    a.order? b = some o ↔ ∃ r s, a.rank? = some r ∧ b.rank? = some s ∧ r.order? s = some o := by
  simp only [order?, Option.bind_eq_bind, Option.bind_eq_some_iff, exists_and_left]

theorem order?_swap (a b : Scalar) : b.order? a = (a.order? b).map Ordering.swap := by
  rw [order?, order?]
  cases a.rank? with
  | none => cases b.rank? <;> rfl
  | some r =>
    cases b.rank? with
    | none => rfl
    | some s => exact Rank.order?_swap r s

theorem order?_fit (a b c : Scalar) : Fit (a.order? b) (b.order? c) (a.order? c) := by
  intro x y z first second outer
  obtain ⟨r, s, ha, hb, first⟩ := order?_eq_some.1 first
  obtain ⟨_, t, hb', hc, second⟩ := order?_eq_some.1 second
  obtain ⟨_, _, ha', hc', outer⟩ := order?_eq_some.1 outer
  cases ha.symm.trans ha'
  cases hb.symm.trans hb'
  cases hc.symm.trans hc'
  exact Rank.order?_fit r s t x y z first second outer

/-- A scalar that has a place is a number, a text or null. -/
theorem rank?_eq_some {a : Scalar} {r : Rank} (h : a.rank? = some r) :
    (∃ x, a.number? = some x.1 ∧ r = .number x) ∨ (∃ s, a = .text s ∧ r = .text s) ∨ a = .null ∧ r = .null := by
  cases a with
  | text s => exact .inr (.inl ⟨s, rfl, (Option.some.inj h).symm⟩)
  | null => exact .inr (.inr ⟨rfl, (Option.some.inj h).symm⟩)
  | bool _ | int _ | float _ =>
    simp only [rank?, number?, Option.bind_some, Option.map_eq_some_iff, Extended.proper?,
      Option.dite_none_right_eq_some] at h
    obtain ⟨_, ⟨proper, ⟨⟩⟩, rfl⟩ := h
    exact .inl ⟨_, rfl, rfl⟩

/-- **The order of scalars** is that of their comparison, and a tie is an equality. -/
theorem order?_tells {a b : Scalar} {o : Ordering} (h : a.order? b = some o) :
    Tells o (a.same b) (a.compare .lt b) := by
  obtain ⟨r, s, ha, hb, order⟩ := order?_eq_some.1 h
  rcases rank?_eq_some ha with ⟨x, hx, rfl⟩ | ⟨s, rfl, rfl⟩ | ⟨rfl, rfl⟩ <;>
    rcases rank?_eq_some hb with ⟨y, hy, rfl⟩ | ⟨t, rfl, rfl⟩ | ⟨rfl, rfl⟩ <;> cases order
  · simp only [same, compare, hx, hy]
    have tie : (x.1 == y.1) = (orderOf (fun x y : Extended.Proper => x.1.lt y.1) x y == .eq) := by
      rw [Bool.eq_iff_iff, beq_iff_eq, beq_iff_eq, Extended.total_proper.orderOf_eq_eq, Subtype.ext_iff]
    exact .of_test tie rfl
  · have tie : (Scalar.text s == .text t) = (orderOf (fun s t => decide (s < t)) s t == .eq) := by
      rw [Bool.eq_iff_iff, beq_iff_eq, beq_iff_eq, total_texts.orderOf_eq_eq, Scalar.text.injEq]
    exact .of_test tie rfl
  · exact ⟨rfl, fun apart => absurd rfl apart, fun less => by cases less⟩

/-- A scalar other than NaN has a place. -/
theorem exists_rank {a : Scalar} (number : a ≠ .float .nan) : ∃ r, a.rank? = some r := by
  cases a with
  | float x =>
    cases x with
    | nan => exact absurd rfl number
    | infinite negative => cases negative <;> exact ⟨_, rfl⟩
    | finite negative units => exact ⟨_, rfl⟩
  | _ => exact ⟨_, rfl⟩

/-- Scalars that can be compared have an order, unless one is NaN. -/
theorem exists_order {a b : Scalar} (comparable : a.same b = true ∨ ∃ less, a.compare .lt b = .ok less)
    (ha : a ≠ .float .nan) (hb : b ≠ .float .nan) : ∃ o, a.order? b = some o := by
  obtain ⟨r, hr⟩ := exists_rank ha
  obtain ⟨s, hs⟩ := exists_rank hb
  suffices h : ∃ o, r.order? s = some o from h.imp fun o order => order?_eq_some.2 ⟨r, s, hr, hs, order⟩
  rcases rank?_eq_some hr with ⟨x, hx, rfl⟩ | ⟨s, rfl, rfl⟩ | ⟨rfl, rfl⟩ <;>
    rcases rank?_eq_some hs with ⟨y, hy, rfl⟩ | ⟨t, rfl, rfl⟩ | ⟨rfl, rfl⟩
  -- Of different sorts, neither are they equal nor can they be compared.
  all_goals first
    | exact ⟨_, rfl⟩
    | (cases a <;> simp [same, compare, number?] at comparable hx)
    | (cases b <;> simp [same, compare, number?] at comparable hy)
    | simp [same, compare, number?] at comparable

end Scalar

namespace Value

/-- One value can be compared to another: they are equal, or it is less or not. -/
def Comparable (v w : Value) : Prop := v.same w = true ∨ ∃ less, v.compare .lt w = .ok less

instance (v w : Value) : Decidable (v.Comparable w) :=
  decidable_of_iff (v.same w = true ∨ (match v.compare .lt w with | .ok _ => true | .error _ => false) = true) (by
    unfold Comparable
    cases v.compare .lt w <;> simp)

mutual

/-- Whether a value is NaN or a list with NaN inside. -/
def holdsNan : Value → Bool
  | .scalar s => s == .float .nan
  | .list items => itemsHoldNan items
  | _ => false

/-- Whether an item of a list is NaN or a list with NaN inside. -/
def itemsHoldNan : List Value → Bool
  | [] => false
  | v :: rest => v.holdsNan || itemsHoldNan rest

end

mutual

/-- The order of two values that are equal or of which one is less. -/
def order? : Value → Value → Option Ordering
  | .scalar a, .scalar b => a.order? b
  | .list xs, .list ys => orderItems? xs ys
  | .map es, .map fs => if (map es).same (.map fs) && (map fs).same (.map es) then some .eq else none
  | _, _ => none

/-- The order of two lists, by their items and then by their lengths. -/
def orderItems? : List Value → List Value → Option Ordering
  | [], [] => some .eq
  | [], _ :: _ => some .lt
  | _ :: _, [] => some .gt
  | x :: xs, y :: ys => lexOrder? (order? x y) (orderItems? xs ys)

end

/-- Values that have an order are scalars, lists or equal mappings. -/
theorem order?_cases {v w : Value} {o : Ordering} (h : v.order? w = some o) :
    (∃ a b, v = .scalar a ∧ w = .scalar b ∧ a.order? b = some o) ∨
    (∃ xs ys, v = .list xs ∧ w = .list ys ∧ orderItems? xs ys = some o) ∨
    ∃ es fs, v = .map es ∧ w = .map fs ∧ v.same w = true ∧ o = .eq := by
  unfold order? at h
  split at h
  · exact .inl ⟨_, _, rfl, rfl, h⟩
  · exact .inr (.inl ⟨_, _, rfl, rfl, h⟩)
  · obtain ⟨tie, eq⟩ := Option.ite_none_right_eq_some.1 h
    exact .inr (.inr ⟨_, _, rfl, rfl, (Bool.and_eq_true_iff.1 tie).1, (Option.some.inj eq).symm⟩)
  · cases h

mutual

theorem order?_swap (v w : Value) : w.order? v = (v.order? w).map Ordering.swap := by
  match v, w with
  | .scalar a, .scalar b => exact Scalar.order?_swap a b
  | .list xs, .list ys => exact orderItems?_swap xs ys
  | .map es, .map fs =>
    rw [order?, order?, Bool.and_comm]
    split <;> rfl
  | .scalar _, .list _ | .scalar _, .map _ | .scalar _, .record _ | .list _, .scalar _ | .list _, .map _
  | .list _, .record _ | .map _, .scalar _ | .map _, .list _ | .map _, .record _ | .record _, .scalar _
  | .record _, .list _ | .record _, .map _ | .record _, .record _ => rfl

theorem orderItems?_swap (xs ys : List Value) : orderItems? ys xs = (orderItems? xs ys).map Ordering.swap := by
  match xs, ys with
  | [], [] | [], _ :: _ | _ :: _, [] => rfl
  | x :: xs, y :: ys => rw [orderItems?, orderItems?, order?_swap x y, orderItems?_swap xs ys, lexOrder?_swap]

end

mutual

theorem order?_fit (u v w : Value) : Fit (u.order? v) (v.order? w) (u.order? w) := by
  intro x y z first second outer
  match u with
  | .scalar a =>
    obtain ⟨_, b, ⟨⟩, rfl, first⟩ | ⟨_, _, ⟨⟩, -⟩ | ⟨_, _, ⟨⟩, -⟩ := order?_cases first
    obtain ⟨_, c, ⟨⟩, rfl, second⟩ | ⟨_, _, ⟨⟩, -⟩ | ⟨_, _, ⟨⟩, -⟩ := order?_cases second
    exact Scalar.order?_fit a b c x y z first second outer
  | .list xs =>
    obtain ⟨_, _, ⟨⟩, -⟩ | ⟨_, ys, ⟨⟩, rfl, first⟩ | ⟨_, _, ⟨⟩, -⟩ := order?_cases first
    obtain ⟨_, _, ⟨⟩, -⟩ | ⟨_, zs, ⟨⟩, rfl, second⟩ | ⟨_, _, ⟨⟩, -⟩ := order?_cases second
    exact orderItems?_fit xs ys zs x y z first second outer
  | .map _ =>
    obtain ⟨_, _, ⟨⟩, -⟩ | ⟨_, _, ⟨⟩, -⟩ | ⟨_, _, -, rfl, -, rfl⟩ := order?_cases first
    obtain ⟨_, _, ⟨⟩, -⟩ | ⟨_, _, ⟨⟩, -⟩ | ⟨_, _, -, rfl, -, rfl⟩ := order?_cases second
    obtain ⟨_, _, ⟨⟩, -⟩ | ⟨_, _, ⟨⟩, -⟩ | ⟨_, _, -, -, -, rfl⟩ := order?_cases outer
    exact fun _ => rfl
  | .record _ => cases first

theorem orderItems?_fit (xs ys zs : List Value) :
    Fit (orderItems? xs ys) (orderItems? ys zs) (orderItems? xs zs) := by
  match xs, ys, zs with
  | x :: xs, y :: ys, z :: zs =>
    rw [orderItems?, orderItems?, orderItems?]
    exact (order?_fit x y z).lex (orderItems?_fit xs ys zs)
  | [], [], zs =>
    rintro _ y z ⟨⟩ second outer -
    exact Option.some.inj (outer.symm.trans second)
  | [], _ :: _, _ :: _ =>
    rintro _ y _ ⟨⟩ - ⟨⟩ -
    rfl
  | _ :: _, [], [] =>
    rintro _ _ _ ⟨⟩ ⟨⟩ ⟨⟩ -
    rfl
  | _ :: _, _ :: _, [] =>
    rintro x _ _ - ⟨⟩ ⟨⟩ one_way
    cases x <;> first | rfl | simp at one_way
  | [], _ :: _, [] | _ :: _, [], _ :: _ =>
    rintro _ _ _ ⟨⟩ ⟨⟩ - one_way
    simp at one_way

end

mutual

/-- **The order of values** is that of their comparison, and a tie is an equality. -/
theorem order?_tells (v w : Value) {o : Ordering} (h : v.order? w = some o) :
    Tells o (v.same w) (v.compare .lt w) := by
  match v with
  | .scalar a =>
    obtain ⟨_, b, ⟨⟩, rfl, order⟩ | ⟨_, _, ⟨⟩, -⟩ | ⟨_, _, ⟨⟩, -⟩ := order?_cases h
    rw [same, compare]
    exact Scalar.order?_tells order
  | .list xs =>
    obtain ⟨_, _, ⟨⟩, -⟩ | ⟨_, ys, ⟨⟩, rfl, order⟩ | ⟨_, _, ⟨⟩, -⟩ := order?_cases h
    rw [same, compare]
    exact orderItems?_tells xs ys order
  | .map _ =>
    obtain ⟨_, _, ⟨⟩, -⟩ | ⟨_, _, ⟨⟩, -⟩ | ⟨_, _, -, rfl, tie, rfl⟩ := order?_cases h
    exact ⟨tie, fun apart => absurd rfl apart, fun less => by simp [compare] at less⟩
  | .record _ => cases h

theorem orderItems?_tells (xs ys : List Value) {o : Ordering} (h : orderItems? xs ys = some o) :
    Tells o (sameItems xs ys) (compareItems .lt xs ys) := by
  match xs, ys with
  | [], [] =>
    cases h
    exact .of_outcome rfl rfl
  | [], _ :: _ | _ :: _, [] =>
    cases h
    exact .of_outcome rfl rfl
  | x :: xs, y :: ys =>
    obtain ⟨p, q, head, tied, rfl⟩ := lexOrder?_eq_some.1 h
    have first := order?_tells x y head
    rw [sameItems, compareItems, first.tie]
    cases p with
    | eq => exact orderItems?_tells xs ys (tied rfl)
    | lt | gt => exact .of_outcome rfl (first.apart (nomatch ·))

end

/-- Lists can be compared as their heads can, and as their tails can if the heads are equal. -/
theorem comparable_cons {x y : Value} {xs ys : List Value}
    (h : sameItems (x :: xs) (y :: ys) = true ∨ ∃ less, compareItems .lt (x :: xs) (y :: ys) = .ok less) :
    x.Comparable y ∧ (x.same y = true → sameItems xs ys = true ∨ ∃ less, compareItems .lt xs ys = .ok less) := by
  rw [sameItems, compareItems] at h
  by_cases tie : x.same y = true
  · rw [tie] at h
    exact ⟨.inl tie, fun _ => h⟩
  · rw [Bool.not_eq_true] at tie
    rw [tie] at h
    exact ⟨.inr (h.resolve_left Bool.false_ne_true), fun eq => absurd (eq.symm.trans tie) (by simp)⟩

mutual

/-- Values that can be compared to each other have an order, if they hold no NaN. -/
theorem exists_order (v w : Value) (there : v.Comparable w) (back : w.Comparable v) (hv : v.holdsNan = false)
    (hw : w.holdsNan = false) : ∃ o, v.order? w = some o := by
  match v, w with
  | .scalar a, .scalar b =>
    refine Scalar.exists_order (by simpa [Comparable, same, compare] using there) ?_ ?_
    · simpa [holdsNan] using hv
    · simpa [holdsNan] using hw
  | .list xs, .list ys =>
    refine exists_orderItems xs ys ?_ ?_ (by rwa [holdsNan] at hv) (by rwa [holdsNan] at hw)
    · simpa [Comparable, same, compare] using there
    · simpa [Comparable, same, compare] using back
  | .map es, .map fs =>
    have there : (map es).same (.map fs) = true := by simpa [Comparable, compare] using there
    have back : (map fs).same (.map es) = true := by simpa [Comparable, compare] using back
    exact ⟨.eq, by rw [order?, there, back]; rfl⟩
  | .scalar _, .list _ | .scalar _, .map _ | .scalar _, .record _ | .list _, .scalar _ | .list _, .map _
  | .list _, .record _ | .map _, .scalar _ | .map _, .list _ | .map _, .record _ | .record _, .scalar _
  | .record _, .list _ | .record _, .map _ | .record _, .record _ => simp [Comparable, same, compare] at there

theorem exists_orderItems (xs ys : List Value)
    (there : sameItems xs ys = true ∨ ∃ less, compareItems .lt xs ys = .ok less)
    (back : sameItems ys xs = true ∨ ∃ less, compareItems .lt ys xs = .ok less) (hx : itemsHoldNan xs = false)
    (hy : itemsHoldNan ys = false) : ∃ o, orderItems? xs ys = some o := by
  match xs, ys with
  | [], [] | [], _ :: _ | _ :: _, [] => exact ⟨_, rfl⟩
  | x :: xs, y :: ys =>
    obtain ⟨first, later⟩ := comparable_cons there
    obtain ⟨first', later'⟩ := comparable_cons back
    rw [itemsHoldNan, Bool.or_eq_false_iff] at hx hy
    obtain ⟨p, head⟩ := exists_order x y first first' hx.1 hy.1
    by_cases tie : p = .eq
    · subst tie
      have tied := (order?_tells x y head).tie
      have tied' := (order?_tells y x (by rw [order?_swap x y, head]; rfl)).tie
      obtain ⟨q, tail⟩ := exists_orderItems xs ys (later tied) (later' tied') hx.2 hy.2
      exact ⟨q, lexOrder?_eq_some.2 ⟨.eq, q, head, fun _ => tail, rfl⟩⟩
    · exact ⟨p.then .eq, lexOrder?_eq_some.2 ⟨p, .eq, head, fun eq => absurd eq tie, rfl⟩⟩

end

end Value

end Semijoin
