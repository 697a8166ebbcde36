import Semijoin.Text.Seam

/-!
# Where the seams of a text are

What is taken for pieces is what they match, and if nothing is taken then they match no start of the text, however long
the runs in it are. So a seam that lies where a rule on the next few characters says gets its marks where the rule holds:
no match hides another, although a match takes its characters from those that come after it.
-/

namespace Semijoin.Text
set_option autoImplicit false

/-- Pieces match a text. -/
inductive Matches : List Piece → List Char → Prop
  | done : Matches [] []
  | one {takes : Char → Bool} {c : Char} {more : List Piece} {later : List Char} (here : takes c = true)
      (rest : Matches more later) : Matches (.one takes :: more) (c :: later)
  | run {takes : Char → Bool} {run : List Char} {more : List Piece} {later : List Char} (some_ : run ≠ [])
      (all : ∀ c ∈ run, takes c = true) (rest : Matches more later) : Matches (.run takes :: more) (run ++ later)

theorem Matches.ne_nil {pieces : List Piece} {cs : List Char} (h : Matches pieces cs) (some_ : pieces ≠ []) :
    cs ≠ [] := by
  cases h with
  | done => exact absurd rfl some_
  | one => exact List.cons_ne_nil _ _
  | run someRun => exact fun none => someRun (List.append_eq_nil_iff.1 none).1

section Taking

variable {α : Type} {takes : Char → Bool} {goOn : List Char → Option α}

/-- A run that is taken is one, and goes on behind it. -/
theorem takeRun_some {cs taken : List Char} {a : α} (h : takeRun takes goOn cs = some (taken, a)) :
    ∃ rest, cs = taken ++ rest ∧ taken ≠ [] ∧ (∀ c ∈ taken, takes c = true) ∧ goOn rest = some a := by
  induction cs generalizing taken a with
  | nil => cases h
  | cons c rest ih =>
    rw [takeRun] at h
    by_cases here : takes c = true
    · rw [if_pos here] at h
      cases longer : takeRun takes goOn rest with
      | some found =>
        obtain ⟨more, b⟩ := found
        rw [longer] at h
        cases h
        obtain ⟨left, rfl, -, all, eq⟩ := ih longer
        exact ⟨left, rfl, List.cons_ne_nil _ _, List.forall_mem_cons.2 ⟨here, all⟩, eq⟩
      | none =>
        rw [longer] at h
        obtain ⟨b, eq, h⟩ := Option.map_eq_some_iff.1 h
        cases h
        exact ⟨rest, rfl, List.cons_ne_nil _ _, by simpa using here, eq⟩
    · rw [if_neg here] at h
      cases h

/-- If no run is taken then none goes on, neither the longest nor a shorter one. -/
theorem takeRun_none {taken rest : List Char} (h : takeRun takes goOn (taken ++ rest) = none) (some_ : taken ≠ [])
    (all : ∀ c ∈ taken, takes c = true) : goOn rest = none := by
  induction taken with
  | nil => exact absurd rfl some_
  | cons c more ih =>
    obtain ⟨here, later⟩ := List.forall_mem_cons.1 all
    rw [List.cons_append, takeRun, if_pos here] at h
    cases longer : takeRun takes goOn (more ++ rest) with
    | some found =>
      obtain ⟨_, _⟩ := found
      rw [longer] at h
      cases h
    | none =>
      rw [longer] at h
      cases more with
      | nil => exact Option.map_eq_none_iff.1 h
      | cons d more => exact ih longer (List.cons_ne_nil _ _) later

/-- What is taken for pieces is a match of them. -/
theorem takeAll_some {pieces : List Piece} {cs taken : List Char} {a : α}
    (h : takeAll goOn pieces cs = some (taken, a)) :
    ∃ rest, cs = taken ++ rest ∧ Matches pieces taken ∧ goOn rest = some a := by
  induction pieces generalizing cs taken a with
  | nil =>
    obtain ⟨b, eq, h⟩ := Option.map_eq_some_iff.1 h
    cases h
    exact ⟨cs, rfl, .done, eq⟩
  | cons p more ih =>
    rw [takeAll] at h
    obtain ⟨⟨first, later, b⟩, took, h⟩ := Option.map_eq_some_iff.1 h
    cases h
    cases p with
    | one takes =>
      cases cs with
      | nil => cases took
      | cons c rest =>
        rw [Piece.take] at took
        by_cases here : takes c = true
        · rw [if_pos here] at took
          obtain ⟨found, eq, took⟩ := Option.map_eq_some_iff.1 took
          cases took
          obtain ⟨left, rfl, matched, eq⟩ := ih eq
          exact ⟨left, rfl, .one here matched, eq⟩
        · rw [if_neg here] at took
          cases took
    | run takes =>
      obtain ⟨rest, rfl, some_, all, eq⟩ := takeRun_some took
      obtain ⟨left, rfl, matched, eq⟩ := ih eq
      exact ⟨left, (List.append_assoc _ _ _).symm, .run some_ all matched, eq⟩

/-- If nothing is taken for pieces then no match of them goes on. -/
theorem takeAll_none {pieces : List Piece} {taken rest : List Char} (h : takeAll goOn pieces (taken ++ rest) = none)
    (matched : Matches pieces taken) : goOn rest = none := by
  induction matched with
  | done => exact Option.map_eq_none_iff.1 h
  | one here _ ih =>
    rw [takeAll, Option.map_eq_none_iff, List.cons_append, Piece.take, if_pos here, Option.map_eq_none_iff] at h
    exact ih h
  | run some_ all _ ih =>
    rw [takeAll, Option.map_eq_none_iff, List.append_assoc, Piece.take] at h
    exact ih (takeRun_none h some_ all)

end Taking

/-- Puts a mark behind every character where a rule holds of the text that starts with it. -/
def marked (rule : List Char → Bool) (mark : Char) : List Char → List Char
  | [] => []
  | c :: rest => if rule (c :: rest) then c :: mark :: marked rule mark rest else c :: marked rule mark rest

theorem head?_marked (rule : List Char → Bool) (mark : Char) (cs : List Char) :
    (marked rule mark cs).head? = cs.head? := by
  cases cs with
  | nil => rfl
  | cons c rest =>
    rw [marked]
    split <;> rfl

/-- The marks by place: behind each character, the text from it on. -/
theorem marked_eq_flatMap (rule : List Char → Bool) (mark : Char) (before cs : List Char) :
    marked rule mark cs = (cs.zipIdx before.length).flatMap fun (c, i) =>
      if rule ((before ++ cs).drop i) then [c, mark] else [c] := by
  induction cs generalizing before with
  | nil => rfl
  | cons c rest ih =>
    have later := ih (before ++ [c])
    rw [List.length_append, List.append_assoc] at later
    have here : (before ++ c :: rest).drop before.length = c :: rest := List.drop_left
    rw [marked, later, List.zipIdx_cons, List.flatMap_cons]
    simp only [here]
    split <;> rfl

theorem mem_marked {rule : List Char → Bool} {mark c : Char} {cs : List Char} (mem : c ∈ marked rule mark cs) :
    c = mark ∨ c ∈ cs := by
  induction cs with
  | nil => exact .inr mem
  | cons d rest ih =>
    rw [marked] at mem
    split at mem <;> grind

theorem filter_marked {keeps : Char → Bool} {mark : Char} (drops : keeps mark = false) (rule : List Char → Bool)
    (cs : List Char) : (marked rule mark cs).filter keeps = cs.filter keeps := by
  induction cs with
  | nil => rfl
  | cons c rest ih =>
    rw [marked]
    split
    · rw [List.filter_cons, List.filter_cons_of_neg (by simp [drops]), ih, List.filter_cons]
    · rw [List.filter_cons, ih, List.filter_cons]

theorem marked_eq_self {rule : List Char → Bool} {cs : List Char} (mark : Char)
    (never : ∀ cs', cs' <:+ cs → rule cs' = false) : marked rule mark cs = cs := by
  induction cs with
  | nil => rfl
  | cons c rest ih =>
    have here : ¬ rule (c :: rest) = true := by simp [never _ (List.suffix_refl _)]
    rw [marked, if_neg here, ih fun cs' h => never cs' (h.trans (List.suffix_cons c rest))]

namespace Seam

variable {s : Seam}

/-- A seam that is found lies between a match of what is left of it and one of what is right of it. -/
theorem find?_some {cs left right : List Char} (h : s.find? cs = some (left, right)) :
    Matches s.left left ∧ Matches s.right right ∧ ∃ rest, cs = left ++ (right ++ rest) := by
  obtain ⟨rest, rfl, matched, eq⟩ := takeAll_some h
  obtain ⟨⟨_, _⟩, took, same⟩ := Option.map_eq_some_iff.1 eq
  cases same
  obtain ⟨rest, rfl, matched', -⟩ := takeAll_some took
  exact ⟨matched, matched', rest, rfl⟩

/-- If no seam is found then the text starts with none. -/
theorem find?_none {left right rest : List Char} (h : s.find? (left ++ (right ++ rest)) = none)
    (matched : Matches s.left left) : ¬ Matches s.right right := by
  intro matched'
  have none := Option.map_eq_none_iff.1 (takeAll_none h matched)
  cases takeAll_none none matched'

theorem markFrom_written (mark : Char) (written : Nat) (cs : List Char) :
    s.markFrom mark written cs = s.mark mark (cs.drop written) := by
  induction cs generalizing written with
  | nil => cases written <;> rfl
  | cons c rest ih =>
    cases written with
    | zero => rfl
    | succ n => exact ih n

/-- The seams of a text are where a rule holds of the text from the last character of their left on: it does not hold
where no seam is found, and of what a seam matches it holds there only. -/
structure LiesAt (s : Seam) (mark : Char) (rule : List Char → Bool) : Prop where
  left : s.left ≠ []
  misses : ∀ c rest, s.find? (c :: rest) = none → rule (c :: rest) = false
  marks : ∀ left right rest, Matches s.left left → Matches s.right right →
    marked rule mark (left ++ (right ++ rest)) = left ++ mark :: right ++ marked rule mark rest

/-- **The marks are where the rule holds.** -/
theorem LiesAt.mark_eq {mark : Char} {rule : List Char → Bool} (lies : s.LiesAt mark rule) (cs : List Char) :
    s.mark mark cs = marked rule mark cs := by
  induction length : cs.length using Nat.strongRecOn generalizing cs with
  | ind n ih =>
    subst length
    cases cs with
    | nil => rfl
    | cons c rest =>
      rw [Seam.mark, markFrom]
      cases found : s.find? (c :: rest) with
      | none =>
        have later : s.markFrom mark 0 rest = marked rule mark rest := ih rest.length (by simp) rest rfl
        rw [marked, if_neg (by simp [lies.misses c rest found])]
        exact congrArg (c :: ·) later
      | some groups =>
        obtain ⟨left, right⟩ := groups
        obtain ⟨matched, matched', behind, eq⟩ := find?_some found
        obtain ⟨d, more, rfl⟩ := List.exists_cons_of_ne_nil (matched.ne_nil lies.left)
        obtain ⟨rfl, rfl⟩ : c = d ∧ rest = more ++ (right ++ behind) := List.cons.inj eq
        have dropped : (more ++ (right ++ behind)).drop ((c :: more).length + right.length - 1) = behind := by
          rw [← List.append_assoc]
          exact List.drop_left' (by simp)
        have later : s.mark mark behind = marked rule mark behind := ih behind.length (by simp; omega) behind rfl
        show (c :: more) ++ mark :: right ++ s.markFrom mark _ _ = _
        rw [markFrom_written, dropped, later]
        exact (lies.marks (c :: more) right behind matched matched').symm

end Seam

end Semijoin.Text
