import Semijoin.Path.Steps
import Semijoin.Proofs.Access.Outcome
import Semijoin.Proofs.Path.Resolution
import Semijoin.Proofs.Text.Casing
import Semijoin.Proofs.Text.Seam

/-!
# Where the words of a name end

Two passes split a name into words, and each takes its matches off the text from the left. What they mark together is
said by place, of the name itself: a small letter or a digit before a capital, and a capital before a capital that a
small letter follows. The marks of the first pass are no letters, so the second finds no place because of them and misses
none. A point belongs to no word, so a dotted text is split into words part by part.
-/

namespace Semijoin.Path
set_option autoImplicit false

open Text (marked head?_marked mem_marked marked_eq_self Matches Seam.find?_none)

/-- Whether a character of a class is at a place of a text. -/
def hasAt (takes : Char → Bool) (cs : List Char) (i : Nat) : Bool := cs[i]?.any takes

section HasAt

variable (takes : Char → Bool) (c : Char) (rest cs : List Char) (i n : Nat)

@[simp] theorem hasAt_nil : hasAt takes [] i = false := rfl

@[simp] theorem hasAt_zero : hasAt takes (c :: rest) 0 = takes c := rfl

@[simp] theorem hasAt_succ : hasAt takes (c :: rest) (i + 1) = hasAt takes rest i := rfl

theorem hasAt_drop : hasAt takes (cs.drop i) n = hasAt takes cs (i + n) := by
  rw [hasAt, hasAt, List.getElem?_drop]

end HasAt

/-- Whether a small letter or a digit is at a place, with a capital behind it. -/
def endsSmall (cs : List Char) (i : Nat) : Bool := hasAt endsHump cs i && hasAt Char.isUpper cs (i + 1)

/-- Whether a capital is at a place, with a capital behind it that a small letter follows. -/
def endsRun (cs : List Char) (i : Nat) : Bool :=
  hasAt Char.isUpper cs i && hasAt Char.isUpper cs (i + 1) && hasAt Char.isLower cs (i + 2)

/-- Whether a word of a name ends at a place and another one starts behind it. -/
def endsWord (cs : List Char) (i : Nat) : Bool := endsSmall cs i || endsRun cs i

theorem endsWord_drop (cs : List Char) (i : Nat) : endsWord (cs.drop i) 0 = endsWord cs i := by
  simp [endsWord, endsSmall, endsRun, hasAt_drop]

/-- Without capitals no word ends, since the next one would start with one. -/
theorem endsWord_of_small {cs : List Char} (small : ∀ c ∈ cs, c.isUpper = false) (i : Nat) :
    endsWord cs i = false := by
  have none : hasAt Char.isUpper cs (i + 1) = false := by
    cases at_ : cs[i + 1]? with
    | none => simp [hasAt, at_]
    | some c => simp [hasAt, at_, small c (List.mem_of_getElem? at_)]
  simp [endsWord, endsSmall, endsRun, none]

/-! ## What the passes mark -/

theorem endsHump_of_isUpper {c : Char} (capital : c.isUpper = true) : endsHump c = false := by
  rw [Text.isUpper_iff] at capital
  rw [← Bool.not_eq_true, endsHump, Bool.or_eq_true, Text.isLower_iff, Text.isDigit_iff]
  omega

theorem hasAt_head {takes : Char → Bool} {cs : List Char} (at_ : hasAt takes cs 0 = true) :
    ∃ c rest, cs = c :: rest ∧ takes c = true := by
  cases cs with
  | nil => cases at_
  | cons c rest => exact ⟨c, rest, rfl, at_⟩

theorem hasAt_head?_eq (takes : Char → Bool) {cs cs' : List Char} (same : cs.head? = cs'.head?) :
    hasAt takes cs 0 = hasAt takes cs' 0 := by
  rw [hasAt, hasAt, ← List.head?_eq_getElem?, ← List.head?_eq_getElem?, same]

/-- A run of capitals is marked at its end only, if a capital and a small letter follow. -/
theorem marked_run {run : List Char} (some_ : run ≠ []) (capitals : ∀ c ∈ run, c.isUpper = true) {last small : Char}
    (capital : last.isUpper = true) (lower : small.isLower = true) (rest : List Char) :
    marked (endsRun · 0) '_' (run ++ last :: small :: rest) =
      run ++ '_' :: last :: small :: marked (endsRun · 0) '_' rest := by
  have noSmall {c : Char} (capital : c.isUpper = true) : c.isLower = false :=
    Bool.eq_false_iff.2 fun small => by simp [Text.isUpper_of_isLower small] at capital
  induction run with
  | nil => exact absurd rfl some_
  | cons c more ih =>
    obtain ⟨here, later⟩ := List.forall_mem_cons.1 capitals
    cases more with
    | nil => simp [marked, endsRun, here, capital, lower, Text.isUpper_of_isLower lower]
    | cons d more =>
      -- What follows two capitals of the run is a third one, and no small letter.
      have third : hasAt Char.isLower (more ++ last :: small :: rest) 0 = false := by
        cases more with
        | nil => exact noSmall capital
        | cons e more => exact noSmall (List.forall_mem_cons.1 (List.forall_mem_cons.1 later).2).1
      have unmarked : ¬ endsRun (c :: (d :: more ++ last :: small :: rest)) 0 = true := by simp [endsRun, third]
      rw [List.cons_append, marked, ih (List.cons_ne_nil _ _) later, if_neg unmarked]
      rfl

theorem runSeam_liesAt : runSeam.LiesAt '_' (endsRun · 0) where
  left := List.cons_ne_nil _ _
  misses c rest missed := by
    refine Bool.eq_false_iff.2 fun ends => ?_
    simp only [endsRun, Bool.and_eq_true, hasAt_zero, hasAt_succ] at ends
    obtain ⟨⟨first, second⟩, third⟩ := ends
    obtain ⟨d, behind, rfl, capital⟩ := hasAt_head second
    obtain ⟨e, behind, rfl, small⟩ := hasAt_head third
    have alone : ∀ c' ∈ [c], c'.isUpper = true := List.forall_mem_singleton.2 first
    have left : Matches runSeam.left ([c] ++ []) := .run (List.cons_ne_nil _ _) alone .done
    have right : Matches runSeam.right [d, e] := .one capital (.one small .done)
    have missed' : runSeam.find? ([c] ++ ([d, e] ++ behind)) = none := missed
    exact Seam.find?_none missed' left right
  marks left right rest matched matched' := by
    cases matched with
    | run some_ capitals more =>
      cases more
      cases matched' with
      | one capital more =>
        cases more with
        | one small more =>
          cases more
          simpa using marked_run some_ capitals capital small rest

theorem humpSeam_liesAt : humpSeam.LiesAt '_' (endsSmall · 0) where
  left := List.cons_ne_nil _ _
  misses c rest missed := by
    refine Bool.eq_false_iff.2 fun ends => ?_
    simp only [endsSmall, Bool.and_eq_true, hasAt_zero, hasAt_succ] at ends
    obtain ⟨first, second⟩ := ends
    obtain ⟨d, behind, rfl, capital⟩ := hasAt_head second
    have left : Matches humpSeam.left [c] := .one first .done
    have right : Matches humpSeam.right [d] := .one capital .done
    have missed' : humpSeam.find? ([c] ++ ([d] ++ behind)) = none := missed
    exact Seam.find?_none missed' left right
  marks left right rest matched matched' := by
    cases matched with
    | one hump more =>
      cases more
      cases matched' with
      | one capital more =>
        cases more
        simp [marked, endsSmall, hump, capital, endsHump_of_isUpper capital]

/-- The second pass marks the text of the first where it would have marked the name. -/
theorem marked_marked (cs : List Char) :
    marked (endsSmall · 0) '_' (marked (endsRun · 0) '_' cs) = marked (endsWord · 0) '_' cs := by
  induction cs with
  | nil => rfl
  | cons c rest ih =>
    simp only [marked]
    by_cases run : endsRun (c :: rest) 0 = true
    · -- The mark is no capital, small letter or digit: no word ends before it or with it.
      have before : ¬ endsSmall (c :: '_' :: marked (endsRun · 0) '_' rest) 0 = true := by simp [endsSmall]
      have at_ : ¬ endsSmall ('_' :: marked (endsRun · 0) '_' rest) 0 = true := by simp [endsSmall, endsHump]
      have ends : endsWord (c :: rest) 0 = true := by simp [endsWord, run]
      rw [if_pos run, if_pos ends, marked, if_neg before, marked, if_neg at_, ih]
    · have same : endsSmall (c :: marked (endsRun · 0) '_' rest) 0 = endsSmall (c :: rest) 0 := by
        simp only [endsSmall, hasAt_zero, hasAt_succ, hasAt_head?_eq Char.isUpper (head?_marked _ _ rest)]
      have word : endsWord (c :: rest) 0 = endsSmall (c :: rest) 0 := by simp [endsWord, run]
      rw [if_neg run, marked, ih, same, ← word]

/-- The two passes mark the ends of words. -/
theorem mark_mark (cs : List Char) : humpSeam.mark '_' (runSeam.mark '_' cs) = marked (endsWord · 0) '_' cs := by
  rw [runSeam_liesAt.mark_eq, humpSeam_liesAt.mark_eq, marked_marked]

/-- A text with marks behind the ends of its words, in lower case. -/
def snake (cs : List Char) : List Char := (marked (endsWord · 0) '_' cs).map Char.toLower

theorem mem_snake {cs : List Char} {c : Char} (mem : c ∈ snake cs) : c = '_' ∨ ∃ d ∈ cs, c = d.toLower := by
  obtain ⟨d, from_, rfl⟩ := List.mem_map.1 mem
  rcases mem_marked from_ with rfl | from_
  · exact .inl rfl
  · exact .inr ⟨d, from_, rfl⟩

theorem snake_of_small {cs : List Char} (small : ∀ c ∈ cs, c.isUpper = false) : snake cs = cs := by
  have unmarked : marked (endsWord · 0) '_' cs = cs :=
    marked_eq_self '_' fun _ later => endsWord_of_small (fun c mem => small c (later.subset mem)) 0
  rw [snake, unmarked, List.map_congr_left fun c mem => Text.toLower_eq (small c mem)]
  exact List.map_id' cs

theorem snake_eq_nil {cs : List Char} (none : snake cs = []) : cs = [] := by
  have same := head?_marked (endsWord · 0) '_' cs
  rw [List.map_eq_nil_iff.1 none] at same
  exact List.head?_eq_none_iff.1 same.symm

/-! ## Dotted texts -/

/-- A point ends no word and starts none, so the words before it end where they end without it. -/
theorem endsWord_point (c : Char) (cs rest : List Char) :
    endsWord (c :: (cs ++ '.' :: rest)) 0 = endsWord (c :: cs) 0 := by
  cases cs with
  | nil => simp [endsWord, endsSmall, endsRun]
  | cons d cs =>
    cases cs with
    | nil => simp [endsWord, endsSmall, endsRun]
    | cons e cs => rfl

theorem snake_point (part rest : List Char) : snake (part ++ '.' :: rest) = snake part ++ '.' :: snake rest := by
  induction part with
  | nil => simp [snake, marked, endsWord, endsSmall, endsRun, endsHump]
  | cons c part ih =>
    simp only [snake, List.cons_append, marked, endsWord_point] at ih ⊢
    split <;> simp [ih]

theorem point_not_mem_snake {cs : List Char} (fresh : '.' ∉ cs) : '.' ∉ snake cs := by
  intro mem
  rcases mem_snake mem with same | ⟨d, from_, same⟩
  · exact absurd same (by decide)
  · have code := congrArg Char.toNat same
    rw [Text.toNat_toLower] at code
    split at code
    · next capital =>
      have bounds := Text.isUpper_iff.1 capital
      have point : Char.toNat '.' = 46 := rfl
      omega
    · exact fresh (Char.toNat_inj.1 code ▸ from_)

theorem snake_intercalate (parts : List (List Char)) :
    snake (['.'].intercalate parts) = ['.'].intercalate (parts.map snake) := by
  induction parts with
  | nil => rfl
  | cons part more ih =>
    cases more with
    | nil => simp
    | cons next more =>
      have later := snake_point part (['.'].intercalate (next :: more))
      rw [List.intercalate_cons_cons, List.append_assoc, List.singleton_append, later, ih]
      simp [List.intercalate_cons_cons]

theorem snake_splitOn (cs : List Char) : snake cs = ['.'].intercalate ((cs.splitOn '.').map snake) := by
  rw [← snake_intercalate, List.intercalate_splitOn]

theorem forall_mem_partsFrom {p : Char → Prop} {part : List Char} (begun : ∀ c ∈ part, p c) {rest : List Char}
    (all : ∀ c ∈ rest, p c) : ∀ step ∈ partsFrom part rest, ∀ c ∈ step.toList, p c := by
  induction rest generalizing part with
  | nil => simpa [partsFrom] using begun
  | cons c rest ih =>
    obtain ⟨here, later⟩ := List.forall_mem_cons.1 all
    rw [partsFrom]
    split
    · exact List.forall_mem_cons.2 ⟨by simpa using begun, ih (List.forall_mem_nil _) later⟩
    · exact ih (List.forall_mem_cons.2 ⟨here, begun⟩) later

/-! ## Names of basic letters -/

variable {s : String} (basic : ∀ c ∈ s.toList, c.toNat < 128)
include basic

/-- Lowering does not touch the marks. -/
theorem toList_snakeCase : (snakeCase s).toList = snake s.toList := by
  have marks : ∀ c ∈ (String.ofList (marked (endsWord · 0) '_' s.toList)).toList, c.toNat < 128 := by
    intro c mem
    rcases mem_marked (String.toList_ofList ▸ mem) with rfl | mem
    · decide
    · exact basic c mem
  rw [snakeCase, mark_mark, Text.toList_lower marks, String.toList_ofList, snake]

/-- In snake case a name of basic letters is one still, and has no capitals. -/
theorem basic_snakeCase : ∀ c ∈ (snakeCase s).toList, c.toNat < 128 ∧ c.isUpper = false := by
  intro c mem
  rw [toList_snakeCase basic] at mem
  rcases mem_snake mem with rfl | ⟨d, from_, rfl⟩
  · decide
  · exact ⟨Text.toLower_lt (basic d from_), Text.isUpper_toLower d⟩

theorem snakeCase_of_small (small : ∀ c ∈ s.toList, c.isUpper = false) : snakeCase s = s :=
  String.toList_inj.1 ((toList_snakeCase basic).trans (snake_of_small small))

theorem basic_of_mem_split : ∀ part ∈ split s, ∀ c ∈ part.toList, c.toNat < 128 := by
  rw [split]
  split
  · exact List.forall_mem_nil _
  · exact forall_mem_partsFrom (List.forall_mem_nil _) basic

/-- A dotted name is split into words part by part. -/
theorem snakeCase_eq_intercalate (some_ : s ≠ "") : snakeCase s = ".".intercalate ((split s).map snakeCase) := by
  have each : ((split s).map snakeCase).map String.toList = ((split s).map String.toList).map snake := by
    simp only [List.map_map]
    exact List.map_congr_left fun part mem => toList_snakeCase (basic_of_mem_split basic part mem)
  rw [← String.toList_inj, String.toList_intercalate, each, split_eq some_]
  exact (toList_snakeCase basic).trans (snake_splitOn s.toList)

theorem split_snakeCase : split (snakeCase s) = (split s).map snakeCase := by
  by_cases empty : s = ""
  · subst empty
    rfl
  have joined := snakeCase_eq_intercalate basic empty
  have shown : ".".intercalate ((split s).map snakeCase) ≠ "" := by
    intro none
    rw [← joined, ← String.toList_inj, toList_snakeCase basic] at none
    exact empty (String.toList_inj.1 (snake_eq_nil none))
  have some_ : (split s).map snakeCase ≠ [] := by
    intro none
    rw [none] at shown
    exact shown rfl
  rw [joined]
  refine split_intercalate some_ shown fun step mem => ?_
  obtain ⟨part, inside, rfl⟩ := List.mem_map.1 mem
  rw [toList_snakeCase (basic_of_mem_split basic part inside)]
  rw [split, if_neg empty] at inside
  exact point_not_mem_snake (not_mem_partsFrom List.not_mem_nil s.toList part inside)

omit basic

/-- **Names are split at the ends of words, and nowhere else.** A name of basic letters is lowered, with one mark behind
each place where a word ends; so without capitals it stays as it is, and so does a name in snake case. Apart from marks
nothing is put in or left out, and a dotted path can be put in snake case before it is split or after. -/
theorem snakeCase_words (s : String) (basic : ∀ c ∈ s.toList, c.toNat < 128) :
    ((snakeCase s).toList = s.toList.zipIdx.flatMap fun (c, i) =>
      if endsWord s.toList i then [c.toLower, '_'] else [c.toLower]) ∧
    ((∀ c ∈ s.toList, c.isUpper = false) → snakeCase s = s) ∧
    snakeCase (snakeCase s) = snakeCase s ∧
    (snakeCase s).toList.filter (· ≠ '_') = (Text.lower s).toList.filter (· ≠ '_') ∧
    split (snakeCase s) = (split s).map snakeCase ∧
    normalize (.text s) true = .ok ((split (snakeCase s)).map .text) := by
  have plain := basic_snakeCase basic
  refine ⟨?_, snakeCase_of_small basic, ?_, ?_, split_snakeCase basic, ?_⟩
  · have places := Text.marked_eq_flatMap (endsWord · 0) '_' [] s.toList
    have lowered (c : Char) (i : Nat) :
        (if endsWord (([] ++ s.toList).drop i) 0 then [c, '_'] else [c]).map Char.toLower =
          if endsWord s.toList i then [c.toLower, '_'] else [c.toLower] := by
      rw [List.nil_append, endsWord_drop]
      split <;> rfl
    rw [toList_snakeCase basic, snake, places, List.map_flatMap]
    simp only [lowered]
    rfl
  · exact snakeCase_of_small (fun c mem => (plain c mem).1) fun c mem => (plain c mem).2
  · rw [toList_snakeCase basic, Text.toList_lower basic, snake, List.filter_map, List.filter_map,
      Text.filter_marked (by decide)]
  · have each : ((split s).map Value.text).mapM normalizeStep = .ok ((split s).map (.text ∘ snakeCase)) := by
      rw [List.mapM_map]
      exact mapM_ok fun _ _ => rfl
    rw [split_snakeCase basic, List.map_map]
    exact each

/-- Runs of capitals, digits, marks and points that are already there, and both kinds of ends in a row. -/
theorem snakeCase_words_http :
    (∀ c ∈ "HTTPResponse2X.cityID_Of".toList, c.toNat < 128) ∧
    snakeCase "HTTPResponse2X.cityID_Of" = "http_response2_x.city_id_of" ∧
    normalize (.text "HTTPResponse2X.cityID_Of") true = .ok [.text "http_response2_x", .text "city_id_of"] := by
  have basic : ∀ c ∈ "HTTPResponse2X.cityID_Of".toList, c.toNat < 128 := by simp
  obtain ⟨places, -, -, -, -, steps⟩ := snakeCase_words "HTTPResponse2X.cityID_Of" basic
  have words : snakeCase "HTTPResponse2X.cityID_Of" = "http_response2_x.city_id_of" :=
    String.toList_inj.1 (places.trans (by decide))
  exact ⟨basic, words, steps.trans (by rw [words]; rfl)⟩

end Semijoin.Path
