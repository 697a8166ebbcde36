import Semijoin.Proofs.Json.Document
import Semijoin.Proofs.Json.String

/-!
# Written values read back

A document is read back from what it is written as, in either layout, if its scalars are. What is left of the
text after a value decides nothing about it, as long as it does not continue a number; so the reader takes up
item after item and member after member. The text of a value is longer than the number of values in it, which is
why a bound by the length of the text never stops the reader.
-/

namespace Semijoin

namespace Value
set_option autoImplicit false

mutual

/-- The scalars in a value, at every level. -/
def scalars : Value → List Scalar
  | .scalar k => [k]
  | .list items => itemsScalars items
  | .map entries => entriesScalars entries
  | .record _ => []

/-- The scalars in the items of a list. -/
def itemsScalars : List Value → List Scalar
  | [] => []
  | v :: rest => v.scalars ++ itemsScalars rest

/-- The scalars in what is under the keys of a mapping. -/
def entriesScalars : List (Scalar × Value) → List Scalar
  | [] => []
  | (_, v) :: rest => v.scalars ++ entriesScalars rest

end

end Value

namespace Json
set_option autoImplicit false

/-- A scalar that is read back from its text: an integer of few enough digits, no NaN, and a finite float whose
decimal is read as it. -/
def ReadsBack : Scalar → Prop
  | .int n => (toString n.natAbs).length ≤ maxDigits
  | .float .nan => False
  | .float (.finite negative units) => number (floatText (.finite negative units)).toList =
      .ok (.float (.finite negative units), [])
  | _ => True

/-- Whether a text is read as a float, to its end. -/
def readsAs (text : List Char) (x : Binary64) : Bool :=
  match number text with
  | .ok (.float y, []) => y == x
  | _ => false

theorem readsAs_iff {text : List Char} {x : Binary64} : readsAs text x = true ↔ number text = .ok (.float x, []) := by
  unfold readsAs
  split
  · rename_i y eq
    rw [eq]
    simp
  · rename_i other
    constructor
    · intro h
      cases h
    · intro h
      exact absurd h (other x)

instance : (k : Scalar) → Decidable (ReadsBack k)
  | .null => .isTrue trivial
  | .bool _ => .isTrue trivial
  | .int n => inferInstanceAs (Decidable ((toString n.natAbs).length ≤ maxDigits))
  | .float .nan => .isFalse id
  | .float (.infinite _) => .isTrue trivial
  | .float (.finite _ _) => decidable_of_iff _ readsAs_iff
  | .text _ => .isTrue trivial

/-- Punctuation that is a comma and a colon, each followed by blanks only. -/
structure Layout.Punctuates (layout : Layout) : Prop where
  comma : ∃ blanks, layout.comma.toList = ',' :: blanks ∧ ∀ c ∈ blanks, isSpace c = true
  colon : ∃ blanks, layout.colon.toList = ':' :: blanks ∧ ∀ c ∈ blanks, isSpace c = true

theorem spaced_punctuates : spaced.Punctuates :=
  ⟨⟨[' '], rfl, by simp [isSpace]⟩, ⟨[' '], rfl, by simp [isSpace]⟩⟩

/-! ## The reader, step by step -/

theorem skipSpace_of_head {c : Char} (printed : isSpace c = false) (more : List Char) :
    skipSpace (c :: more) = c :: more := by
  rw [skipSpace, List.dropWhile_cons, printed]
  rfl

theorem skipSpace_blanks {blanks : List Char} (blank : ∀ c ∈ blanks, isSpace c = true) (cs : List Char) :
    skipSpace (blanks ++ cs) = skipSpace cs := by
  induction blanks with
  | nil => rfl
  | cons c rest ih =>
    obtain ⟨here, later⟩ := List.forall_mem_cons.1 blank
    rw [List.cons_append, skipSpace, List.dropWhile_cons, here]
    exact ih later

variable {fuel : Nat} {cs rest : List Char}

theorem skipSpace_of_starts (starts : StartsValue cs) : skipSpace cs = cs := by
  obtain ⟨c, more, rfl, printed, -, -⟩ := starts
  exact skipSpace_of_head printed more

theorem items_head {read found : List Value} (h : items fuel read cs = .ok (found, rest)) : StartsValue cs := by
  cases fuel with
  | zero =>
    rw [items] at h
    cases h
  | succ fuel =>
    unfold items at h
    obtain ⟨⟨v, after⟩, here, -⟩ := bind_eq_ok.1 h
    exact startsValue_of_value here

theorem members_head {read fields : List (String × Value)} (h : members fuel read cs = .ok (fields, rest)) :
    ∃ more, cs = '"' :: more := by
  cases fuel with
  | zero =>
    rw [members] at h
    cases h
  | succ fuel =>
    unfold members at h
    split at h
    · exact ⟨_, rfl⟩
    · cases h

/-- A list is its items. -/
theorem value_list {found : List Value} (h : items fuel [] cs = .ok (found, rest)) :
    value (fuel + 1) ('[' :: cs) = .ok (.list found, rest) := by
  have starts := items_head h
  rw [value, skipSpace_of_starts starts]
  obtain ⟨c, more, rfl, -, bracket, -⟩ := starts
  split
  · rename_i eq
    cases eq
    exact absurd rfl bracket
  · rw [h]
    rfl

/-- A mapping is its members. -/
theorem value_map {fields : List (String × Value)} (h : members fuel [] cs = .ok (fields, rest)) :
    value (fuel + 1) ('\x7b' :: cs) = .ok (.map (entriesOf fields), rest) := by
  obtain ⟨more, rfl⟩ := members_head h
  rw [value, skipSpace_of_head (by decide)]
  split
  · rename_i eq
    cases eq
  · rw [h]
    rfl

section Items

variable {read : List Value} {v : Value}

/-- An item before the closing bracket is the last one. -/
theorem items_last (h : value fuel cs = .ok (v, ']' :: rest)) :
    items (fuel + 1) read cs = .ok (read.reverse ++ [v], rest) := by
  rw [items, h]
  simp [Bind.bind, Except.bind, skipSpace_of_head, isSpace]
  rfl

/-- After an item and a comma comes the next item. -/
theorem items_next {blanks : List Char} (blank : ∀ c ∈ blanks, isSpace c = true) {next : List Char}
    (starts : StartsValue next) (h : value fuel cs = .ok (v, ',' :: (blanks ++ next))) :
    items (fuel + 1) read cs = items fuel (v :: read) next := by
  rw [items, h]
  simp [Bind.bind, Except.bind, skipSpace_of_head, isSpace, skipSpace_blanks blank, skipSpace_of_starts starts]

end Items

section Members

variable {read : List (String × Value)} {name : String} {v : Value} {body blanks : List Char}

/-- A member before the closing brace is the last one. -/
theorem members_last (blank : ∀ c ∈ blanks, isSpace c = true)
    (named : ∀ start, stringBody start none [] body = .ok (name, ':' :: (blanks ++ cs)))
    (h : value fuel cs = .ok (v, '\x7d' :: rest)) :
    members (fuel + 1) read ('"' :: body) = .ok (read.reverse ++ [(name, v)], rest) := by
  rw [members, named]
  simp [Bind.bind, Except.bind, skipSpace_of_head, isSpace, skipSpace_blanks blank,
    skipSpace_of_starts (startsValue_of_value h), h]
  rfl

/-- After a member and a comma comes the next member. -/
theorem members_next {blanks' more : List Char} (blank : ∀ c ∈ blanks, isSpace c = true)
    (named : ∀ start, stringBody start none [] body = .ok (name, ':' :: (blanks ++ cs)))
    (blank' : ∀ c ∈ blanks', isSpace c = true) (h : value fuel cs = .ok (v, ',' :: (blanks' ++ '"' :: more))) :
    members (fuel + 1) read ('"' :: body) = members fuel ((name, v) :: read) ('"' :: more) := by
  rw [members, named]
  simp [Bind.bind, Except.bind, skipSpace_of_head, isSpace, skipSpace_blanks blank, skipSpace_blanks blank',
    skipSpace_of_starts (startsValue_of_value h), h]

end Members

/-! ## Scalars -/

section Scalars

variable {layout : Layout}

theorem value_text (layout : Layout) (s : String) :
    value (fuel + 1) ((stringText layout s).toList ++ rest) = .ok (.text s, rest) := by
  obtain ⟨body, eq, reads⟩ := stringBody_stringText layout s
  rw [eq, List.cons_append, value, reads]
  rfl

/-- What is read as a number is read as one among values. -/
theorem value_number {v : Value} (h : number cs = .ok (v, rest)) : value (fuel + 1) cs = .ok (v, rest) := by
  unfold value
  split
  case h_10 => exact h
  all_goals
    rcases number_head h with ⟨c, more, eq, digit⟩ | ⟨c, more, eq, digit⟩
    · cases eq
      cases digit
    · cases eq <;> cases digit

/-- **A scalar reads back** before what continues no number. -/
theorem value_scalar {k : Scalar} (readable : ReadsBack k) (ends : EndsNumber rest) :
    value (fuel + 1) ((scalarText layout k).toList ++ rest) = .ok (.scalar k, rest) := by
  match k with
  | .null => simp [scalarText, bareText, value]
  | .bool true => simp [scalarText, bareText, value]
  | .bool false => simp [scalarText, bareText, value]
  | .int n => exact value_number (number_append ends (number_toString n readable))
  | .float .nan => exact readable.elim
  | .float (.infinite true) => simp [scalarText, bareText, floatText, value]
  | .float (.infinite false) => simp [scalarText, bareText, floatText, value]
  | .float (.finite negative units) => exact value_number (number_append ends readable)
  | .text s => exact value_text layout s

end Scalars

/-! ## Lists and mappings -/

/-- The members that entries are written as. -/
def fieldsOf (entries : List (Scalar × Value)) : List (String × Value) := entries.map fun e => (bareText e.1, e.2)

/-- Entries with distinct texts as keys are those of their members. -/
theorem entriesOf_fieldsOf {entries : List (Scalar × Value)} (document : Value.DocumentEntries entries) :
    entriesOf (fieldsOf entries) = entries := by
  -- `before` has been put; as keys are distinct, each next entry goes to the end
  have step (more before : List (Scalar × Value)) (document : Value.DocumentEntries (before ++ more)) :
      (fieldsOf more).foldl (fun entries f => Entries.insert (.text f.1) f.2 entries) before = before ++ more := by
    induction more generalizing before with
    | nil => simp [fieldsOf]
    | cons e rest ih =>
      obtain ⟨k, v⟩ := e
      obtain ⟨name, key⟩ := document.text (k, v) (by simp)
      have key : k = .text name := key
      subst key
      have fresh : ∀ e ∈ before, e.1.same (.text name) = false := by
        intro e mem
        have once := document.once
        rw [List.map_append, List.nodup_append] at once
        have apart := once.2.2 e.1 (List.mem_map_of_mem mem) (.text name) (by simp)
        simpa [Scalar.same_text] using apart
      have put : Entries.insert (.text name) v before = before ++ [(.text name, v)] := Entries.insert_of_fresh fresh v
      have regroup : before ++ (Scalar.text name, v) :: rest = before ++ [(Scalar.text name, v)] ++ rest := by simp
      rw [regroup] at document ⊢
      rw [fieldsOf, List.map_cons, List.foldl_cons, bareText, put]
      exact ih _ document
  exact step entries [] document

section Reads

variable (layout : Layout) (fuel : Nat)

/-- A value is read from its text, before what continues no number. -/
def Reads (v : Value) : Prop := ∀ rest, EndsNumber rest → value fuel ((write layout v).toList ++ rest) = .ok (v, rest)

/-- Items are read from their text up to the closing bracket, after any others. -/
def ReadsItems (found : List Value) : Prop := ∀ read rest,
  items fuel read ((writeItems layout found).toList ++ ']' :: rest) = .ok (read.reverse ++ found, rest)

/-- Entries are read from their text up to the closing brace, after any others. -/
def ReadsEntries (entries : List (Scalar × Value)) : Prop := ∀ read rest,
  members fuel read ((writeEntries layout entries).toList ++ '\x7d' :: rest) =
    .ok (read.reverse ++ fieldsOf entries, rest)

end Reads

section Steps

variable {layout : Layout} {fuel : Nat} {k : Scalar} {v w : Value} {e : Scalar × Value}

theorem reads_scalar (readable : ReadsBack k) : Reads layout (fuel + 1) (.scalar k) := by
  intro rest ends
  rw [write]
  exact value_scalar readable ends

theorem toList_write_list (items : List Value) :
    (write layout (.list items)).toList = '[' :: ((writeItems layout items).toList ++ [']']) := by
  simp [write]

theorem reads_list {found : List Value} (h : found ≠ [] → ReadsItems layout fuel found) :
    Reads layout (fuel + 1) (.list found) := by
  intro rest _
  rw [toList_write_list, List.cons_append, List.append_assoc, List.singleton_append]
  cases found with
  | nil => simp [writeItems, value, skipSpace, isSpace]
  | cons first more => exact value_list (h (by simp) [] rest)

theorem toList_write_map (entries : List (Scalar × Value)) :
    (write layout (.map entries)).toList = '\x7b' :: ((writeEntries layout entries).toList ++ ['\x7d']) := by
  simp [write]

theorem reads_map {entries : List (Scalar × Value)} (document : Value.DocumentEntries entries)
    (h : entries ≠ [] → ReadsEntries layout fuel entries) : Reads layout (fuel + 1) (.map entries) := by
  intro rest _
  rw [toList_write_map, List.cons_append, List.append_assoc, List.singleton_append]
  cases entries with
  | nil => simp [writeEntries, value, skipSpace, isSpace]
  | cons first more =>
    rw [value_map (h (by simp) [] rest), List.reverse_nil, List.nil_append, entriesOf_fieldsOf document]

theorem readsItems_one (h : Reads layout fuel v) : ReadsItems layout (fuel + 1) [v] := by
  intro read rest
  exact items_last (h _ (endsNumber_cons (.inr (.inl rfl)) rest))

theorem toList_writeItems_cons (more : List Value) : (writeItems layout (v :: w :: more)).toList =
    (write layout v).toList ++ (layout.comma.toList ++ (writeItems layout (w :: more)).toList) := by
  simp [writeItems]

theorem toList_writeEntries_one : (writeEntries layout [(k, v)]).toList =
    (stringText layout (bareText k)).toList ++ (layout.colon.toList ++ (write layout v).toList) := by
  simp [writeEntries]

theorem toList_writeEntries_cons (more : List (Scalar × Value)) :
    (writeEntries layout ((k, v) :: e :: more)).toList = (stringText layout (bareText k)).toList ++
      (layout.colon.toList ++ ((write layout v).toList ++
        (layout.comma.toList ++ (writeEntries layout (e :: more)).toList))) := by
  simp [writeEntries]

variable (punctuates : layout.Punctuates)
include punctuates

theorem readsItems_cons (h : Reads layout fuel v) {more : List Value} (later : ReadsItems layout fuel (w :: more)) :
    ReadsItems layout (fuel + 1) (v :: w :: more) := by
  intro read rest
  obtain ⟨blanks, comma, blank⟩ := punctuates.comma
  have next := later (v :: read) rest
  have here := h _ (endsNumber_cons (.inl rfl) (blanks ++ ((writeItems layout (w :: more)).toList ++ ']' :: rest)))
  rw [toList_writeItems_cons, comma, List.append_assoc, List.append_assoc, List.cons_append,
    items_next blank (items_head next) here, next, List.reverse_cons, List.append_assoc]
  rfl

theorem readsEntries_one (h : Reads layout fuel v) : ReadsEntries layout (fuel + 1) [(k, v)] := by
  intro read rest
  obtain ⟨blanks, colon, blank⟩ := punctuates.colon
  obtain ⟨body, name, named⟩ := stringBody_stringText layout (bareText k)
  have here := h _ (endsNumber_cons (.inr (.inr rfl)) rest)
  rw [toList_writeEntries_one, name, colon, List.append_assoc, List.append_assoc, List.cons_append, List.cons_append]
  exact members_last blank (fun start => named start _) here

theorem readsEntries_cons (h : Reads layout fuel v) {more : List (Scalar × Value)}
    (later : ReadsEntries layout fuel (e :: more)) : ReadsEntries layout (fuel + 1) ((k, v) :: e :: more) := by
  intro read rest
  obtain ⟨blanks, comma, blank⟩ := punctuates.comma
  obtain ⟨colonBlanks, colon, colonBlank⟩ := punctuates.colon
  obtain ⟨body, name, named⟩ := stringBody_stringText layout (bareText k)
  have next := later ((bareText k, v) :: read) rest
  obtain ⟨tail, starts⟩ := members_head next
  have here := h _ (endsNumber_cons (.inl rfl) (blanks ++ '"' :: tail))
  rw [starts] at next
  rw [toList_writeEntries_cons, name, colon, comma, List.append_assoc, List.append_assoc, List.append_assoc,
    List.append_assoc, List.cons_append, List.cons_append, List.cons_append, starts,
    members_next colonBlank (fun start => named start _) blank here, next, List.reverse_cons, List.append_assoc]
  rfl

end Steps

/-- The text of a scalar that reads back is not empty. -/
theorem scalarText_pos {layout : Layout} {k : Scalar} (readable : ReadsBack k) :
    0 < (scalarText layout k).toList.length := by
  have reads := @value_scalar 0 [] layout k readable endsNumber_nil
  rw [List.append_nil] at reads
  obtain ⟨c, more, eq, -⟩ := startsValue_of_value reads
  rw [eq]
  exact Nat.succ_pos _

/-- What is read within a bound: every value whose text is no longer than it, and every sequence of items or of
entries whose text is shorter. -/
structure ReadsWritten (layout : Layout) (fuel : Nat) : Prop where
  value : ∀ v : Value, v.isDocument = true → (∀ k ∈ v.scalars, ReadsBack k) →
    (write layout v).toList.length ≤ fuel → Reads layout fuel v
  items : ∀ found : List Value, found ≠ [] → (∀ v ∈ found, v.isDocument = true) →
    (∀ k ∈ Value.itemsScalars found, ReadsBack k) →
      (writeItems layout found).toList.length < fuel → ReadsItems layout fuel found
  entries : ∀ entries : List (Scalar × Value), entries ≠ [] → (∀ e ∈ entries, e.2.isDocument = true) →
    (∀ k ∈ Value.entriesScalars entries, ReadsBack k) →
      (writeEntries layout entries).toList.length < fuel → ReadsEntries layout fuel entries

namespace ReadsWritten

variable {layout : Layout} {fuel : Nat}

/-- Nothing is written as no text. -/
theorem write_pos (v : Value) (document : v.isDocument = true) (readable : ∀ k ∈ v.scalars, ReadsBack k) :
    0 < (write layout v).toList.length := by
  cases v with
  | scalar k =>
    rw [write]
    exact scalarText_pos (readable k (by simp [Value.scalars]))
  | list items =>
    rw [toList_write_list]
    exact Nat.succ_pos _
  | map entries =>
    rw [toList_write_map]
    exact Nat.succ_pos _
  | record _ => cases document

theorem value_succ (h : ReadsWritten layout fuel) (v : Value) (document : v.isDocument = true)
    (readable : ∀ k ∈ v.scalars, ReadsBack k) (enough : (write layout v).toList.length ≤ fuel + 1) :
    Reads layout (fuel + 1) v := by
  cases v with
  | scalar k => exact reads_scalar (readable k (by simp [Value.scalars]))
  | list items =>
    rw [toList_write_list, List.length_cons, List.length_append, List.length_singleton] at enough
    apply reads_list
    intro some_
    exact h.items items some_ (Value.isDocument_list.1 document) readable (by omega)
  | map entries =>
    rw [toList_write_map, List.length_cons, List.length_append, List.length_singleton] at enough
    have document := Value.isDocument_map.1 document
    apply reads_map document
    intro some_
    exact h.entries entries some_ document.below readable (by omega)
  | record _ => cases document

variable (punctuates : layout.Punctuates)
include punctuates

/-- A comma takes at least one character. -/
theorem comma_pos : 0 < layout.comma.toList.length := by
  obtain ⟨blanks, comma, -⟩ := punctuates.comma
  rw [comma]
  exact Nat.succ_pos _

theorem items_succ (h : ReadsWritten layout fuel) (found : List Value) (some_ : found ≠ [])
    (documents : ∀ v ∈ found, v.isDocument = true) (readable : ∀ k ∈ Value.itemsScalars found, ReadsBack k)
    (enough : (writeItems layout found).toList.length < fuel + 1) : ReadsItems layout (fuel + 1) found := by
  obtain ⟨v, rest, rfl⟩ := List.exists_cons_of_ne_nil some_
  obtain ⟨document, documents⟩ := List.forall_mem_cons.1 documents
  rw [Value.itemsScalars, List.forall_mem_append] at readable
  cases rest with
  | nil =>
    rw [writeItems] at enough
    exact readsItems_one (h.value v document readable.1 (Nat.le_of_lt_succ enough))
  | cons w more =>
    have pos := comma_pos punctuates
    rw [toList_writeItems_cons, List.length_append, List.length_append] at enough
    have here := h.value v document readable.1 (by omega)
    have later := h.items (w :: more) (by simp) documents readable.2 (by omega)
    exact readsItems_cons punctuates here later

theorem entries_succ (h : ReadsWritten layout fuel) (entries : List (Scalar × Value)) (some_ : entries ≠ [])
    (documents : ∀ e ∈ entries, e.2.isDocument = true) (readable : ∀ k ∈ Value.entriesScalars entries, ReadsBack k)
    (enough : (writeEntries layout entries).toList.length < fuel + 1) : ReadsEntries layout (fuel + 1) entries := by
  obtain ⟨⟨k, v⟩, rest, rfl⟩ := List.exists_cons_of_ne_nil some_
  obtain ⟨document, documents⟩ := List.forall_mem_cons.1 documents
  rw [Value.entriesScalars, List.forall_mem_append] at readable
  cases rest with
  | nil =>
    rw [toList_writeEntries_one, List.length_append, List.length_append] at enough
    have here := h.value v document readable.1 (by omega)
    exact readsEntries_one punctuates here
  | cons e more =>
    have pos := comma_pos punctuates
    rw [toList_writeEntries_cons, List.length_append, List.length_append, List.length_append, List.length_append] at enough
    have here := h.value v document readable.1 (by omega)
    have later := h.entries (e :: more) (by simp) documents readable.2 (by omega)
    exact readsEntries_cons punctuates here later

end ReadsWritten

/-- Within every bound, what is short enough is read back: by induction on the bound, as the reader goes. -/
theorem readsWritten {layout : Layout} (punctuates : layout.Punctuates) (fuel : Nat) : ReadsWritten layout fuel := by
  induction fuel with
  | zero =>
    constructor
    · intro v document readable enough
      exact absurd (ReadsWritten.write_pos v document readable) (Nat.not_lt.2 enough)
    · intro found _ _ _ enough
      exact absurd enough (Nat.not_lt_zero _)
    · intro entries _ _ _ enough
      exact absurd enough (Nat.not_lt_zero _)
  | succ fuel ih => exact ⟨ih.value_succ, ih.items_succ punctuates, ih.entries_succ punctuates⟩

/-- **A document reads back from what it is written as**, in either layout, if its scalars do. -/
theorem read_write {layout : Layout} (punctuates : layout.Punctuates) {v : Value} (document : v.isDocument = true)
    (readable : ∀ k ∈ v.scalars, ReadsBack k) : read (write layout v) = .ok v := by
  have reads := (readsWritten punctuates ((write layout v).toList.length + 1)).value v document readable
    (Nat.le_succ _) [] endsNumber_nil
  rw [List.append_nil] at reads
  obtain ⟨c, more, eq, printed, -, mark⟩ := startsValue_of_value reads
  have whole : Json.document (write layout v).toList = .ok v := by
    rw [Json.document, eq, skipSpace_of_head printed, ← eq, reads]
    rfl
  unfold read
  simp only
  split
  · rename_i eq'
    rw [eq] at eq'
    cases eq'
    exact absurd rfl mark
  · rw [readChars, whole]
    rfl

end Json

end Semijoin
