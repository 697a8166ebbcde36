import Mathlib.Data.List.Nodup
import Semijoin.Proofs.Value.Columns

/-!
# Documents

A value that was read from a document has text keys only, none of them twice in one mapping, and holds no
records and no integers that have no text. `Value.isDocument` decides it.
-/

namespace Semijoin
set_option autoImplicit false

namespace Value

mutual

/-- Whether a value is one that documents hold. -/
def isDocument : Value → Bool
  | .scalar s => s.isWritable
  | .list items => itemsAreDocuments items
  | .map entries => entriesAreDocuments entries
  | .record _ => false

/-- Whether all items of a list are documents. -/
def itemsAreDocuments : List Value → Bool
  | [] => true
  | v :: rest => v.isDocument && itemsAreDocuments rest

/-- Whether entries have text keys, each once, and documents under them. -/
def entriesAreDocuments : List (Scalar × Value) → Bool
  | [] => true
  | (k, v) :: rest =>
    k.kind == .text && !(rest.map (·.1)).contains k && v.isDocument && entriesAreDocuments rest

end

/-- What the entries of a document are. -/
structure DocumentEntries (entries : List (Scalar × Value)) : Prop where
  text : ∀ e ∈ entries, ∃ s, e.1 = .text s
  once : (entries.map (·.1)).Nodup
  below : ∀ e ∈ entries, e.2.isDocument = true

/-- An entry of a document stands under a text. -/
theorem DocumentEntries.exists_text {entries : List (Scalar × Value)} (h : DocumentEntries entries)
    {e : Scalar × Value} (mem : e ∈ entries) : ∃ (name : String) (v : Value), e = (.text name, v) := by
  obtain ⟨name, text⟩ := h.text e mem
  exact ⟨name, e.2, Prod.ext text rfl⟩

theorem text_of_kind {k : Scalar} (h : (k.kind == .text) = true) : ∃ s, k = .text s := by
  cases k <;> simp_all [Scalar.kind]

theorem documentEntries_of {entries : List (Scalar × Value)} (h : entriesAreDocuments entries = true) :
    DocumentEntries entries := by
  induction entries with
  | nil => exact ⟨by simp, by simp, by simp⟩
  | cons e rest ih =>
    obtain ⟨k, v⟩ := e
    simp only [entriesAreDocuments, Bool.and_eq_true, Bool.not_eq_true', List.contains_eq_mem,
      decide_eq_false_iff_not] at h
    obtain ⟨⟨⟨text, fresh⟩, here⟩, later⟩ := h
    have more := ih later
    refine ⟨?_, ?_, ?_⟩
    · simpa using ⟨text_of_kind text, fun a b hb => more.text (a, b) hb⟩
    · simpa using ⟨by simpa using fresh, more.once⟩
    · simpa using ⟨here, fun a b hb => more.below (a, b) hb⟩

theorem entriesAreDocuments_of {entries : List (Scalar × Value)} (h : DocumentEntries entries) :
    entriesAreDocuments entries = true := by
  induction entries with
  | nil => rfl
  | cons e rest ih =>
    obtain ⟨k, v⟩ := e
    obtain ⟨⟨s, rfl⟩, textLater⟩ := List.forall_mem_cons.1 h.text
    obtain ⟨fresh, onceLater⟩ := List.nodup_cons.1 h.once
    obtain ⟨here, belowLater⟩ := List.forall_mem_cons.1 h.below
    have later := ih ⟨textLater, onceLater, belowLater⟩
    simpa [entriesAreDocuments, here, later, Scalar.kind] using fresh

theorem itemsAreDocuments_iff {items : List Value} :
    itemsAreDocuments items = true ↔ ∀ v ∈ items, v.isDocument = true := by
  induction items with
  | nil => simp [itemsAreDocuments]
  | cons v rest ih => simp [itemsAreDocuments, ih]

theorem isDocument_list {items : List Value} :
    (Value.list items).isDocument = true ↔ ∀ v ∈ items, v.isDocument = true := by
  rw [isDocument, itemsAreDocuments_iff]

theorem DocumentEntries.nil : DocumentEntries [] := ⟨by simp, by simp, by simp⟩

theorem isDocument_map {entries : List (Scalar × Value)} :
    (Value.map entries).isDocument = true ↔ DocumentEntries entries := by
  rw [isDocument]
  exact ⟨documentEntries_of, entriesAreDocuments_of⟩

/-- A document put under a text leaves the entries of a document those of one. -/
theorem DocumentEntries.insert {entries : List (Scalar × Value)} (h : DocumentEntries entries) (name : String)
    {v : Value} (document : v.isDocument = true) : DocumentEntries (Entries.insert (.text name) v entries) := by
  refine ⟨fun e mem => ?_, ?_, fun e mem => ?_⟩
  · rcases Entries.mem_insert mem with held | rfl
    · exact h.text e held
    · exact ⟨name, rfl⟩
  · rw [Entries.keys_insert]
    split
    · exact h.once
    · rename_i fresh
      refine List.nodup_append.2 ⟨h.once, by simp, fun a ha b hb eq => fresh ?_⟩
      rw [List.mem_singleton.1 hb] at eq
      exact eq ▸ ha
  · rcases Entries.mem_insert mem with held | rfl
    · exact h.below e held
    · exact document

theorem DocumentEntries.filter {entries : List (Scalar × Value)} (h : DocumentEntries entries)
    (p : Scalar × Value → Bool) : DocumentEntries (entries.filter p) :=
  ⟨fun e mem => h.text e (List.mem_filter.1 mem).1, h.once.sublist (List.filter_sublist.map _),
    fun e mem => h.below e (List.mem_filter.1 mem).1⟩

theorem DocumentEntries.append {entries more : List (Scalar × Value)} (h : DocumentEntries entries)
    (h' : DocumentEntries more) (apart : ∀ e ∈ entries, ∀ e' ∈ more, e.1 ≠ e'.1) :
    DocumentEntries (entries ++ more) := by
  refine ⟨fun e mem => ?_, ?_, fun e mem => ?_⟩
  · exact (List.mem_append.1 mem).elim (h.text e) (h'.text e)
  · rw [List.map_append]
    refine List.nodup_append.2 ⟨h.once, h'.once, fun a ha b hb => ?_⟩
    obtain ⟨e, he, rfl⟩ := List.mem_map.1 ha
    obtain ⟨e', he', rfl⟩ := List.mem_map.1 hb
    exact apart e he e' he'
  · exact (List.mem_append.1 mem).elim (h.below e) (h'.below e)

/-- A mapping of distinct names to documents is a document. -/
theorem isDocument_ofFields {fields : List (String × Value)} (once : (fields.map (·.1)).Nodup)
    (below : ∀ f ∈ fields, f.2.isDocument = true) : (ofFields fields).isDocument = true := by
  rw [ofFields, isDocument]
  refine entriesAreDocuments_of ⟨List.forall_mem_map.2 fun f _ => ⟨f.1, rfl⟩, ?_, List.forall_mem_map.2 below⟩
  have keys : (fields.map fun f => (Scalar.text f.1, f.2)).map (·.1) = (fields.map (·.1)).map Scalar.text := by simp
  rw [keys]
  exact once.map fun _ _ eq => Scalar.text.inj eq

/-- Distinct text keys have distinct texts. -/
theorem DocumentEntries.shownOnce {entries : List (Scalar × Value)} (h : DocumentEntries entries) :
    (entries.map (·.1.shown)).Nodup := by
  have : entries.map (·.1.shown) = (entries.map (·.1)).map Scalar.shown := by simp
  rw [this]
  refine List.Nodup.map_on ?_ h.once
  intro a ha b hb eq
  obtain ⟨e, he, rfl⟩ := List.mem_map.1 ha
  obtain ⟨f, hf, rfl⟩ := List.mem_map.1 hb
  obtain ⟨s, hs⟩ := h.text e he
  obtain ⟨t, ht⟩ := h.text f hf
  rw [hs, ht] at eq ⊢
  exact congrArg _ eq

/-- The parts of a document are documents. -/
theorem isDocument_get? {v w : Value} {key : String} (document : v.isDocument = true) (h : v.get? key = some w) :
    w.isDocument = true := by
  cases v with
  | map entries =>
    obtain ⟨k, mem, -⟩ := Entries.mem_of_find? h
    exact (documentEntries_of document).below _ mem
  | _ => simp [get?] at h

end Value

end Semijoin
