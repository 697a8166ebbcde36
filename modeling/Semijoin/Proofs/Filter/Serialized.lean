import Semijoin.Proofs.Filter.Acceptance
import Semijoin.Proofs.Json.Halts

/-!
# What becomes of serialized filters

Whatever text or bytes a filter is read from, the outcome is a filter or a failure as malformed, with one exception: an
integer that is too long, standing somewhere in the text, stops the reader with a failure of its own. Undecodable bytes,
truncated documents, other values and ill-formed sections are all malformed.
-/

namespace Semijoin
set_option autoImplicit false

/-- A failure that says that a filter is malformed. -/
def Failure.IsMalformed : Failure → Prop
  | .malformedFilter _ => True
  | .invalidFilter _ => True
  | _ => False

namespace FilterSource

/-- A filter as text or bytes. -/
inductive IsSerialized : FilterSource → Prop
  | text (s : String) : IsSerialized (.text s)
  | bytes (content : List UInt8) : IsSerialized (.bytes content)
  | textValue (s : String) : IsSerialized (.value (.text s))

/-- The characters of a text, or of bytes that can be decoded. -/
def chars? : FilterSource → Option (List Char)
  | .text s => some s.toList
  | .bytes content => (Json.decode content).toOption
  | .value (.text s) => some s.toList
  | _ => none

/-- What a serialized filter comes to: a filter, a malformed one, or an integer that is too long. -/
inductive Outcome (chars : Option (List Char)) : Except Failure Value → Prop
  | filter {m : Value} (document : m.isDocument = true) (accepted : Filter.Accepts m) : Outcome chars (.ok m)
  | malformed {f : Failure} (malformed : f.IsMalformed) : Outcome chars (.error f)
  | tooLong {cs : List Char} {n : Nat} (decoded : chars = some cs) (long : Json.maxDigits < n)
      (held : Json.HoldsInteger n cs) : Outcome chars (.error (.cause (.document (.document (.tooLong n)))))

theorem outcome_checkedValue {m : Value} (document : m.isDocument = true) (chars : Option (List Char)) :
    Outcome chars (checkedValue m) := by
  by_cases accepted : Filter.Accepts m
  · rw [Filter.checkedValue_of_accepts document accepted]
    exact .filter document accepted
  · obtain ⟨f, refused, why⟩ := Filter.checkedValue_of_not_accepts document accepted
    rw [refused]
    cases why <;> exact .malformed trivial

/-- What decoded text is read as is a document. -/
theorem outcome_ok {cs : List Char} {v : Value} (read : Json.readChars cs = .ok v) :
    Outcome (some cs) (checkedValue v) :=
  outcome_checkedValue (Json.isDocument_readChars read) _

/-- Decoded text that is no document is malformed, or holds an integer that is too long. -/
theorem outcome_error {cs : List Char} {f : Json.Fault} (read : Json.readChars cs = .error f) :
    Outcome (some cs) (.error (unreadable (.document f))) := by
  unfold Json.readChars at read
  cases whole : Json.document cs with
  | ok v =>
    rw [whole] at read
    cases read
  | error halt =>
    rw [whole] at read
    cases read
    cases halt with
    | «at» problem left => exact .malformed trivial
    | tooLong n =>
      obtain ⟨long, held⟩ := Json.document_tooLong whole
      exact .tooLong rfl long held

theorem outcome_parseText (s : String) : Outcome (some s.toList) (parseText s) := by
  have reads : (∃ problem place, Json.read s = .error (.malformed problem place)) ∨
      Json.read s = Json.readChars s.toList := by
    unfold Json.read
    simp only
    split
    · exact .inl ⟨_, _, rfl⟩
    · exact .inr rfl
  unfold parseText
  rcases reads with ⟨problem, place, eq⟩ | eq
  · rw [eq]
    exact .malformed trivial
  · rw [eq]
    cases read : Json.readChars s.toList with
    | ok v => exact outcome_ok read
    | error f => exact outcome_error read

theorem outcome_bytes (content : List UInt8) : Outcome (chars? (.bytes content)) (parse (.bytes content)) := by
  rw [parse, chars?]
  cases decoded : Json.decode content with
  | error f =>
    have read : Json.readBytes content = .error (.undecodable f) := by rw [Json.readBytes, decoded]
    rw [read]
    exact .malformed trivial
  | ok cs =>
    have reads : Json.readBytes content = (Json.readChars cs).mapError .document := by rw [Json.readBytes, decoded]
    rw [reads]
    cases read : Json.readChars cs with
    | ok v => exact outcome_ok read
    | error f => exact outcome_error read

/-- **A serialized filter is a filter or malformed**, unless an integer in it is too long. -/
theorem parse_outcome {source : FilterSource} (serialized : source.IsSerialized) :
    Outcome source.chars? source.parse := by
  cases serialized with
  | text s => exact outcome_parseText s
  | bytes content => exact outcome_bytes content
  | textValue s => exact outcome_parseText s

/-- Bytes that are no characters are malformed. -/
theorem parse_outcome_undecodable : ∃ f, (FilterSource.bytes [0x22, 0xff, 0x22]).parse = .error f ∧ f.IsMalformed := by
  have outcome : Outcome none (FilterSource.bytes [0x22, 0xff, 0x22]).parse := parse_outcome (.bytes [0x22, 0xff, 0x22])
  cases parsed : (FilterSource.bytes [0x22, 0xff, 0x22]).parse with
  | ok m => cases parsed
  | error f =>
    rw [parsed] at outcome
    cases outcome with
    | malformed malformed => exact ⟨f, rfl, malformed⟩
    | tooLong decoded => cases decoded

/-- An integer with too many digits stops the reader under any name, with a failure that is not one of malformed
filters. -/
theorem parse_memberText (name : String) {digits : String} (all : ∀ c ∈ digits.toList, c.isDigit = true)
    (head : digits.toList.head? ≠ some '0') (long : Json.maxDigits < digits.length) :
    (FilterSource.text (Json.memberText name digits)).parse =
      .error (.cause (.document (.document (.tooLong digits.length)))) := by
  rw [parse, parseText, Json.read_memberText name all head long]
  rfl

/-- Not every serialized filter is one or malformed. -/
theorem long_limit_escapes :
    ¬ ∀ source : FilterSource, source.IsSerialized →
      (∃ m, source.parse = .ok m) ∨ ∃ f, source.parse = .error f ∧ f.IsMalformed := by
  have escaped (n : Nat) (long : Json.maxDigits < n + 1) :
      (FilterSource.text (Json.memberText "limit" (String.ofList (List.replicate (n + 1) '1')))).parse =
        .error (.cause (.document (.document (.tooLong (n + 1))))) := by
    have digits : (String.ofList (List.replicate (n + 1) '1')).length = n + 1 := by simp
    rw [parse_memberText "limit" ?_ ?_ (digits.symm ▸ long), digits]
    · intro c mem
      rw [String.toList_ofList] at mem
      rw [List.eq_of_mem_replicate mem]
      rfl
    · simp [List.replicate_succ]
  intro only
  rcases only _ (.text _) with ⟨m, ok⟩ | ⟨f, failed, own⟩
  · rw [escaped 4300 (by decide)] at ok
    cases ok
  · rw [escaped 4300 (by decide)] at failed
    cases failed
    exact own

end FilterSource

end Semijoin
