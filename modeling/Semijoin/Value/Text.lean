import Semijoin.Numeric.Shortest
import Semijoin.Text.Digit
import Semijoin.Text.Printable
import Semijoin.Value.Basic

/-!
# The text of a value

A value has a plain text, which for a text is itself, and a quoted one, which is used inside lists, mappings
and messages. Quotes are single unless the text holds a single quote and no double one. An integer of more than
4300 digits has no text, and neither has a list or a mapping that holds one: `isWritable` says what has.
-/

set_option autoImplicit false

namespace Semijoin

/-- The last `width` hexadecimal digits of a number. -/
def hexDigits (width n : Nat) : String :=
  let digits := Nat.toDigits 16 n
  String.ofList (List.replicate (width - digits.length) '0' ++ digits)

/-- A character inside quotes of the given kind. -/
def quotedChar (quote c : Char) : String :=
  if c = quote ∨ c = '\\' then String.ofList ['\\', c]
  else if c = '\n' then "\\n"
  else if c = '\r' then "\\r"
  else if c = '\t' then "\\t"
  else if Text.isPrintable c then String.singleton c
  else if c.toNat < 0x100 then "\\x" ++ hexDigits 2 c.toNat
  else if c.toNat < 0x10000 then "\\u" ++ hexDigits 4 c.toNat
  else "\\U" ++ hexDigits 8 c.toNat

/-- A text in quotes. -/
def quotedText (s : String) : String :=
  let cs := s.toList
  let quote := if cs.contains '\'' && !cs.contains '"' then '"' else '\''
  String.singleton quote ++ String.join (cs.map (quotedChar quote)) ++ String.singleton quote

/-- The plain text of a scalar. -/
def Scalar.shown : Scalar → String
  | .null => "None"
  | .bool b => if b then "True" else "False"
  | .int n => toString n
  | .float x => x.text
  | .text s => s

/-- The quoted text of a scalar. -/
def Scalar.quoted : Scalar → String
  | .text s => quotedText s
  | s => s.shown

/-- Whether a scalar has a text: an integer of too many digits has none. -/
def Scalar.isWritable : Scalar → Bool
  | .int n => (Nat.toDigits 10 n.natAbs).length ≤ Text.maxDigits
  | _ => true

namespace Value

mutual

/-- Whether a value has a text, with all that it holds. -/
def isWritable : Value → Bool
  | .scalar s => s.isWritable
  | .list items => itemsAreWritable items
  | .map entries => entriesAreWritable entries
  | .record _ => true

/-- Whether all items of a list have texts. -/
def itemsAreWritable : List Value → Bool
  | [] => true
  | v :: rest => v.isWritable && itemsAreWritable rest

/-- Whether all keys and values of entries have texts. -/
def entriesAreWritable : List (Scalar × Value) → Bool
  | [] => true
  | (k, v) :: rest => k.isWritable && v.isWritable && entriesAreWritable rest

end

mutual

/-- The quoted text of a value. -/
def quoted : Value → String
  | .scalar s => s.quoted
  | .list items => "[" ++ quotedItems items ++ "]"
  | .map entries => "\x7b" ++ quotedEntries entries ++ "\x7d"
  | .record _ => "<object>"

/-- The quoted items of a list, separated by commas. -/
def quotedItems : List Value → String
  | [] => ""
  | [v] => v.quoted
  | v :: rest => v.quoted ++ ", " ++ quotedItems rest

/-- The quoted entries of a mapping, separated by commas. -/
def quotedEntries : List (Scalar × Value) → String
  | [] => ""
  | [(k, v)] => k.quoted ++ ": " ++ v.quoted
  | (k, v) :: rest => k.quoted ++ ": " ++ v.quoted ++ ", " ++ quotedEntries rest

end

/-- The plain text of a value. -/
def shown : Value → String
  | .scalar s => s.shown
  | v => v.quoted

end Value

end Semijoin
