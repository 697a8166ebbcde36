import Semijoin.Value.Text

/-!
# Writing JSON text

A value is written in the order of its entries, in one of two layouts: spaced, in which every character
beyond ASCII is an escape, and compact, in which only controls are. Keys that are no texts are written as
the text of the scalar.
-/

set_option autoImplicit false

namespace Semijoin.Json

/-- How lists and mappings are punctuated, and whether only ASCII is written. -/
structure Layout where
  comma : String
  colon : String
  ascii : Bool
  deriving DecidableEq

/-- Blanks after the punctuation, and only ASCII. -/
def spaced : Layout := ⟨", ", ": ", true⟩

/-- No blanks, and characters as they are. -/
def compact : Layout := ⟨",", ":", false⟩

/-- The escape of one code unit. -/
def unitEscape (n : Nat) : String := "\\u" ++ hexDigits 4 n

/-- A character of a string. -/
def charText (layout : Layout) (c : Char) : String :=
  match c with
  | '"' => "\\\""
  | '\\' => "\\\\"
  | '\n' => "\\n"
  | '\r' => "\\r"
  | '\t' => "\\t"
  | '\x08' => "\\b"
  | '\x0c' => "\\f"
  | c =>
    if c.toNat < 0x20 then unitEscape c.toNat
    else if layout.ascii && 0x7f ≤ c.toNat then
      if c.toNat < 0x10000 then unitEscape c.toNat
      else
        let n := c.toNat - 0x10000
        unitEscape (0xd800 + n / 0x400) ++ unitEscape (0xdc00 + n % 0x400)
    else String.singleton c

/-- A string in quotes. -/
def stringText (layout : Layout) (s : String) : String :=
  "\"" ++ String.join (s.toList.map (charText layout)) ++ "\""

/-- A float: the shortest decimal, or one of three words. -/
def floatText : Binary64 → String
  | .nan => "NaN"
  | .infinite negative => if negative then "-Infinity" else "Infinity"
  | x => x.text

/-- A scalar other than a text. -/
def bareText : Scalar → String
  | .null => "null"
  | .bool b => if b then "true" else "false"
  | .int n => toString n
  | .float x => floatText x
  | .text s => s

def scalarText (layout : Layout) : Scalar → String
  | .text s => stringText layout s
  | s => bareText s

mutual

/-- The text of a value. -/
def write (layout : Layout) : Value → String
  | .scalar s => scalarText layout s
  | .list items => "[" ++ writeItems layout items ++ "]"
  | .map entries => "\x7b" ++ writeEntries layout entries ++ "\x7d"
  | .record fields => stringText layout (Value.record fields).shown

/-- The items of a list. -/
def writeItems (layout : Layout) : List Value → String
  | [] => ""
  | [v] => write layout v
  | v :: rest => write layout v ++ layout.comma ++ writeItems layout rest

/-- The entries of a mapping. -/
def writeEntries (layout : Layout) : List (Scalar × Value) → String
  | [] => ""
  | [(k, v)] => stringText layout (bareText k) ++ layout.colon ++ write layout v
  | (k, v) :: rest =>
    stringText layout (bareText k) ++ layout.colon ++ write layout v ++ layout.comma ++ writeEntries layout rest

end

mutual

/-- Whether every number in a value is finite, as strict JSON wants. -/
def isStrict : Value → Bool
  | .float (.finite _ _) => true
  | .float _ => false
  | .scalar _ => true
  | .list items => itemsStrict items
  | .map entries => entriesStrict entries
  | .record _ => false

def itemsStrict : List Value → Bool
  | [] => true
  | v :: rest => isStrict v && itemsStrict rest

def entriesStrict : List (Scalar × Value) → Bool
  | [] => true
  | (_, v) :: rest => isStrict v && entriesStrict rest

end

end Semijoin.Json
