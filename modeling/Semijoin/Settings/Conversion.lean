import Semijoin.Shape
import Semijoin.Text.Blank

/-!
# Reading settings leniently

A setting comes from a program as a value or from the environment as text. A truth value may be written as
one of a few words in any case or as zero or one, a whole number with underscores or with an empty fraction,
and a number in decimal notation or by name. What can not be read is a defect, which tells text that does not
read from a value of the wrong kind.
-/

set_option autoImplicit false

namespace Semijoin.Settings

/-- The words for true. -/
def yesWords : List String := ["1", "on", "t", "true", "y", "yes"]

/-- The words for false. -/
def noWords : List String := ["0", "off", "f", "false", "n", "no"]

/-- A whole number that a float with a range of 64 bits equals. -/
def floatAsInt (x : Binary64) : Except Defect Int :=
  match x, x.toInt? with
  | .finite _ _, some n => if -Int.pow 2 63 < n ∧ n < Int.pow 2 63 then .ok n else .error .longInt
  | .finite _ _, none => .error .fractional
  | _, _ => .error .notFinite

/-- Zero and one as truth values. -/
def bitAsBool (n : Int) : Except Defect Bool :=
  if n = 0 then .ok false else if n = 1 then .ok true else .error .unreadableBool

/-- A truth value. -/
def readBool (v : Value) : Except Defect Bool :=
  match v with
  | .bool b => .ok b
  | .text s =>
    let word := String.ofList (s.toList.map Char.toLower)
    if yesWords.contains word then .ok true
    else if noWords.contains word then .ok false
    else .error .unreadableBool
  | .int n => if -Int.pow 2 63 ≤ n ∧ n < Int.pow 2 63 then bitAsBool n else .error .notBool
  | .float x =>
    match floatAsInt x with
    | .ok n => bitAsBool n
    | .error _ => .error .notBool
  | _ => .error .notBool

/-- Digits with single underscores between them, without the underscores. -/
def plainDigits (cs : List Char) : Option (List Char) :=
  match cs with
  | [] => some []
  | '_' :: c :: rest => if c.isDigit then (plainDigits rest).map (c :: ·) else none
  | c :: rest => if c.isDigit then (plainDigits rest).map (c :: ·) else none

/-- A sign at the head of a text, and what follows it. -/
def signed (cs : List Char) : Bool × List Char :=
  match cs with
  | '-' :: rest => (true, rest)
  | '+' :: rest => (false, rest)
  | cs => (false, cs)

/-- The number that decimal digits write. -/
def digitsValue (digits : List Char) : Nat := digits.foldl (fun n c => 10 * n + (c.toNat - '0'.toNat)) 0

/-- The whole number that a text writes. -/
def wholeNumber? (cs : List Char) : Option Int :=
  let (negative, body) := signed (Text.trimWhite cs)
  let whole := body.takeWhile (· != '.')
  let fraction := (body.dropWhile (· != '.')).drop 1
  match whole with
  | [] => none
  | c :: rest =>
    if c.isDigit && fraction.all (· == '0') then
      (plainDigits rest).map fun digits =>
        let n : Int := digitsValue (c :: digits)
        if negative then -n else n
    else none

/-- A whole number. -/
def readInt (v : Value) : Except Defect Int :=
  match v with
  | .bool b => .ok (if b then 1 else 0)
  | .int n => .ok n
  | .float x => floatAsInt x
  | .text s =>
    if 4300 < s.utf8ByteSize then .error .longInt
    else
      match wholeNumber? s.toList with
      | some n => .ok n
      | none => .error .unreadableInt
  | _ => .error .notInt

/-- The exponent after the mantissa of a number; nothing means none. -/
def exponentOf? (cs : List Char) : Option Int :=
  match cs with
  | [] => some 0
  | c :: rest =>
    if c = 'e' ∨ c = 'E' then
      let (negative, digits) := signed rest
      if digits.isEmpty || !digits.all Char.isDigit then none
      else
        let n : Int := digitsValue digits
        some (if negative then -n else n)
    else none

/-- The number that a text in decimal notation writes, after its sign. -/
def magnitude? (negative : Bool) (cs : List Char) : Option Binary64 :=
  let whole := cs.takeWhile Char.isDigit
  let rest := cs.dropWhile Char.isDigit
  let (fraction, rest) := match rest with
    | '.' :: rest => (rest.takeWhile Char.isDigit, rest.dropWhile Char.isDigit)
    | rest => ([], rest)
  if whole.isEmpty && fraction.isEmpty then none
  else (exponentOf? rest).map fun e => .ofDecimal negative (digitsValue (whole ++ fraction)) (e - fraction.length)

/-- The number that a text writes: a decimal, an infinity or not a number. -/
def number? (cs : List Char) : Option Binary64 :=
  let (negative, body) := signed cs
  let word := String.ofList (body.map Char.toLower)
  if word = "inf" ∨ word = "infinity" then some (.infinite negative)
  else if word = "nan" then some .nan
  else magnitude? negative body

/-- A text without its underscores, if each of them stands alone inside it. -/
def withoutUnderscores? (cs : List Char) : Option (List Char) :=
  let parts := (String.ofList cs).splitOn "_"
  if parts.length = 1 ∨ parts.contains "" then none else some (cs.filter (· != '_'))

/-- A number. -/
def readFloat (v : Value) : Except Defect Binary64 :=
  match v with
  | .bool b => .ok (.ofInt (if b then 1 else 0))
  | .int n => .ok (.ofInt n)
  | .float x => .ok x
  | .text s =>
    match (number? (Text.trimWhite s.toList)).or ((withoutUnderscores? s.toList).bind number?) with
    | some x => .ok x
    | none => .error .unreadableFloat
  | _ => .error .notFloat

/-- A text. -/
def readText (v : Value) : Except Defect String :=
  match v with
  | .text s => .ok s
  | _ => .error .notText

end Semijoin.Settings
