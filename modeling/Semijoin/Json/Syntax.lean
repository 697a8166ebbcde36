import Semijoin.Value.Equality

/-!
# Reading JSON text

A reader of JSON that reports the first place where the text goes wrong. Numbers without fraction and
exponent are integers of any size up to 4300 digits, others are floats, and `NaN`, `Infinity` and
`-Infinity` are read too. In a repeated key the last value counts, at the place of the first. Half of a
surrogate pair alone reads as the replacement character.

Every step works on the characters that are left, so a place is the number of characters left there; it
becomes a line and a column only when the whole text is at hand.
-/

set_option autoImplicit false

namespace Semijoin.Json

/-- What is wrong at a place of a text. -/
inductive Problem where
  | expectingValue
  | expectingName
  | expectingColon
  | expectingComma
  | extraData
  | unterminatedString
  | invalidControl
  | invalidEscape
  | invalidUnicodeEscape
  | byteOrderMark
  deriving DecidableEq, Inhabited

def Problem.message : Problem → String
  | .expectingValue => "Expecting value"
  | .expectingName => "Expecting property name enclosed in double quotes"
  | .expectingColon => "Expecting ':' delimiter"
  | .expectingComma => "Expecting ',' delimiter"
  | .extraData => "Extra data"
  | .unterminatedString => "Unterminated string starting at"
  | .invalidControl => "Invalid control character at"
  | .invalidEscape => "Invalid \\escape"
  | .invalidUnicodeEscape => "Invalid \\uXXXX escape"
  | .byteOrderMark => "Unexpected UTF-8 BOM (decode using utf-8-sig)"

/-- Why reading stops: a problem where so many characters are left, or an integer with too many digits. -/
inductive Halt where
  | at (problem : Problem) (left : Nat)
  | tooLong (digits : Nat)
  deriving DecidableEq, Inhabited

/-- The white space of JSON. -/
def isSpace (c : Char) : Bool := c == ' ' || c == '\t' || c == '\n' || c == '\r'

def skipSpace (cs : List Char) : List Char := cs.dropWhile isSpace

/-- The value of a hexadecimal digit. -/
def hexValue? (c : Char) : Option Nat :=
  if c.isDigit then some (c.toNat - '0'.toNat)
  else if 'a' ≤ c ∧ c ≤ 'f' then some (c.toNat - 'a'.toNat + 10)
  else if 'A' ≤ c ∧ c ≤ 'F' then some (c.toNat - 'A'.toNat + 10)
  else none

/-- The number that four hexadecimal digits write. -/
def hex4? (a b c d : Char) : Option Nat := do
  return (← hexValue? a) * 4096 + (← hexValue? b) * 256 + (← hexValue? c) * 16 + (← hexValue? d)

def isHighSurrogate (n : Nat) : Bool := 0xd800 ≤ n && n ≤ 0xdbff

def isLowSurrogate (n : Nat) : Bool := 0xdc00 ≤ n && n ≤ 0xdfff

/-- The character of a code unit; half of a surrogate pair is replaced. -/
def unitChar (n : Nat) : Char :=
  if isHighSurrogate n || isLowSurrogate n then Char.ofNat 0xfffd else Char.ofNat n

/-- The character that a surrogate pair writes. -/
def pairChar (high low : Nat) : Char := Char.ofNat (0x10000 + (high - 0xd800) * 0x400 + (low - 0xdc00))

/-- The character of a one-letter escape. -/
def escape? (c : Char) : Option Char :=
  match c with
  | '"' => some '"'
  | '\\' => some '\\'
  | '/' => some '/'
  | 'b' => some '\x08'
  | 'f' => some '\x0c'
  | 'n' => some '\n'
  | 'r' => some '\r'
  | 't' => some '\t'
  | _ => none

/-- The characters read, last first, with a replacement for a high surrogate that found no partner. -/
def settle (high : Option Nat) (read : List Char) : List Char :=
  match high with
  | some n => unitChar n :: read
  | none => read

/-- Reads the rest of a string whose opening quote has `start` characters left from it on; `high` is a high
surrogate read just before. An escape of four digits needs a character after it. -/
def stringBody (start : Nat) (high : Option Nat) (read : List Char) :
    List Char → Except Halt (String × List Char)
  | [] => .error (.at .unterminatedString start)
  | c :: rest =>
    if c = '"' then .ok (String.ofList (settle high read).reverse, rest)
    else if c = '\\' then
      match rest with
      | [] => .error (.at .unterminatedString start)
      | mark :: rest =>
        if mark = 'u' then
          match rest with
          | a :: b :: c :: d :: rest =>
            if rest.isEmpty then .error (.at .invalidUnicodeEscape 5)
            else
              match hex4? a b c d with
              | none => .error (.at .invalidUnicodeEscape (rest.length + 5))
              | some n =>
                if isHighSurrogate n then stringBody start (some n) (settle high read) rest
                else if isLowSurrogate n then
                  match high with
                  | some m => stringBody start none (pairChar m n :: read) rest
                  | none => stringBody start none (unitChar n :: read) rest
                else stringBody start none (unitChar n :: settle high read) rest
          | short => .error (.at .invalidUnicodeEscape (short.length + 1))
        else
          match escape? mark with
          | some x => stringBody start none (x :: settle high read) rest
          | none => .error (.at .invalidEscape (rest.length + 2))
    else if c.toNat < 0x20 then .error (.at .invalidControl (rest.length + 1))
    else stringBody start none (c :: settle high read) rest

/-- The number that decimal digits write. -/
def digitsValue (digits : List Char) : Nat := digits.foldl (fun n c => 10 * n + (c.toNat - '0'.toNat)) 0

/-- The most digits of an integer. -/
def maxDigits : Nat := 4300

/-- The fraction at the head of a text: a point and at least one digit. -/
def fraction (cs : List Char) : List Char × List Char :=
  match cs with
  | '.' :: rest => if (rest.takeWhile Char.isDigit).isEmpty then ([], cs) else rest.span Char.isDigit
  | _ => ([], cs)

/-- The exponent at the head of a text: its mark, an optional sign and at least one digit. -/
def exponent? (cs : List Char) : Option (Int × List Char) :=
  match cs with
  | c :: rest =>
    if c = 'e' ∨ c = 'E' then
      let (negative, body) := match rest with
        | '-' :: body => (true, body)
        | '+' :: body => (false, body)
        | body => (false, body)
      let digits := body.takeWhile Char.isDigit
      if digits.isEmpty then none
      else
        let n : Int := digitsValue digits
        some (if negative then -n else n, body.dropWhile Char.isDigit)
    else none
  | [] => none

/-- The digits before the point: a zero alone, or digits that start with another one. -/
def wholeDigits (cs : List Char) : List Char × List Char :=
  match cs with
  | '0' :: rest => (['0'], rest)
  | _ => cs.span Char.isDigit

/-- Reads a number. -/
def number (cs : List Char) : Except Halt (Value × List Char) :=
  let (negative, body) := match cs with
    | '-' :: rest => (true, rest)
    | _ => (false, cs)
  let (whole, afterWhole) := wholeDigits body
  if whole.isEmpty then .error (.at .expectingValue cs.length)
  else
    let (fractional, afterFraction) := fraction afterWhole
    match exponent? afterFraction with
    | some (e, rest) =>
      .ok (.float (.ofDecimal negative (digitsValue (whole ++ fractional)) (e - fractional.length)), rest)
    | none =>
      if !fractional.isEmpty then
        .ok (.float (.ofDecimal negative (digitsValue (whole ++ fractional)) (-fractional.length)), afterFraction)
      else if maxDigits < whole.length then .error (.tooLong whole.length)
      else
        let n : Int := digitsValue whole
        .ok (.int (if negative then -n else n), afterFraction)

/-- The entries read so far, without those that a later entry of the same key replaces. -/
def entriesOf (fields : List (String × Value)) : List (Scalar × Value) :=
  fields.foldl (fun entries f => Entries.insert (.text f.1) f.2 entries) []

mutual

/-- Reads a value; `fuel` bounds the values and members still to be read. -/
def value (fuel : Nat) (cs : List Char) : Except Halt (Value × List Char) :=
  match fuel with
  | 0 => .error (.at .expectingValue cs.length)
  | fuel + 1 =>
    match cs with
    | '"' :: rest => do
      let (s, rest) ← stringBody cs.length none [] rest
      return (.text s, rest)
    | '\x7b' :: rest =>
      match skipSpace rest with
      | '\x7d' :: rest => .ok (.map [], rest)
      | rest => do
        let (fields, rest) ← members fuel [] rest
        return (.map (entriesOf fields), rest)
    | '[' :: rest =>
      match skipSpace rest with
      | ']' :: rest => .ok (.list [], rest)
      | rest => do
        let (read, rest) ← items fuel [] rest
        return (.list read, rest)
    | 'n' :: 'u' :: 'l' :: 'l' :: rest => .ok (.null, rest)
    | 't' :: 'r' :: 'u' :: 'e' :: rest => .ok (.bool true, rest)
    | 'f' :: 'a' :: 'l' :: 's' :: 'e' :: rest => .ok (.bool false, rest)
    | 'N' :: 'a' :: 'N' :: rest => .ok (.float .nan, rest)
    | 'I' :: 'n' :: 'f' :: 'i' :: 'n' :: 'i' :: 't' :: 'y' :: rest => .ok (.float (.infinite false), rest)
    | '-' :: 'I' :: 'n' :: 'f' :: 'i' :: 'n' :: 'i' :: 't' :: 'y' :: rest =>
      .ok (.float (.infinite true), rest)
    | cs => number cs

/-- Reads the members of an object up to its closing brace, after those already read. -/
def members (fuel : Nat) (read : List (String × Value)) (cs : List Char) :
    Except Halt (List (String × Value) × List Char) :=
  match fuel with
  | 0 => .error (.at .expectingName cs.length)
  | fuel + 1 =>
    match cs with
    | '"' :: rest => do
      let (name, rest) ← stringBody cs.length none [] rest
      match skipSpace rest with
      | ':' :: rest => do
        let (v, rest) ← value fuel (skipSpace rest)
        match skipSpace rest with
        | '\x7d' :: rest => return (((name, v) :: read).reverse, rest)
        | ',' :: rest => members fuel ((name, v) :: read) (skipSpace rest)
        | rest => .error (.at .expectingComma rest.length)
      | rest => .error (.at .expectingColon rest.length)
    | cs => .error (.at .expectingName cs.length)

/-- Reads the items of an array up to its closing bracket, after those already read. -/
def items (fuel : Nat) (read : List Value) (cs : List Char) : Except Halt (List Value × List Char) :=
  match fuel with
  | 0 => .error (.at .expectingValue cs.length)
  | fuel + 1 => do
    let (v, rest) ← value fuel cs
    match skipSpace rest with
    | ']' :: rest => return ((v :: read).reverse, rest)
    | ',' :: rest => items fuel (v :: read) (skipSpace rest)
    | rest => .error (.at .expectingComma rest.length)

end

/-- Reads a whole text as one value. -/
def document (cs : List Char) : Except Halt Value := do
  let (v, rest) ← value (cs.length + 1) (skipSpace cs)
  match skipSpace rest with
  | [] => return v
  | rest => .error (.at .extraData rest.length)

/-- A place in a text, counted in characters; lines and columns count from one. -/
structure Place where
  line : Nat
  column : Nat
  offset : Nat
  deriving DecidableEq, Inhabited

/-- The place before which these characters stand. -/
def Place.after (before : List Char) : Place :=
  ⟨before.count '\n' + 1, (before.reverse.takeWhile (· != '\n')).length + 1, before.length⟩

/-- Why a text is no JSON document. -/
inductive Fault where
  | malformed (problem : Problem) (place : Place)
  | tooLong (digits : Nat)
  deriving DecidableEq, Inhabited

def Fault.message : Fault → String
  | .malformed problem place =>
    problem.message ++ ": line " ++ toString place.line ++ " column " ++ toString place.column ++ " (char " ++
      toString place.offset ++ ")"
  | .tooLong digits =>
    "Exceeds the limit (" ++ toString maxDigits ++ " digits) for integer string conversion: value has " ++
      toString digits ++ " digits; use sys.set_int_max_str_digits() to increase the limit"

/-- Gives a halt its place in the whole text. -/
def Halt.locate (cs : List Char) : Halt → Fault
  | .at problem left => .malformed problem (.after (cs.take (cs.length - left)))
  | .tooLong digits => .tooLong digits

/-- Reads decoded text. -/
def readChars (cs : List Char) : Except Fault Value :=
  (document cs).mapError (·.locate cs)

/-- Reads a text; a byte order mark at its start is refused. -/
def read (s : String) : Except Fault Value :=
  let cs := s.toList
  match cs with
  | '\ufeff' :: _ => .error (Halt.locate cs (.at .byteOrderMark cs.length))
  | _ => readChars cs

end Semijoin.Json
