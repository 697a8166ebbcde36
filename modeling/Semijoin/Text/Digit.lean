import Semijoin.Text.Blank

/-!
# Integers in text

An integer may be written in the decimal digits of any script, with a sign, with single underscores
between digits and with white space around it. At most 4300 digits are read.
-/

set_option autoImplicit false

namespace Semijoin.Text

/-- The zero of each run of ten decimal digits. -/
def digitZeros : List Nat :=
  [0x30, 0x660, 0x6f0, 0x7c0, 0x966, 0x9e6, 0xa66, 0xae6, 0xb66, 0xbe6, 0xc66, 0xce6, 0xd66, 0xde6, 0xe50,
   0xed0, 0xf20, 0x1040, 0x1090, 0x17e0, 0x1810, 0x1946, 0x19d0, 0x1a80, 0x1a90, 0x1b50, 0x1bb0, 0x1c40,
   0x1c50, 0xa620, 0xa8d0, 0xa900, 0xa9d0, 0xa9f0, 0xaa50, 0xabf0, 0xff10, 0x104a0, 0x10d30, 0x11066,
   0x110f0, 0x11136, 0x111d0, 0x112f0, 0x11450, 0x114d0, 0x11650, 0x116c0, 0x11730, 0x118e0, 0x11950,
   0x11c50, 0x11d50, 0x11da0, 0x16a60, 0x16ac0, 0x16b50, 0x1d7ce, 0x1d7d8, 0x1d7e2, 0x1d7ec, 0x1d7f6,
   0x1e140, 0x1e2f0, 0x1e950, 0x1fbf0]

/-- The value of a decimal digit of any script. -/
def digitValue? (c : Char) : Option Nat :=
  (digitZeros.find? fun z => z ≤ c.toNat && c.toNat < z + 10).map (c.toNat - ·)

/-- The most digits of an integer that are converted from text, or to text. -/
def maxDigits : Nat := 4300

/-- Reads digits with single underscores between them: their count and value, after those already read. -/
def digitsFrom (count value : Nat) : List Char → Option (Nat × Nat)
  | [] => some (count, value)
  | '_' :: c :: rest => do digitsFrom (count + 1) (10 * value + (← digitValue? c)) rest
  | c :: rest => do digitsFrom (count + 1) (10 * value + (← digitValue? c)) rest

/-- Reads one digit and then more with single underscores between them. -/
def digits? : List Char → Option (Nat × Nat)
  | [] => none
  | c :: rest => do digitsFrom 1 (← digitValue? c) rest

/-- The integer that a text writes, if it writes one. -/
def integer? (s : String) : Option Int :=
  let (negative, body) := match trimWhite s.toList with
    | '-' :: rest => (true, rest)
    | '+' :: rest => (false, rest)
    | cs => (false, cs)
  match digits? body with
  | some (count, value) =>
    if maxDigits < count then none else some (if negative then -(value : Int) else value)
  | none => none

end Semijoin.Text
