/-!
# UTF-8

A character is one to four bytes. Bytes that are no character are counted as far as they could have started
one; overlong forms and code points above the last are none. Half of a surrogate pair may be let through, as
the replacement character.
-/

set_option autoImplicit false

namespace Semijoin.Text

/-- Why bytes are no character. -/
inductive BadBytes where
  | start
  | continuation
  | endOfData
  | truncated
  | outOfRange
  deriving DecidableEq, Inhabited

def BadBytes.message : BadBytes → String
  | .start => "invalid start byte"
  | .continuation => "invalid continuation byte"
  | .endOfData => "unexpected end of data"
  | .truncated => "truncated data"
  | .outOfRange => "code point not in range(0x110000)"

namespace Utf8

/-- What stands for bytes that are no character. -/
def replacement : Char := '\ufffd'

/-- Whether a byte continues a character. -/
def isContinuation (b : UInt8) : Bool := 0x80 ≤ b.toNat && b.toNat ≤ 0xbf

/-- Whether a byte may follow the first one of a longer character. -/
def isSecond (first b : UInt8) : Bool :=
  isContinuation b &&
    (if first.toNat = 0xe0 then 0xa0 ≤ b.toNat
      else if first.toNat = 0xed then b.toNat < 0xa0
      else if first.toNat = 0xf0 then 0x90 ≤ b.toNat
      else if first.toNat = 0xf4 then b.toNat < 0x90
      else true)

/-- The six low bits of a continuation byte. -/
def lowBits (b : UInt8) : Nat := b.toNat % 64

/-- The character of two bytes. -/
def pairChar (a b : UInt8) : Char := Char.ofNat ((a.toNat - 0xc0) * 64 + lowBits b)

/-- The character of three bytes. -/
def tripleChar (a b c : UInt8) : Char :=
  Char.ofNat ((a.toNat - 0xe0) * 4096 + lowBits b * 64 + lowBits c)

/-- The character of four bytes. -/
def quadChar (a b c d : UInt8) : Char :=
  Char.ofNat ((a.toNat - 0xf0) * 262144 + lowBits b * 4096 + lowBits c * 64 + lowBits d)

/-- Whether three bytes are half of a surrogate pair. -/
def isHalf (a b c : UInt8) : Bool :=
  a.toNat = 0xed && 0xa0 ≤ b.toNat && isContinuation b && isContinuation c

/-- The character at the head of bytes, or what is wrong there; either with a count of bytes. -/
def headChar (halves : Bool) (a : UInt8) (rest : List UInt8) : Except (BadBytes × Nat) (Char × Nat) :=
  if a.toNat < 0x80 then .ok (Char.ofNat a.toNat, 1)
  else if a.toNat < 0xc2 ∨ 0xf4 < a.toNat then .error (.start, 1)
  else
    match rest with
    | [] => .error (.endOfData, 1)
    | b :: rest =>
      if a.toNat < 0xe0 then
        if isContinuation b then .ok (pairChar a b, 2) else .error (.continuation, 1)
      else
        match rest with
        | [] => if isSecond a b then .error (.endOfData, 2) else .error (.continuation, 1)
        | c :: rest =>
          if halves && isHalf a b c then .ok (replacement, 3)
          else if !isSecond a b then .error (.continuation, 1)
          else if !isContinuation c then .error (.continuation, 2)
          else if a.toNat < 0xf0 then .ok (tripleChar a b c, 3)
          else
            match rest with
            | [] => .error (.endOfData, 3)
            | d :: _ => if isContinuation d then .ok (quadChar a b c d, 4) else .error (.continuation, 3)

/-- Decodes bytes; every group of bytes that is no character is replaced. `fuel` bounds the bytes. -/
def repairFrom (fuel : Nat) (bytes : List UInt8) : List Char :=
  match fuel, bytes with
  | 0, _ => []
  | _, [] => []
  | fuel + 1, a :: rest =>
    match headChar false a rest with
    | .ok (c, count) => c :: repairFrom fuel (rest.drop (count - 1))
    | .error (_, count) => replacement :: repairFrom fuel (rest.drop (count - 1))

/-- Decodes bytes; every group of bytes that is no character is replaced. -/
def repair (bytes : List UInt8) : String := String.ofList (repairFrom bytes.length bytes)

/-- The bytes of a text. -/
def encode (s : String) : List UInt8 := s.toUTF8.toList

end Utf8

end Semijoin.Text
