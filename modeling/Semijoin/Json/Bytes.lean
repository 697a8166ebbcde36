import Semijoin.Json.Syntax
import Semijoin.Text.Utf8
import Semijoin.Value.Text

/-!
# JSON from bytes

A document in bytes is UTF-8, UTF-16 or UTF-32, as its byte order mark says, or else as the zero bytes at
its start show: the first character of a document is below 128. Decoding stops at the first bytes that are
no character; half of a surrogate pair decodes to the replacement character.
-/

set_option autoImplicit false

namespace Semijoin.Json

inductive Encoding where
  | utf8
  | utf16 (big : Bool)
  | utf32 (big : Bool)
  deriving DecidableEq, Inhabited

def Encoding.name : Encoding → String
  | .utf8 => "utf-8"
  | .utf16 big => if big then "utf-16-be" else "utf-16-le"
  | .utf32 big => if big then "utf-32-be" else "utf-32-le"

/-- Bytes that are no character: the first of them, where it stands, and how many they are. -/
structure DecodeFault where
  encoding : Encoding
  reason : Text.BadBytes
  first : UInt8
  position : Nat
  count : Nat
  deriving DecidableEq, Inhabited

def DecodeFault.message (f : DecodeFault) : String :=
  let what :=
    if f.count = 1 then "byte 0x" ++ hexDigits 2 f.first.toNat ++ " in position " ++ toString f.position
    else "bytes in position " ++ toString f.position ++ "-" ++ toString (f.position + f.count - 1)
  "'" ++ f.encoding.name ++ "' codec can't decode " ++ what ++ ": " ++ f.reason.message

/-- Decodes UTF-8 from a position on, after the characters already read; `fuel` bounds the bytes. -/
def decodeUtf8From (fuel position : Nat) (read : List Char) (bytes : List UInt8) :
    Except DecodeFault (List Char) :=
  match fuel, bytes with
  | 0, _ => .ok read.reverse
  | _, [] => .ok read.reverse
  | fuel + 1, a :: rest =>
    match Text.Utf8.headChar true a rest with
    | .ok (c, count) => decodeUtf8From fuel (position + count) (c :: read) (rest.drop (count - 1))
    | .error (reason, count) => .error ⟨.utf8, reason, a, position, count⟩

/-- Decodes UTF-8. -/
def decodeUtf8 (bytes : List UInt8) : Except DecodeFault (List Char) :=
  decodeUtf8From bytes.length 0 [] bytes

/-- Decodes UTF-16 from a position on; `high` is a high surrogate read just before. -/
def decodeUtf16 (big : Bool) (position : Nat) (high : Option Nat) (read : List Char) :
    List UInt8 → Except DecodeFault (List Char)
  | [] => .ok (settle high read).reverse
  | [a] => .error ⟨.utf16 big, .truncated, a, position, 1⟩
  | a :: b :: rest =>
    let n := if big then a.toNat * 256 + b.toNat else b.toNat * 256 + a.toNat
    if isHighSurrogate n then decodeUtf16 big (position + 2) (some n) (settle high read) rest
    else if isLowSurrogate n then
      match high with
      | some m => decodeUtf16 big (position + 2) none (pairChar m n :: read) rest
      | none => decodeUtf16 big (position + 2) none (unitChar n :: read) rest
    else decodeUtf16 big (position + 2) none (unitChar n :: settle high read) rest

/-- Decodes UTF-32 from a position on. -/
def decodeUtf32 (big : Bool) (position : Nat) (read : List Char) : List UInt8 → Except DecodeFault (List Char)
  | [] => .ok read.reverse
  | a :: b :: c :: d :: rest =>
    let n :=
      if big then ((a.toNat * 256 + b.toNat) * 256 + c.toNat) * 256 + d.toNat
      else ((d.toNat * 256 + c.toNat) * 256 + b.toNat) * 256 + a.toNat
    if 0x110000 ≤ n then .error ⟨.utf32 big, .outOfRange, a, position, 4⟩
    else decodeUtf32 big (position + 4) (unitChar n :: read) rest
  | a :: rest => .error ⟨.utf32 big, .truncated, a, position, rest.length + 1⟩

/-- Decodes a document. -/
def decode : List UInt8 → Except DecodeFault (List Char)
  | 0 :: 0 :: 0xfe :: 0xff :: rest => decodeUtf32 true 4 [] rest
  | 0xff :: 0xfe :: 0 :: 0 :: rest => decodeUtf32 false 4 [] rest
  | 0xfe :: 0xff :: rest => decodeUtf16 true 2 none [] rest
  | 0xff :: 0xfe :: rest => decodeUtf16 false 2 none [] rest
  | 0xef :: 0xbb :: 0xbf :: rest => decodeUtf8 rest
  | bytes@(a :: b :: c :: d :: _) =>
    if a = 0 then if b = 0 then decodeUtf32 true 0 [] bytes else decodeUtf16 true 0 none [] bytes
    else if b = 0 then
      if c = 0 ∧ d = 0 then decodeUtf32 false 0 [] bytes else decodeUtf16 false 0 none [] bytes
    else decodeUtf8 bytes
  | [a, b] =>
    if a = 0 then decodeUtf16 true 0 none [] [a, b]
    else if b = 0 then decodeUtf16 false 0 none [] [a, b]
    else decodeUtf8 [a, b]
  | bytes => decodeUtf8 bytes

/-- Why bytes are no JSON document. -/
inductive BytesFault where
  | undecodable (fault : DecodeFault)
  | document (fault : Fault)
  deriving DecidableEq, Inhabited

/-- Reads a document in bytes. -/
def readBytes (bytes : List UInt8) : Except BytesFault Value :=
  match decode bytes with
  | .error f => .error (.undecodable f)
  | .ok cs => (readChars cs).mapError .document

end Semijoin.Json
