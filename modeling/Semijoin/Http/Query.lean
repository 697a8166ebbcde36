import Semijoin.Json.Syntax
import Semijoin.Text.Utf8

/-!
# Query strings

A query string is a sequence of named values between ampersands; a part without a sign of equality is a name
with an empty value. In names and values a plus is a blank, and a percent sign with two hexadecimal digits is
a byte; bytes that are no UTF-8 are replaced.
-/

set_option autoImplicit false

namespace Semijoin.Query

/-- Named values, in order. -/
abbrev Parameters := List (String × String)

/-- The bytes that a part of a query string stands for. -/
def partBytes : List Char → List UInt8
  | [] => []
  | '%' :: a :: b :: rest =>
    match Json.hexValue? a, Json.hexValue? b with
    | some high, some low => UInt8.ofNat (16 * high + low) :: partBytes rest
    | _, _ => Text.Utf8.encode "%" ++ partBytes (a :: b :: rest)
  | c :: rest => Text.Utf8.encode (String.singleton (if c = '+' then ' ' else c)) ++ partBytes rest

/-- The text that a part of a query string stands for. -/
def decodePart (cs : List Char) : String := Text.Utf8.repair (partBytes cs)

/-- The pieces of a text between ampersands, after the current one, which is kept last first. -/
def pieces (current : List Char) : List Char → List (List Char)
  | [] => [current.reverse]
  | c :: rest => if c = '&' then current.reverse :: pieces [] rest else pieces (c :: current) rest

/-- The name and value in a piece. -/
def namedValue (piece : List Char) : String × String :=
  (decodePart (piece.takeWhile (· != '=')), decodePart ((piece.dropWhile (· != '=')).drop 1))

/-- Reads a query string. -/
def read (query : String) : Parameters :=
  ((pieces [] query.toList).filter fun piece => !piece.isEmpty).map namedValue

/-- The last value of a name. -/
def last? (name : String) (parameters : Parameters) : Option String := parameters.reverse.lookup name

end Semijoin.Query
