import Semijoin.Text.Blank

/-!
# Files of variables

A file assigns variables line by line, `NAME=value`, with an optional `export` before the name. A value is
bare, up to a blank before `#` or the end of the line, or in single or double quotes, inside which it may run
over several lines and hold escapes. A name without a sign of equality is not assigned. A line that has none of
these forms is skipped. Inside a value, a name in braces after a dollar stands for the variable's own value,
and a default may be given.
-/

set_option autoImplicit false

namespace Semijoin.EnvFile

/-- Line breaks of all kinds as line feeds. -/
def unifyLines : List Char → List Char
  | [] => []
  | '\r' :: '\n' :: rest => '\n' :: unifyLines rest
  | c :: rest => (if c = '\r' then '\n' else c) :: unifyLines rest

/-- Whether a character is a blank within a line. -/
def isGap (c : Char) : Bool := Text.isBlank c && c != '\n'

def skipGap (cs : List Char) : List Char := cs.dropWhile isGap

/-- What follows the line at the head of a text. -/
def skipLine (cs : List Char) : List Char := (cs.dropWhile (· != '\n')).drop 1

/-- Drops the word `export` and the blanks after it. -/
def skipExport (cs : List Char) : List Char :=
  match cs with
  | 'e' :: 'x' :: 'p' :: 'o' :: 'r' :: 't' :: rest =>
    if (rest.head?.map isGap).getD false then skipGap rest else cs
  | cs => cs

/-- Reads up to a closing quote: the last possible reading of a backslash before a quote as an escape
counts. -/
def quotedBody (quote : Char) : List Char → Option (List Char × List Char)
  | [] => none
  | '\\' :: c :: rest =>
    if c = quote then
      match quotedBody quote rest with
      | some (body, rest) => some ('\\' :: c :: body, rest)
      | none => some (['\\'], rest)
    else (quotedBody quote (c :: rest)).map fun r => ('\\' :: r.1, r.2)
  | c :: rest =>
    if c = quote then some ([], rest) else (quotedBody quote rest).map fun r => (c :: r.1, r.2)

/-- The character that an escape in double quotes stands for. -/
def doubleEscape? (c : Char) : Option Char :=
  match c with
  | '\\' => some '\\'
  | '\'' => some '\''
  | '"' => some '"'
  | 'a' => some '\x07'
  | 'b' => some '\x08'
  | 'f' => some '\x0c'
  | 'n' => some '\n'
  | 'r' => some '\r'
  | 't' => some '\t'
  | 'v' => some '\x0b'
  | _ => none

/-- The character that an escape in single quotes stands for. -/
def singleEscape? (c : Char) : Option Char := if c = '\\' ∨ c = '\'' then some c else none

/-- Replaces escapes. -/
def unescape (escape? : Char → Option Char) : List Char → List Char
  | [] => []
  | '\\' :: c :: rest =>
    match escape? c with
    | some x => x :: unescape escape? rest
    | none => '\\' :: unescape escape? (c :: rest)
  | c :: rest => c :: unescape escape? rest

/-- A bare value up to a comment. -/
def beforeComment : List Char → List Char
  | [] => []
  | c :: rest =>
    if Text.isBlank c && rest.head? == some '#' then [] else c :: beforeComment rest

/-- A text without the blanks at its end. -/
def trimEnd (cs : List Char) : List Char := (cs.reverse.dropWhile Text.isBlank).reverse

/-- Reads a name, in single quotes or bare; a comment has none. -/
def readName (cs : List Char) : Option (Option String × List Char) :=
  match cs with
  | '#' :: _ => some (none, cs)
  | '\'' :: rest =>
    match rest.takeWhile (· != '\''), rest.dropWhile (· != '\'') with
    | [], _ => none
    | _, [] => none
    | name, _ :: rest => some (some (String.ofList name), rest)
  | cs =>
    let inName (c : Char) : Bool := c != '=' && c != '#' && !Text.isBlank c
    match cs.takeWhile inName with
    | [] => none
    | name => some (some (String.ofList name), cs.dropWhile inName)

/-- Reads a value in quotes. -/
def readQuoted (quote : Char) (escape? : Char → Option Char) (cs : List Char) : Option (String × List Char) :=
  (quotedBody quote cs).map fun r => (String.ofList (unescape escape? r.1), r.2)

/-- Reads a value. -/
def readValue (cs : List Char) : Option (String × List Char) :=
  match cs with
  | '\'' :: rest => readQuoted '\'' singleEscape? rest
  | '"' :: rest => readQuoted '"' doubleEscape? rest
  | cs =>
    let line := cs.takeWhile (· != '\n')
    some (String.ofList (trimEnd (beforeComment line)), cs.dropWhile (· != '\n'))

/-- Reads what may end a line: blanks, a comment and the line break. -/
def readEnd (cs : List Char) : Option (List Char) :=
  let cs := match skipGap cs with
    | '#' :: rest => rest.dropWhile (· != '\n')
    | _ => cs
  match skipGap cs with
  | [] => some []
  | '\n' :: rest => some rest
  | _ => none

/-- Reads one assignment. The first part is none where a line has no proper form; then the rest of that line
is skipped. -/
def readLine (cs : List Char) : Option (Option String × Option String) × List Char :=
  match readName (skipExport cs) with
  | none => (none, skipLine cs)
  | some (name, rest) =>
    let value := match skipGap rest with
      | '=' :: rest => (readValue (skipGap rest)).map fun r => (some r.1, r.2)
      | rest => some (none, rest)
    match value with
    | none => (none, skipLine rest)
    | some (value, rest) =>
      match readEnd rest with
      | some rest => (some (name, value), rest)
      | none => (none, skipLine rest)

/-- Reads the assignments of a text; `fuel` bounds the lines. -/
def readLines (fuel : Nat) (cs : List Char) : List (String × Option String) :=
  match fuel with
  | 0 => []
  | fuel + 1 =>
    match cs.dropWhile Text.isBlank with
    | [] => []
    | cs =>
      match readLine cs with
      | (some (some name, value), rest) => (name, value) :: readLines fuel rest
      | (_, rest) => readLines fuel rest

/-- The name and default inside braces, and what follows them. -/
def reference? (cs : List Char) : Option (String × String × List Char) :=
  match cs with
  | '$' :: '\x7b' :: rest =>
    let inName (c : Char) : Bool := c != '\x7d' && c != ':'
    let name := String.ofList (rest.takeWhile inName)
    match rest.dropWhile inName with
    | '\x7d' :: rest => some (name, "", rest)
    | ':' :: '-' :: rest =>
      match rest.dropWhile (· != '\x7d') with
      | _ :: after => some (name, String.ofList (rest.takeWhile (· != '\x7d')), after)
      | [] => none
    | _ => none
  | _ => none

/-- Replaces references to variables; `fuel` bounds the characters still to be read. -/
def expand (fuel : Nat) (valueOf? : String → Option String) (cs : List Char) : List Char :=
  match fuel, cs with
  | 0, cs => cs
  | _, [] => []
  | fuel + 1, c :: rest =>
    match reference? (c :: rest) with
    | some (name, fallback, after) =>
      ((valueOf? name).getD fallback).toList ++ expand fuel valueOf? after
    | none => c :: expand fuel valueOf? rest

/-- Gives every assignment its value, with the assignments before it and then the variables given. -/
def resolve (vars : List (String × String)) (assigned : List (String × Option String)) :
    List (String × Option String) → List (String × Option String)
  | [] => assigned
  | (name, value) :: rest =>
    let valueOf? (n : String) : Option String :=
      match assigned.lookup n with
      | some v => some (v.getD "")
      | none => vars.lookup n
    let value := value.map fun s => String.ofList (expand s.length valueOf? s.toList)
    resolve vars ((name, value) :: assigned) rest

/-- The variables that a file assigns; the last assignment of a name comes first. -/
def read (vars : List (String × String)) (text : String) : List (String × Option String) :=
  let cs := unifyLines text.toList
  resolve vars [] (readLines (cs.length + 1) cs)

end Semijoin.EnvFile
