/-!
# The shared database connection

The engine and the maker of sessions are made when first asked for, kept, and shared until they are closed. A
maker is bound to the engine that is kept, which is made for it if there is none. A call that fails to make or
to close changes nothing; one that fails later keeps what it has made. Whether a call works is up to the settings
and the database, so it is part of the call.
-/

set_option autoImplicit false

namespace Semijoin.Sql

/-- An engine; engines with different serial numbers are different ones. -/
structure Engine where
  serial : Nat
  driver : String
  deriving DecidableEq, Inhabited

/-- A maker of sessions, bound to an engine. -/
structure SessionMaker where
  serial : Nat
  engine : Engine
  deriving DecidableEq, Inhabited

/-- What is shared, and how many engines and makers have been made. -/
structure Connection where
  engine : Option Engine := none
  maker : Option SessionMaker := none
  made : Nat := 0
  deriving DecidableEq, Inhabited

/-- The driver of a database address, if there is one that can wait. -/
def driverOf? (url : String) : Option String :=
  let scheme := String.ofList (url.toList.takeWhile (· != ':'))
  let rest := String.ofList (url.toList.dropWhile (· != ':'))
  if scheme = "sqlite+aiosqlite" && rest.startsWith "://" then some scheme else none

namespace Connection

/-- The shared engine, made with a driver if there is none. -/
def getEngine (driver? : Option String) (c : Connection) : Option Engine × Connection :=
  match c.engine with
  | some e => (some e, c)
  | none =>
    match driver? with
    | none => (none, c)
    | some driver =>
      let e : Engine := ⟨c.made, driver⟩
      (some e, { c with engine := some e, made := c.made + 1 })

/-- The shared maker of sessions, made if there is none. -/
def getMaker (driver? : Option String) (c : Connection) : Option SessionMaker × Connection :=
  match c.maker with
  | some m => (some m, c)
  | none =>
    match c.getEngine driver? with
    | (none, c) => (none, c)
    | (some e, c) =>
      let m : SessionMaker := ⟨c.made, e⟩
      (some m, { c with maker := some m, made := c.made + 1 })

/-- Creates tables on the shared engine, if creating them works. -/
def createTables (driver? : Option String) (works : Bool) (c : Connection) : Bool × Connection :=
  match c.getEngine driver? with
  | (none, c) => (false, c)
  | (some _, c) => (works, c)

/-- The maker of a data access that is built without one of its own, if building it works. -/
def buildAccess (driver? : Option String) (works : Bool) (c : Connection) : Option SessionMaker × Connection :=
  match c.getMaker driver? with
  | (none, c) => (none, c)
  | (some m, c) => (if works then some m else none, c)

/-- Closes the engine, if closing works, and forgets what is shared; calls made while closing waits come before it. -/
def close (works : Bool) (c : Connection) : Bool × Connection :=
  if c.engine.isSome && !works then (false, c) else (true, { c with engine := none, maker := none })

/-- A call on what is shared, with what becomes of the parts of it that are not decided here. -/
inductive Call where
  | engine (driver? : Option String)
  | maker (driver? : Option String)
  | tables (driver? : Option String) (works : Bool)
  | access (driver? : Option String) (works : Bool)
  | close (works : Bool)
  deriving DecidableEq, Inhabited

/-- What a call gives. -/
inductive Reply where
  | engine (engine : Engine)
  | maker (maker : SessionMaker)
  | done
  | failed
  deriving DecidableEq, Inhabited

namespace Reply

def ofEngine : Option Engine → Reply
  | some e => .engine e
  | none => .failed

def ofMaker : Option SessionMaker → Reply
  | some m => .maker m
  | none => .failed

def ofWorked (worked : Bool) : Reply := if worked then .done else .failed

end Reply

/-- Makes a call. -/
def step (call : Call) (c : Connection) : Reply × Connection :=
  match call with
  | .engine driver? => (c.getEngine driver?).map .ofEngine id
  | .maker driver? => (c.getMaker driver?).map .ofMaker id
  | .tables driver? works => (c.createTables driver? works).map .ofWorked id
  | .access driver? works => (c.buildAccess driver? works).map .ofMaker id
  | .close works => (c.close works).map .ofWorked id

/-- What is shared after calls. -/
def after (calls : List Call) (c : Connection) : Connection := calls.foldl (fun c call => (c.step call).2) c

/-- Calls with what they give, one after the other. -/
def trace : List Call → Connection → List (Call × Reply)
  | [], _ => []
  | call :: rest, c => (call, (c.step call).1) :: trace rest (c.step call).2

end Connection

end Semijoin.Sql
