import HostBridge.Engine.Function

/-!
# Statements

What scripts are made of: a list of statements over global names. A handler, attached to a promise
or queued by itself, may log a tag and then returns or throws. A script that was read from a text is
one statement, its code.
-/

namespace HostBridge

/-- Which settlement of a promise a handler is for. -/
inductive Branch where
  | fulfilment
  | rejection
deriving DecidableEq

/-- The name of the function that attaches a handler. -/
def Branch.method : Branch → String
  | fulfilment => "then"
  | rejection => "catch"

/-- A statement of a script. -/
inductive Statement where
  /-- Store a value under a global name. -/
  | store (name : String) (v : EngineValue)
  | value (v : EngineValue)
  /-- A global, or a property of one. -/
  | read (name : String) (key : Option String)
  /-- The array of a global's keys. -/
  | keys (name : String)
  | log (tag : String)
  | throw (v : EngineValue)
  /-- Make a promise that is settled from the start. -/
  | settled (name : Option String) (s : Settlement)
  /-- Make a promise that is settled later, by its name. -/
  | pending (name : String)
  /-- Settle the promise that was made pending under a name. -/
  | settle (promise : String) (s : Settlement)
  /-- Attach a handler to a promise and keep the derived promise. -/
  | attach (name promise : String) (branch : Branch) (handler : Handler)
  /-- Queue a handler as a job of its own. -/
  | microtask (handler : Handler)
  | function (name : String) (body : FunctionBody)
  /-- Run the code of a text. -/
  | code (body : List Script.Code)

/-- A script. -/
abbrev Script := List Statement

/-- The functions that scripts can define, by name. -/
def Script.functions : List (String × FunctionBody) :=
  [ ("identity", .identity), ("args", .arguments), ("count", .count), ("throw", .throw),
    ("typeof", .typeof), ("keys", .keys), ("reject", .reject), ("job", .job) ]

end HostBridge
