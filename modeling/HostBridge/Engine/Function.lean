import HostBridge.Script.Expression

/-!
# Functions

What a function does when it is called (`FunctionBody`). A function that a script wrote is its code
with the names that were in sight where it was made, each with the number of its variable
(`Closure`).
-/

namespace HostBridge

/-- A piece of code that logs its tag, if it has one, and ends. -/
structure Handler where
  tag : Option String := none
  ending : Completion := .normal .undefined

/-- A function that a script wrote. -/
structure Closure where
  parameters : List String
  body : List Script.Code
  /-- It is made to construct, and has a receiver of its own. -/
  constructible : Bool
  /-- The names in sight where it was made, the innermost first. -/
  names : List (String × Nat)

/-- What a function does when it is called. -/
inductive FunctionBody where
  /-- Runs its code. -/
  | closure (c : Closure)
  /-- Answers its first argument. -/
  | identity
  /-- Answers the array of its arguments. -/
  | arguments
  /-- Answers the number of its arguments. -/
  | count
  /-- Throws its first argument. -/
  | throw
  /-- Answers the name of its first argument's type. -/
  | typeof
  /-- Answers the array of its first argument's keys. -/
  | keys
  /-- Makes a promise that is rejected with its first argument. -/
  | reject
  /-- Queues a job that logs its first argument. -/
  | job
  /-- Answers the integer one. -/
  | one (constructible : Bool)
  /-- Ends as a handler does. -/
  | handler (h : Handler)
  /-- Settles a promise with its first argument, if the promise has been left so often. -/
  | settle (promise pledges : Nat) (rejects : Bool)
  /-- A class, which is made to construct and refuses a call. -/
  | classFactory
  /-- A function that belongs to the engine. -/
  | native (f : Native)

namespace FunctionBody

/-- The function is made to construct. -/
def constructs : FunctionBody → Bool
  | closure c => c.constructible
  | one constructible => constructible
  | classFactory => true
  | _ => false

/-- The number of a function's parameters. -/
def parameters : FunctionBody → Nat
  | closure c => c.parameters.length
  | identity | throw | typeof | keys | reject | job | settle _ _ _ => 1
  | native (.other _ parameters) | native (.member _ _ parameters) => parameters
  | _ => 0

end FunctionBody

end HostBridge
