/-!
# Command line arguments

`[SCRIPT] [--settings PATH]`, with `--settings=PATH` as another spelling, `--` to end the options,
and `--help`, `-h`, `--version`, `-V`, which take effect where they stand. Arguments are read from
left to right and the first problem decides. A single dash is no option.
-/

namespace HostBridge

/-- What the command line asks for. -/
inductive Invocation where
  | help
  | version
  | run (script settings : Option String)
deriving DecidableEq

namespace Invocation

/-- The script, if there is none yet and the path is not empty. -/
def addScript (script : Option String) (path : String) : Option (Option String) :=
  if script.isSome || path == "" then none else some (some path)

/-- Read arguments that come after the options. -/
def readPaths (settings : Option String) : Option String → List String → Option Invocation
  | script, [] => some (.run script settings)
  | script, path :: rest =>
    match addScript script path with
    | none => none
    | some script => readPaths settings script rest

/-- An argument split at its first equals sign. -/
def splitValue (cs : List Char) : String × Option String :=
  (String.ofList (cs.takeWhile (· != '=')),
    match cs.dropWhile (· != '=') with
    | [] => none
    | _ :: value => some (String.ofList value))

/-- The argument can be the value of an option. -/
def isValue (arg : String) : Bool :=
  match arg.toList with
  | [] => false
  | ['-'] => true
  | c :: _ => c != '-'

/-- Read arguments. Nothing is the answer to arguments that make no sense. -/
def readFrom (script settings : Option String) : List String → Option Invocation
  | [] => some (.run script settings)
  | arg :: rest =>
    match arg.toList with
    | ['-', '-'] => readPaths settings script rest
    | '-' :: '-' :: option =>
      match splitValue option with
      | ("help", none) => some .help
      | ("version", none) => some .version
      | ("settings", some path) =>
        if settings.isSome || path == "" then none else readFrom script (some path) rest
      | ("settings", none) =>
        match rest with
        | [] => none
        | path :: rest =>
          if settings.isSome || !isValue path then none else readFrom script (some path) rest
      | _ => none
    | '-' :: 'h' :: _ => some .help
    | '-' :: 'V' :: _ => some .version
    | '-' :: _ :: _ => none
    | _ =>
      match addScript script arg with
      | none => none
      | some script => readFrom script settings rest

/-- Read the arguments of a command line. -/
def read (args : List String) : Option Invocation := readFrom none none args

end Invocation

end HostBridge
