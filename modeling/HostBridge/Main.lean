import HostBridge.Program

/-!
# The command line tool

Reads the files that the command line names, runs the program, and writes what it says.
-/

namespace HostBridge

/-- The number of a system error. The code of a file error may come with a minus sign. -/
def systemCode (code : UInt32) : Nat := code.toInt32.toInt.natAbs

/-- The bytes of a file. -/
def readFile (path : String) : IO (Except FileError ByteArray) := do
  try
    return .ok (← IO.FS.readBinFile path)
  catch
    | .inappropriateType _ code _ =>
      return .error (if systemCode code = 20 then .notDirectory else .directory)
    | .invalidArgument _ code _ =>
      return .error (if systemCode code = 36 then .nameTooLong else .missing)
    | _ => return .error .missing

/-- A file and its text, if there is a path. -/
def readText (path : Option String) : IO (Option (String × Except FileError String)) :=
  path.mapM fun p => return (p, fileText (← readFile p))

end HostBridge

/-- Run the tool. -/
def main (args : List String) : IO UInt32 := do
  match HostBridge.Invocation.read args with
  | none =>
    IO.eprint HostBridge.Program.usage
    return 2
  | some .help =>
    IO.print HostBridge.Program.usage
    return 0
  | some .version =>
    IO.println HostBridge.Program.versionLine
    return 0
  | some (.run script settings) =>
    let settings ← HostBridge.readText settings
    let script ← HostBridge.readText script
    let r := HostBridge.Program.run settings
      (script.map fun s => (s.1, s.2.map HostBridge.Script.read))
    r.output.forM IO.println
    if let some f := r.failure then IO.eprint f.report
    return UInt32.ofNat r.code
