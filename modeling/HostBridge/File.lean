/-!
# Files

What is in a file, as far as the library asks: its text, or why there is none.
-/

namespace HostBridge

/-- Why a file cannot be read as text. -/
inductive FileError where
  | missing
  /-- The path goes on below something that is no directory. -/
  | notDirectory
  | directory
  | nameTooLong
  | notText
deriving DecidableEq

/-- The text of a file error. -/
def FileError.message : FileError → String
  | missing => "No such file or directory (os error 2)"
  | notDirectory => "Not a directory (os error 20)"
  | directory => "Is a directory (os error 21)"
  | nameTooLong => "File name too long (os error 36)"
  | notText => "stream did not contain valid UTF-8"

/-- The text in the bytes of a file. -/
def fileText (bytes : Except FileError ByteArray) : Except FileError String :=
  match bytes with
  | .error e => .error e
  | .ok bytes =>
    match String.fromUTF8? bytes with
    | some s => .ok s
    | none => .error .notText

end HostBridge
