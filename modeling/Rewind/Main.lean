import Rewind.Command

/-!
The program: runs a command on the system's files and prints what it leaves behind.
-/

namespace Rewind

open Storage (Fault)

/-- The fault that the system reports. -/
def faultOf : IO.Error → Fault
  | .noFileOrDirectory .. => .notFound
  | .alreadyExists _ 17 _ => .alreadyExists
  | .inappropriateType _ 20 _ => .notADirectory
  | .inappropriateType _ 21 _ => .isADirectory
  | .invalidArgument _ 36 _ => .nameTooLong
  | e => .other (toString e)

/-- The result of an action on the system's files. -/
def attempt (action : IO α) : IO (Except Fault α) := do
  match ← action.toBaseIO with
  | .ok a => return .ok a
  | .error e => return .error (faultOf e)

instance : Files IO where
  read path := attempt (IO.FS.readBinFile path.text)
  write path data := attempt (IO.FS.writeBinFile path.text data)
  patch path data := attempt (IO.FS.withFile path.text .readWrite (·.write data))

end Rewind

/-- Runs the command that the arguments name. -/
def main (args : List String) : IO UInt32 := do
  let out : Rewind.Command.Output ← Rewind.Command.run args
  (← IO.getStdout).putStr out.stdout
  (← IO.getStderr).putStr out.stderr
  return out.code
