/-!
What can go wrong with a file, and how the system says it.
-/

namespace Rewind.Storage

/-- Why a file operation failed. -/
inductive Fault
  | notFound
  | alreadyExists
  | notADirectory
  | isADirectory
  | nameTooLong
  | nulInName
  /-- The file was to be read as text and is not UTF-8. -/
  | notText
  /-- Any other cause, in the system's words. -/
  | other (text : String)
deriving DecidableEq, Repr

/-- The system's text for a fault. -/
def Fault.message : Fault → String
  | notFound => "No such file or directory (os error 2)"
  | alreadyExists => "File exists (os error 17)"
  | notADirectory => "Not a directory (os error 20)"
  | isADirectory => "Is a directory (os error 21)"
  | nameTooLong => "File name too long (os error 36)"
  | nulInName => "file name contained an unexpected NUL byte"
  | notText => "stream did not contain valid UTF-8"
  | other text => text

end Rewind.Storage
