import Rewind.Savestate.Error

/-!
Why a movie cannot be read, written, started or repositioned.
-/

namespace Rewind.Movie

/-- Why a movie operation failed. -/
inductive Error
  | io (cause : Storage.Fault)
  | badMagic
  | unsupportedVersion (version : UInt32)
  | truncated
  /-- The freeze buffer belongs to another movie. -/
  | notFromThisMovie
  | invalidFrame
  | invalidFormat
  | noMovie
  | alreadyActive
  /-- The user declined. -/
  | cancelled
  | state (cause : Savestate.Error)
deriving DecidableEq, Repr

/-- The text for an error. -/
def Error.message : Error → String
  | io cause => "IO error: " ++ cause.message
  | badMagic => "not an M64 movie (bad magic)"
  | unsupportedVersion version => "unsupported movie version " ++ toString version.toNat
  | truncated => "movie file is truncated"
  | notFromThisMovie => "the savestate is not from this movie"
  | invalidFrame => "the savestate frame is outside the bounds of the movie"
  | invalidFormat => "the savestate freeze buffer format is invalid"
  | noMovie => "no movie is active"
  | alreadyActive => "a movie is already active"
  | cancelled => "cancelled by user"
  | state cause => cause.message

end Rewind.Movie
