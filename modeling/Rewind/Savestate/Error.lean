import Rewind.Gzip.Error
import Rewind.Storage.Fault

/-!
Why a savestate cannot be saved or loaded.
-/

namespace Rewind.Savestate

/-- Contents that no machine state has. -/
inductive Malformation
  | negativeWidth
  | negativeHeight
  | screenshotOverflow
deriving DecidableEq, Repr

/-- The text for a malformation. -/
def Malformation.message : Malformation → String
  | negativeWidth => "negative screenshot width"
  | negativeHeight => "negative screenshot height"
  | screenshotOverflow => "screenshot dimensions overflow"

/-- Why a savestate operation failed. -/
inductive Error
  /-- The data ends before the `needed`-th byte. -/
  | truncated (needed available : Nat)
  | malformed (what : Malformation)
  | decompression (cause : Gzip.Error)
  | eventQueueTooLong
  | tooManyEvents (count : Nat)
  | fileWrite (cause : Storage.Fault)
  | notFound
  | io (cause : Storage.Fault)
  /-- The user declined. -/
  | cancelled
  | coreNotLaunched
deriving DecidableEq, Repr

/-- The text for an error. -/
def Error.message : Error → String
  | truncated needed available =>
    "savestate truncated: needed " ++ toString needed ++ " bytes, buffer has " ++ toString available
  | malformed what => "savestate is malformed: " ++ what.message
  | decompression cause => "failed to decompress savestate: " ++ cause.message
  | eventQueueTooLong => "interrupt event queue has no terminator within the scan limit"
  | tooManyEvents count =>
    toString count ++ " pending interrupt events exceed the savestate event queue capacity"
  | fileWrite cause => "failed to write savestate: " ++ cause.message
  | notFound => "savestate not found or empty"
  | io cause => "IO error: " ++ cause.message
  | cancelled => "cancelled by user"
  | coreNotLaunched => "core is not running"

end Rewind.Savestate
