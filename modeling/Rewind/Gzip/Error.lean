/-!
Why compressed data cannot be expanded.
-/

namespace Rewind.Gzip

/-- Why a gzip member cannot be read. -/
inductive Error
  | truncated
  /-- Not the deflate method, a reserved flag, or a text that is too long. -/
  | badHeader
  /-- The deflated data is ill-formed. -/
  | badData
  /-- A checksum or a length is not that of the data. -/
  | badChecksum
  | empty
  | tooLarge (limit : Nat)
deriving DecidableEq, Repr

/-- The text for an error. -/
def Error.message : Error → String
  | truncated => "unexpected end of file"
  | badHeader => "invalid gzip header"
  | badData => "corrupt deflate stream"
  | badChecksum => "corrupt gzip stream does not have a matching checksum"
  | empty => "empty output"
  | tooLarge limit => "output exceeds " ++ toString limit ++ " bytes"

end Rewind.Gzip
