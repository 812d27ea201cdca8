/-!
The checksum of gzip members: a cyclic redundancy check over 32 bits, low bits first.
-/

namespace Rewind.Gzip

/-- The polynomial, its highest power left out and its bits reversed. -/
def polynomial : UInt32 := 0xEDB88320

/-- One bit of division by the polynomial. -/
def divideBit (r : UInt32) : UInt32 := if r &&& 1 = 1 then polynomial ^^^ (r >>> 1) else r >>> 1

/-- The remainder of each byte. -/
def remainders : Array UInt32 :=
  (Array.range 256).map fun n => (List.range 8).foldl (fun r _ => divideBit r) (UInt32.ofNat n)

/-- The remainder after one more byte. -/
def updateByte (r : UInt32) (b : UInt8) : UInt32 :=
  remainders.getD ((r ^^^ b.toUInt32) &&& 0xFF).toNat 0 ^^^ (r >>> 8)

/-- The checksum of a byte string. -/
def checksum (data : ByteArray) : UInt32 := data.foldl updateByte 0xFFFFFFFF ^^^ 0xFFFFFFFF

end Rewind.Gzip
