/-!
Text from bytes that need not be UTF-8: every longest prefix of a well-formed sequence that breaks
off, and every byte that starts none, reads as one replacement character.
-/

namespace Rewind.Text

/-- Stands for bytes that are no text. -/
def replacement : Char := '\uFFFD'

/-- The ranges of the bytes that must follow a lead byte, or `none` when it leads no sequence. -/
def tailRanges (lead : UInt8) : Option (List (UInt8 × UInt8)) :=
  let tail : UInt8 × UInt8 := (0x80, 0xBF)
  if lead < 0x80 then some []
  else if lead < 0xC2 then none
  else if lead < 0xE0 then some [tail]
  else if lead = 0xE0 then some [(0xA0, 0xBF), tail]
  else if lead = 0xED then some [(0x80, 0x9F), tail]
  else if lead < 0xF0 then some [tail, tail]
  else if lead = 0xF0 then some [(0x90, 0xBF), tail, tail]
  else if lead < 0xF4 then some [tail, tail, tail]
  else if lead = 0xF4 then some [(0x80, 0x8F), tail, tail]
  else none

/-- Splits off the longest run of bytes that lie in the given ranges, one range per byte. -/
def takeRanges : List (UInt8 × UInt8) → List UInt8 → List UInt8 × List UInt8
  | (low, high) :: ranges, b :: rest =>
    if low ≤ b ∧ b ≤ high then
      let (taken, rest) := takeRanges ranges rest
      (b :: taken, rest)
    else ([], b :: rest)
  | _, rest => ([], rest)

theorem length_takeRanges_le (ranges : List (UInt8 × UInt8)) (bytes : List UInt8) :
    (takeRanges ranges bytes).2.length ≤ bytes.length := by
  fun_induction takeRanges ranges bytes with
  | case1 low high ranges b rest h taken rest' heq ih => simp only [heq] at ih; simp; omega
  | case2 => simp
  | case3 => simp

/-- The character of a complete sequence: the payload of the lead byte, then six bits a byte. -/
def ofSequence (lead : UInt8) (tail : List UInt8) : Char :=
  let payload := match tail.length with
    | 0 => lead.toNat
    | 1 => lead.toNat % 0x20
    | 2 => lead.toNat % 0x10
    | _ => lead.toNat % 0x08
  Char.ofNat (tail.foldl (fun acc b => acc * 0x40 + b.toNat % 0x40) payload)

/-- The characters of a byte sequence, ill-formed parts replaced. -/
def decodeLossy : List UInt8 → List Char
  | [] => []
  | lead :: bytes =>
    match tailRanges lead with
    | none => replacement :: decodeLossy bytes
    | some ranges =>
      let tail := (takeRanges ranges bytes).1
      let c := if tail.length = ranges.length then ofSequence lead tail else replacement
      c :: decodeLossy (takeRanges ranges bytes).2
termination_by bytes => bytes.length
decreasing_by
  · simp
  · have := length_takeRanges_le ranges bytes; simp; omega

/-- The text of a byte string, ill-formed parts replaced. -/
def ofBytesLossy (data : ByteArray) : String := String.ofList (decodeLossy data.data.toList)

/-- The longest prefix of whole characters that takes at most `limit` bytes. -/
def cutTo : (limit : Nat) → List Char → List Char
  | _, [] => []
  | limit, c :: cs => if c.utf8Size ≤ limit then c :: cutTo (limit - c.utf8Size) cs else []

end Rewind.Text
