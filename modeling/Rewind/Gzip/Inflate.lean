import Rewind.Gzip.Huffman

/-!
Expanding deflated data: blocks of plain bytes, or of literal bytes and references to bytes that
came before, written in prefix codes that are fixed or stand at the front of the block.
-/

namespace Rewind.Gzip

/-- The codes of a block: one for literals and lengths, one for distances. -/
structure BlockCodes where
  literals : PrefixCode
  distances : PrefixCode

/-- For each length symbol: the least length, and how many more bits add to it. -/
def lengthClasses : Array (Nat × Nat) :=
  #[(3, 0), (4, 0), (5, 0), (6, 0), (7, 0), (8, 0), (9, 0), (10, 0), (11, 1), (13, 1), (15, 1),
    (17, 1), (19, 2), (23, 2), (27, 2), (31, 2), (35, 3), (43, 3), (51, 3), (59, 3), (67, 4),
    (83, 4), (99, 4), (115, 4), (131, 5), (163, 5), (195, 5), (227, 5), (258, 0)]

/-- For each distance symbol: the least distance, and how many more bits add to it. -/
def distanceClasses : Array (Nat × Nat) :=
  #[(1, 0), (2, 0), (3, 0), (4, 0), (5, 1), (7, 1), (9, 2), (13, 2), (17, 3), (25, 3), (33, 4),
    (49, 4), (65, 5), (97, 5), (129, 6), (193, 6), (257, 7), (385, 7), (513, 8), (769, 8),
    (1025, 9), (1537, 9), (2049, 10), (3073, 10), (4097, 11), (6145, 11), (8193, 12), (12289, 12),
    (16385, 13), (24577, 13)]

/-- The word lengths of the fixed literal code. -/
def fixedLiteralLengths : Array Nat :=
  Array.replicate 144 8 ++ Array.replicate 112 9 ++ Array.replicate 24 7 ++ Array.replicate 8 8

/-- The word lengths of the fixed distance code. -/
def fixedDistanceLengths : Array Nat := Array.replicate 32 5

/-- The order in which the lengths of the length code's words are written. -/
def lengthCodeOrder : List Nat :=
  [16, 17, 18, 0, 8, 7, 9, 6, 10, 5, 11, 4, 12, 3, 13, 2, 14, 1, 15]

/-- The code with the given word lengths. -/
def codeOfLengths (lengths : Array Nat) : Bits PrefixCode :=
  match PrefixCode.ofLengths? lengths with
  | some code => return code
  | none => throw .badData

/-- The value of a symbol that stands for a class of numbers. -/
def classValue (classes : Array (Nat × Nat)) (symbol : Nat) : Bits Nat :=
  match classes[symbol]? with
  | some (base, extra) => return base + (← Bits.number extra)
  | none => throw .badData

/-- The byte `distance` places before the end; what comes before the front counts as zero. -/
def byteBack (out : ByteArray) (distance : Nat) : UInt8 :=
  if distance ≤ out.size then Bytes.peek out (out.size - distance) else 0

/-- Appends `length` bytes, each a copy of the byte `distance` places before it. -/
def copyBack (out : ByteArray) (distance : Nat) : (length : Nat) → ByteArray
  | 0 => out
  | length + 1 => copyBack (out.push (byteBack out distance)) distance length

/-- The bytes of a coded block, behind `out`. Every symbol takes at least one bit of the fuel. -/
def codedBlock (codes : BlockCodes) : (fuel : Nat) → (out : ByteArray) → Bits ByteArray
  | 0, _ => throw .truncated
  | fuel + 1, out => do
    let symbol ← codes.literals.symbol
    if symbol < 256 then codedBlock codes fuel (out.push (UInt8.ofNat symbol))
    else if symbol = 256 then return out
    else
      let length ← classValue lengthClasses (symbol - 257)
      let distance ← classValue distanceClasses (← codes.distances.symbol)
      codedBlock codes fuel (copyBack out distance length)

/-- The bytes of a plain block, behind `out`. -/
def plainBlock (out : ByteArray) : Bits ByteArray := do
  Bits.align
  let length ← Bits.word 2
  let complement ← Bits.word 2
  if length + complement ≠ 0xFFFF then throw .badData
  return out ++ (← Bits.bytes length)

/-- Takes word lengths until there are `total`; symbols from 16 on stand for repetitions. -/
def wordLengths (code : PrefixCode) (total : Nat) :
    (fuel : Nat) → (lengths : Array Nat) → Bits (Array Nat)
  | 0, _ => throw .badData
  | fuel + 1, lengths => do
    if total ≤ lengths.size then
      if lengths.size = total then return lengths else throw .badData
    else
      let symbol ← code.symbol
      if symbol < 16 then wordLengths code total fuel (lengths.push symbol)
      else
        let (value, base, extra) ← match symbol, lengths.back? with
          | 16, some last => pure (last, 3, 2)
          | 16, none => throw .badData
          | 17, _ => pure (0, 3, 3)
          | _, _ => pure (0, 11, 7)
        let n := base + (← Bits.number extra)
        wordLengths code total fuel (lengths ++ Array.replicate n value)

/-- The codes at the front of a block. -/
def blockCodes : Bits BlockCodes := do
  let literals := (← Bits.number 5) + 257
  let distances := (← Bits.number 5) + 1
  let count := (← Bits.number 4) + 4
  if 286 < literals ∨ 30 < distances then throw .badData
  let mut own := Array.replicate 19 0
  for place in lengthCodeOrder.take count do
    own := own.set! place (← Bits.number 3)
  let total := literals + distances
  let lengths ← wordLengths (← codeOfLengths own) total (total + 1) #[]
  return ⟨← codeOfLengths (lengths.take literals), ← codeOfLengths (lengths.drop literals)⟩

/-- The fixed codes. -/
def fixedCodes : Bits BlockCodes := do
  return ⟨← codeOfLengths fixedLiteralLengths, ← codeOfLengths fixedDistanceLengths⟩

/-- The bytes of all blocks, behind `out`. Every block takes at least one bit of the fuel. -/
def blocks : (fuel : Nat) → (out : ByteArray) → Bits ByteArray
  | 0, _ => throw .truncated
  | fuel + 1, out => do
    let last ← Bits.bit
    let bitCount := 8 * (← read).size
    let out ← match ← Bits.number 2 with
      | 0 => plainBlock out
      | 1 => do codedBlock (← fixedCodes) bitCount out
      | 2 => do codedBlock (← blockCodes) bitCount out
      | _ => throw .badData
    if last = 1 then return out else blocks fuel out

/-- The expanded form of the deflated data that comes next. -/
def inflate : Bits ByteArray := do
  blocks (8 * (← read).size) ByteArray.empty

end Rewind.Gzip
