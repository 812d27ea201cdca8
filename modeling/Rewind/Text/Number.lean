/-!
Numbers as text: unsigned decimal numbers with an upper bound, hexadecimal with a minimum number
of digits, and quotients with two decimal places.
-/

namespace Rewind.Text

/-- The value of a decimal digit. -/
def digit? (c : Char) : Option Nat :=
  if '0' ≤ c ∧ c ≤ '9' then some (c.toNat - '0'.toNat) else none

/-- The number written by one or more decimal digits and nothing else. -/
def decimal? (cs : List Char) : Option Nat :=
  if cs.isEmpty then none else cs.foldlM (fun acc c => (digit? c).map (acc * 10 + ·)) 0

/-- The number written by decimal digits, if it is below `bound`. -/
def decimalBelow? (bound : Nat) (cs : List Char) : Option Nat :=
  (decimal? cs).filter (· < bound)

/-- As `decimalBelow?`, with one plus sign allowed in front. -/
def unsignedBelow? (bound : Nat) : List Char → Option Nat
  | '+' :: cs => decimalBelow? bound cs
  | cs => decimalBelow? bound cs

/-- Upper-case hexadecimal with at least `width` digits. -/
def hex (width n : Nat) : String :=
  let digits := (Nat.toDigits 16 n).map Char.toUpper
  String.ofList (List.replicate (width - digits.length) '0' ++ digits)

/-- `hex` behind `0x`. -/
def hex0x (width n : Nat) : String := "0x" ++ hex width n

/-- The quotient rounded to the nearest number, a tie to the even one. -/
def roundDiv (num den : Nat) : Nat :=
  let q := num / den
  let twice := 2 * (num % den)
  if den < twice ∨ twice = den ∧ q % 2 = 1 then q + 1 else q

/-- The exponent `k` at which `num / den * 2 ^ k` has 53 binary digits before the point. -/
def significandShift (num den : Nat) : Nat :=
  let k := 52 + den.log2 - num.log2
  if (num <<< k) / den < 1 <<< 52 then k + 1 else k

/--
The quotient with two decimal places. It is first rounded to 53 binary digits, as a
double-precision number holds it, and then to hundredths.
-/
def quotientText (num den : Nat) : String :=
  let k := significandShift num den
  let cents := roundDiv (roundDiv (num <<< k) den * 100) (1 <<< k)
  let pair (n : Nat) := if n < 10 then "0" ++ toString n else toString n
  toString (cents / 100) ++ "." ++ pair (cents % 100)

end Rewind.Text
