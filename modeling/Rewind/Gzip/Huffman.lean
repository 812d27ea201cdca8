import Rewind.Gzip.Bits

/-!
Canonical prefix codes. A code is given by the length of each symbol's word: shorter words come
first, words of one length are consecutive numbers in the order of their symbols.
-/

namespace Rewind.Gzip

/-- The longest word of a code. -/
def maxWordLength : Nat := 15

/-- A canonical prefix code. -/
structure PrefixCode where
  /-- For each length from 1 on, the number of words. -/
  counts : List Nat
  /-- The symbols that have a word, in the order of their words. -/
  symbols : Array Nat

namespace PrefixCode

/-- The symbols with words of the given length, in order. -/
def symbolsOf (lengths : Array Nat) (length : Nat) : List Nat :=
  (List.range lengths.size).filter fun s => lengths[s]? == some length

/-- The share of all words of the longest length that the words of these counts take up. -/
def span (counts : List Nat) : Nat :=
  counts.foldl (fun used count => 2 * used + count) 0

/-- How many bit sequences of the longest length there are. -/
def fullSpan : Nat := 1 <<< maxWordLength

/--
The code with the given word lengths, where zero stands for no word. Its words must take up all
bit sequences exactly, except that a code may have a single word of one bit, or none at all.
-/
def ofLengths? (lengths : Array Nat) : Option PrefixCode :=
  let groups := (List.range maxWordLength).map fun k => symbolsOf lengths (k + 1)
  let code : PrefixCode := ⟨groups.map List.length, groups.flatten.toArray⟩
  let used := span code.counts
  if used = fullSpan ∨ code.symbols.size = 1 ∧ 2 * used = fullSpan ∨ code.symbols.size = 0 then
    some code
  else none

/--
Finds the symbol whose word comes next. `word` holds the bits so far, `first` the first word of
the present length, and `index` how many shorter words there are.
-/
def symbolFrom (symbols : Array Nat) : List Nat → (word first index : Nat) → Bits Nat
  | [], _, _, _ => throw .badData
  | count :: counts, word, first, index => do
    let word := 2 * word + (← Bits.bit)
    if word < first + count then
      match symbols[index + (word - first)]? with
      | some symbol => return symbol
      | none => throw .badData
    else symbolFrom symbols counts word (2 * (first + count)) (index + count)

/-- The symbol whose word comes next. -/
def symbol (code : PrefixCode) : Bits Nat := symbolFrom code.symbols code.counts 0 0 0

end PrefixCode

end Rewind.Gzip
