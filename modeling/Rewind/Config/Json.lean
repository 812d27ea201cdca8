/-!
JSON text as a tree. The reader checks the grammar only: what a number's digits mean, and whether
a string's escapes make up characters, is decided where a value is asked for, so that values that
nobody asks for may hold anything that is well formed.
-/

namespace Rewind

/-- A part of a string: a character as it stands, or a 16-bit unit written as an escape. -/
inductive Json.Piece
  | char (c : Char)
  | unit (n : Nat)
deriving DecidableEq

/-- A JSON value. -/
inductive Json
  | null
  | bool (b : Bool)
  /-- A number as it is written. -/
  | number (text : List Char)
  | string (pieces : List Json.Piece)
  | array (items : List Json)
  | object (fields : List (List Json.Piece × Json))

namespace Json

/-! ## Reading

A reader takes something from the front of the text and gives the rest.
-/

/-- White space between tokens. -/
def skipSpace (cs : List Char) : List Char :=
  cs.dropWhile fun c => c == ' ' || c == '\n' || c == '\t' || c == '\r'

/-- The value of a hexadecimal digit. -/
def hexDigit? (c : Char) : Option Nat :=
  if '0' ≤ c ∧ c ≤ '9' then some (c.toNat - '0'.toNat)
  else if 'a' ≤ c ∧ c ≤ 'f' then some (c.toNat - 'a'.toNat + 10)
  else if 'A' ≤ c ∧ c ≤ 'F' then some (c.toNat - 'A'.toNat + 10)
  else none

/-- The number that hexadecimal digits write. -/
def hexNumber? (cs : List Char) : Option Nat :=
  cs.foldlM (fun acc c => (hexDigit? c).map (acc * 16 + ·)) 0

/-- The character that a short escape stands for. -/
def shortEscape? : Char → Option Char
  | '"' => some '"'
  | '\\' => some '\\'
  | '/' => some '/'
  | 'b' => some '\x08'
  | 'f' => some '\x0c'
  | 'n' => some '\n'
  | 'r' => some '\r'
  | 't' => some '\t'
  | _ => none

/-- The rest of a string, behind its opening quote. -/
def stringTail : List Char → Option (List Piece × List Char)
  | [] => none
  | '"' :: cs => some ([], cs)
  | '\\' :: 'u' :: a :: b :: c :: d :: cs => do
    let n ← hexNumber? [a, b, c, d]
    let (pieces, rest) ← stringTail cs
    return (.unit n :: pieces, rest)
  | '\\' :: e :: cs => do
    let c ← shortEscape? e
    let (pieces, rest) ← stringTail cs
    return (.char c :: pieces, rest)
  | c :: cs => do
    if c < ' ' ∨ c = '\\' then none
    let (pieces, rest) ← stringTail cs
    return (.char c :: pieces, rest)

/-- Whether a character is a decimal digit. -/
def isDigit (c : Char) : Bool := '0' ≤ c && c ≤ '9'

/-- One or more digits. -/
def digits (cs : List Char) : Option (List Char × List Char) :=
  let taken := cs.takeWhile isDigit
  if taken.isEmpty then none else some (taken, cs.dropWhile isDigit)

/-- The digits before the point: a zero alone, or digits that do not start with one. -/
def wholeDigits : List Char → Option (List Char × List Char)
  | '0' :: cs => if (cs.head?.any isDigit) then none else some (['0'], cs)
  | cs => digits cs

/-- The point and the digits behind it, if there is a point. -/
def fraction : List Char → Option (List Char × List Char)
  | '.' :: cs => (digits cs).map fun (ds, rest) => ('.' :: ds, rest)
  | cs => some ([], cs)

/-- The exponent, if there is one. -/
def exponent : List Char → Option (List Char × List Char)
  | e :: cs =>
    if e = 'e' ∨ e = 'E' then
      let (sign, cs) := match cs with
        | '+' :: cs => (['+'], cs)
        | '-' :: cs => (['-'], cs)
        | cs => ([], cs)
      (digits cs).map fun (ds, rest) => (e :: sign ++ ds, rest)
    else some ([], e :: cs)
  | [] => some ([], [])

/-- A number as it is written. -/
def numberText (cs : List Char) : Option (List Char × List Char) := do
  let (sign, cs) := match cs with
    | '-' :: cs => (['-'], cs)
    | cs => ([], cs)
  let (whole, cs) ← wholeDigits cs
  let (part, cs) ← fraction cs
  let (power, cs) ← exponent cs
  return (sign ++ whole ++ part ++ power, cs)

/-- The rest of the text behind a word. -/
def word (text : String) (value : Json) (cs : List Char) : Option (Json × List Char) :=
  let expected := text.toList
  if cs.take expected.length = expected then some (value, cs.drop expected.length) else none

mutual

/-- A value, with white space in front. Every step down takes a character of the fuel. -/
def value : (fuel : Nat) → List Char → Option (Json × List Char)
  | 0, _ => none
  | fuel + 1, cs =>
    match skipSpace cs with
    | 'n' :: cs => word "ull" .null cs
    | 't' :: cs => word "rue" (.bool true) cs
    | 'f' :: cs => word "alse" (.bool false) cs
    | '"' :: cs => (stringTail cs).map fun (pieces, rest) => (.string pieces, rest)
    | '[' :: cs =>
      match skipSpace cs with
      | ']' :: rest => some (.array [], rest)
      | cs => (items fuel cs).map fun (items, rest) => (.array items, rest)
    | '\x7b' :: cs =>
      match skipSpace cs with
      | '\x7d' :: rest => some (.object [], rest)
      | cs => (fields fuel cs).map fun (fields, rest) => (.object fields, rest)
    | cs => (numberText cs).map fun (text, rest) => (.number text, rest)

/-- One or more values up to the closing bracket. -/
def items : (fuel : Nat) → List Char → Option (List Json × List Char)
  | 0, _ => none
  | fuel + 1, cs => do
    let (item, cs) ← value fuel cs
    match skipSpace cs with
    | ']' :: rest => return ([item], rest)
    | ',' :: cs =>
      let (more, rest) ← items fuel cs
      return (item :: more, rest)
    | _ => none

/-- One or more fields up to the closing brace. -/
def fields : (fuel : Nat) → List Char → Option (List (List Piece × Json) × List Char)
  | 0, _ => none
  | fuel + 1, cs =>
    match skipSpace cs with
    | '"' :: cs => do
      let (name, cs) ← stringTail cs
      match skipSpace cs with
      | ':' :: cs =>
        let (item, cs) ← value fuel cs
        match skipSpace cs with
        | '\x7d' :: rest => return ([(name, item)], rest)
        | ',' :: cs =>
          let (more, rest) ← fields fuel cs
          return ((name, item) :: more, rest)
        | _ => none
      | _ => none
    | _ => none

end

/-- The value that a text holds, with nothing but white space around it. -/
def parse? (text : String) : Option Json := do
  let (json, rest) ← value (text.length + 1) text.toList
  if (skipSpace rest).isEmpty then some json else none

/-! ## Asking for values -/

/-- The characters of a string. Units must be characters, or pairs of surrogates that make one. -/
def characters? : List Piece → Option (List Char)
  | [] => some []
  | .char c :: ps => (c :: ·) <$> characters? ps
  | .unit n :: .unit m :: ps =>
    if n < 0xD800 ∨ 0xE000 ≤ n then (Char.ofNat n :: ·) <$> characters? (.unit m :: ps)
    else if n < 0xDC00 ∧ 0xDC00 ≤ m ∧ m < 0xE000 then
      (Char.ofNat (0x10000 + (n - 0xD800) * 0x400 + (m - 0xDC00)) :: ·) <$> characters? ps
    else none
  | .unit n :: ps =>
    if n < 0xD800 ∨ 0xE000 ≤ n then (Char.ofNat n :: ·) <$> characters? ps else none

/-- The text of a string, if it makes up characters. -/
def text? (pieces : List Piece) : Option String := String.ofList <$> characters? pieces

/-- A value that must be a truth value. -/
def bool? : Json → Option Bool
  | bool b => some b
  | _ => none

/-- A value that must be a string. -/
def string? : Json → Option String
  | string pieces => text? pieces
  | _ => none

/-- A value that must be a natural number below a bound, written without fraction and exponent. -/
def natBelow? (bound : Nat) : Json → Option Nat
  | number text =>
    if text.all isDigit then
      (text.foldl (fun acc c => acc * 10 + (c.toNat - '0'.toNat)) 0 |> some).filter (· < bound)
    else none
  | _ => none

/-! ## Writing -/

/-- How a character stands in a written string. -/
def escape (c : Char) : List Char :=
  match c with
  | '"' => ['\\', '"']
  | '\\' => ['\\', '\\']
  | '\x08' => ['\\', 'b']
  | '\x0c' => ['\\', 'f']
  | '\n' => ['\\', 'n']
  | '\r' => ['\\', 'r']
  | '\t' => ['\\', 't']
  | c =>
    if c < ' ' then
      ['\\', 'u', '0', '0'] ++ (if c.toNat < 16 then ['0'] else []) ++ Nat.toDigits 16 c.toNat
    else [c]

/-- A text as a string. -/
def quoteText (text : String) : String :=
  String.ofList ('"' :: text.toList.flatMap escape ++ ['"'])

/-- An object with one field a line, its values already written. -/
def layOut (fields : List (String × String)) : String :=
  let line (field : String × String) : String := "  " ++ quoteText field.1 ++ ": " ++ field.2
  "\x7b\n" ++ ",\n".intercalate (fields.map line) ++ "\n\x7d"

end Json

end Rewind
