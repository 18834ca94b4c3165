import Criteria.Number.Reading

/-!
# Texts between quotation marks

In a JSON document a text stands between quotation marks. Marks, backslashes and control
characters in it are escaped. An escape can denote a code unit of UTF-16, and two of them in
a row can make up one character. So a quoted text is read in two steps: first the codes that are
written, then the characters that they denote.
-/

namespace Criteria.Json.Quoted

open Number (natInBase?)

/-! ## Writing -/

/-- The characters that are written with a backslash and a letter or mark, with that letter or
mark. -/
def shortEscapes : List (Char × Char) :=
  [('"', '"'), ('\\', '\\'), ('\x08', 'b'), ('\x0c', 'f'), ('\n', 'n'), ('\r', 'r'), ('\t', 't')]

/-- A character as it is written. -/
def escape (c : Char) : List Char :=
  match shortEscapes.lookup c with
  | some letter => ['\\', letter]
  | none =>
    if c.toNat < 0x20 then
      ['\\', 'u', '0', '0', Nat.digitChar (c.toNat / 16), Nat.digitChar (c.toNat % 16)]
    else [c]

/-- A text as it is written, with its marks. -/
def write (cs : List Char) : List Char :=
  '"' :: cs.flatMap escape ++ ['"']

/-! ## Reading -/

/-- The character that a backslash and this letter or mark denote. -/
def shortEscape? (letter : Char) : Option Char :=
  if letter = '/' then some '/'
  else (shortEscapes.find? (·.2 = letter)).map (·.1)

/-- The codes up to the closing mark, and what follows it. An escaped code unit is its own code,
and every character is too. -/
def spanCodes? : List Char → Option (List Nat × List Char)
  | [] => none
  | '"' :: rest => some ([], rest)
  | '\\' :: 'u' :: a :: b :: c :: d :: rest => do
    let code ← natInBase? 16 [a, b, c, d]
    let (codes, rest) ← spanCodes? rest
    some (code :: codes, rest)
  | '\\' :: letter :: rest => do
    let character ← shortEscape? letter
    let (codes, rest) ← spanCodes? rest
    some (character.toNat :: codes, rest)
  | c :: rest =>
    if c.toNat < 0x20 ∨ c = '\\' then none
    else do
      let (codes, rest) ← spanCodes? rest
      some (c.toNat :: codes, rest)

/-- The code is the first half of a surrogate pair. -/
def isHigh (code : Nat) : Bool :=
  0xD800 ≤ code && code < 0xDC00

/-- The code is the second half of a surrogate pair. -/
def isLow (code : Nat) : Bool :=
  0xDC00 ≤ code && code < 0xE000

/-- The character of a surrogate pair. -/
def ofPair (high low : Nat) : Char :=
  Char.ofNat (0x10000 + (high - 0xD800) * 0x400 + (low - 0xDC00))

/-- The characters that codes denote; none if half of a surrogate pair stands by itself. -/
def ofCodes? : List Nat → Option (List Char)
  | [] => some []
  | high :: low :: rest =>
    if isHigh high && isLow low then (ofCodes? rest).map (ofPair high low :: ·)
    else if isHigh high || isLow high then none
    else (ofCodes? (low :: rest)).map (Char.ofNat high :: ·)
  | [code] => if isHigh code || isLow code then none else some [Char.ofNat code]

/-- The text whose opening mark has been read, and what follows its closing mark. The text is none
where its codes denote none. -/
def span? (cs : List Char) : Option (Option String × List Char) :=
  (spanCodes? cs).map fun (codes, rest) => ((ofCodes? codes).map String.ofList, rest)

end Criteria.Json.Quoted
