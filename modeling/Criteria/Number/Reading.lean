import Criteria.Number.Notation
import Criteria.Text.Blank

/-!
# The number that a text stands for

Where a text is compared with a number, the text is read as one. Blanks around it do not count, and
a blank text is zero. An infinity is written `Infinity` with an optional sign; an unsigned integer
below `2 ^ 64` may be written in base sixteen, eight or two behind `0x`, `0o` or `0b`; anything
else has to be a decimal. A text that is none of these stands for no number.
-/

namespace Criteria.Number

/-! ## Unsigned integers in base two, eight and sixteen -/

/-- The value of a hexadecimal digit of either case. -/
def digitValue? (c : Char) : Option Nat :=
  if '0' ≤ c ∧ c ≤ '9' then some (c.toNat - '0'.toNat)
  else if 'a' ≤ c ∧ c ≤ 'f' then some (c.toNat - 'a'.toNat + 10)
  else if 'A' ≤ c ∧ c ≤ 'F' then some (c.toNat - 'A'.toNat + 10)
  else none

/-- The value of a digit of the base. -/
def digitInBase? (base : Nat) (c : Char) : Option Nat :=
  (digitValue? c).filter (· < base)

/-- The natural number with these digits in the base; none if there is another character. -/
def natInBase? (base : Nat) (cs : List Char) : Option Nat :=
  cs.foldlM (fun value c => (digitInBase? base c).map (value * base + ·)) 0

/-- An unsigned 64-bit integer in the base: at least one digit, behind at most one plus sign. -/
def uint64InBase? (base : Nat) (cs : List Char) : Option Nat :=
  let digits :=
    match cs with
    | '+' :: rest => rest
    | _ => cs
  if digits = [] then none else (natInBase? base digits).filter (· < Nat.pow 2 64)

/-- The base that a text announces, and the digits it announces it for. -/
def announcedBase? : List Char → Option (Nat × List Char)
  | '0' :: mark :: rest =>
    if mark = 'x' ∨ mark = 'X' then some (16, rest)
    else if mark = 'o' ∨ mark = 'O' then some (8, rest)
    else if mark = 'b' ∨ mark = 'B' then some (2, rest)
    else none
  | _ => none

/-! ## All forms -/

/-- The infinity that a text names. -/
def infinity? (cs : List Char) : Option Binary64 :=
  if cs = "Infinity".toList ∨ cs = "+Infinity".toList then some (.infinite false)
  else if cs = "-Infinity".toList then some (.infinite true)
  else none

/-- The number that a text without blanks around it stands for. -/
def numberOfStripped (cs : List Char) : Option Binary64 :=
  if cs = [] then some (.ofNat 0)
  else
    match infinity? cs, announcedBase? cs with
    | some number, _ => some number
    | none, some (base, digits) => (uint64InBase? base digits).map .ofNat
    | none, none => (Decimal.ofText? cs).map Decimal.toBinary64

/-- The number that a text stands for, which is no number if the text is not the text of one. -/
def Binary64.ofText (text : String) : Binary64 :=
  (numberOfStripped (Text.strip text.toList)).getD .nan

end Criteria.Number
