/-
**Reading short words: truth values and counts.**

A value may stand among white space, which is the Unicode property `White_Space`.

Main definitions:

* `isBlank`, `trim` — white space, and a text without it at either end;
* `truth?` — the words `true` and `false`;
* `count?` — an optional plus sign and decimal digits, for a number of at most 64 bits.
-/
import MarkovLogic.Decimal.Reader

set_option autoImplicit false

namespace MarkovLogic.Text

/-- The white space of Unicode, as closed ranges of code points, ascending and apart. -/
def blankRanges : List (Nat × Nat) :=
  [(0x09, 0x0D), (0x20, 0x20), (0x85, 0x85), (0xA0, 0xA0), (0x1680, 0x1680), (0x2000, 0x200A),
    (0x2028, 0x2029), (0x202F, 0x202F), (0x205F, 0x205F), (0x3000, 0x3000)]

/-- The character is white space. -/
def isBlank (c : Char) : Bool := blankRanges.any fun r => r.1 ≤ c.toNat && c.toNat ≤ r.2

/-- The text without the white space at its two ends. -/
def trim (text : String) : String :=
  let front := text.toList.dropWhile isBlank
  String.ofList (front.reverse.dropWhile isBlank).reverse

/-- A truth value, spelled exactly so. -/
def truth? : String → Option Bool
  | "true" => some true
  | "false" => some false
  | _ => none

/-- Counts are numbers of 64 bits. -/
def countBound : Nat := Nat.pow 2 64

/-- A count: an optional plus sign and at least one decimal digit.  Leading zeros are allowed. -/
def count? (text : String) : Option Nat :=
  let ds := match text.toList with
    | '+' :: ds => ds
    | ds => ds
  if ds.isEmpty || !ds.all Char.isDigit then none
  else
    let n := Decimal.ofDigits ds
    if n < countBound then some n else none

end MarkovLogic.Text
