/-
**Reading a decimal number.**

The accepted texts are an optional sign followed by one of the words `inf`, `infinity` and `nan` in
any case, or by digits with an optional point, at least one of them on either side of it, and an
optional exponent.  The result is the nearest double; a number beyond the range reads as infinity
and one below it as zero.

Main definitions:

* `ofDigits` — the number of a list of digits;
* `nearest` — the double nearest to such a number times a power of ten;
* `unsigned?`, `read?` — the grammar.
-/

set_option autoImplicit false

namespace MarkovLogic.Decimal

/-- The number that a list of decimal digits denotes. -/
def ofDigits (ds : List Char) : Nat := ds.foldl (fun n c => 10 * n + (c.toNat - '0'.toNat)) 0

/-- The double nearest to the number of the digits times `10 ^ power`.  Without its leading zeros a
number of `n` digits lies between `10 ^ (n - 1)` and `10 ^ n`, which decides the result outside the
powers of ten that a double can reach. -/
def nearest (ds : List Char) (power : Int) : Float :=
  let ds := ds.dropWhile fun c => c = '0'
  let size := (ds.length : Int) + power
  if ds.isEmpty || size < -400 then 0
  else if 400 < size then 1.0 / 0.0
  else Float.ofScientific (ofDigits ds) (power < 0) power.natAbs

/-- A power of ten behind the digits: nothing, or the letter `e`, an optional sign and digits. -/
def power? : List Char → Option Int
  | [] => some 0
  | c :: rest =>
    if c = 'e' ∨ c = 'E' then
      let (negative, ds) := match rest with
        | '-' :: ds => (true, ds)
        | '+' :: ds => (false, ds)
        | ds => (false, ds)
      if ds.isEmpty || !ds.all Char.isDigit then none
      else some (if negative then -(ofDigits ds : Int) else ofDigits ds)
    else none

/-- A number without a sign. -/
def unsigned? (cs : List Char) : Option Float :=
  let word := String.ofList (cs.map Char.toLower)
  if word = "inf" ∨ word = "infinity" then some (1.0 / 0.0)
  else if word = "nan" then some (0.0 / 0.0)
  else
    let whole := cs.takeWhile Char.isDigit
    let rest := cs.dropWhile Char.isDigit
    let (places, rest) := match rest with
      | '.' :: rest => (rest.takeWhile Char.isDigit, rest.dropWhile Char.isDigit)
      | rest => ([], rest)
    let ds := whole ++ places
    if ds.isEmpty then none
    else (power? rest).map fun p => nearest ds (p - places.length)

/-- The number that a text denotes, if it denotes one. -/
def read? (text : String) : Option Float :=
  match text.toList with
  | '-' :: cs => (unsigned? cs).map fun x => -x
  | '+' :: cs => unsigned? cs
  | cs => unsigned? cs

end MarkovLogic.Decimal
