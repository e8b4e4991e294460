import Whitespace.Text.Number

/-!
# Byte counts

Numbers of bytes as shown in messages: in the greatest binary unit that leaves at least one, with
three significant digits. A decimal point stays even if no digit comes after it.
-/

namespace Whitespace.Text

/-- A quotient rounded to the nearest integer, ties to the even one. -/
def roundQuotient (n d : Nat) : Nat :=
  let quotient := n / d
  let twice := 2 * (n % d)
  if d < twice ∨ (twice = d ∧ quotient % 2 = 1) then quotient + 1 else quotient

/-- A number rounded to its 53 leading binary digits. -/
def roundToBits53 (n : Nat) : Nat :=
  let unit := Nat.pow 2 (n.log2 + 1 - 53)
  roundQuotient n unit * unit

/-- The names of the binary units. Each is 1024 times the one before it. -/
def byteUnits : List String :=
  ["bytes", "KiB", "MiB", "GiB", "TiB", "PiB", "EiB"]

/-- A natural number with its last `places` digits after the decimal point. -/
def withPoint (n places : Nat) : String :=
  let digits := (Decimal.ofNat n).toList
  String.ofList
    (digits.take (digits.length - places) ++ '.' :: digits.drop (digits.length - places))

/-- The quotient `n / d`, which is about one or more, to three significant digits, or to all digits
before the point if there are more. -/
def threeDigits (n d : Nat) : String :=
  if roundQuotient (100 * n) d < 1000 then withPoint (roundQuotient (100 * n) d) 2
  else if roundQuotient (10 * n) d < 1000 then withPoint (roundQuotient (10 * n) d) 1
  else withPoint (roundQuotient n d) 0

/-- The place of the unit in which a byte count is shown. A count that rounds to 1024 of a unit is
shown as one of the next. -/
def byteUnit (n : Nat) : Nat :=
  let unit := n.log2 / 10
  if roundQuotient (roundToBits53 n) (Nat.pow 1024 unit) = 1024 then min (unit + 1) 6
  else min unit 6

def byteCount (n : Nat) : String :=
  match byteUnit n with
  | 0 => Decimal.ofNat n ++ " bytes"
  | unit => threeDigits (roundToBits53 n) (Nat.pow 1024 unit) ++ " " ++ byteUnits.getD unit ""

end Whitespace.Text
