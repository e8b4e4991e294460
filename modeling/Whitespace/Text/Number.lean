/-!
# Numbers as text

Integers are written with a minus sign and decimal digits, and read back from an optional sign and
one or more ASCII digits. Numbers of more than `digitLimit` digits are not converted in either
direction. Codes are written by lower-case hexadecimal digits, as many as they need for their width.
-/

namespace Whitespace.Decimal

/-- The largest number of decimal digits that is converted between a number and its text. -/
def digitLimit : Nat := 4300

/-- Whether the text of a number with this absolute value stays within the digit limit. -/
def isWritable (magnitude : Nat) : Bool :=
  magnitude < Nat.pow 10 digitLimit

/-- The decimal digits of a natural number, without leading zeros. -/
def ofNat (n : Nat) : String :=
  String.ofList (Nat.toDigits 10 n)

/-- The decimal text of an integer: a minus sign for a negative one, then its digits. -/
def ofInt : Int → String
  | .ofNat n => ofNat n
  | .negSucc n => "-" ++ ofNat (n + 1)

/-- A signed decimal as it stands in a text: its sign and its digits, leading zeros included. -/
structure Numeral where
  negative : Bool
  digits : List Char
deriving DecidableEq, Repr

namespace Numeral

/-- Reads one or more ASCII digits and nothing else. -/
def ofDigits? (negative : Bool) (cs : List Char) : Option Numeral :=
  if cs ≠ [] ∧ cs.all Char.isDigit then some ⟨negative, cs⟩ else none

/-- Reads an optional sign followed by one or more ASCII digits, up to the end of the text. -/
def ofChars? : List Char → Option Numeral
  | '+' :: cs => ofDigits? false cs
  | '-' :: cs => ofDigits? true cs
  | cs => ofDigits? false cs

def value (n : Numeral) : Int :=
  let magnitude : Int := Nat.ofDigitChars 10 n.digits 0
  if n.negative then -magnitude else magnitude

end Numeral

end Whitespace.Decimal

namespace Whitespace.Text

/-! ## Hexadecimal digits -/

/-- The last `width` lower-case hexadecimal digits of a number, most significant first. -/
def hexDigits : (width : Nat) → Nat → List Char
  | 0, _ => []
  | width + 1, n => hexDigits width (n / 16) ++ [Nat.digitChar (n % 16)]

/-! ## Lists of numbers -/

/-- Numbers between brackets, separated by commas. -/
def numberList (numbers : List Int) : String :=
  "[" ++ String.intercalate ", " (numbers.map Decimal.ofInt) ++ "]"

/-- Addresses and their values between braces, separated by commas. -/
def cellList (cells : List (Int × Int)) : String :=
  let cell (c : Int × Int) : String := Decimal.ofInt c.1 ++ ": " ++ Decimal.ofInt c.2
  "\x7b" ++ String.intercalate ", " (cells.map cell) ++ "\x7d"

end Whitespace.Text
