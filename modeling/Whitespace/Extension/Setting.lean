import Whitespace.Text.Number
import Whitespace.Text.Quoted

/-!
# Declared values

An extension declares its name and the version that it asks for as values of any kind. They are
compared with a number, or shown in messages.
-/

namespace Whitespace

/-- A value that an extension declares. -/
inductive Setting where
  | absent
  | boolean (value : Bool)
  | integer (value : Int)
  /-- A number with a decimal point: `digits` divided by ten to the power of `places`. Zero has a
  sign, too. -/
  | decimal (negative : Bool) (digits : Nat) (places : Int)
  /-- A number beyond all others. -/
  | infinite (negative : Bool)
  /-- A number that is none. -/
  | notANumber
  | text (value : String)
  | list (items : List Setting)
  | record (fields : List (String × Setting))

namespace Setting

/-- A decimal number of given digits, of which `point` stand before the decimal point. At least one
digit is shown on each side of the point; very large and very small numbers have an exponent. -/
def pointText (digits : List Char) (point : Int) : List Char :=
  let zeros (n : Int) : List Char := List.replicate n.toNat '0'
  if point ≤ -4 ∨ 16 < point then
    let exponent := point - 1
    let sign := if exponent < 0 then '-' else '+'
    let size := (Decimal.ofNat exponent.natAbs).toList
    let fraction := if digits.length ≤ 1 then [] else '.' :: digits.drop 1
    digits.take 1 ++ fraction ++ 'e' :: sign :: zeros (2 - size.length) ++ size
  else if point ≤ 0 then '0' :: '.' :: zeros (-point) ++ digits
  else if digits.length ≤ point then digits ++ zeros (point - digits.length) ++ ['.', '0']
  else digits.take point.toNat ++ '.' :: digits.drop point.toNat

/-- The text of a number with a decimal point, without trailing zeros. -/
def decimalText (digits : Nat) (places : Int) : String :=
  let all := (Decimal.ofNat digits).toList
  let significant := (all.reverse.dropWhile (· = '0')).reverse
  String.ofList
    (if significant = [] then ['0', '.', '0'] else pointText significant (all.length - places))

def signText (negative : Bool) : String :=
  if negative then "-" else ""

mutual

/-- A value as it would be written down: texts stand between quotes. -/
def literal : Setting → String
  | absent => "None"
  | boolean value => if value then "True" else "False"
  | integer value => Decimal.ofInt value
  | decimal negative digits places => signText negative ++ decimalText digits places
  | infinite negative => signText negative ++ "inf"
  | notANumber => "nan"
  | text value => Text.quoted value
  | list items => "[" ++ String.intercalate ", " (literals items) ++ "]"
  | record fields => "\x7b" ++ String.intercalate ", " (fieldLiterals fields) ++ "\x7d"

def literals : List Setting → List String
  | [] => []
  | item :: items => literal item :: literals items

def fieldLiterals : List (String × Setting) → List String
  | [] => []
  | (key, value) :: fields =>
    (Text.quoted key ++ ": " ++ literal value) :: fieldLiterals fields

end

/-- A value as shown in messages: a text is shown as it is. -/
def shown : Setting → String
  | text value => value
  | value => literal value

/-- Whether a value equals a natural number. Truth counts as one and falsity as zero. -/
def equals (n : Nat) : Setting → Bool
  | boolean value => value.toNat = n
  | integer value => value = n
  | decimal negative digits places =>
    (!negative || digits = 0) &&
      digits * Nat.pow 10 (-places).toNat = n * Nat.pow 10 places.toNat
  | _ => false

end Setting

end Whitespace
