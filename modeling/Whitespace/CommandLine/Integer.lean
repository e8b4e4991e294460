import Whitespace.Text.Character
import Whitespace.Text.Number

/-!
# Integers as arguments

Integers on a command line are written more freely than those in the input of a program: with digits
of any script, with blanks around them, and with single underscores between the digits.
-/

namespace Whitespace.CommandLine

/-- Whether a character may stand around an integer. The four separators of ASCII may not. -/
def isMargin (c : Char) : Bool :=
  Text.isBlank c && !(0x1C ≤ c.toNat && c.toNat ≤ 0x1F)

/-- The text without what may stand around an integer. -/
def trimMargins (cs : List Char) : List Char :=
  ((cs.dropWhile isMargin).reverse.dropWhile isMargin).reverse

/-- Reads digits with single underscores between them. -/
def readDigits? : List Char → Option (List Nat)
  | [] => none
  | [c] => (Text.digitValue? c).map ([·])
  | c :: '_' :: rest => do
    let digit ← Text.digitValue? c
    let digits ← readDigits? rest
    return digit :: digits
  | c :: rest => do
    let digit ← Text.digitValue? c
    let digits ← readDigits? rest
    return digit :: digits

/-- The number that decimal digits spell, if they are not too many. -/
def magnitude? (cs : List Char) : Option Nat := do
  let digits ← readDigits? cs
  if Decimal.digitLimit < digits.length then none
  else return digits.foldl (fun n digit => 10 * n + digit) 0

def readInteger? (text : String) : Option Int :=
  match trimMargins text.toList with
  | '+' :: cs => (magnitude? cs).map fun n => (n : Int)
  | '-' :: cs => (magnitude? cs).map fun n => -(n : Int)
  | cs => (magnitude? cs).map fun n => (n : Int)

end Whitespace.CommandLine
