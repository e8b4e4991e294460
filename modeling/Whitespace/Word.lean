/-!
# 32-bit words

The numbers of a machine are the signed 32-bit integers. Results outside of them are taken modulo
`2 ^ 32`; quotients are rounded toward zero, and a remainder has the sign of the dividend.
-/

namespace Whitespace.Word

/-- The least word, `-2 ^ 31`. -/
def minValue : Int := -2147483648

/-- The greatest word, `2 ^ 31 - 1`. -/
def maxValue : Int := 2147483647

/-- Whether a number is a word. -/
def InRange (n : Int) : Prop :=
  minValue ≤ n ∧ n ≤ maxValue

instance (n : Int) : Decidable (InRange n) :=
  inferInstanceAs (Decidable (_ ∧ _))

/-- The word that a number is congruent to modulo `2 ^ 32`. -/
def wrap (n : Int) : Int :=
  n.bmod 4294967296

theorem wrap_inRange (n : Int) : InRange (wrap n) := by
  simp only [InRange, minValue, maxValue, wrap, Int.bmod_def]
  omega

theorem wrap_eq_self {n : Int} (h : InRange n) : wrap n = n := by
  simp only [InRange, minValue, maxValue] at h
  simp only [wrap, Int.bmod_def]
  omega

def add (left right : Int) : Int :=
  wrap (left + right)

def subtract (left right : Int) : Int :=
  wrap (left - right)

def multiply (left right : Int) : Int :=
  wrap (left * right)

/-- The quotient of two words, rounded toward zero. Only the least word divided by minus one leaves
the range, and wraps to itself. -/
def divide (left right : Int) : Int :=
  wrap (left.tdiv right)

/-- The remainder that belongs to the quotient rounded toward zero. -/
def modulo (left right : Int) : Int :=
  wrap (left.tmod right)

end Whitespace.Word
