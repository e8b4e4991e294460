import Mathlib.Data.Nat.Digits.Lemmas
import Whitespace.Instruction.Decode
import Whitespace.Instruction.Encode

/-!
# Binary numerals

A number operand is written as a sign and any number of bits, most significant first. Leading zeros
are allowed, and so is a negative zero, so a number has many numerals.

Results:
1. `bitsValue_eq_magnitude`, `value_ofInt`: what reading and writing bits have to do with the number
   that a numeral denotes.
2. `value_eq_iff`: two numerals denote the same number exactly if they agree up to leading zeros and
   the sign of zero.
-/

namespace Whitespace.Binary

/-- A number as it is written: its sign and its bits, most significant first. -/
structure Numeral where
  negative : Bool
  bits : List Bool
deriving DecidableEq, Repr

namespace Numeral

/-- The absolute value of a numeral: the number that its bits are the binary digits of. -/
def magnitude (n : Numeral) : Nat :=
  Nat.ofDigits 2 (n.bits.reverse.map Bool.toNat)

def value (n : Numeral) : Int :=
  if n.negative then -n.magnitude else n.magnitude

/-- The tokens of a numeral: its sign, its bits, and a line feed. -/
def tokens (n : Numeral) : List TokenKind :=
  .ofBit n.negative :: n.bits.map .ofBit ++ [.lineFeed]

/-- The bits of a numeral without leading zeros. -/
def significant (n : Numeral) : List Bool :=
  n.bits.dropWhile (!·)

/-- Two numerals differ in nothing but leading zeros and the sign of zero. -/
def Agrees (a b : Numeral) : Prop :=
  a.significant = b.significant ∧ (a.negative = b.negative ∨ a.significant = [])

/-- The numeral of a number without leading zeros. -/
def ofInt (value : Int) : Numeral :=
  ⟨value < 0, numberBits value.natAbs⟩

/-! ## Reading and writing bits -/

theorem bitsValue_append (bits : List Bool) (bit : Bool) :
    bitsValue (bits ++ [bit]) = 2 * bitsValue bits + bit.toNat := by
  simp [bitsValue]

theorem bitsValue_eq_magnitude (n : Numeral) : bitsValue n.bits = n.magnitude := by
  unfold magnitude
  induction n.bits using List.reverseRecOn with
  | nil => rfl
  | append_singleton bits bit ih =>
    rw [bitsValue_append, ih]
    simp only [List.reverse_append, List.reverse_singleton, List.singleton_append, List.map_cons,
      Nat.ofDigits_cons]
    exact Nat.add_comm ..

theorem bitsValue_toDigits (n : Nat) : bitsValue ((Nat.toDigits 2 n).map (· = '1')) = n := by
  induction n using Nat.strongRecOn with
  | ind n ih =>
    have hdigit : ∀ m < 2, (decide (Nat.digitChar m = '1')).toNat = m := by decide
    by_cases h : n < 2
    · rw [Nat.toDigits_of_lt_base h]
      simpa [bitsValue] using hdigit n h
    · rw [Nat.toDigits_of_base_le (by decide) (by omega), List.map_append, List.map_singleton,
        bitsValue_append, ih (n / 2) (by omega), hdigit (n % 2) (by omega)]
      exact Nat.div_add_mod n 2

theorem bitsValue_numberBits (n : Nat) : bitsValue (numberBits n) = n := by
  unfold numberBits
  split
  · next h => rw [h]; rfl
  · exact bitsValue_toDigits n

/-- The numeral of a number denotes it. -/
theorem value_ofInt (v : Int) : (ofInt v).value = v := by
  have hm : (ofInt v).magnitude = v.natAbs := by
    rw [← bitsValue_eq_magnitude]
    exact bitsValue_numberBits v.natAbs
  rw [value, hm]
  simp only [ofInt, decide_eq_true_eq]
  split <;> omega

/-! ## Numerals of the same number -/

theorem magnitude_eq_significant (n : Numeral) :
    n.magnitude = Nat.ofDigits 2 (n.significant.reverse.map Bool.toNat) := by
  unfold magnitude significant
  induction n.bits with
  | nil => rfl
  | cons bit bits ih =>
    cases bit with
    | true => rfl
    | false =>
      rw [List.dropWhile_cons_of_pos rfl, ← ih, List.reverse_cons, List.map_append]
      exact Nat.ofDigits_append_zero _

/-- The binary digits of the absolute value are the bits without leading zeros. -/
theorem digits_magnitude (n : Numeral) :
    Nat.digits 2 n.magnitude = n.significant.reverse.map Bool.toNat := by
  rw [magnitude_eq_significant]
  refine Nat.digits_ofDigits 2 (by decide) _ ?_ ?_
  · intro d hd
    obtain ⟨bit, _, rfl⟩ := List.mem_map.mp hd
    exact bit.toNat_lt
  · -- Without leading zeros the most significant bit is set.
    intro h
    have hs : n.significant ≠ [] := by simpa using h
    have hhead : (!n.significant.head hs) = false := List.head_dropWhile_not (!·) hs
    rw [List.getLast_map, List.getLast_reverse]
    simpa using hhead

theorem magnitude_eq_iff {a b : Numeral} :
    a.magnitude = b.magnitude ↔ a.significant = b.significant := by
  constructor
  · intro h
    have hd := digits_magnitude a
    rw [h, digits_magnitude b] at hd
    have hinj : Function.Injective Bool.toNat := by decide
    exact (List.reverse_injective (List.map_injective_iff.mpr hinj hd)).symm
  · intro h
    rw [magnitude_eq_significant, h, ← magnitude_eq_significant]

theorem magnitude_eq_zero_iff (n : Numeral) : n.magnitude = 0 ↔ n.significant = [] := by
  rw [← Nat.digits_eq_nil_iff_eq_zero (b := 2), digits_magnitude]
  simp

/-- Numerals of the same number differ in nothing but leading zeros and the sign of zero. -/
theorem value_eq_iff {a b : Numeral} : a.value = b.value ↔ a.Agrees b := by
  unfold Agrees
  rw [← magnitude_eq_iff, ← magnitude_eq_zero_iff]
  unfold value
  cases a.negative <;> cases b.negative <;> simp <;> omega

end Numeral

end Whitespace.Binary
