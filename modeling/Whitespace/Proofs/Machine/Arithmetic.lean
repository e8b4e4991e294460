import Mathlib.Data.Int.ModEq
import Whitespace.Proofs.Machine.Rules

/-!
# Arithmetic

Arithmetic is that of signed 32-bit vectors. A command finds its exact result, which is a signed
64-bit number, and leaves the word that this is congruent to. A quotient is rounded toward zero, and
a remainder has the sign of the dividend.

Results:
1. `Word.isDivision_iff`: the division of integers that is rounded toward zero.
2. `Word.narrow_eq_wrap`: the lowest 32 bits of a number are its word.
3. `Command.exists_exact`, `Command.Exact.fits`: the exact result of a command, and its size.
4. `Machine.arithmetic_wraps`: what arithmetic leaves on the stack.
-/

namespace Whitespace

/-- The quotient and the remainder of a division. The quotient is rounded toward zero, and the
remainder is what is left, with the sign of the dividend. -/
structure Word.IsDivision (left right quotient remainder : Int) : Prop where
  split : left = right * quotient + remainder
  rounded : quotient.natAbs = left.natAbs / right.natAbs
  below : remainder.natAbs < right.natAbs
  nonneg : 0 ≤ left → 0 ≤ remainder
  nonpos : left ≤ 0 → remainder ≤ 0

/-- `Command.Exact left right c exact`: the arithmetic command comes to this on the two operands, as
long as numbers have no bounds. -/
inductive Command.Exact (left right : Int) : Command → Int → Prop
  | add : Exact left right .add (left + right)
  | subtract : Exact left right .subtract (left - right)
  | multiply : Exact left right .multiply (left * right)
  | divide {quotient remainder : Int} (division : Word.IsDivision left right quotient remainder) :
      Exact left right .divide quotient
  | modulo {quotient remainder : Int} (division : Word.IsDivision left right quotient remainder) :
      Exact left right .modulo remainder

/-- What an arithmetic command does to signed 32-bit vectors. -/
def Command.vectorOperation? : Command → Option (BitVec 32 → BitVec 32 → BitVec 32)
  | .add => some (· + ·)
  | .subtract => some (· - ·)
  | .multiply => some (· * ·)
  | .divide => some BitVec.sdiv
  | .modulo => some BitVec.srem
  | _ => none

/-- Wherever the command is next on a stack with the two operands on top, the right one above the
left one, the step completes and puts the result in their place. -/
def Command.Yields (c : Command) (left right result : Int) : Prop :=
  ∀ (p : Program) (m : Machine) (i : Instruction) (rest : List Int),
    m.next p = .instruction i → i.Is c → m.stack = right :: left :: rest →
      m.step p =
        .completed { m.record i with stack := result :: rest, pointer := m.pointer + 1 }

variable {left right : Int} {c : Command}

namespace Word

/-! ## Division -/

theorem isDivision_tdiv (left : Int) (nonzero : right ≠ 0) :
    IsDivision left right (left.tdiv right) (left.tmod right) where
  split := (Int.mul_tdiv_add_tmod left right).symm
  rounded := Int.natAbs_tdiv left right
  below := by
    rw [Int.natAbs_tmod]
    exact Nat.mod_lt _ (Int.natAbs_pos.mpr nonzero)
  nonneg := Int.tmod_nonneg right
  nonpos := fun nonpos => by
    have opposite := Int.tmod_nonneg right (Int.neg_nonneg_of_nonpos nonpos)
    rw [Int.neg_tmod] at opposite
    exact Int.neg_nonneg.mp opposite

/-- A division has one quotient and one remainder. -/
theorem isDivision_iff {quotient remainder : Int} (nonzero : right ≠ 0) :
    IsDivision left right quotient remainder ↔
      quotient = left.tdiv right ∧ remainder = left.tmod right := by
  constructor
  · rintro ⟨split, -, below, nonneg, nonpos⟩
    have whole : remainder + right * quotient = left := (Int.add_comm ..).trans split.symm
    -- With the sign of the dividend given, a division leaves one quotient and one remainder.
    rcases Int.le_total 0 left with sign | sign
    · have nonneg := nonneg sign
      have unique := Int.tdiv_tmod_unique sign nonzero (q := quotient) (r := remainder)
      exact (unique.mpr ⟨whole, nonneg, by omega⟩).imp Eq.symm Eq.symm
    · have nonpos := nonpos sign
      have unique := Int.tdiv_tmod_unique' sign nonzero (q := quotient) (r := remainder)
      exact (unique.mpr ⟨whole, by omega, nonpos⟩).imp Eq.symm Eq.symm
  · rintro ⟨rfl, rfl⟩
    exact isDivision_tdiv left nonzero

/-! ## Reduction -/

theorem wrap_modEq (n : Int) : wrap n ≡ n [ZMOD 2 ^ 32] :=
  Int.bmod_emod

/-- The lowest 32 bits of a number are its word. -/
theorem narrow_eq_wrap (n : Int) : ((BitVec.ofInt 64 n).setWidth 32).toInt = wrap n := by
  have low : (BitVec.ofInt 64 n).setWidth 32 = BitVec.ofInt 32 n := by
    apply BitVec.eq_of_toNat_eq
    rw [BitVec.toNat_setWidth, BitVec.toNat_ofInt, BitVec.toNat_ofInt]
    omega
  rw [low, BitVec.toInt_ofInt]
  rfl

theorem toInt_ofInt {n : Int} (range : InRange n) : (BitVec.ofInt 32 n).toInt = n := by
  rw [BitVec.toInt_ofInt]
  exact wrap_eq_self range

/-- A remainder is less than its divisor, so it needs no reduction. -/
theorem modulo_eq (left : Int) (range : InRange right) (nonzero : right ≠ 0) :
    modulo left right = left.tmod right := by
  have below := (isDivision_tdiv left nonzero).below
  refine wrap_eq_self ?_
  simp only [InRange, minValue, maxValue] at range ⊢
  omega

end Word

/-! ## Commands -/

namespace Command

theorem family_of_operation? {operation : Int → Int → Int}
    (command : Machine.operation? c = some operation) : c.family = .arithmetic := by
  cases c <;> first | rfl | cases command

/-- An arithmetic command has one exact result on two operands, unless it divides by zero, and its
operation reduces that to a word. -/
theorem exists_exact {operation : Int → Int → Int} (command : Machine.operation? c = some operation)
    (defined : right = 0 → c ≠ .divide ∧ c ≠ .modulo) :
    ∃ exact, (∀ other, Exact left right c other ↔ other = exact) ∧
      operation left right = Word.wrap exact := by
  have only {exact : Int} (holds : Exact left right c exact)
      (unique : ∀ other, Exact left right c other → other = exact) (other : Int) :
      Exact left right c other ↔ other = exact :=
    ⟨unique other, fun same => same ▸ holds⟩
  cases c with
  | add | subtract | multiply =>
    cases command
    exact ⟨_, only (by constructor) (by rintro _ ⟨⟩; rfl), rfl⟩
  | divide =>
    cases command
    have nonzero : right ≠ 0 := fun zero => (defined zero).1 rfl
    refine ⟨_, only (.divide (Word.isDivision_tdiv left nonzero)) ?_, rfl⟩
    intro other exact
    cases exact with
    | divide division => exact ((Word.isDivision_iff nonzero).mp division).1
  | modulo =>
    cases command
    have nonzero : right ≠ 0 := fun zero => (defined zero).2 rfl
    refine ⟨_, only (.modulo (Word.isDivision_tdiv left nonzero)) ?_, rfl⟩
    intro other exact
    cases exact with
    | modulo division => exact ((Word.isDivision_iff nonzero).mp division).2
  | _ => cases command

/-- Exact results of words are signed 64-bit numbers. -/
theorem Exact.fits {exact : Int} (h : Exact left right c exact) (hl : Word.InRange left)
    (hr : Word.InRange right) : -2 ^ 63 ≤ exact ∧ exact < 2 ^ 63 := by
  simp only [Word.InRange, Word.minValue, Word.maxValue] at hl hr
  cases h with
  | add | subtract => omega
  | multiply =>
    have bound : (left * right).natAbs ≤ 2 ^ 31 * 2 ^ 31 := by
      rw [Int.natAbs_mul]
      exact Nat.mul_le_mul (by omega) (by omega)
    omega
  | divide division =>
    have bound : exact.natAbs ≤ left.natAbs := by
      rw [division.rounded]
      exact Nat.div_le_self ..
    omega
  | modulo division =>
    have below := division.below
    omega

/-- On words an arithmetic command does what it does on vectors. -/
theorem exists_operation {vectors : BitVec 32 → BitVec 32 → BitVec 32}
    (command : c.vectorOperation? = some vectors) (hl : Word.InRange left)
    (hr : Word.InRange right) (defined : right = 0 → c ≠ .divide ∧ c ≠ .modulo) :
    ∃ operation, Machine.operation? c = some operation ∧ operation left right =
      (vectors (BitVec.ofInt 32 left) (BitVec.ofInt 32 right)).toInt := by
  cases c with
  | add | subtract | multiply | divide =>
    cases command
    refine ⟨_, rfl, ?_⟩
    simp only [BitVec.toInt_add, BitVec.toInt_sub, BitVec.toInt_mul, BitVec.toInt_sdiv,
      Word.toInt_ofInt hl, Word.toInt_ofInt hr]
    rfl
  | modulo =>
    cases command
    refine ⟨_, rfl, ?_⟩
    rw [BitVec.toInt_srem, Word.toInt_ofInt hl, Word.toInt_ofInt hr]
    exact Word.modulo_eq left hr fun zero => (defined zero).2 rfl
  | _ => cases command

end Command

namespace Machine

/-- An arithmetic command leaves what its operation comes to. -/
theorem yields_operation {operation : Int → Int → Int} (command : operation? c = some operation)
    (defined : right = 0 → c ≠ .divide ∧ c ≠ .modulo) :
    c.Yields left right (operation left right) := by
  intro p m i rest next is stack
  obtain ⟨rfl, family⟩ := is
  have family : i.family = .arithmetic := family.trans (Command.family_of_operation? command)
  have nonzero : ¬(right = 0 ∧ (i.command = .divide ∨ i.command = .modulo)) := by
    rintro ⟨zero, division⟩
    exact division.elim (defined zero).1 (defined zero).2
  have rule : Executes (m.record i) i
      (.completed { m.record i with stack := operation left right :: rest }) :=
    .arithmetic family command stack nonzero
  exact step_of_completed next rule

/-- Arithmetic is that of signed 32-bit vectors. On two words an arithmetic command that does not
divide by zero has one exact result, which is a signed 64-bit number. The command leaves the word
that is congruent to it, which is what its lowest 32 bits are, and what the same operation comes to
on vectors. The quotient and the remainder that a division leaves make up the dividend again, modulo
`2 ^ 32`, and the remainder is less than the divisor and has the sign of the dividend. -/
theorem arithmetic_wraps (hl : Word.InRange left) (hr : Word.InRange right) :
    (∀ c vectors, c.vectorOperation? = some vectors →
      (right = 0 → c ≠ .divide ∧ c ≠ .modulo) →
        ∃ exact result, (∀ other, Command.Exact left right c other ↔ other = exact) ∧
          (-2 ^ 63 ≤ exact ∧ exact < 2 ^ 63) ∧ c.Yields left right result ∧
          Word.InRange result ∧ result ≡ exact [ZMOD 2 ^ 32] ∧
          result = ((BitVec.ofInt 64 exact).setWidth 32).toInt ∧
          result = (vectors (BitVec.ofInt 32 left) (BitVec.ofInt 32 right)).toInt) ∧
    (right ≠ 0 → ∃ quotient remainder, Command.divide.Yields left right quotient ∧
      Command.modulo.Yields left right remainder ∧
        left ≡ right * quotient + remainder [ZMOD 2 ^ 32] ∧ remainder.natAbs < right.natAbs ∧
        (0 ≤ left → 0 ≤ remainder) ∧ (left ≤ 0 → remainder ≤ 0)) := by
  constructor
  · intro c vectors command defined
    obtain ⟨operation, command, agrees⟩ := Command.exists_operation command hl hr defined
    obtain ⟨exact, only, reduced⟩ :
        ∃ exact, (∀ other, Command.Exact left right c other ↔ other = exact) ∧
          operation left right = Word.wrap exact := Command.exists_exact command defined
    have fits := ((only exact).mpr rfl).fits hl hr
    refine ⟨exact, operation left right, only, fits, yields_operation command defined, ?_⟩
    rw [Word.narrow_eq_wrap, ← agrees, reduced]
    exact ⟨Word.wrap_inRange exact, Word.wrap_modEq exact, rfl, rfl⟩
  · intro nonzero
    have defined {c : Command} : right = 0 → c ≠ .divide ∧ c ≠ .modulo := fun h => absurd h nonzero
    obtain ⟨split, -, below, nonneg, nonpos⟩ := Word.isDivision_tdiv left nonzero
    refine ⟨Word.divide left right, Word.modulo left right, yields_operation rfl defined,
      yields_operation rfl defined, ?_⟩
    rw [Word.modulo_eq left hr nonzero]
    refine ⟨?_, below, nonneg, nonpos⟩
    calc left = right * left.tdiv right + left.tmod right := split
      _ ≡ right * Word.divide left right + left.tmod right [ZMOD 2 ^ 32] :=
        ((Word.wrap_modEq _).symm.mul_left right).add_right _

/-- The least word divided by minus one leaves the range, and comes back as itself. -/
theorem least_divided_by_minus_one :
    ((start 0 false (.ofText "")).push Word.minValue |>.push (-1)).step
        (.ofList [⟨.arithmetic, .divide, none, none⟩]) =
      .completed
        { start 0 false (.ofText "") with
          stack := [Word.minValue]
          pointer := 1
          executed := 1
          last := some ⟨.arithmetic, .divide, none, none⟩
          log := [⟨0, 0, ⟨.arithmetic, .divide, none, none⟩⟩] } := by
  have range : Word.InRange Word.minValue ∧ Word.InRange (-1) := by decide
  obtain ⟨exact, result, -, -, yields, -, -, -, agrees⟩ :=
    (arithmetic_wraps range.1 range.2).1 .divide BitVec.sdiv rfl nofun
  have least : result = Word.minValue := agrees.trans (by decide)
  subst least
  exact yields _ _ _ [] rfl ⟨rfl, rfl⟩ rfl

end Machine

end Whitespace
