import Mathlib.Data.List.DropRight
import Mathlib.Data.Nat.Digits.Lemmas
import Whitespace.Proofs.Machine.Endings
import Whitespace.Proofs.Machine.Input

/-!
# Decimal numerals

A line that denotes a number is a numeral between blanks: an optional sign and one or more ASCII
digits, the most significant first, with any number of leading zeros. The text of a number is such a
numeral too.

Results:
1. `Text.trims_iff`: trimming takes the blanks off both ends, and nothing else.
2. `Decimal.denotes_iff`: reading accepts the numerals, and finds the number that they denote.
3. `Decimal.lineDenotes_iff`: the same for lines, which are trimmed first.
4. `Decimal.denotes_ofInt`: the text of a number denotes it.
-/

namespace Whitespace

/-! ## Trimming -/

namespace Text

/-- `Trims cs core`: the text is the core between blanks, and the core neither starts nor ends with
a blank. -/
structure Trims (cs core : List Char) : Prop where
  between : ∃ before after, cs = before ++ core ++ after ∧
    (∀ c ∈ before, isBlank c = true) ∧ ∀ c ∈ after, isBlank c = true
  first : ∀ nonempty : core ≠ [], isBlank (core.head nonempty) = false
  last : ∀ nonempty : core ≠ [], isBlank (core.getLast nonempty) = false

variable {cs core : List Char}

theorem trim_eq_rdropWhile (cs : List Char) :
    trim cs = (cs.dropWhile isBlank).rdropWhile isBlank :=
  rfl

theorem trims_trim (cs : List Char) : Trims cs (trim cs) where
  between := by
    refine ⟨cs.takeWhile isBlank, (cs.dropWhile isBlank).rtakeWhile isBlank, ?_, ?_, ?_⟩
    · rw [trim_eq_rdropWhile, List.append_assoc, List.rdropWhile_append_rtakeWhile,
        List.takeWhile_append_dropWhile]
    · exact fun c => List.mem_takeWhile_imp
    · exact fun c => List.mem_rtakeWhile_imp
  first := by
    intro nonempty
    have start : trim cs <+: cs.dropWhile isBlank := List.rdropWhile_prefix ..
    rw [start.head nonempty]
    exact List.head_dropWhile_not isBlank (start.ne_nil nonempty)
  last := by
    intro nonempty
    rw [← Bool.not_eq_true]
    exact List.rdropWhile_last_not isBlank (cs.dropWhile isBlank) nonempty

theorem rdropWhile_append_of_blank {after : List Char} (blank : ∀ c ∈ after, isBlank c = true)
    (cs : List Char) : (cs ++ after).rdropWhile isBlank = cs.rdropWhile isBlank := by
  have reversed : ∀ c ∈ after.reverse, isBlank c = true :=
    fun c hc => blank c (List.mem_reverse.mp hc)
  rw [List.rdropWhile, List.reverse_append, List.dropWhile_append_of_pos reversed,
    List.rdropWhile]

theorem Trims.eq (h : Trims cs core) : trim cs = core := by
  obtain ⟨⟨before, after, rfl, blank, blank'⟩, first, last⟩ := h
  have stays : core.rdropWhile isBlank = core :=
    List.rdropWhile_eq_self_iff.mpr fun nonempty => by simp [last nonempty]
  rw [trim_eq_rdropWhile, List.append_assoc, List.dropWhile_append_of_pos blank]
  -- An empty core has no character to stop at, and all blanks are dropped from the front.
  cases core with
  | nil => rw [List.nil_append, List.dropWhile_eq_nil_iff.mpr blank', List.rdropWhile_nil]
  | cons c core =>
    have start : ¬isBlank c = true := by simpa using first (List.cons_ne_nil c core)
    rw [List.cons_append, List.dropWhile_cons_of_neg start, ← List.cons_append,
      rdropWhile_append_of_blank blank', stays]

theorem trims_iff : Trims cs core ↔ trim cs = core := by
  constructor
  · exact Trims.eq
  · rintro rfl
    exact trims_trim cs

end Text

/-! ## Numerals -/

namespace Decimal

/-- The number that digits denote, the most significant first. -/
def magnitude (digits : List (Fin 10)) : Nat :=
  Nat.ofDigits 10 (digits.reverse.map Fin.val)

def written (digits : List (Fin 10)) : List Char :=
  digits.map fun digit : Fin 10 => Nat.digitChar digit

/-- `Denotes cs n`: the text is an optional sign and some ASCII digits, and stands for `n`. -/
inductive Denotes : List Char → Int → Prop
  | unsigned {digits : List (Fin 10)} (nonempty : digits ≠ []) :
      Denotes (written digits) (magnitude digits)
  | positive {digits : List (Fin 10)} (nonempty : digits ≠ []) :
      Denotes ('+' :: written digits) (magnitude digits)
  | negative {digits : List (Fin 10)} (nonempty : digits ≠ []) :
      Denotes ('-' :: written digits) (-magnitude digits)

/-- The line, trimmed, is a numeral for `n`. -/
def LineDenotes (line : String) (n : Int) : Prop :=
  ∃ core, Text.Trims line.toList core ∧ Denotes core n

variable {cs : List Char} {n : Int} {digits : List (Fin 10)}

theorem written_ne_nil (nonempty : digits ≠ []) : written digits ≠ [] :=
  fun empty => nonempty (List.map_eq_nil_iff.mp empty)

theorem isDigit_of_mem_written {c : Char} (h : c ∈ written digits) : c.isDigit = true := by
  obtain ⟨digit, -, rfl⟩ := List.mem_map.mp h
  rw [Nat.isDigit_digitChar]
  exact decide_eq_true digit.isLt

theorem exists_digit {c : Char} (h : c.isDigit = true) :
    ∃ digit : Fin 10, Nat.digitChar digit = c := by
  have bounds := Char.isDigit_iff_toNat.mp h
  have lower : 48 ≤ c.toNat := bounds.1
  have upper : c.toNat ≤ 57 := bounds.2
  have small : c.toNat - 48 < 10 := by omega
  refine ⟨⟨c.toNat - 48, small⟩, Char.toNat_inj.mp ?_⟩
  rw [Nat.toNat_digitChar_of_lt_ten small]
  omega

/-- Texts of digits are what digits are written as. -/
theorem exists_written (h : ∀ c ∈ cs, c.isDigit = true) : ∃ digits, written digits = cs := by
  induction cs with
  | nil => exact ⟨[], rfl⟩
  | cons c cs ih =>
    obtain ⟨first, others⟩ := List.forall_mem_cons.mp h
    obtain ⟨digit, rfl⟩ := exists_digit first
    obtain ⟨digits, rfl⟩ := ih others
    exact ⟨digit :: digits, rfl⟩

theorem ofDigitChars_written (digits : List (Fin 10)) :
    Nat.ofDigitChars 10 (written digits) 0 = magnitude digits := by
  -- Digits are read from the front, and the least significant one is the last.
  induction digits with
  | nil => rfl
  | cons digit digits ih =>
    have cons : written (digit :: digits) = Nat.digitChar digit :: written digits := rfl
    rw [cons, Nat.ofDigitChars_cons_digitChar_of_lt_ten digit.isLt,
      Nat.ofDigitChars_eq_ofDigitChars_zero, ih, magnitude, magnitude, List.reverse_cons,
      List.map_append, Nat.ofDigits_append]
    simp only [written, List.length_map, List.length_reverse, List.map_cons, List.map_nil,
      Nat.ofDigits_singleton, Nat.mul_zero, Nat.zero_add]
    exact Nat.add_comm ..

namespace Numeral

theorem value_written (negative : Bool) (digits : List (Fin 10)) :
    value ⟨negative, written digits⟩ =
      if negative then -(magnitude digits : Int) else (magnitude digits : Int) := by
  rw [value, ofDigitChars_written]

theorem ofDigits?_eq_some_iff {negative : Bool} {numeral : Numeral} :
    ofDigits? negative cs = some numeral ↔
      ∃ digits, digits ≠ [] ∧ cs = written digits ∧ numeral = ⟨negative, written digits⟩ := by
  constructor
  · intro h
    unfold ofDigits? at h
    split at h
    · next accepted =>
      cases h
      obtain ⟨digits, rfl⟩ := exists_written (List.all_eq_true.mp accepted.2)
      exact ⟨digits, fun empty => accepted.1 (congrArg written empty), rfl, rfl⟩
    · cases h
  · rintro ⟨digits, nonempty, rfl, rfl⟩
    exact if_pos ⟨written_ne_nil nonempty, List.all_eq_true.mpr fun _ => isDigit_of_mem_written⟩

end Numeral

/-- Reading accepts the numerals, and finds the number that they denote. -/
theorem denotes_iff :
    Denotes cs n ↔ ∃ numeral, Numeral.ofChars? cs = some numeral ∧ numeral.value = n := by
  constructor
  · intro h
    cases h with
    | unsigned nonempty =>
      have read := Numeral.ofChars?_of_isDigit (written_ne_nil nonempty) fun _ =>
        isDigit_of_mem_written
      exact ⟨_, read, Numeral.value_written false _⟩
    | positive nonempty =>
      exact ⟨_, Numeral.ofDigits?_eq_some_iff.mpr ⟨_, nonempty, rfl, rfl⟩,
        Numeral.value_written false _⟩
    | negative nonempty =>
      exact ⟨_, Numeral.ofDigits?_eq_some_iff.mpr ⟨_, nonempty, rfl, rfl⟩,
        Numeral.value_written true _⟩
  · rintro ⟨numeral, read, rfl⟩
    unfold Numeral.ofChars? at read
    split at read
    all_goals
      obtain ⟨digits, nonempty, rfl, rfl⟩ := Numeral.ofDigits?_eq_some_iff.mp read
      rw [Numeral.value_written]
    · exact .positive nonempty
    · exact .negative nonempty
    · exact .unsigned nonempty

/-- A text denotes one number. -/
theorem Denotes.unique {other : Int} (h : Denotes cs n) (h' : Denotes cs other) : n = other := by
  obtain ⟨numeral, read, rfl⟩ := denotes_iff.mp h
  obtain ⟨numeral', read', rfl⟩ := denotes_iff.mp h'
  cases read.symm.trans read'
  rfl

/-- No character of a numeral is a blank. -/
theorem Denotes.not_isBlank {c : Char} (h : Denotes cs n) (hc : c ∈ cs) :
    Text.isBlank c = false := by
  cases h with
  | unsigned => exact Text.isBlank_of_isDigit (isDigit_of_mem_written hc)
  | positive | negative =>
    rcases List.mem_cons.mp hc with rfl | hc
    · rfl
    · exact Text.isBlank_of_isDigit (isDigit_of_mem_written hc)

/-- A numeral between blanks is what trimming leaves. -/
theorem Denotes.trims (h : Denotes cs n) {before after : List Char}
    (blank : ∀ c ∈ before, Text.isBlank c = true) (blank' : ∀ c ∈ after, Text.isBlank c = true) :
    Text.Trims (before ++ cs ++ after) cs where
  between := ⟨before, after, rfl, blank, blank'⟩
  first := fun nonempty => h.not_isBlank (List.head_mem nonempty)
  last := fun nonempty => h.not_isBlank (List.getLast_mem nonempty)

/-! ## Lines -/

theorem lineDenotes_iff {line : String} :
    LineDenotes line n ↔
      ∃ numeral, Numeral.ofChars? (Text.trim line.toList) = some numeral ∧ numeral.value = n := by
  rw [← denotes_iff, LineDenotes]
  constructor
  · rintro ⟨core, trims, denotes⟩
    rwa [trims.eq]
  · exact fun denotes => ⟨_, Text.trims_trim _, denotes⟩

theorem LineDenotes.unique {line : String} {other : Int} (h : LineDenotes line n)
    (h' : LineDenotes line other) : n = other := by
  obtain ⟨core, trims, denotes⟩ := h
  obtain ⟨core', trims', denotes'⟩ := h'
  obtain rfl := trims.eq.symm.trans trims'.eq
  exact denotes.unique denotes'

/-- A line is not overlong if trimming leaves few characters of it. -/
theorem not_isOverlong_of_trims {line : String} {core : List Char}
    (trims : Text.Trims line.toList core) (short : core.length ≤ digitLimit) (count : Nat) :
    ¬IsOverlong line count := by
  rintro ⟨long, numeral, read, rfl⟩
  rw [trims.eq] at read
  have within := (Numeral.digits_of_ofChars? read).1.length_le
  omega

/-! ## Texts of numbers -/

theorem toList_ofNat (n : Nat) : (ofNat n).toList = Nat.toDigits 10 n :=
  String.toList_ofList

theorem toList_negSucc (n : Nat) :
    (ofInt (.negSucc n)).toList = '-' :: Nat.toDigits 10 (n + 1) := by
  rw [ofInt, String.toList_append, toList_ofNat]
  rfl

theorem exists_written_toDigits (n : Nat) :
    ∃ digits, digits ≠ [] ∧ Nat.toDigits 10 n = written digits ∧ n = magnitude digits := by
  have all : ∀ c ∈ Nat.toDigits 10 n, c.isDigit = true :=
    fun c => Nat.isDigit_of_mem_toDigits (by decide) (by decide)
  obtain ⟨digits, same⟩ := exists_written all
  refine ⟨digits, ?_, same.symm, ?_⟩
  · rintro rfl
    exact Nat.toDigits_ne_nil same.symm
  · rw [← ofDigitChars_written, same, Nat.ofDigitChars_ten_toDigits]

/-- The text of a number denotes it. -/
theorem denotes_ofInt (n : Int) : Denotes (ofInt n).toList n := by
  cases n with
  | ofNat n =>
    obtain ⟨digits, nonempty, text, value⟩ := exists_written_toDigits n
    rw [ofInt, toList_ofNat, text, value]
    exact .unsigned nonempty
  | negSucc n =>
    obtain ⟨digits, nonempty, text, value⟩ := exists_written_toDigits (n + 1)
    rw [toList_negSucc, text, Int.negSucc_eq, ← Int.natCast_add_one, value]
    exact .negative nonempty

/-- The text of a word is a sign and ten digits, at most. -/
theorem length_ofInt_le (range : Word.InRange n) : (ofInt n).toList.length ≤ 11 := by
  simp only [Word.InRange, Word.minValue, Word.maxValue] at range
  cases n with
  | ofNat n =>
    rw [Int.ofNat_eq_natCast] at range
    have digits := Nat.toDigits_length 10 n 10 (by decide) (by omega)
    rw [ofInt, toList_ofNat]
    omega
  | negSucc n =>
    have digits := Nat.toDigits_length 10 (n + 1) 10 (by decide) (by omega)
    rw [toList_negSucc, List.length_cons]
    omega

end Decimal

end Whitespace
