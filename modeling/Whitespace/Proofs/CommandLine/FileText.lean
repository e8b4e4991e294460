import Mathlib.Data.List.Basic
import Whitespace.CommandLine.Run

/-!
# The text of a file

A file that holds a text in UTF-8 is read as that text, with its line breaks unified. In the
mnemonic encoding this changes no token. Where space, tab and line feed are the tokens, a carriage
return that no line feed follows becomes a token that it was not before; any other carriage return
is a comment either way.

Results:
1. `Utf8.decode_flatMap_utf8EncodeChar`, `CommandLine.fileText_toUTF8`: what is read of a file that
   holds a text.
2. `Text.kinds_unifyBreaks`: the tokens of a text before and after its line breaks are unified.
3. `Text.count_lt_count_unifyBreaks`: a lone carriage return adds a line feed.
-/

namespace Whitespace

/-! ## UTF-8 -/

namespace Utf8

theorem isContinuation_of_toNat {b : UInt8} (h : 0x80 ≤ b.toNat ∧ b.toNat ≤ 0xBF) :
    isContinuation b = true := by
  simp only [isContinuation, Bool.and_eq_true, decide_eq_true_eq, UInt8.le_iff_toNat_le]
  exact h

/-- A byte that continues a sequence may come second, unless the sequence would be overlong, half of
a surrogate pair, or beyond the last character. -/
theorem isSecond_of_toNat {a b : UInt8} (range : 0x80 ≤ b.toNat ∧ b.toNat ≤ 0xBF)
    (overlong : a.toNat = 0xE0 → 0xA0 ≤ b.toNat) (surrogate : a.toNat = 0xED → b.toNat ≤ 0x9F)
    (overlong' : a.toNat = 0xF0 → 0x90 ≤ b.toNat) (beyond : a.toNat = 0xF4 → b.toNat ≤ 0x8F) :
    isSecond a b = true := by
  simp only [isSecond, secondRange, Bool.and_eq_true, decide_eq_true_eq, UInt8.le_iff_toNat_le]
  split
  · next h => exact ⟨overlong (by rw [h]; rfl), range.2⟩
  split
  · next h => exact ⟨range.1, surrogate (by rw [h]; rfl)⟩
  split
  · next h => exact ⟨overlong' (by rw [h]; rfl), range.2⟩
  split
  · next h => exact ⟨range.1, beyond (by rw [h]; rfl)⟩
  · exact range

section

variable {a b c d : UInt8} (position : Nat) (bytes : List UInt8)

theorem decodeFrom_one (h : a.toNat < 0x80) :
    decodeFrom position (a :: bytes) =
      (decodeFrom (position + 1) bytes).map (Char.ofNat a.toNat :: ·) := by
  rw [decodeFrom.eq_def]
  simp only [if_pos (show a < 0x80 from UInt8.lt_iff_toNat_lt.mpr h)]

/-- A byte that starts a sequence of several. -/
theorem not_refused (h : 0xC2 ≤ a.toNat ∧ a.toNat ≤ 0xF4) :
    ¬a < 0x80 ∧ ¬(a < 0xC2 ∨ 0xF4 < a) := by
  simp only [UInt8.lt_iff_toNat_lt]
  show ¬a.toNat < 128 ∧ ¬(a.toNat < 194 ∨ 244 < a.toNat)
  omega

theorem decodeFrom_two (ha : 0xC2 ≤ a.toNat ∧ a.toNat < 0xE0) (hb : isSecond a b = true) :
    decodeFrom position (a :: b :: bytes) =
      (decodeFrom (position + 2) bytes).map
        (Char.ofNat (a.toNat % 0x20 * 0x40 + payload b) :: ·) := by
  obtain ⟨hmany, hstart⟩ := not_refused (a := a) (by omega)
  rw [decodeFrom.eq_def]
  simp only [if_neg hmany, if_neg hstart, hb, Bool.not_true, Bool.false_eq_true, ↓reduceIte,
    if_pos (show a < 0xE0 from UInt8.lt_iff_toNat_lt.mpr ha.2)]

theorem decodeFrom_three (ha : 0xE0 ≤ a.toNat ∧ a.toNat < 0xF0) (hb : isSecond a b = true)
    (hc : isContinuation c = true) :
    decodeFrom position (a :: b :: c :: bytes) =
      (decodeFrom (position + 3) bytes).map
        (Char.ofNat (a.toNat % 0x10 * 0x1000 + payload b * 0x40 + payload c) :: ·) := by
  obtain ⟨hmany, hstart⟩ := not_refused (a := a) (by omega)
  have hnot : ¬a < 0xE0 := fun h => absurd (UInt8.lt_iff_toNat_lt.mp h) (Nat.not_lt.mpr ha.1)
  rw [decodeFrom.eq_def]
  simp only [if_neg hmany, if_neg hstart, hb, hc, Bool.not_true, Bool.false_eq_true, ↓reduceIte,
    if_neg hnot, if_pos (show a < 0xF0 from UInt8.lt_iff_toNat_lt.mpr ha.2)]

theorem decodeFrom_four (ha : 0xF0 ≤ a.toNat ∧ a.toNat ≤ 0xF4) (hb : isSecond a b = true)
    (hc : isContinuation c = true) (hd : isContinuation d = true) :
    decodeFrom position (a :: b :: c :: d :: bytes) =
      (decodeFrom (position + 4) bytes).map
        (Char.ofNat (a.toNat % 0x08 * 0x40000 + payload b * 0x1000 + payload c * 0x40 +
          payload d) :: ·) := by
  obtain ⟨hmany, hstart⟩ := not_refused (a := a) (by omega)
  have hnot (limit : UInt8) (hl : limit.toNat ≤ 0xF0) : ¬a < limit := fun h =>
    absurd (UInt8.lt_iff_toNat_lt.mp h) (Nat.not_lt.mpr (Nat.le_trans hl ha.1))
  rw [decodeFrom.eq_def]
  simp only [if_neg hmany, if_neg hstart, hb, hc, hd, Bool.not_true, Bool.false_eq_true,
    ↓reduceIte, if_neg (hnot 0xE0 (by decide)), if_neg (hnot 0xF0 (by decide))]

end

/-- The bytes of a character are decoded to it. -/
theorem decodeFrom_utf8EncodeChar (position : Nat) (c : Char) (bytes : List UInt8) :
    ∃ position', decodeFrom position (String.utf8EncodeChar c ++ bytes) =
      (decodeFrom position' bytes).map (c :: ·) := by
  have hvalid : c.toNat < 0xD800 ∨ 0xDFFF < c.toNat ∧ c.toNat < 0x110000 := c.valid
  have hbyte {n : Nat} (h : n < 256) : (UInt8.ofNat n).toNat = n := UInt8.toNat_ofNat_of_lt' h
  have hval : c.val.toNat = c.toNat := rfl
  -- One case for each number of bytes. In each the bytes are in their ranges, and the bits that
  -- they add make up the code of the character.
  unfold String.utf8EncodeChar
  simp only [hval]
  generalize hv : c.toNat = v at hvalid
  have hc : Char.ofNat v = c := by rw [← hv, Char.ofNat_toNat]
  split
  · next h₁ =>
    refine ⟨position + 1, ?_⟩
    rw [List.singleton_append, decodeFrom_one _ _ (by rw [hbyte] <;> omega), hbyte (by omega), hc]
  split
  · next h₁ h₂ =>
    have ha : (UInt8.ofNat (v / 64 % 32 + 192)).toNat = v / 64 % 32 + 192 := hbyte (by omega)
    have hb : (UInt8.ofNat (v % 64 + 128)).toNat = v % 64 + 128 := hbyte (by omega)
    have hsecond : isSecond (UInt8.ofNat (v / 64 % 32 + 192)) (UInt8.ofNat (v % 64 + 128)) = true :=
      isSecond_of_toNat (by omega) (by omega) (by omega) (by omega) (by omega)
    have hcode : (v / 64 % 32 + 192) % 32 * 64 + (v % 64 + 128) % 64 = v := by omega
    refine ⟨position + 2, ?_⟩
    simp only [List.cons_append, List.nil_append]
    rw [decodeFrom_two _ _ (by omega) hsecond, payload, ha, hb, hcode, hc]
  split
  · next h₁ h₂ h₃ =>
    have ha : (UInt8.ofNat (v / 4096 % 16 + 224)).toNat = v / 4096 % 16 + 224 := hbyte (by omega)
    have hb : (UInt8.ofNat (v / 64 % 64 + 128)).toNat = v / 64 % 64 + 128 := hbyte (by omega)
    have hd : (UInt8.ofNat (v % 64 + 128)).toNat = v % 64 + 128 := hbyte (by omega)
    have hsecond :
        isSecond (UInt8.ofNat (v / 4096 % 16 + 224)) (UInt8.ofNat (v / 64 % 64 + 128)) = true :=
      isSecond_of_toNat (by omega) (by omega) (by omega) (by omega) (by omega)
    have hcode : (v / 4096 % 16 + 224) % 16 * 4096 + (v / 64 % 64 + 128) % 64 * 64 +
        (v % 64 + 128) % 64 = v := by omega
    refine ⟨position + 3, ?_⟩
    simp only [List.cons_append, List.nil_append]
    rw [decodeFrom_three _ _ (by omega) hsecond (isContinuation_of_toNat (by omega)), payload,
      payload, ha, hb, hd, hcode, hc]
  · next h₁ h₂ h₃ =>
    have ha : (UInt8.ofNat (v / 262144 % 8 + 240)).toNat = v / 262144 % 8 + 240 := hbyte (by omega)
    have hb : (UInt8.ofNat (v / 4096 % 64 + 128)).toNat = v / 4096 % 64 + 128 := hbyte (by omega)
    have hd : (UInt8.ofNat (v / 64 % 64 + 128)).toNat = v / 64 % 64 + 128 := hbyte (by omega)
    have he : (UInt8.ofNat (v % 64 + 128)).toNat = v % 64 + 128 := hbyte (by omega)
    have hsecond :
        isSecond (UInt8.ofNat (v / 262144 % 8 + 240)) (UInt8.ofNat (v / 4096 % 64 + 128)) = true :=
      isSecond_of_toNat (by omega) (by omega) (by omega) (by omega) (by omega)
    have hcode : (v / 262144 % 8 + 240) % 8 * 262144 + (v / 4096 % 64 + 128) % 64 * 4096 +
        (v / 64 % 64 + 128) % 64 * 64 + (v % 64 + 128) % 64 = v := by omega
    refine ⟨position + 4, ?_⟩
    simp only [List.cons_append, List.nil_append]
    rw [decodeFrom_four _ _ (by omega) hsecond (isContinuation_of_toNat (by omega))
      (isContinuation_of_toNat (by omega)), payload, payload, payload, ha, hb, hd, he, hcode, hc]

/-- The bytes of characters are decoded to them. -/
theorem decode_flatMap_utf8EncodeChar (cs : List Char) :
    decode (cs.flatMap String.utf8EncodeChar) = .ok cs := by
  suffices h : ∀ position, decodeFrom position (cs.flatMap String.utf8EncodeChar) = .ok cs from h 0
  induction cs with
  | nil => exact fun _ => rfl
  | cons c cs ih =>
    intro position
    obtain ⟨position', h⟩ :=
      decodeFrom_utf8EncodeChar position c (cs.flatMap String.utf8EncodeChar)
    rw [List.flatMap_cons, h, ih]
    rfl

end Utf8

/-! ## Line breaks -/

theorem Encoding.kind?_return (e : Encoding) : e.kind? '\r' = none := by
  cases e <;> rfl

namespace Text

/-- A carriage return that no line feed follows is among the characters. -/
def HasLoneReturn (cs : List Char) : Prop :=
  ∃ before after, cs = before ++ '\r' :: after ∧ after.head? ≠ some '\n'

theorem hasLoneReturn_cons_iff {c : Char} {cs : List Char} :
    HasLoneReturn (c :: cs) ↔ c = '\r' ∧ cs.head? ≠ some '\n' ∨ HasLoneReturn cs := by
  constructor
  · rintro ⟨before, after, heq, hlone⟩
    rcases List.cons_eq_append_iff.mp heq with ⟨-, h⟩ | ⟨before', -, h⟩
    · cases h
      exact .inl ⟨rfl, hlone⟩
    · exact .inr ⟨before', after, h, hlone⟩
  · rintro (⟨rfl, hlone⟩ | ⟨before, after, rfl, hlone⟩)
    · exact ⟨[], cs, rfl, hlone⟩
    · exact ⟨c :: before, after, rfl, hlone⟩

/-- Unifying line breaks changes no token, unless line feeds are tokens and a carriage return stands
alone. -/
theorem kinds_unifyBreaks {e : Encoding} {cs : List Char} (h : e = .stl ∨ ¬HasLoneReturn cs) :
    (unifyBreaks cs).filterMap e.kind? = cs.filterMap e.kind? := by
  have htail {c : Char} {cs : List Char} (h : e = .stl ∨ ¬HasLoneReturn (c :: cs)) :
      e = .stl ∨ ¬HasLoneReturn cs :=
    h.imp_right (mt fun hc => hasLoneReturn_cons_iff.mpr (.inr hc))
  fun_induction unifyBreaks cs with
  | case1 => rfl
  | case2 cs ih =>
    rw [List.filterMap_cons_none e.kind?_return, List.filterMap_cons, List.filterMap_cons,
      ih (htail (htail h))]
  | case3 cs hne ih =>
    have hhead : cs.head? ≠ some '\n' := by
      intro hc
      obtain ⟨rest, rfl⟩ := List.head?_eq_some_iff.mp hc
      exact hne rest rfl
    -- The line feed that stands for a lone carriage return is a comment, like that.
    rcases h with rfl | h
    · rw [List.filterMap_cons_none rfl, List.filterMap_cons_none rfl, ih (.inl rfl)]
    · exact absurd (hasLoneReturn_cons_iff.mpr (.inl ⟨rfl, hhead⟩)) h
  | case4 c cs _ _ ih => rw [List.filterMap_cons, List.filterMap_cons, ih (htail h)]

theorem count_le_count_unifyBreaks (cs : List Char) :
    cs.count '\n' ≤ (unifyBreaks cs).count '\n' := by
  fun_induction unifyBreaks cs with
  | case1 => exact Nat.le_refl _
  | case2 cs ih => simpa using ih
  | case3 cs _ ih =>
    rw [List.count_cons_of_ne (by decide), List.count_cons_self]
    exact Nat.le_succ_of_le ih
  | case4 c cs _ _ ih =>
    rw [List.count_cons, List.count_cons]
    exact Nat.add_le_add_right ih _

/-- A lone carriage return adds a line feed. -/
theorem count_lt_count_unifyBreaks {cs : List Char} (h : HasLoneReturn cs) :
    cs.count '\n' < (unifyBreaks cs).count '\n' := by
  fun_induction unifyBreaks cs with
  | case1 =>
    obtain ⟨before, after, heq, -⟩ := h
    cases before <;> cases heq
  | case2 cs ih =>
    have hcs : HasLoneReturn cs := by
      simpa [hasLoneReturn_cons_iff] using h
    simpa using ih hcs
  | case3 cs _ ih =>
    rw [List.count_cons_of_ne (by decide), List.count_cons_self]
    exact Nat.lt_succ_of_le (count_le_count_unifyBreaks cs)
  | case4 c cs _ hne ih =>
    have hcs : HasLoneReturn cs := by
      rcases hasLoneReturn_cons_iff.mp h with ⟨rfl, -⟩ | hcs
      · exact (hne rfl).elim
      · exact hcs
    rw [List.count_cons, List.count_cons]
    exact Nat.add_lt_add_right (ih hcs) _

end Text

/-! ## Files -/

/-- What is read of a file that holds a text in UTF-8. -/
theorem CommandLine.fileText_toUTF8 (text : String) :
    fileText text.toUTF8.data.toList = .ok (String.ofList (Text.unifyBreaks text.toList)) := by
  have hbytes : text.toUTF8.data.toList = text.toList.flatMap String.utf8EncodeChar := by
    rw [String.toUTF8_eq_toByteArray, ← String.utf8Encode_toList, List.utf8Encode,
      List.toList_data_toByteArray]
  rw [fileText, hbytes, Utf8.decode_flatMap_utf8EncodeChar]
  rfl

end Whitespace
