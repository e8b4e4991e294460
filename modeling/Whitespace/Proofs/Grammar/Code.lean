import Whitespace.Instruction.Decode

/-!
# Following code tables

A code is followed token by token: at each token, either the tokens read so far are a code of the
table, or some code goes on that way. That this finds a code exactly where one stands needs the
table to be prefix-free. The tables of the families and of the commands of each family are.

Results:
1. `matchCode_found_iff`: following a prefix-free table yields a value exactly if the tokens start
   with a code of that value.
2. `matchFamily_iff`, `matchCommand_iff`: the same for the two kinds of table of an instruction.
-/

namespace Whitespace

/-- The tokens start with tokens of the given kinds, after which `rest` follows. -/
def StartsWith (tokens : List Token) (kinds : List TokenKind) (rest : List Token) : Prop :=
  ∃ used, tokens = used ++ rest ∧ used.map Token.kind = kinds

/-- No code of a table is the beginning of another one, and none is empty. -/
structure PrefixFree {α : Type} (table : List (Code × α)) : Prop where
  eq_of_prefix : ∀ a ∈ table, ∀ b ∈ table, a.1 <+: b.1 → a = b
  ne_nil : ∀ a ∈ table, a.1 ≠ []

/-! ## Beginnings of token lists -/

theorem StartsWith.nil_iff {tokens rest : List Token} :
    StartsWith tokens [] rest ↔ tokens = rest := by
  constructor
  · rintro ⟨used, rfl, h⟩
    rw [List.map_eq_nil_iff.mp h, List.nil_append]
  · rintro rfl
    exact ⟨[], rfl, rfl⟩

theorem StartsWith.cons_iff {tokens rest : List Token} {k : TokenKind} {kinds : List TokenKind} :
    StartsWith tokens (k :: kinds) rest ↔
      ∃ t more, tokens = t :: more ∧ t.kind = k ∧ StartsWith more kinds rest := by
  constructor
  · rintro ⟨used, rfl, h⟩
    obtain ⟨t, more, rfl, hk, hm⟩ := List.map_eq_cons_iff.mp h
    exact ⟨t, more ++ rest, rfl, hk, more, rfl, hm⟩
  · rintro ⟨t, more, rfl, hk, used, rfl, hu⟩
    exact ⟨t :: used, rfl, by rw [List.map_cons, hk, hu]⟩

theorem StartsWith.append_iff {tokens rest : List Token} {a b : List TokenKind} :
    StartsWith tokens (a ++ b) rest ↔ ∃ mid, StartsWith tokens a mid ∧ StartsWith mid b rest := by
  constructor
  · rintro ⟨used, rfl, h⟩
    obtain ⟨first, second, rfl, hf, hs⟩ := List.map_eq_append_iff.mp h
    exact ⟨second ++ rest, ⟨first, List.append_assoc .., hf⟩, second, rfl, hs⟩
  · rintro ⟨_, ⟨first, rfl, hf⟩, second, rfl, hs⟩
    exact ⟨first ++ second, (List.append_assoc ..).symm, by rw [List.map_append, hf, hs]⟩

theorem StartsWith.exists_cons {tokens rest : List Token} {kinds : List TokenKind}
    (h : StartsWith tokens kinds rest) (hne : kinds ≠ []) : ∃ t more, tokens = t :: more := by
  obtain ⟨k, kinds, rfl⟩ := List.exists_cons_of_ne_nil hne
  obtain ⟨t, more, ht, _⟩ := StartsWith.cons_iff.mp h
  exact ⟨t, more, ht⟩

theorem StartsWith.exists_of_prefix {tokens : List Token} {kinds : List TokenKind}
    (h : kinds <+: tokens.map Token.kind) : ∃ rest, StartsWith tokens kinds rest := by
  obtain ⟨kinds', h⟩ := h
  obtain ⟨used, rest, rfl, hu, -⟩ := List.map_eq_append_iff.mp h.symm
  exact ⟨rest, used, rfl, hu⟩

theorem StartsWith.isPrefix {tokens rest : List Token} {kinds : List TokenKind}
    (h : StartsWith tokens kinds rest) : kinds <+: tokens.map Token.kind := by
  obtain ⟨used, rfl, rfl⟩ := h
  exact ⟨rest.map Token.kind, (List.map_append ..).symm⟩

/-! ## Prefix-free tables -/

namespace PrefixFree

variable {α : Type} {table : List (Code × α)}

/-- In a prefix-free table a code selects one value. -/
theorem lookup_eq (hp : PrefixFree table) {code : Code} {value : α} (h : (code, value) ∈ table) :
    table.lookup code = some value := by
  cases hl : table.lookup code with
  | none =>
    have := List.lookup_eq_none_iff.mp hl (code, value) h
    simp at this
  | some other =>
    obtain ⟨l₁, l₂, rfl, _⟩ := List.lookup_eq_some_iff.mp hl
    have := hp.eq_of_prefix _ h (code, other) (by simp) (List.prefix_refl code)
    rw [(Prod.mk.inj this).2]

/-- Inside a code of a prefix-free table no code ends. -/
theorem lookup_inside (hp : PrefixFree table) {seen more : Code} {value : α} (hm : more ≠ [])
    (h : (seen ++ more, value) ∈ table) : table.lookup seen = none := by
  cases hl : table.lookup seen with
  | none => rfl
  | some other =>
    obtain ⟨l₁, l₂, rfl, _⟩ := List.lookup_eq_some_iff.mp hl
    have := hp.eq_of_prefix (seen, other) (by simp) _ h (List.prefix_append seen more)
    have hs : seen = seen ++ more := (Prod.mk.inj this).1
    exact absurd (List.self_eq_append_right.mp hs) hm

end PrefixFree

/-! ## Following a table -/

section

variable {α : Type} {table : List (Code × α)}

/-- What is found is the value of the tokens read, after those already seen. -/
theorem matchCode_sound {seen : Code} {tokens rest : List Token} {value : α}
    (h : matchCode table seen tokens = .found value rest) :
    ∃ used, tokens = used ++ rest ∧ (seen ++ used.map Token.kind, value) ∈ table := by
  induction tokens generalizing seen with
  | nil => simp [matchCode] at h
  | cons t more ih =>
    rw [matchCode] at h
    split at h
    · next found hl =>
      cases h
      obtain ⟨l₁, l₂, ht, _⟩ := List.lookup_eq_some_iff.mp hl
      exact ⟨[t], rfl, by rw [ht]; simp⟩
    · split at h
      · obtain ⟨used, rfl, hm⟩ := ih h
        exact ⟨t :: used, rfl, by simpa using hm⟩
      · cases h

/-- The rest of a code is found after what was already seen of it. -/
theorem matchCode_complete (hp : PrefixFree table) {seen : Code} {used : List Token}
    (rest : List Token) {value : α} (hu : used ≠ [])
    (h : (seen ++ used.map Token.kind, value) ∈ table) :
    matchCode table seen (used ++ rest) = .found value rest := by
  induction used generalizing seen with
  | nil => exact absurd rfl hu
  | cons t more ih =>
    have hm : (seen ++ [t.kind] ++ more.map Token.kind, value) ∈ table := by simpa using h
    rw [List.cons_append, matchCode]
    -- The last token completes the code; before it no code ends, but one goes on.
    cases more with
    | nil =>
      have hl : table.lookup (seen ++ [t.kind]) = some value := hp.lookup_eq (by simpa using hm)
      simp only [hl, List.nil_append]
    | cons t' more =>
      have hl : table.lookup (seen ++ [t.kind]) = none := hp.lookup_inside (by simp) hm
      have hany : (table.any fun entry => (seen ++ [t.kind]).isPrefixOf entry.1) = true :=
        List.any_eq_true.mpr ⟨_, hm, List.isPrefixOf_iff_prefix.mpr (List.prefix_append _ _)⟩
      simp only [hl, hany, ↓reduceIte]
      exact ih (by simp) hm

/-- Following a prefix-free table yields a value exactly if a code of that value comes first. -/
theorem matchCode_found_iff (hp : PrefixFree table) {tokens rest : List Token} {value : α} :
    matchCode table [] tokens = .found value rest ↔
      ∃ code, (code, value) ∈ table ∧ StartsWith tokens code rest := by
  constructor
  · intro h
    obtain ⟨used, rfl, hm⟩ := matchCode_sound h
    exact ⟨_, hm, used, rfl, rfl⟩
  · rintro ⟨_, hm, used, rfl, rfl⟩
    have hu : used ≠ [] := by
      rintro rfl
      exact hp.ne_nil _ hm rfl
    exact matchCode_complete hp rest hu hm

end

/-! ## The tables of an instruction -/

theorem Family.codes_prefixFree : PrefixFree Family.codes :=
  ⟨by decide, by decide⟩

theorem Family.commandCodes_prefixFree (f : Family) : PrefixFree f.commandCodes := by
  cases f <;> exact ⟨by decide, by decide⟩

theorem Family.mem_codes_iff {f : Family} {code : Code} :
    (code, f) ∈ Family.codes ↔ code = f.code := by
  simp [Family.codes, Family.mem_all, eq_comm]

theorem Family.mem_commandCodes_iff {f : Family} {c : Command} {code : Code} :
    (code, c) ∈ f.commandCodes ↔ c.family = f ∧ code = c.code := by
  simp [Family.commandCodes, Command.mem_all, eq_comm]

/-- The family of the next instruction is the one whose code comes first. -/
theorem matchFamily_iff {tokens rest : List Token} {f : Family} :
    matchCode Family.codes [] tokens = .found f rest ↔ StartsWith tokens f.code rest := by
  simp [matchCode_found_iff Family.codes_prefixFree, Family.mem_codes_iff]

/-- The command of the next instruction is the one of its family whose code comes next. -/
theorem matchCommand_iff {tokens rest : List Token} {f : Family} {c : Command} :
    matchCode f.commandCodes [] tokens = .found c rest ↔
      c.family = f ∧ StartsWith tokens c.code rest := by
  simp [matchCode_found_iff f.commandCodes_prefixFree, Family.mem_commandCodes_iff, and_assoc]

end Whitespace
