import SymbolHistory.Number.Decimal

namespace SymbolHistory.Decimal

theorem ofDigits_digits (n : Nat) : ofDigits (digits n) = n := by
  have h := Nat.ofDigitChars_ten_toDigits (n := n)
  rw [Nat.ofDigitChars_eq_foldl] at h
  simpa only [ofDigits, digits, digitValue, Nat.mul_comm] using h

theorem natural?_eq_some {s : List Char} {n : Nat} :
    natural? s = some n ↔ s ≠ [] ∧ (∀ c ∈ s, c.isDigit = true) ∧ ofDigits s = n := by
  unfold natural?
  split
  · next h =>
    simp only [Bool.or_eq_true, List.isEmpty_iff, Bool.not_eq_true', List.all_eq_false] at h
    simp only [reduceCtorEq, false_iff, not_and]
    intro hne hall
    obtain ⟨c, hc, hdigit⟩ := h.resolve_left hne
    exact absurd (hall c hc) hdigit
  · next h =>
    simp only [Bool.or_eq_true, List.isEmpty_iff, Bool.not_eq_true', not_or, Bool.not_eq_false,
      List.all_eq_true] at h
    simp only [Option.some.injEq, ne_eq, h.1, not_false_iff, true_and]
    exact ⟨fun heq => ⟨h.2, heq⟩, fun heq => heq.2⟩

theorem natural?_digits (n : Nat) : natural? (digits n) = some n :=
  natural?_eq_some.mpr ⟨Nat.toDigits_ne_nil, fun c hc => Nat.isDigit_of_mem_toDigits (by decide)
    (by decide) hc, ofDigits_digits n⟩

section Reading

variable {s ds : List Char} {n : Nat}

theorem integer64?_digits (h : natural? ds = some n) (hlt : n < wordLimit 63) :
    integer64? ds = some (n : Int) := by
  obtain ⟨hne, hall, -⟩ := natural?_eq_some.mp h
  obtain ⟨c, ds, rfl⟩ := List.exists_cons_of_ne_nil hne
  have hc := hall c List.mem_cons_self
  have hplus : c ≠ '+' := by
    rintro rfl
    exact absurd hc (by decide)
  have hminus : c ≠ '-' := by
    rintro rfl
    exact absurd hc (by decide)
  simp [integer64?, naturalBelow?, hplus, hminus, h, Option.filter, hlt]

theorem integer64?_plus (h : natural? ds = some n) (hlt : n < wordLimit 63) :
    integer64? ('+' :: ds) = some (n : Int) := by
  simp [integer64?, naturalBelow?, h, Option.filter, hlt]

theorem integer64?_minus (h : natural? ds = some n) (hle : n ≤ wordLimit 63) :
    integer64? ('-' :: ds) = some (-(n : Int)) := by
  simp [integer64?, h, Option.filter, hle]

/-- An optional sign and decimal digits whose number fits into 64 bits with sign. -/
def IsInteger64 (s : List Char) : Prop :=
  ∃ sign ds, s = sign ++ ds ∧ ds ≠ [] ∧ (∀ c ∈ ds, c.isDigit = true) ∧
    ((sign = [] ∨ sign = ['+']) ∧ ofDigits ds < wordLimit 63 ∨
      sign = ['-'] ∧ ofDigits ds ≤ wordLimit 63)

theorem isInteger64_of_naturalBelow? (h : naturalBelow? (wordLimit 63) s = some n) :
    IsInteger64 s := by
  simp only [naturalBelow?, Option.filter_eq_some_iff, decide_eq_true_eq] at h
  obtain ⟨hnat, hlt⟩ := h
  split at hnat
  · next rest =>
    obtain ⟨hne, hall, rfl⟩ := natural?_eq_some.mp hnat
    exact ⟨['+'], rest, rfl, hne, hall, Or.inl ⟨Or.inr rfl, hlt⟩⟩
  · obtain ⟨hne, hall, rfl⟩ := natural?_eq_some.mp hnat
    exact ⟨[], s, rfl, hne, hall, Or.inl ⟨Or.inl rfl, hlt⟩⟩

theorem isInteger64_of_integer64? {i : Int} (h : integer64? s = some i) : IsInteger64 s := by
  unfold integer64? at h
  split at h
  · next rest =>
    obtain ⟨i, hi, -⟩ := Option.map_eq_some_iff.mp h
    obtain ⟨m, hm, -⟩ := Option.bind_eq_some_iff.mp hi
    obtain ⟨hnat, hle⟩ := Option.filter_eq_some_iff.mp hm
    obtain ⟨hne, hall, rfl⟩ := natural?_eq_some.mp hnat
    exact ⟨['-'], rest, rfl, hne, hall, Or.inr ⟨rfl, of_decide_eq_true hle⟩⟩
  · obtain ⟨m, hnat, -⟩ := Option.map_eq_some_iff.mp h
    exact isInteger64_of_naturalBelow? hnat

/-- Exactly the texts of whole numbers of 64 bits are read. -/
theorem isSome_integer64? : (integer64? s).isSome = true ↔ IsInteger64 s := by
  constructor
  · intro h
    obtain ⟨i, hi⟩ := Option.isSome_iff_exists.mp h
    exact isInteger64_of_integer64? hi
  · rintro ⟨sign, ds, rfl, hne, hall, hsign⟩
    have hnat := natural?_eq_some.mpr ⟨hne, hall, rfl⟩
    rcases hsign with ⟨rfl | rfl, hlt⟩ | ⟨rfl, hle⟩
    · rw [List.nil_append, integer64?_digits hnat hlt]
      rfl
    · rw [List.singleton_append, integer64?_plus hnat hlt]
      rfl
    · rw [List.singleton_append, integer64?_minus hnat hle]
      rfl

instance (s : List Char) : Decidable (IsInteger64 s) := decidable_of_iff _ isSome_integer64?

end Reading

end SymbolHistory.Decimal
