import Mathlib.Data.String.Basic

/-! 128-bit identifiers, as both services generate and print them. -/

abbrev Uuid := BitVec 128

namespace Uuid

def hexDigit (n : Nat) : Char :=
  if n < 10 then Char.ofNat (48 + n) else Char.ofNat (87 + n)

/-- The hyphenated lower-case form that formatting a UUID prints. -/
def hyphenated (id : Uuid) : String :=
  let digits (start count : Nat) : String :=
    String.ofList ((List.range count).map fun i =>
      hexDigit (id.toNat / 16 ^ (31 - (start + i)) % 16))
  digits 0 8 ++ "-" ++ digits 8 4 ++ "-" ++ digits 12 4 ++ "-" ++ digits 16 4 ++ "-" ++ digits 20 12

example : hyphenated 0x550e8400e29b41d4a716446655440000 =
    "550e8400-e29b-41d4-a716-446655440000" := by decide

theorem hexDigit_injective : ∀ m < 16, ∀ n < 16, hexDigit m = hexDigit n → m = n := by decide

/-- A number below a power is known by its digits. -/
theorem eq_of_digits {b : Nat} (n : Nat) (same : ∀ i < n, x / b ^ i % b = y / b ^ i % b) :
    x % b ^ n = y % b ^ n := by
  induction n with
  | zero => rw [Nat.pow_zero, Nat.mod_one, Nat.mod_one]
  | succ n ih =>
    rw [Nat.mod_pow_succ, Nat.mod_pow_succ, ih fun i below => same i (Nat.lt_succ_of_lt below),
      same n (Nat.lt_succ_self n)]

/-- A group of digits of the hyphenated form. -/
def digits (id : Uuid) (start count : Nat) : List Char :=
  (List.range count).map fun i => hexDigit (id.toNat / 16 ^ (31 - (start + i)) % 16)

theorem hyphenated_toList (id : Uuid) : id.hyphenated.toList =
    id.digits 0 8 ++ ('-' :: id.digits 8 4) ++ ('-' :: id.digits 12 4) ++ ('-' :: id.digits 16 4) ++
      ('-' :: id.digits 20 12) := by
  simp [hyphenated, digits]

/-- A group of digits tells each digit in it. -/
theorem digits_eq {x y : Uuid} (same : x.digits start count = y.digits start count)
    (low : 31 < start + count + i) (high : start + i ≤ 31) :
    x.toNat / 16 ^ i % 16 = y.toNat / 16 ^ i % 16 := by
  have one := congrArg (fun group => group[31 - start - i]?) same
  have inside : 31 - start - i < count := by omega
  have place : 31 - (start + (31 - start - i)) = i := by omega
  simp only [digits, List.getElem?_map, List.getElem?_range inside, Option.map_some,
    Option.some.injEq, place] at one
  exact hexDigit_injective _ (Nat.mod_lt _ (by decide)) _ (Nat.mod_lt _ (by decide)) one

/-- Two identifiers are never printed alike. -/
theorem hyphenated_injective (same : hyphenated x = hyphenated y) : x = y := by
  have lists := congrArg String.toList same
  have length (id : Uuid) (start count : Nat) : (id.digits start count).length = count := by
    simp [digits]
  simp only [hyphenated_toList, List.append_assoc] at lists
  obtain ⟨a, lists⟩ := List.append_inj lists (by simp only [length])
  simp only [List.cons_append, List.cons.injEq, true_and] at lists
  obtain ⟨b, lists⟩ := List.append_inj lists (by simp only [length])
  simp only [List.cons.injEq, true_and] at lists
  obtain ⟨c, lists⟩ := List.append_inj lists (by simp only [length])
  simp only [List.cons.injEq, true_and] at lists
  obtain ⟨d, lists⟩ := List.append_inj lists (by simp only [length])
  simp only [List.cons.injEq, true_and] at lists
  have digit (i : Nat) (inside : i < 32) : x.toNat / 16 ^ i % 16 = y.toNat / 16 ^ i % 16 := by
    have group : i < 12 ∨ 12 ≤ i ∧ i < 16 ∨ 16 ≤ i ∧ i < 20 ∨ 20 ≤ i ∧ i < 24 ∨ 24 ≤ i := by omega
    rcases group with fifth | fourth | third | second | first
    · exact digits_eq lists (by omega) (by omega)
    · exact digits_eq d (by omega) (by omega)
    · exact digits_eq c (by omega) (by omega)
    · exact digits_eq b (by omega) (by omega)
    · exact digits_eq a (by omega) (by omega)
  have whole := eq_of_digits 32 digit
  have bound (id : Uuid) : id.toNat % 16 ^ 32 = id.toNat := Nat.mod_eq_of_lt id.isLt
  rw [bound, bound] at whole
  exact BitVec.eq_of_toNat_eq whole

end Uuid
