import PaymentProcessing.Uuid
import Mathlib.Data.List.Basic

/-! String literals of JSON text. Quotation marks, backslashes and control characters are
escaped and everything else is written as it is, so a literal is the literal of one text. -/
namespace JsonText

/-- The characters that are escaped by a backslash and one more character. -/
def shortEscapes : List (Char × Char) :=
  [('\x22', '\x22'), ('\\', '\\'), ('\x08', 'b'), ('\t', 't'), ('\n', 'n'), ('\x0c', 'f'),
    ('\r', 'r')]

/-- A control character by its code. -/
def codeEscape (c : Char) : List Char :=
  ['\\', 'u', '0', '0', Uuid.hexDigit (c.toNat / 16), Uuid.hexDigit (c.toNat % 16)]

def escape (c : Char) : List Char :=
  match shortEscapes.lookup c with
  | some short => ['\\', short]
  | none => if c.toNat < 0x20 then codeEscape c else [c]

def quote (text : String) : String := String.ofList ('\x22' :: text.toList.flatMap escape ++ ['\x22'])

example : quote "a\"b\n\x01é" = "\"a\\\"b\\n\\u0001é\"" := by decide +kernel

/-- The three forms of an escape. -/
theorem escape_cases (c : Char) :
    (∃ short, (c, short) ∈ shortEscapes ∧ escape c = ['\\', short]) ∨
      (c.toNat < 0x20 ∧ escape c = codeEscape c) ∨ (c ≠ '\\' ∧ escape c = [c]) := by
  unfold escape
  split
  · rename_i short found
    obtain ⟨before, after, split, -⟩ := List.lookup_eq_some_iff.mp found
    exact Or.inl ⟨short, split ▸ List.mem_append_right before List.mem_cons_self, rfl⟩
  · rename_i absent
    have unescaped : c ≠ '\\' := by
      rintro rfl
      contradiction
    split
    · rename_i control
      exact Or.inr (Or.inl ⟨control, rfl⟩)
    · exact Or.inr (Or.inr ⟨unescaped, rfl⟩)

theorem short_not_code : ∀ entry ∈ shortEscapes, entry.2 ≠ 'u' := by decide

theorem short_injective : ∀ entry ∈ shortEscapes, ∀ entry' ∈ shortEscapes, entry.2 = entry'.2 →
    entry.1 = entry'.1 := by decide

theorem code_injective (c d : Char) (small : c.toNat < 0x20) (small' : d.toNat < 0x20)
    (high : Uuid.hexDigit (c.toNat / 16) = Uuid.hexDigit (d.toNat / 16))
    (low : Uuid.hexDigit (c.toNat % 16) = Uuid.hexDigit (d.toNat % 16)) : c = d := by
  have high := Uuid.hexDigit_injective _ (by omega) _ (by omega) high
  have low := Uuid.hexDigit_injective _ (by omega) _ (by omega) low
  exact Char.toNat_inj.mp (by omega)

/-- Where one escape begins, no other one does. -/
theorem escape_cancel (same : escape c ++ x = escape d ++ y) : c = d ∧ x = y := by
  rcases escape_cases c with ⟨short, listed, form⟩ | ⟨small, form⟩ | ⟨plain, form⟩ <;>
    rcases escape_cases d with ⟨short', listed', form'⟩ | ⟨small', form'⟩ | ⟨plain', form'⟩ <;>
    simp only [form, form', codeEscape, List.cons_append, List.nil_append, List.cons.injEq,
      true_and] at same
  · exact ⟨short_injective _ listed _ listed' same.1, same.2⟩
  · exact absurd same.1 (short_not_code _ listed)
  · exact absurd same.1.symm plain'
  · exact absurd same.1.symm (short_not_code _ listed')
  · exact ⟨code_injective c d small small' same.1 same.2.1, same.2.2⟩
  · exact absurd same.1.symm plain'
  · exact absurd same.1 plain
  · exact absurd same.1 plain
  · exact same

theorem escape_ne_nil (c : Char) : escape c ≠ [] := by
  rcases escape_cases c with ⟨short, -, form⟩ | ⟨-, form⟩ | ⟨-, form⟩ <;> simp [form, codeEscape]

theorem flatMap_escape_injective {text text' : List Char}
    (same : text.flatMap escape = text'.flatMap escape) : text = text' := by
  induction text generalizing text' with
  | nil =>
    cases text' with
    | nil => rfl
    | cons d rest =>
      have empty := (List.append_eq_nil_iff.mp (List.flatMap_cons ▸ same.symm)).1
      exact absurd empty (escape_ne_nil d)
  | cons c text ih =>
    cases text' with
    | nil =>
      have empty := (List.append_eq_nil_iff.mp (List.flatMap_cons ▸ same)).1
      exact absurd empty (escape_ne_nil c)
    | cons d rest =>
      rw [List.flatMap_cons, List.flatMap_cons] at same
      obtain ⟨rfl, rest_same⟩ := escape_cancel same
      rw [ih rest_same]

theorem quote_injective {text text' : String} (same : quote text = quote text') : text = text' := by
  have inner := List.append_cancel_right (String.ofList_injective same)
  exact String.toList_injective (flatMap_escape_injective (List.cons.inj inner).2)

end JsonText
