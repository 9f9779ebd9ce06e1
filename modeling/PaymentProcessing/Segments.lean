import Mathlib.Data.List.Infix

/-! Texts built from segments joined by a separator character. Nothing is escaped,
so a joined text can be read in several ways; the relation `Continues` says
exactly when two heads admit a common text. -/
namespace Segments
variable {α : Type} {c : α} {w v a b x y : List α}

/-- The separator around a keyword, as in `:client:`. -/
def bracket (c : α) (w : List α) : List α := c :: w ++ [c]

/-- The head `b` goes on where `a` stops, with the keyword `w` as its next segment. -/
def Continues (c : α) (w a b : List α) : Prop := a ++ bracket c w <+: b ++ [c]

instance [DecidableEq α] : Decidable (Continues c w a b) :=
  inferInstanceAs (Decidable (_ <+: _))

theorem bracket_append : bracket c w ++ x = c :: (w ++ c :: x) := by
  simp [bracket]

/-- A segment free of the separator ends at the first separator of any text it heads. -/
theorem first_segment (free : c ∉ w) (same : w ++ c :: x = y ++ c :: v) :
    w ++ [c] <+: y ++ [c] := by
  induction w generalizing y with
  | nil =>
    cases y with
    | nil => exact List.prefix_rfl
    | cons d rest =>
      obtain ⟨rfl, -⟩ := List.cons.inj same
      exact ⟨rest ++ [c], rfl⟩
  | cons d w ih =>
    have fresh : c ≠ d ∧ c ∉ w := by simpa using free
    cases y with
    | nil => exact absurd (List.cons.inj same).1.symm fresh.1
    | cons e rest =>
      obtain ⟨rfl, tails⟩ := List.cons.inj same
      simpa using ih fresh.2 tails

private theorem continues_of_longer (free : c ∉ w) (longer : b = a ++ u) (different : a ≠ b)
    (same : a ++ bracket c w ++ x = b ++ bracket c v ++ y) : Continues c w a b := by
  subst longer
  have tails : bracket c w ++ x = u ++ (bracket c v ++ y) := by
    simpa only [List.append_assoc, List.append_cancel_left_eq] using same
  cases u with
  | nil => simp at different
  | cons d rest =>
    rw [bracket_append, bracket_append, List.cons_append] at tails
    obtain ⟨rfl, segments⟩ := List.cons.inj tails
    obtain ⟨suffix, whole⟩ := first_segment free segments
    refine ⟨suffix, ?_⟩
    simp only [bracket, List.append_assoc, List.cons_append] at whole ⊢
    rw [whole]

/-- Two different heads with a common text: one continues the other with its keyword. -/
theorem continues_of_collision (freeLeft : c ∉ w) (freeRight : c ∉ v) (different : a ≠ b)
    (same : a ++ bracket c w ++ x = b ++ bracket c v ++ y) :
    Continues c w a b ∨ Continues c v b a := by
  have aligned : a ++ (bracket c w ++ x) = b ++ (bracket c v ++ y) := by
    simpa only [List.append_assoc] using same
  rcases List.append_eq_append_iff.mp aligned with ⟨u, longer, -⟩ | ⟨u, longer, -⟩
  · exact Or.inl (continues_of_longer freeLeft longer different same)
  · exact Or.inr (continues_of_longer freeRight longer different.symm same.symm)

/-- A continued head does collide: every text of the longer head is one of the
shorter head, under the keyword that continues it. -/
theorem Continues.collision (h : Continues c w a b) :
    ∃ rest, ∀ tail, a ++ bracket c w ++ (rest ++ tail) = b ++ c :: tail := by
  obtain ⟨rest, whole⟩ := h
  refine ⟨rest, ?_⟩
  intro tail
  rw [← List.append_assoc, whole, List.append_assoc, List.singleton_append]

theorem Continues.ne (h : Continues c w a b) : a ≠ b := by
  rintro rfl
  have shorter := h.length_le
  simp [bracket] at shorter

theorem Continues.length_lt (h : Continues c w a b) : a.length < b.length := by
  have shorter := h.length_le
  simp only [bracket, List.length_append, List.length_cons, List.length_nil] at shorter
  omega

/-- A head free of the separator is continued only by heads that contain it. -/
theorem Continues.separator_mem (h : Continues c w a b) : c ∈ b := by
  obtain ⟨rest, whole⟩ := h
  have longer : a.length < b.length := Continues.length_lt ⟨rest, whole⟩
  have entry := congrArg (fun l => l[a.length]?) whole
  simp only [bracket, List.append_assoc, List.cons_append, List.getElem?_append_right,
    Nat.le_refl, Nat.sub_self, List.getElem?_cons_zero, List.getElem?_append_left longer] at entry
  exact List.mem_of_getElem? entry.symm

private theorem joined_of_longer (longer : b = a ++ u) (tails : c :: x = u ++ c :: y) :
    (a = b ∧ x = y) ∨ ∃ r, b = a ++ c :: r ∧ x = r ++ c :: y := by
  subst longer
  cases u with
  | nil => exact Or.inl ⟨(List.append_nil a).symm, (List.cons.inj tails).2⟩
  | cons d r =>
    obtain ⟨rfl, rest⟩ := List.cons.inj tails
    exact Or.inr ⟨r, rfl, rest⟩

/-- Two pairs joined by a separator give one text where they are the same, or where what one
head has after the other belongs to the other's rest. -/
theorem joined_eq_iff : a ++ c :: x = b ++ c :: y ↔
    (a = b ∧ x = y) ∨ (∃ r, b = a ++ c :: r ∧ x = r ++ c :: y) ∨
      ∃ r, a = b ++ c :: r ∧ y = r ++ c :: x := by
  constructor
  · intro same
    rcases List.append_eq_append_iff.mp same with ⟨u, longer, tails⟩ | ⟨u, longer, tails⟩
    · rcases joined_of_longer longer tails with same | further
      · exact Or.inl same
      · exact Or.inr (Or.inl further)
    · rcases joined_of_longer longer tails with same | further
      · exact Or.inl ⟨same.1.symm, same.2.symm⟩
      · exact Or.inr (Or.inr further)
  · rintro (⟨rfl, rfl⟩ | ⟨r, rfl, rfl⟩ | ⟨r, rfl, rfl⟩)
    · rfl
    · simp
    · simp

section Split
variable [BEq α] [LawfulBEq α]

/-- The parts between separators contain none. -/
theorem not_mem_of_mem_splitOn {text part : List α} (member : part ∈ text.splitOn c) : c ∉ part := by
  induction text generalizing part with
  | nil =>
    rw [List.splitOn_nil, List.mem_singleton] at member
    exact member ▸ List.not_mem_nil
  | cons d rest ih =>
    rw [List.splitOn_cons_eq_if_modifyHead] at member
    split at member
    · cases List.mem_cons.mp member with
      | inl empty => exact empty ▸ List.not_mem_nil
      | inr later => exact ih later
    · rename_i other
      have other : c ≠ d := by simpa using Ne.symm (by simpa using other : d ≠ c)
      cases parts : rest.splitOn c with
      | nil => exact absurd parts (List.splitOn_ne_nil c rest)
      | cons head tail =>
        rw [parts] at member ih
        cases List.mem_cons.mp member with
        | inl first =>
          have inside := ih List.mem_cons_self
          rw [first, List.mem_cons]
          rintro (same | deeper)
          · exact other same
          · exact inside deeper
        | inr later => exact ih (List.mem_cons_of_mem head later)

/-- A text of exactly three parts. -/
theorem splitOn_eq_three {text first second third : List α}
    (split : text.splitOn c = [first, second, third]) :
    text = first ++ c :: (second ++ c :: third) ∧ c ∉ first ∧ c ∉ second ∧ c ∉ third := by
  have whole : [c].intercalate (text.splitOn c) = text := List.intercalate_splitOn c
  rw [split] at whole
  have free (part) (member : part ∈ [first, second, third]) : c ∉ part :=
    not_mem_of_mem_splitOn (split ▸ member)
  refine ⟨?_, free first (by simp), free second (by simp), free third (by simp)⟩
  rw [← whole]
  simp [List.intercalate]

end Split
end Segments
