import PaymentProcessing.Relational

/-! The hashes of a key-value store: under each key, fields with one value each. A write
replaces the value of its field, and a deletion takes one field away. -/
namespace Hashes
open Relational

/-- One field of the hash under a key. -/
structure Entry (κ φ υ : Type) where
  key : κ
  field : φ
  value : υ
  deriving DecidableEq, Repr

section Operations
variable {κ φ υ : Type} [DecidableEq κ] [DecidableEq φ]

def hset (entries : List (Entry κ φ υ)) (key : κ) (field : φ) (value : υ) : List (Entry κ φ υ) :=
  entries.filter (fun e => !(e.key = key && e.field = field)) ++ [⟨key, field, value⟩]

def hdel (entries : List (Entry κ φ υ)) (key : κ) (field : φ) : List (Entry κ φ υ) :=
  entries.filter fun e => !(e.key = key && e.field = field)

def hgetall (entries : List (Entry κ φ υ)) (key : κ) : List (φ × υ) :=
  (entries.filter (·.key = key)).map fun e => (e.field, e.value)

end Operations

def Listed {κ φ υ : Type} (entries : List (Entry κ φ υ)) (key : κ) (field : φ) : Prop :=
  ∃ e ∈ entries, e.key = key ∧ e.field = field

/-- A hash names each of its fields once. -/
def Unique {κ φ υ : Type} (entries : List (Entry κ φ υ)) : Prop :=
  Distinct (fun e => (e.key, e.field)) entries

variable {κ φ υ : Type} [DecidableEq κ] [DecidableEq φ] {entries : List (Entry κ φ υ)}
  {key key' : κ} {field field' : φ} {value : υ}

omit [DecidableEq φ] in
theorem listed_hgetall : field ∈ (hgetall entries key).map Prod.fst ↔ Listed entries key field := by
  simp [hgetall, Listed, and_assoc]

/-- The fields that a write or a deletion leaves alone. -/
theorem keeps_iff (e : Entry κ φ υ) :
    (!(decide (e.key = key) && decide (e.field = field))) = true ↔
      ¬(key = e.key ∧ field = e.field) := by
  rw [Bool.not_eq_true', ← Bool.not_eq_true, Bool.and_eq_true, decide_eq_true_iff,
    decide_eq_true_iff, eq_comm (a := key), eq_comm (a := field)]

theorem listed_hset :
    Listed (hset entries key field value) key' field' ↔
      (key = key' ∧ field = field') ∨ Listed entries key' field' := by
  constructor
  · rintro ⟨e, member, rfl, rfl⟩
    cases List.mem_append.mp member with
    | inl old => exact Or.inr ⟨e, List.mem_of_mem_filter old, rfl, rfl⟩
    | inr new =>
      rw [List.mem_singleton.mp new]
      exact Or.inl ⟨rfl, rfl⟩
  · by_cases set : key = key' ∧ field = field'
    · intro _
      exact ⟨_, List.mem_append_right _ List.mem_cons_self, set.1, set.2⟩
    · rintro (new | ⟨e, member, rfl, rfl⟩)
      · exact absurd new set
      · have kept : e ∈ entries.filter fun e => !(e.key = key && e.field = field) :=
          List.mem_filter.mpr ⟨member, (keeps_iff e).mpr set⟩
        exact ⟨e, List.mem_append_left _ kept, rfl, rfl⟩

theorem listed_hdel :
    Listed (hdel entries key field) key' field' ↔
      ¬(key = key' ∧ field = field') ∧ Listed entries key' field' := by
  constructor
  · rintro ⟨e, member, rfl, rfl⟩
    obtain ⟨old, kept⟩ := List.mem_filter.mp member
    exact ⟨(keeps_iff e).mp kept, e, old, rfl, rfl⟩
  · rintro ⟨other, e, member, rfl, rfl⟩
    exact ⟨e, List.mem_filter.mpr ⟨member, (keeps_iff e).mpr other⟩, rfl, rfl⟩

theorem Unique.hset (h : Unique entries) : Unique (hset entries key field value) := by
  have kept : Unique (entries.filter fun e => !(e.key = key && e.field = field)) :=
    List.Nodup.sublist (List.Sublist.map _ List.filter_sublist) h
  apply Distinct.append kept
  intro e member same
  obtain ⟨-, other⟩ := List.mem_filter.mp member
  obtain ⟨left, right⟩ := Prod.mk.inj same
  exact (keeps_iff e).mp other ⟨left.symm, right.symm⟩

theorem Unique.hdel (h : Unique entries) : Unique (hdel entries key field) :=
  List.Nodup.sublist (List.Sublist.map _ List.filter_sublist) h

omit [DecidableEq φ] in
theorem Unique.hgetall (h : Unique entries) : ((hgetall entries key).map Prod.fst).Nodup := by
  rw [Hashes.hgetall, List.map_map]
  refine List.Nodup.map_on ?_ (h.of_map.filter _)
  intro e member f member' same
  obtain ⟨left, hit⟩ := List.mem_filter.mp member
  obtain ⟨right, hit'⟩ := List.mem_filter.mp member'
  have first : e.key = key := by simpa using hit
  have second : f.key = key := by simpa using hit'
  exact h.unique left right (Prod.ext (first.trans second.symm) same)

end Hashes
