import Mathlib.Algebra.GroupWithZero.Nat
import Mathlib.Data.List.Forall2
import Mathlib.Data.List.Nodup
import Mathlib.Data.List.Perm.Subperm

/-! Tables as lists of rows, in insertion order, with the constraints a relational
schema states about them: keys are distinct, references are met. Inserts append;
updates rewrite the rows they select and keep every column they do not set. -/
namespace Relational
variable {α β κ : Type} {key : α → κ} {rows : List α} {hit : α → Bool} {set : α → α}

/-- A primary key or unique constraint over the rows of one table. -/
def Distinct (key : α → κ) (rows : List α) : Prop := (rows.map key).Nodup

/-- A foreign key: every referenced value occurs among the parents. -/
def References (fk : α → κ) (rows : List α) (pk : β → κ) (parents : List β) : Prop :=
  rows.map fk ⊆ parents.map pk

/-- `UPDATE ... SET ... WHERE ...`, in place. -/
def updateWhere (hit : α → Bool) (set : α → α) (rows : List α) : List α :=
  rows.map fun row => if hit row then set row else row

theorem mem_updateWhere :
    x ∈ updateWhere hit set rows ↔ ∃ row ∈ rows, x = if hit row then set row else row := by
  simp only [updateWhere, List.mem_map, eq_comm]

theorem mem_updateWhere_of_hit (member : row ∈ rows) (selected : hit row = true) :
    set row ∈ updateWhere hit set rows :=
  mem_updateWhere.mpr ⟨row, member, by rw [if_pos selected]⟩

theorem mem_updateWhere_of_miss (member : row ∈ rows) (missed : hit row = false) :
    row ∈ updateWhere hit set rows :=
  mem_updateWhere.mpr ⟨row, member, by simp [missed]⟩

/-- An update that leaves a column alone leaves the whole column alone. -/
theorem map_updateWhere (column : α → κ) (kept : ∀ row, column (set row) = column row) :
    (updateWhere hit set rows).map column = rows.map column := by
  simp only [updateWhere, List.map_map]
  apply List.map_congr_left
  intro row _
  simp only [Function.comp_apply]
  split
  · exact kept row
  · rfl

/-- The row of a key, after an update of that row. -/
theorem find?_updateWhere [DecidableEq κ] (kept : ∀ row, key (set row) = key row) (k : κ) :
    (updateWhere (key · == k) set rows).find? (key · = k) = (rows.find? (key · = k)).map set := by
  have keeps : ((fun row => decide (key row = k)) ∘ fun row => if key row == k then set row else row) =
      fun row => decide (key row = k) := by
    funext row
    simp only [Function.comp_apply]
    split
    · rw [kept]
    · rfl
  rw [updateWhere, List.find?_map, keeps]
  cases found : rows.find? (key · = k) with
  | none => rfl
  | some row =>
    have same : key row = k := by simpa using List.find?_some found
    simp [same]

theorem Distinct.updateWhere (distinct : Distinct key rows)
    (kept : ∀ row, key (set row) = key row) :
    Distinct key (updateWhere hit set rows) := by
  unfold Distinct
  rwa [map_updateWhere key kept]

theorem Distinct.append (distinct : Distinct key rows) (fresh : ∀ row ∈ rows, key row ≠ key x) :
    Distinct key (rows ++ [x]) := by
  simp only [Distinct, List.map_append, List.map_cons, List.map_nil]
  apply List.Nodup.append distinct (List.nodup_singleton _)
  rintro k member single
  obtain ⟨row, inside, rfl⟩ := List.mem_map.mp member
  exact fresh row inside (List.mem_singleton.mp single)

theorem Distinct.filter (distinct : Distinct key rows) (kept : α → Bool) :
    Distinct key (rows.filter kept) :=
  List.Nodup.sublist (List.filter_sublist.map key) distinct

theorem Distinct.unique (distinct : Distinct key rows) (left : x ∈ rows) (right : y ∈ rows)
    (same : key x = key y) : x = y :=
  List.inj_on_of_nodup_map distinct left right same

/-- The row of a key is found under it. -/
theorem Distinct.find?_of_mem [DecidableEq κ] (distinct : Distinct key rows) (member : x ∈ rows)
    (same : key x = k) : rows.find? (key · = k) = some x := by
  cases found : rows.find? (key · = k) with
  | none =>
    have missed := List.find?_eq_none.mp found x member
    simp [same] at missed
  | some y =>
    have named : key y = k := by simpa using List.find?_some found
    rw [distinct.unique (List.mem_of_find?_eq_some found) member (named.trans same.symm)]

/-- Rows that an update would leave as they are. -/
theorem updateWhere_of_done (done : ∀ row ∈ rows, hit row = true → set row = row) :
    updateWhere hit set rows = rows := by
  refine (List.map_congr_left fun row member => ?_).trans (List.map_id rows)
  split
  · rename_i selected
    exact done row member selected
  · rfl

/-- An update of one row moves a count by that row. -/
theorem countP_updateWhere [DecidableEq κ] (set : α → α) (distinct : Distinct key rows)
    (member : row ∈ rows) (p : α → Bool) :
    (updateWhere (fun x => key x == key row) set rows).countP p + (if p row then 1 else 0) =
      rows.countP p + if p (set row) then 1 else 0 := by
  induction rows with
  | nil => cases member
  | cons x rest ih =>
    obtain ⟨fresh, rest_distinct⟩ := List.nodup_cons.mp distinct
    have absent (y : α) (inside : y ∈ rest) : key y ≠ key x := by
      intro same
      exact fresh (same ▸ List.mem_map_of_mem inside)
    simp only [updateWhere, List.map_cons, List.countP_cons]
    rcases List.mem_cons.mp member with rfl | inside
    · have untouched : rest.map (fun x => if key x == key row then set x else x) = rest := by
        refine (List.map_congr_left ?_).trans (List.map_id rest)
        intro y inside
        rw [if_neg (by simpa using absent y inside)]
        rfl
      rw [untouched]
      simp only [beq_self_eq_true, if_true]
      omega
    · have other : ¬ (key x == key row) = true := by
        simpa using fun same => absent row inside same.symm
      have moved := ih rest_distinct inside
      simp only [updateWhere] at moved
      rw [if_neg other]
      omega

/-- An update of one row moves a sum by that row. -/
theorem sum_updateWhere [DecidableEq κ] (set : α → α) (distinct : Distinct key rows)
    (member : row ∈ rows) (f : α → Nat) :
    ((updateWhere (fun x => key x == key row) set rows).map f).sum + f row =
      (rows.map f).sum + f (set row) := by
  induction rows with
  | nil => cases member
  | cons x rest ih =>
    obtain ⟨fresh, rest_distinct⟩ := List.nodup_cons.mp distinct
    rw [updateWhere, List.map_cons, List.map_cons, List.map_cons, List.sum_cons, List.sum_cons]
    rcases List.mem_cons.mp member with rfl | inside
    · have untouched : updateWhere (fun x => key x == key row) set rest = rest := by
        refine (List.map_congr_left fun y listed => ?_).trans (List.map_id rest)
        have other : key y ≠ key row := fun same => fresh (same ▸ List.mem_map_of_mem listed)
        rw [if_neg (by simpa using other)]
        rfl
      rw [updateWhere] at untouched
      rw [untouched, if_pos (beq_self_eq_true _)]
      omega
    · have other : key x ≠ key row := fun same => fresh (same ▸ List.mem_map_of_mem inside)
      have moved := ih rest_distinct inside
      rw [updateWhere] at moved
      rw [if_neg (by simpa using other)]
      omega

/-- A row is counted once beside the others. -/
theorem countP_others [DecidableEq κ] (distinct : Distinct key rows) (member : row ∈ rows)
    (p : α → Bool) :
    (rows.filter fun x => key x ≠ key row).countP p + (if p row then 1 else 0) = rows.countP p := by
  induction rows with
  | nil => cases member
  | cons x rest ih =>
    obtain ⟨fresh, rest_distinct⟩ := List.nodup_cons.mp distinct
    rcases List.mem_cons.mp member with rfl | inside
    · have others : rest.filter (fun x => key x ≠ key row) = rest := by
        refine List.filter_eq_self.mpr fun y listed => ?_
        have other : key y ≠ key row := by
          intro same
          exact fresh (same ▸ List.mem_map_of_mem listed)
        simpa using other
      rw [List.filter_cons_of_neg (by simp), others, List.countP_cons]
    · have other : key x ≠ key row := by
        intro same
        exact fresh (same ▸ List.mem_map_of_mem inside)
      rw [List.filter_cons_of_pos (by simpa using other), List.countP_cons, List.countP_cons,
        ← ih rest_distinct inside]
      omega

section References
variable {fk : α → κ} {pk : β → κ} {parents : List β}

theorem References.parent (refs : References fk rows pk parents) (member : x ∈ rows) :
    ∃ parent ∈ parents, pk parent = fk x :=
  List.mem_map.mp (refs (List.mem_map_of_mem member))

theorem References.append (refs : References fk rows pk parents)
    (met : ∃ parent ∈ parents, pk parent = fk x) : References fk (rows ++ [x]) pk parents := by
  intro k member
  simp only [List.map_append, List.map_cons, List.map_nil, List.mem_append,
    List.mem_singleton] at member
  rcases member with old | rfl
  · exact refs old
  · exact List.mem_map.mpr met

theorem References.append_parent (refs : References fk rows pk parents) (y : β) :
    References fk rows pk (parents ++ [y]) := by
  intro k member
  rw [List.map_append]
  exact List.mem_append_left _ (refs member)

/-- References depend on the two columns only, so updates of other columns keep them. -/
theorem References.congr (refs : References fk rows pk parents)
    (child : (rows' : List α).map fk = rows.map fk)
    (parent : (parents' : List β).map pk = parents.map pk) : References fk rows' pk parents' := by
  unfold References
  rwa [child, parent]

end References
section Parallel
variable {R : α → β → Prop} {xs : List α} {ys : List β}

theorem forall₂_mem (h : List.Forall₂ R xs ys) (member : x ∈ xs) : ∃ y ∈ ys, R x y := by
  induction h with
  | nil => cases member
  | cons first rest ih =>
    rcases List.mem_cons.mp member with rfl | inside
    · exact ⟨_, List.mem_cons_self, first⟩
    · obtain ⟨y, present, related⟩ := ih inside
      exact ⟨y, List.mem_cons_of_mem _ present, related⟩

/-- Rows that stand for each other are found together. -/
theorem forall₂_find? {p : α → Bool} {q : β → Bool} (h : List.Forall₂ R xs ys)
    (same : ∀ x y, R x y → p x = q y) (found : xs.find? p = some x) :
    ∃ y, ys.find? q = some y ∧ R x y := by
  induction h with
  | nil => cases found
  | @cons a b xs ys first rest ih =>
    rw [List.find?_cons] at found ⊢
    rw [← same a b first]
    cases hit : p a with
    | true =>
      rw [hit] at found
      cases found
      exact ⟨b, rfl, first⟩
    | false =>
      rw [hit] at found
      exact ih found

theorem forall₂_map_eq {f : α → κ} {g : β → κ} (h : List.Forall₂ R xs ys)
    (same : ∀ x y, R x y → f x = g y) : xs.map f = ys.map g := by
  induction h with
  | nil => rfl
  | cons first rest ih => rw [List.map_cons, List.map_cons, ih, same _ _ first]

theorem forall₂_countP {p : α → Bool} {q : β → Bool} (h : List.Forall₂ R xs ys)
    (same : ∀ x, ∀ y ∈ ys, R x y → p x = q y) : xs.countP p = ys.countP q := by
  induction h with
  | nil => rfl
  | cons first rest ih =>
    have tails := ih fun x y member => same x y (List.mem_cons_of_mem _ member)
    rw [List.countP_cons, List.countP_cons, tails, same _ _ List.mem_cons_self first]

theorem forall₂_countP_le {p : α → Bool} {q : β → Bool} (h : List.Forall₂ R xs ys)
    (falls : ∀ x, ∀ y ∈ ys, R x y → q y = true → p x = true) : ys.countP q ≤ xs.countP p := by
  induction h with
  | nil => exact Nat.le_refl _
  | @cons x y xs ys first rest ih =>
    have tails := ih fun x y member => falls x y (List.mem_cons_of_mem _ member)
    have heads := falls x y List.mem_cons_self first
    rw [List.countP_cons, List.countP_cons]
    split
    · rename_i counted
      rw [if_pos (heads counted)]
      omega
    · omega

/-- Rows that stand for each other are updated together. -/
theorem forall₂_updateWhere {hit' : β → Bool} {set' : β → β} (h : List.Forall₂ R xs ys)
    (same : ∀ x y, R x y → hit x = hit' y)
    (kept : ∀ x ∈ xs, ∀ y ∈ ys, R x y → hit x = true → R (set x) (set' y)) :
    List.Forall₂ R (updateWhere hit set xs) (updateWhere hit' set' ys) := by
  induction h with
  | nil => exact .nil
  | @cons x y xs ys first rest ih =>
    refine .cons ?_ (ih fun x member y member' => kept x (List.mem_cons_of_mem _ member) y
      (List.mem_cons_of_mem _ member'))
    simp only [← same x y first]
    split
    · rename_i selected
      exact kept x List.mem_cons_self y List.mem_cons_self first selected
    · exact first

end Parallel

section Advanced

/-- Some of the rows have been rewritten by the update in the meantime. -/
def Advanced (set : α → α) (rows later : List α) : Prop :=
  List.Forall₂ (fun x y => y = x ∨ y = set x) rows later

variable {later last : List α}

theorem Advanced.refl (set : α → α) (rows : List α) : Advanced set rows rows := by
  induction rows with
  | nil => exact .nil
  | cons x rest ih => exact .cons (Or.inl rfl) ih

theorem Advanced.trans (idempotent : ∀ x, set (set x) = set x) (first : Advanced set rows later)
    (second : Advanced set later last) : Advanced set rows last := by
  unfold Advanced at first second
  induction first generalizing last with
  | nil => exact second
  | cons head rest ih =>
    cases second with
    | cons next others =>
      refine .cons ?_ (ih others)
      rcases head with rfl | rfl
      · exact next
      · rcases next with rfl | rfl
        · exact Or.inr rfl
        · exact Or.inr (idempotent _)

theorem Advanced.mem (advanced : Advanced set rows later) (member : y ∈ later) :
    ∃ x ∈ rows, y = x ∨ y = set x := by
  obtain ⟨x, present, moved⟩ := forall₂_mem advanced.flip member
  exact ⟨x, present, moved⟩

theorem Advanced.mem_of (advanced : Advanced set rows later) (member : x ∈ rows) :
    x ∈ later ∨ set x ∈ later := by
  obtain ⟨y, present, rfl | rfl⟩ := forall₂_mem advanced member
  · exact Or.inl present
  · exact Or.inr present

theorem Advanced.map_eq (advanced : Advanced set rows later) {column : α → κ}
    (kept : ∀ x, column (set x) = column x) : later.map column = rows.map column := by
  refine (forall₂_map_eq advanced ?_).symm
  rintro x y (rfl | rfl)
  · rfl
  · exact (kept x).symm

theorem Advanced.append (advanced : Advanced set rows later) (x : α) :
    Advanced set (rows ++ [x]) (later ++ [x]) :=
  List.rel_append advanced (Advanced.refl set [x])

theorem advanced_updateWhere (hit : α → Bool) (set : α → α) (rows : List α) :
    Advanced set rows (updateWhere hit set rows) := by
  induction rows with
  | nil => exact .nil
  | cons x rest ih =>
    refine .cons ?_ ih
    by_cases selected : hit x = true
    · exact Or.inr (if_pos selected)
    · exact Or.inl (if_neg selected)

/-- The same update on both sides. -/
theorem Advanced.updateWhere (idempotent : ∀ x, set (set x) = set x)
    (kept : ∀ x, hit (set x) = hit x) (advanced : Advanced set rows later) :
    Advanced set (updateWhere hit set rows) (updateWhere hit set later) := by
  refine forall₂_updateWhere advanced ?_ ?_
  · rintro x y (rfl | rfl)
    · rfl
    · exact (kept x).symm
  · rintro x - y - (rfl | rfl) -
    · exact Or.inl rfl
    · exact Or.inl (idempotent x)

/-- An update that the later rows have behind them. -/
theorem Advanced.catch_up (advanced : Advanced set rows later)
    (done : ∀ y ∈ later, hit y = true → set y = y) :
    Advanced set (Relational.updateWhere hit set rows) later := by
  unfold Advanced at advanced
  induction advanced with
  | nil => exact .nil
  | @cons x y xs ys head rest ih =>
    refine .cons ?_ (ih fun y member => done y (List.mem_cons_of_mem _ member))
    change y = (if hit x = true then set x else x) ∨ y = set (if hit x = true then set x else x)
    have finished := done y List.mem_cons_self
    by_cases selected : hit x = true
    · rw [if_pos selected]
      rcases head with rfl | rfl
      · exact Or.inl (finished selected).symm
      · exact Or.inl rfl
    · rw [if_neg selected]
      exact head

/-- The rows selected are the same where no update has been anything new. -/
theorem Advanced.filter_eq (hit : α → Bool) (advanced : Advanced set rows later)
    (kept : ∀ x, hit (set x) = hit x)
    (done : ∀ x ∈ rows, set x ∈ later → hit x = true → set x = x) :
    later.filter hit = rows.filter hit := by
  unfold Advanced at advanced
  induction advanced with
  | nil => rfl
  | @cons x y xs ys head rest ih =>
    have others := ih fun z member moved =>
      done z (List.mem_cons_of_mem _ member) (List.mem_cons_of_mem _ moved)
    by_cases selected : hit x = true
    · have same : y = x := by
        rcases head with rfl | rfl
        · rfl
        · exact done x List.mem_cons_self List.mem_cons_self selected
      rw [same, List.filter_cons_of_pos selected, List.filter_cons_of_pos selected, others]
    · have left : ¬ hit y = true := by
        rcases head with rfl | rfl
        · exact selected
        · rwa [kept]
      rw [List.filter_cons_of_neg selected, List.filter_cons_of_neg left, others]

end Advanced

section Limit
variable {order : α → Nat} {limit : Nat} {pool wanted : List α}

/-- What `ORDER BY ... LIMIT` may answer from a pool of rows: equal ones come in any order. -/
structure TopRows (order : α → Nat) (limit : Nat) (pool rows : List α) : Prop where
  nodup : rows.Nodup
  length : rows.length = min limit pool.length
  subset : rows ⊆ pool
  sorted : rows.Pairwise (order · ≤ order ·)
  least : ∀ x ∈ pool, x ∉ rows → ∀ r ∈ rows, order r ≤ order x

/-- An answer takes as many of the rows up to a cutoff as the limit admits. -/
theorem TopRows.countP_missing [DecidableEq α] (top : TopRows order limit pool rows) (cutoff : Nat) :
    pool.countP (fun x => order x ≤ cutoff ∧ x ∉ rows) ≤ pool.countP (order · ≤ cutoff) - limit := by
  by_cases missing : ∃ x ∈ pool, order x ≤ cutoff ∧ x ∉ rows
  · obtain ⟨x, present, early, left⟩ := missing
    -- some early row was left out, so the answer is full and all its rows are early
    have full : rows.length = limit := by
      have short := top.length
      rcases Nat.le_total limit pool.length with fits | small
      · rwa [Nat.min_eq_left fits] at short
      · rw [Nat.min_eq_right small] at short
        have same := (List.subperm_of_subset top.nodup top.subset).perm_of_length_le
          (Nat.le_of_eq short.symm)
        exact absurd (same.mem_iff.mpr present) left
    have taken : limit ≤ pool.countP (fun x => order x ≤ cutoff ∧ x ∈ rows) := by
      rw [← full, List.countP_eq_length_filter]
      refine (List.subperm_of_subset top.nodup fun r chosen => ?_).length_le
      refine List.mem_filter.mpr ⟨top.subset chosen, ?_⟩
      simpa using ⟨Nat.le_trans (top.least x present left r chosen) early, chosen⟩
    have split : pool.countP (order · ≤ cutoff) = pool.countP (fun x => order x ≤ cutoff ∧ x ∈ rows) +
        pool.countP (fun x => order x ≤ cutoff ∧ x ∉ rows) := by
      rw [List.countP_eq_countP_filter_add pool (order · ≤ cutoff) (· ∈ rows), List.countP_filter,
        List.countP_filter]
      simp [Bool.decide_and]
    omega
  · have none : pool.countP (fun x => order x ≤ cutoff ∧ x ∉ rows) = 0 := by
      refine List.countP_eq_zero.mpr fun x present => ?_
      simpa using fun early left => missing ⟨x, present, early, left⟩
    omega

/-- Sorted rows that come before all others and fit the limit can start an answer. -/
theorem exists_topRows [DecidableEq α] (order : α → Nat) (wanted : List α) (distinct : pool.Nodup)
    (few : wanted.length ≤ limit) (nodup : wanted.Nodup) (subset : wanted ⊆ pool)
    (sorted : wanted.Pairwise (order · ≤ order ·))
    (least : ∀ x ∈ pool, x ∉ wanted → ∀ r ∈ wanted, order r ≤ order x) :
    ∃ rows, TopRows order limit pool rows ∧ wanted ⊆ rows := by
  let others := (pool.filter (· ∉ wanted)).mergeSort (order · ≤ order ·)
  have same : others.Perm (pool.filter (· ∉ wanted)) := List.mergeSort_perm _ _
  have member (x : α) : x ∈ others ↔ x ∈ pool ∧ x ∉ wanted := by
    rw [same.mem_iff, List.mem_filter, decide_eq_true_eq]
  have ordered : others.Pairwise (order · ≤ order ·) := by
    have sorted := @List.pairwise_mergeSort _ (fun a b => decide (order a ≤ order b))
      (fun a b c first second => by simp only [decide_eq_true_eq] at *; omega)
      (fun a b => by simp only [Bool.or_eq_true, decide_eq_true_eq]; omega)
      (pool.filter (· ∉ wanted))
    simpa only [decide_eq_true_eq] using sorted
  have lengths : pool.length = wanted.length + others.length := by
    have split := List.length_eq_length_filter_add (l := pool) (· ∈ wanted)
    have inside : (pool.filter (· ∈ wanted)).Perm wanted := by
      refine (List.perm_ext_iff_of_nodup (distinct.filter _) nodup).mpr fun x => ?_
      rw [List.mem_filter, decide_eq_true_eq]
      exact ⟨fun both => both.2, fun member => ⟨subset member, member⟩⟩
    rw [inside.length_eq] at split
    rw [same.length_eq, split]
    congr 3
    funext x
    simp
  refine ⟨wanted ++ others.take (limit - wanted.length), ⟨?_, ?_, ?_, ?_, ?_⟩, ?_⟩
  · refine List.Nodup.append nodup
      ((same.nodup_iff.mpr (distinct.filter _)).sublist (List.take_sublist _ _)) ?_
    intro x inside taken
    exact ((member x).mp (List.mem_of_mem_take taken)).2 inside
  · rw [List.length_append, List.length_take, lengths]
    omega
  · intro x inside
    rcases List.mem_append.mp inside with first | taken
    · exact subset first
    · exact ((member x).mp (List.mem_of_mem_take taken)).1
  · refine List.pairwise_append.mpr ⟨sorted, ordered.sublist (List.take_sublist _ _), ?_⟩
    intro r first x taken
    obtain ⟨present, outside⟩ := (member x).mp (List.mem_of_mem_take taken)
    exact least x present outside r first
  · intro x present missing r chosen
    rw [List.mem_append, not_or] at missing
    rcases List.mem_append.mp chosen with first | taken
    · exact least x present missing.1 r first
    · have left : x ∈ others := (member x).mpr ⟨present, missing.1⟩
      rw [← List.take_append_drop (limit - wanted.length) others] at ordered left
      have dropped := (List.mem_append.mp left).resolve_left missing.2
      exact (List.pairwise_append.mp ordered).2.2 r taken x dropped
  · exact List.subset_append_left _ _

end Limit
end Relational
