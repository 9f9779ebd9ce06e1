import Mathlib.Control.Basic

/-! Computations that act on a shared store and may stop with an error. What was done
before the error stays done: there is no rollback across statements. -/

abbrev Effect (σ ε α : Type) := ExceptT ε (StateM σ) α

namespace Effect
variable {σ ε ε' α β : Type}

/-- The answer and the store left behind. -/
def exec (x : Effect σ ε α) (s : σ) : Except ε α × σ := x s

/-- One atomic action on the store. -/
def statement (f : σ → Except ε α × σ) : Effect σ ε α := f

@[simp] theorem exec_statement (f : σ → Except ε α × σ) (s : σ) : exec (statement f) s = f s := rfl

@[simp] theorem exec_pure (a : α) (s : σ) : exec (pure a : Effect σ ε α) s = (.ok a, s) := rfl

@[simp] theorem exec_throw (e : ε) (s : σ) : exec (throw e : Effect σ ε α) s = (.error e, s) := rfl

theorem exec_bind (x : Effect σ ε α) (f : α → Effect σ ε β) (s : σ) :
    exec (x >>= f) s = match exec x s with
      | (.ok a, t) => exec (f a) t
      | (.error e, t) => (.error e, t) := by
  change (StateT.bind x (ExceptT.bindCont f)) s = _
  simp only [exec, StateT.bind]
  cases x s with
  | mk answer t => cases answer <;> rfl

/-- What succeeds did each of its parts in turn. -/
theorem exec_bind_ok {x : Effect σ ε α} {f : α → Effect σ ε β} {s t : σ} :
    exec (x >>= f) s = (.ok b, t) ↔
      ∃ a u, exec x s = (.ok a, u) ∧ exec (f a) u = (.ok b, t) := by
  rw [exec_bind]
  constructor
  · intro h
    split at h
    · rename_i a u first
      exact ⟨a, u, first, h⟩
    · cases h
  · rintro ⟨a, u, first, second⟩
    rw [first]
    exact second

@[simp] theorem exec_map (g : α → β) (x : Effect σ ε α) (s : σ) :
    exec (g <$> x) s = match exec x s with
      | (.ok a, t) => (.ok (g a), t)
      | (.error e, t) => (.error e, t) := by
  rw [map_eq_pure_bind, exec_bind]
  rfl

/-- `?` on a result that needs no store -/
def ofResult (x : Except ε α) : Effect σ ε α := statement fun s => (x, s)

/-- `map_err` -/
def mapError (f : ε → ε') (x : Effect σ ε α) : Effect σ ε' α :=
  statement fun s => ((exec x s).1.mapError f, (exec x s).2)

@[simp] theorem exec_ofResult (x : Except ε α) (s : σ) :
    exec (ofResult x : Effect σ ε α) s = (x, s) := rfl

@[simp] theorem exec_ofResult_ok_bind (a : α) (f : α → Effect σ ε β) (s : σ) :
    exec (ofResult (.ok a) >>= f) s = exec (f a) s := by
  rw [exec_bind, exec_ofResult]

@[simp] theorem exec_ofResult_error_bind (e : ε) (f : α → Effect σ ε β) (s : σ) :
    exec (ofResult (.error e) >>= f) s = (.error e, s) := by
  rw [exec_bind, exec_ofResult]

@[simp] theorem exec_mapError (f : ε → ε') (x : Effect σ ε α) (s : σ) :
    exec (mapError f x) s = ((exec x s).1.mapError f, (exec x s).2) := rfl

theorem mapError_ok {f : ε → ε'} {x : Effect σ ε α} {s t : σ} :
    exec (mapError f x) s = (.ok a, t) ↔ exec x s = (.ok a, t) := by
  rw [exec_mapError]
  cases exec x s with
  | mk answer u => cases answer <;> simp [Except.mapError]

theorem exec_forM_cons (f : α → Effect σ ε PUnit) (a : α) (rest : List α) (s : σ) :
    exec ((a :: rest).forM f) s = match exec (f a) s with
      | (.ok _, t) => exec (rest.forM f) t
      | (.error e, t) => (.error e, t) := by
  change exec (f a >>= fun _ => rest.forM f) s = _
  rw [exec_bind]
  cases exec (f a) s with
  | mk answer t => cases answer <;> rfl

/-- A relation between stores that every step keeps is kept by a loop. -/
theorem exec_forM {R : σ → σ → Prop} (refl : ∀ s, R s s)
    (trans : ∀ {s t u}, R s t → R t u → R s u) {f : α → Effect σ ε PUnit} (items : List α)
    (each : ∀ a ∈ items, ∀ s, R s (exec (f a) s).2) (s : σ) : R s (exec (items.forM f) s).2 := by
  induction items generalizing s with
  | nil => exact refl s
  | cons a rest ih =>
    rw [exec_forM_cons]
    have first := each a List.mem_cons_self s
    have others := ih fun b member => each b (List.mem_cons_of_mem a member)
    cases stepped : exec (f a) s with
    | mk answer t =>
      rw [stepped] at first
      cases answer with
      | ok _ => exact trans first (others t)
      | error _ => exact first

section Relates
variable {R : σ → σ → Prop}

/-- Started in related stores, the effect answers alike and leaves related stores. -/
def Relates (R : σ → σ → Prop) (x : Effect σ ε α) : Prop :=
  ∀ s u, R s u → (exec x s).1 = (exec x u).1 ∧ R (exec x s).2 (exec x u).2

theorem relates_pure (a : α) : Relates R (pure a : Effect σ ε α) := fun _ _ related => ⟨rfl, related⟩

theorem relates_throw (e : ε) : Relates R (throw e : Effect σ ε α) := fun _ _ related => ⟨rfl, related⟩

theorem Relates.bind {x : Effect σ ε α} {f : α → Effect σ ε β} (first : Relates R x)
    (second : ∀ a, Relates R (f a)) : Relates R (x >>= f) := by
  intro s u related
  obtain ⟨same, after⟩ := first s u related
  rw [exec_bind, exec_bind]
  cases left : exec x s with
  | mk answer t =>
    cases right : exec x u with
    | mk answer' t' =>
      rw [left, right] at same after
      have same : answer = answer' := same
      subst same
      cases answer with
      | ok a => exact second a t t' after
      | error e => exact ⟨rfl, after⟩

theorem Relates.mapError {x : Effect σ ε α} (f : ε → ε') (related : Relates R x) :
    Relates R (mapError f x) := by
  intro s u initial
  obtain ⟨same, after⟩ := related s u initial
  exact ⟨congrArg (Except.mapError f) same, after⟩

end Relates
end Effect
