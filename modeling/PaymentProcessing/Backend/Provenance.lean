import PaymentProcessing.Backend.Moves

/-! Where the data of a worker comes from, in every reachable state: a payload in
progress was enqueued, its event is what the payload decodes to, a listed payment has
the row it was read from, and a logged event was handled. -/
namespace PaymentBackend

/-- The stream holds an entry with this payload. -/
def Store.Received (s : Store) (payload : String) : Prop := ∃ x ∈ s.stream, x.payload = some payload

/-- What one step leaves of everything the stores already held. -/
structure Store.Extends (s t : Store) : Prop where
  db : s.db.Grows t.db
  stream : s.stream ⊆ t.stream
  confirmed : s.confirmed ⊆ t.confirmed
  now : s.now ≤ t.now

namespace Store
variable {s t u : Store}

theorem Extends.refl (s : Store) : s.Extends s :=
    ⟨.refl _, fun _ h => h, fun _ h => h, Nat.le_refl _⟩

theorem Extends.trans (first : s.Extends t) (second : t.Extends u) : s.Extends u :=
  ⟨first.db.trans second.db, fun _ h => second.stream (first.stream h),
    fun _ h => second.confirmed (first.confirmed h), Nat.le_trans first.now second.now⟩

theorem Extends.received (h : s.Extends t) (received : s.Received payload) :
    t.Received payload := by
  obtain ⟨x, member, same⟩ := received
  exact ⟨x, h.stream member, same⟩

end Store

theorem Executes.extends (h : Executes env s handling t answer) : s.Extends t := by
  refine ⟨h.grows, ?_, ?_, ?_⟩ <;> cases h <;>
    simp [Store.putMark]

theorem Settles.extends (h : Settles s reconciling t next) : s.Extends t := by
  refine ⟨h.grows, ?_, ?_, ?_⟩ <;> cases h <;> simp

theorem ApiEffect.extends (h : ApiEffect s t) : s.Extends t := by
  refine ⟨h.grows, ?_, ?_, ?_⟩ <;> cases h <;> simp

namespace Services
variable {s t : Services} {env : Externals}

@[simp] theorem withStore_store (s : Services) (x : Store) : (s.withStore x).store = x := rfl

@[simp] theorem withStore_workers (s : Services) (x : Store) :
    (s.withStore x).workers = s.workers := rfl

@[simp] theorem withStore_seen (s : Services) (x : Store) : (s.withStore x).seen = s.seen := rfl

@[simp] theorem setWorker_store (s : Services) (w : Nat) (x : Worker) :
    (s.setWorker w x).store = s.store := rfl

@[simp] theorem setProcessor_store (s : Services) (w : Nat) (x : Processor) :
    (s.setProcessor w x).store = s.store := rfl

@[simp] theorem setReconciler_store (s : Services) (w : Nat) (x : Option Reconciling) :
    (s.setReconciler w x).store = s.store := rfl

@[simp] theorem noteSeen_store (s : Services) (payload : String) :
    (s.noteSeen env payload).store = s.store := by
  unfold noteSeen
  split <;> rfl

@[simp] theorem noteSeen_workers (s : Services) (payload : String) :
    (s.noteSeen env payload).workers = s.workers := by
  unfold noteSeen
  split <;> rfl

@[simp] theorem finish_store (s : Services) (w entry : Nat) : (s.finish w entry).store = s.store :=
    rfl

@[simp] theorem proceed_store (s : Services) (w entry : Nat) (next : Option Handling) :
    (s.proceed w entry next).store = s.store := by
  cases next <;> rfl

/-- A property of every worker after one worker was replaced. -/
theorem setWorker_forall {P : Nat → Worker → Prop} (others : ∀ v, P v (s.workers v))
    (this : P w x) :
    ∀ v, P v ((s.setWorker w x).workers v) := by
  intro v
  by_cases same : v = w
  · subst v
    simpa only [setWorker, Function.update_self] using this
  · simpa only [setWorker, Function.update_of_ne same] using others v

/-- The position a worker is left in by an answered statement. -/
theorem proceed_forall {P : Nat → Worker → Prop} (others : ∀ v, P v (s.workers v))
    (continues : ∀ following, next = some following →
      P w { s.workers w with processor :=
        { (s.workers w).processor with current := some (entry, following) } })
    (returns : next = none →
      P w { s.workers w with processor :=
        { (s.workers w).processor with lastId := entry, current := none } }) :
    ∀ v, P v ((s.proceed w entry next).workers v) := by
  cases next with
  | none => exact setWorker_forall others (returns rfl)
  | some following => exact setWorker_forall others (continues following rfl)

theorem Moves.extends (h : Moves env s a t) : s.store.Extends t.store := by
  cases h with
  | elapse n =>
    exact ⟨.refl _, fun _ h => h, fun _ h => h, Nat.le_add_right _ _⟩
  | request a t api effect => exact effect.extends
  | webhook gateway event payload same => exact ⟨.refl _, by simp, fun _ h => h, Nat.le_refl _⟩
  | statement w entry handling t answer current executed => simpa using executed.extends
  | failed w applied entry handling t current outcome =>
    rcases outcome with ⟨rfl, -⟩ | ⟨-, answer, executed⟩
    · exact .refl _
    · exact executed.extends
  | reconcile w reconciling t next current settled => exact settled.extends
  | abandoned w applied reconciling t current outcome =>
    rcases outcome with rfl | ⟨-, next, settled⟩
    · exact .refl _
    · exact settled.extends
  | take w lastId entry payload rest processor => simpa using Store.Extends.refl _
  | read w lastId processor => exact .refl _
  | crash w => exact .refl _
  | sweep w rows pending => exact .refl _

end Services

/-- The row that a listed payment was read from; its status may have changed since. -/
def Database.Listed (db : Database) (entry : Uuid × Uuid × String) : Prop :=
  ∃ p ∈ db.payments, p.selected = entry

theorem Database.Grows.listed (grows : Database.Grows db db') (h : db.Listed entry) :
    db'.Listed entry := by
  obtain ⟨p, member, same⟩ := h
  cases grows.payments p member with
  | inl kept => exact ⟨p, kept, same⟩
  | inr paid => exact ⟨Database.setSuccess p, paid, same⟩

def Handling.payload : Handling → String
  | .mark payload | .expire payload _ | .log payload _ | .pay payload _ | .publish payload _ => payload

def Reconciling.pending : Reconciling → List (Uuid × Uuid × String)
  | .pay pending | .settle _ _ pending => pending

/-- What `handle_event` has established when it is about to execute a statement. -/
def Handling.Reached (env : Externals) (s : Store) : Handling → Prop
  | .mark _ => True
  | .expire payload event | .log payload event => env.fromJson payload = some event
  | .pay payload event | .publish payload event =>
      env.fromJson payload = some event ∧ event.status = .success ∧ s.db.Logged event.key

/-- A worker holds only what it got from the stores. -/
structure Worker.Sound (env : Externals) (s : Store) (worker : Worker) : Prop where
  batch : ∀ e ∈ worker.processor.batch, s.Received e.2
  received : ∀ entry h, worker.processor.current = some (entry, h) → s.Received h.payload
  reached : ∀ entry h, worker.processor.current = some (entry, h) → h.Reached env s
  pending : ∀ r, worker.reconciler = some r → ∀ x ∈ r.pending, s.db.Listed x

/-- The event in progress has been noted in the history. -/
def Worker.Started (env : Externals) (seen : List (String × String)) (worker : Worker) : Prop :=
  ∀ entry h, worker.processor.current = some (entry, h) →
    ∀ event, env.fromJson h.payload = some event → event.key ∈ seen

section Sound
variable {env : Externals} {s t : Store} {worker : Worker}

theorem Handling.Reached.extend {h : Handling} (reached : h.Reached env s)
    (extends_ : s.Extends t) :
    h.Reached env t := by
  cases h with
  | mark => trivial
  | expire | log => exact reached
  | pay | publish => exact ⟨reached.1, reached.2.1, extends_.db.logged reached.2.2⟩

theorem Worker.Sound.extend (sound : worker.Sound env s) (extends_ : s.Extends t) :
    worker.Sound env t :=
  ⟨fun e member => extends_.received (sound.batch e member),
    fun entry h current => extends_.received (sound.received entry h current),
    fun entry h current => (sound.reached entry h current).extend extends_,
    fun r current x member => extends_.db.listed (sound.pending r current x member)⟩

theorem Worker.booted_sound : Worker.booted.Sound env s :=
  ⟨by simp [booted], by simp [booted], by simp [booted], by simp [booted]⟩

/-- One statement of `handle_event` establishes what the next one relies on. -/
theorem Executes.reached (h : Executes env s handling t (.ok (some next)))
    (before : handling.Reached env s) :
    next.Reached env t ∧ next.payload = handling.payload := by
  cases h with
  | marked decoded _ => exact ⟨decoded, rfl⟩
  | expired | gone => exact ⟨before, rfl⟩
  | logged _ inserted success =>
    exact ⟨⟨before, success, (Database.insertTransaction_ok inserted).2.2.2.1⟩, rfl⟩
  | paid => exact
    ⟨⟨before.1, before.2.1, (Database.markSuccess_grows _ _ _).logged before.2.2⟩, rfl⟩

/-- A reconciliation statement leaves the rest of its list. -/
theorem Settles.pending (h : Settles s reconciling t (some next)) :
    next.pending ⊆ reconciling.pending := by
  cases h with
  | paid => exact List.subset_cons_self _ _
  | settled => exact List.Subset.refl _

theorem Settles.logged_of (h : Settles s reconciling t next) (logged : t.db.Logged key) :
    s.db.Logged key := by
  cases h with
  | settled inserted =>
    simpa only [Database.Logged, (Database.insertSettlement_ok inserted).2.2.1] using logged
  | _ => exact logged

/-- Rows enter the log only through the event whose statement is executed. -/
theorem Executes.logged_of (h : Executes env s handling t answer) (logged : t.db.Logged key) :
    s.db.Logged key ∨ ∃ payload event, handling = .log payload event ∧ key = event.key := by
  have inserted {db : Database} {event : GatewayWebhookEvent} {payload : String}
      (ok : s.db.insertTransaction (Repository.transactionRow env event) = .ok db)
      (logged : db.Logged key) : s.db.Logged key ∨
        ∃ p e, Handling.log payload event = .log p e ∧ key = e.key := by
    obtain ⟨-, -, -, -, rfl | ⟨-, rows⟩⟩ := Database.insertTransaction_ok ok
    · exact Or.inl logged
    · obtain ⟨r, member, same⟩ := logged
      rw [rows, List.mem_append, List.mem_singleton] at member
      rcases member with old | rfl
      · exact Or.inl ⟨r, old, same⟩
      · exact Or.inr ⟨payload, event, rfl, same.symm⟩
  cases h with
  | recorded _ ok | logged _ ok => exact inserted ok logged
  | _ => exact Or.inl logged

end Sound

namespace Services

structure Sound (env : Externals) (s : Services) : Prop where
  workers : ∀ w, (s.workers w).Sound env s.store
  started : ∀ w, (s.workers w).Started env s.seen
  logged : ∀ key, s.store.db.Logged key → key ∈ s.seen

variable {env : Externals} {gateways : List PaymentGateway} {s t : Services}

theorem initial_sound : initial.Sound env :=
  ⟨fun _ => Worker.booted_sound, by simp [initial, Worker.booted, Worker.Started], by
    rintro key ⟨r, member, -⟩
    cases member⟩

theorem readAfter_received {s : Store} (member : e ∈ readAfter s.stream lastId count) :
    s.Received e.2 := by
  obtain ⟨x, inside, found⟩ := List.mem_filterMap.mp member
  obtain ⟨payload, present, rfl⟩ := Option.map_eq_some_iff.mp found
  exact ⟨x, List.mem_of_mem_filter (List.mem_of_mem_take inside), present⟩

theorem Moves.workers_sound (h : Moves env s a t) (sound : s.Sound env) :
    ∀ w, (t.workers w).Sound env t.store := by
  have kept : ∀ w, (s.workers w).Sound env t.store := fun w => (sound.workers w).extend h.extends
  cases h with
  | elapse | request | webhook => exact kept
  | read w lastId processor =>
    refine setWorker_forall kept
      ⟨fun e member => readAfter_received member, ?_, ?_, (kept w).pending⟩
    · simp
    · simp
  | take w lastId entry payload rest processor =>
    simp only [noteSeen_workers, noteSeen_store] at kept ⊢
    have batch := (kept w).batch
    rw [processor] at batch
    refine setWorker_forall kept
      ⟨fun e member => batch e (List.mem_cons_of_mem _ member), ?_, ?_, (kept w).pending⟩
    · rintro _ _ ⟨⟩
      exact batch _ List.mem_cons_self
    · rintro _ _ ⟨⟩
      trivial
  | statement w entry handling u answer current executed =>
    rw [proceed_store] at kept ⊢
    refine proceed_forall kept (fun following continues => ?_) (fun _ => ?_)
    · cases continuation_eq_some.mp continues
      obtain ⟨reached, same⟩ := executed.reached ((sound.workers w).reached _ _ current)
      refine ⟨(kept w).batch, ?_, ?_, (kept w).pending⟩
      · rintro _ _ ⟨⟩
        rw [same]
        exact (kept w).received _ _ current
      · rintro _ _ ⟨⟩
        exact reached
    · exact ⟨(kept w).batch, by simp, by simp, (kept w).pending⟩
  | failed w applied entry handling u current outcome =>
    exact setWorker_forall kept ⟨(kept w).batch, by simp, by simp, (kept w).pending⟩
  | crash w => exact setWorker_forall kept Worker.booted_sound
  | sweep w rows pending =>
    refine setWorker_forall kept ⟨(kept w).batch, (kept w).received, (kept w).reached, ?_⟩
    rintro _ ⟨⟩ x member
    obtain ⟨row, inside, rfl⟩ := List.mem_map.mp member
    exact ⟨row, (pending.2.2.1 row inside).1, rfl⟩
  | reconcile w reconciling u next current settled =>
    refine setWorker_forall kept ⟨(kept w).batch, (kept w).received, (kept w).reached, ?_⟩
    rintro following rfl x member
    exact (kept w).pending _ current x (settled.pending member)
  | abandoned w applied reconciling u current outcome =>
    exact setWorker_forall kept ⟨(kept w).batch, (kept w).received, (kept w).reached, by simp⟩

theorem noteSeen_key (decoded : env.fromJson payload = some event) :
    (s.noteSeen env payload).seen = event.key :: s.seen := by
  unfold noteSeen
  split
  · rename_i e same
    cases decoded.symm.trans same
    rfl
  · rename_i none
    cases decoded.symm.trans none

theorem seen_noteSeen (s : Services) (payload : String) :
    s.seen ⊆ (s.noteSeen env payload).seen := by
  unfold noteSeen
  split
  · exact List.subset_cons_self _ _
  · exact List.Subset.refl _

theorem Moves.seen (h : Moves env s a t) : s.seen ⊆ t.seen := by
  cases h with
  | take w lastId entry payload rest processor =>
    exact seen_noteSeen (s.setProcessor w ⟨lastId, rest, some (entry, .mark payload)⟩) payload
  | statement w entry handling u answer =>
    cases h : continuation answer <;> exact List.Subset.refl _
  | _ => exact List.Subset.refl _

theorem Moves.started (h : Moves env s a t) (sound : s.Sound env) :
    ∀ w, (t.workers w).Started env t.seen := by
  have kept : ∀ w, (s.workers w).Started env t.seen := fun w entry handling current event decoded =>
    h.seen (sound.started w entry handling current event decoded)
  cases h with
  | elapse | request | webhook => exact kept
  | read w lastId processor => exact setWorker_forall kept (by simp [Worker.Started])
  | take w lastId entry payload rest processor =>
    simp only [noteSeen_workers]
    apply setWorker_forall kept
    rintro _ _ ⟨⟩ event decoded
    have decoded : env.fromJson payload = some event := decoded
    rw [noteSeen_key decoded]
    exact List.mem_cons_self
  | statement w entry handling u answer current executed =>
    refine proceed_forall kept (fun following continues => ?_) (fun _ => by simp [Worker.Started])
    cases continuation_eq_some.mp continues
    rintro _ _ ⟨⟩ event decoded
    rw [(executed.reached ((sound.workers w).reached _ _ current)).2] at decoded
    exact kept w entry handling current event decoded
  | failed w applied entry handling u current outcome =>
    exact setWorker_forall kept (by simp [Worker.Started])
  | crash w => exact setWorker_forall kept (by simp [Worker.Started, Worker.booted])
  | sweep w rows pending => exact setWorker_forall kept (kept w)
  | reconcile w reconciling u next current settled => exact setWorker_forall kept (kept w)
  | abandoned w applied reconciling u current outcome => exact setWorker_forall kept (kept w)

/-- Handling an event is the only way into the log. -/
theorem Moves.logged (h : Moves env s a t) (sound : s.Sound env)
    (logged : t.store.db.Logged key) : key ∈ t.seen := by
  apply h.seen
  have executed {w entry handling u answer}
      (current : (s.workers w).processor.current = some (entry, handling))
      (step : Executes env s.store handling u answer) (logged : u.db.Logged key) :
        key ∈ s.seen := by
    rcases step.logged_of logged with old | ⟨payload, event, rfl, rfl⟩
    · exact sound.logged key old
    · exact sound.started w entry _ current event ((sound.workers w).reached _ _ current)
  cases h with
  | statement w entry handling u answer current step =>
    rw [proceed_store] at logged
    exact executed current step logged
  | failed w applied entry handling u current outcome =>
    rcases outcome with ⟨rfl, -⟩ | ⟨-, answer, step⟩
    · exact sound.logged key logged
    · exact executed current step logged
  | request a u api effect =>
    cases effect with
    | answered => exact sound.logged key logged
    | order _ inserted =>
      exact sound.logged key (by
        simpa only [Database.Logged, withStore_store,
          (Database.insertOrder_ok inserted).2.2.2.1] using logged)
    | payment _ _ inserted =>
      exact sound.logged key (by
        simpa only [Database.Logged, withStore_store, (Database.insertPayment_ok inserted).2.2.2.1]
          using logged)
  | reconcile w reconciling u next current settled =>
    exact sound.logged key (settled.logged_of logged)
  | abandoned w applied reconciling u current outcome =>
    rcases outcome with rfl | ⟨-, next, settled⟩
    · exact sound.logged key logged
    · exact sound.logged key (settled.logged_of logged)
  | take w => exact sound.logged key (by simpa using logged)
  | _ => exact sound.logged key logged

theorem Moves.sound (h : Moves env s a t) (sound : s.Sound env) : t.Sound env :=
  ⟨h.workers_sound sound, h.started sound, fun _ logged => h.logged sound logged⟩

theorem run_sound (h : Transition.run (step env gateways) initial schedule = some t) :
    t.Sound env :=
  Transition.invariant (I := Sound env)
    (fun sound stepped => (step_moves env gateways stepped).sound sound)
    initial_sound h

end Services
end PaymentBackend
