import PaymentProcessing.Backend.Provenance

/-! Calls of `handle_event` between their `SETNX` and their last statement. Such a
call ends in one of two ways: its last statement takes effect, or it is cut short by
a rejected statement, a failure or a crash, and the mark stays behind. -/
namespace PaymentBackend

/-- The event whose idempotency key this call has set. -/
def Handling.held : Handling → Option GatewayWebhookEvent
  | .mark _ => none
  | .expire _ event | .log _ event | .pay _ event | .publish _ event => some event

theorem Handling.Reached.decoded {h : Handling} (reached : h.Reached env s)
    (held : h.held = some event) :
    env.fromJson h.payload = some event := by
  cases h with
  | mark => cases held
  | expire | log => cases held; exact reached
  | pay | publish => cases held; exact reached.1

/-- The statements of one call act on one event. -/
theorem Executes.held (h : Executes env s handling t (.ok (some next)))
    (held : handling.held = some event) :
    next.held = some event := by
  cases h with
  | marked => cases held
  | expired | gone | logged | paid => exact held

theorem Executes.payload (h : Executes env s handling t (.ok (some next))) :
    next.payload = handling.payload := by
  cases h <;> rfl

/-- A call gets hold of an event only by setting its key. -/
theorem Executes.setNx (h : Executes env s handling t (.ok (some next)))
    (held : next.held = some event) :
    handling.held = some event ∨
      handling = .mark next.payload ∧ env.fromJson next.payload = some event ∧
        s.marked (idemKey event) = false := by
  cases h with
  | marked decoded absent =>
    cases held
    exact Or.inr ⟨rfl, decoded, absent⟩
  | expired | gone | logged | paid => exact Or.inl held

theorem Store.putMark_marked {s : Store} (h : (s.putMark key expiry).marked other = true) :
    s.marked other = true ∨ other = key := by
  by_cases same : other = key
  · exact Or.inr same
  · apply Or.inl
    simpa only [marked, putMark, if_neg same] using h

/-- Time only takes marks away. -/
theorem Store.marked_of_later {s t : Store} (same : t.marks = s.marks) (later : s.now ≤ t.now)
    (h : t.marked key = true) : s.marked key = true := by
  simp only [marked, same] at h ⊢
  cases entry : s.marks key with
  | none => simp [entry] at h
  | some expiry =>
    cases expiry with
    | never => rfl
    | «at» second =>
      simp only [entry, Option.any_some, Expiry.live, decide_eq_true_eq] at h ⊢
      omega

/-- A mark comes from the call that holds its event. -/
theorem Executes.marked_of (h : Executes env s handling t answer) (marked : t.marked key = true) :
    s.marked key = true ∨ ∃ next event, answer = .ok (some next) ∧ next.payload = handling.payload ∧
      next.held = some event ∧ env.fromJson next.payload = some event ∧ idemKey event = key := by
  cases h with
  | marked decoded absent =>
    rcases Store.putMark_marked marked with before | rfl
    · exact Or.inl before
    · exact Or.inr ⟨_, _, rfl, rfl, rfl, decoded, rfl⟩
  | expired present =>
    rcases Store.putMark_marked marked with before | rfl
    · exact Or.inl before
    · exact Or.inl present
  | _ => exact Or.inl marked

theorem Settles.marked_of (h : Settles s reconciling t next) (marked : t.marked key = true) :
    s.marked key = true := by
  cases h <;> exact marked

theorem ApiEffect.marked_of (h : ApiEffect s t) (marked : t.marked key = true) :
    s.marked key = true := by
  cases h <;> exact marked

namespace Services
variable {env : Externals} {s t : Services}

/-- The call of `handle_event` that worker `w` is in. -/
def call (s : Services) (w : Nat) : Option Handling := (s.workers w).processor.current.map Prod.snd

/-- Worker `w` handles this event and has set its key. -/
def Holds (s : Services) (w : Nat) (payload : String) (event : GatewayWebhookEvent) : Prop :=
  ∃ h, s.call w = some h ∧ h.payload = payload ∧ h.held = some event

/-- The event whose handling ends in this step before its last statement took effect. -/
def cutShort (env : Externals) (s : Services) : Action → Option GatewayWebhookEvent
  | .statement w => (s.call w).bind fun h =>
      match ((h.next env).exec s.store).1 with
      | .error _ => h.held
      | .ok _ => none
  | .failure w true => (s.call w).bind fun h =>
      match ((h.next env).exec s.store).1 with
      | .error _ => h.held
      | .ok following => following.bind Handling.held
  | .failure w false | .crash w => (s.call w).bind Handling.held
  | _ => none

/-- The payload and event whose last statement takes effect in this step. -/
def completes (env : Externals) (s : Services) (a : Action) : Option (String × GatewayWebhookEvent) :=
  (s.performed a).bind fun h =>
    match ((h.next env).exec s.store).1 with
    | .ok none => h.held.map (h.payload, ·)
    | _ => none

/-- The event whose key this step looks up, in a call that goes on afterwards. -/
def looksUp (env : Externals) (s : Services) : Action → Option GatewayWebhookEvent
  | .statement w => (s.call w).bind fun
      | .mark payload => env.fromJson payload
      | _ => none
  | _ => none

/-- The event that `handle_event` skips as a duplicate in this step. -/
def skips (env : Externals) (s : Services) (a : Action) : Option GatewayWebhookEvent :=
  (s.looksUp env a).filter fun event => s.store.marked (idemKey event)

/-- The event whose key this step sets. -/
def begins (env : Externals) (s : Services) (a : Action) : Option GatewayWebhookEvent :=
  (s.looksUp env a).filter fun event => !s.store.marked (idemKey event)

theorem performed_worker (h : s.performed a = some handling) :
    ∃ w, a.worker = some w ∧ s.call w = some handling := by
  cases a with
  | statement w => exact ⟨w, rfl, h⟩
  | failure w applied =>
    cases applied with
    | true => exact ⟨w, rfl, h⟩
    | false => cases h
  | _ => cases h

theorem call_of_current (h : (s.workers w).processor.current = some (entry, handling)) :
    s.call w = some handling := by
  simp only [call, h, Option.map_some]

theorem Sound.reached (sound : s.Sound env) (called : s.call v = some handling) :
    handling.Reached env s.store ∧ s.store.Received handling.payload := by
  obtain ⟨⟨entry, h⟩, current, rfl⟩ := Option.map_eq_some_iff.mp called
  exact ⟨(sound.workers v).reached entry h current, (sound.workers v).received entry h current⟩

theorem Sound.holds (sound : s.Sound env) (holds : s.Holds v payload event) :
    s.store.Received payload := by
  obtain ⟨handling, called, rfl, -⟩ := holds
  exact (sound.reached called).2

theorem call_setProcessor (s : Services) (w : Nat) (p : Processor) (v : Nat) :
    (s.setProcessor w p).call v = if v = w then p.current.map Prod.snd else s.call v := by
  by_cases same : v = w
  · subst same
    simp [call, setProcessor, setWorker]
  · simp [call, setProcessor, setWorker, same]

theorem call_setReconciler (s : Services) (w : Nat) (r : Option Reconciling) (v : Nat) :
    (s.setReconciler w r).call v = s.call v := by
  by_cases same : v = w
  · subst same
    simp [call, setReconciler, setWorker]
  · simp [call, setReconciler, setWorker, same]

theorem call_proceed (s : Services) (w entry : Nat) (next : Option Handling) (v : Nat) :
    (s.proceed w entry next).call v = if v = w then next else s.call v := by
  cases next with
  | none => exact call_setProcessor s w _ v
  | some following => exact call_setProcessor s w _ v

theorem looksUp_marking (h : s.looksUp env a = some event) :
    ∃ v payload, a.worker = some v ∧ s.call v = some (.mark payload) := by
  cases a with
  | statement v =>
    obtain ⟨handling, called, decoded⟩ := Option.bind_eq_some_iff.mp h
    cases handling with
    | mark payload => exact ⟨v, payload, rfl, called⟩
    | _ => cases decoded
  | _ => cases h

/-- A single worker has no other call in progress when it looks up a key. -/
theorem looksUp_alone (idle : ∀ v ≠ w, s.call v = none) (acts : ∀ v ∈ a.worker, v = w)
    (h : s.looksUp env a = some event) : ¬ s.Holds v payload other := by
  rintro ⟨handling, called, -, held⟩
  obtain ⟨v', payload', actor, marking⟩ := looksUp_marking h
  have same : v = w := by
    by_contra different
    cases called.symm.trans (idle v different)
  cases same.trans (acts v' actor).symm
  cases called.symm.trans marking
  cases held

/-- What a step does to the call that worker `v` is in. -/
inductive CallStep (env : Externals) (s : Services) (a : Action) (t : Services) (v : Nat) : Prop where
  | same : t.call v = s.call v → CallStep env s a t v
  | taken (payload) : a = .take v → s.call v = none → t.call v = some (.mark payload) →
      CallStep env s a t v
  | answered (h answer) : a = .statement v → s.call v = some h → Executes env s.store h t.store answer →
      t.call v = continuation answer → CallStep env s a t v
  | stopped : a = .crash v ∨ (∃ applied, a = .failure v applied) → t.call v = none →
      CallStep env s a t v

theorem Moves.callStep (h : Moves env s a t) (v : Nat) : CallStep env s a t v := by
  cases h with
  | elapse | request | webhook => exact .same rfl
  | read w lastId processor =>
    refine .same ?_
    rw [call_setProcessor]
    split
    · rename_i same
      simp [call, same, processor]
    · rfl
  | take w lastId entry payload rest processor =>
    have called := call_setProcessor s w ⟨lastId, rest, some (entry, .mark payload)⟩ v
    by_cases same : v = w
    · subst same
      refine .taken payload rfl (by simp [call, processor]) ?_
      simpa only [call, noteSeen_workers, if_true, Option.map_some] using called
    · refine .same ?_
      simpa only [call, noteSeen_workers, if_neg same] using called
  | statement w entry handling u answer current executed =>
    by_cases same : v = w
    · subst same
      refine .answered handling answer rfl (call_of_current current) (by simpa using executed) ?_
      exact (call_proceed _ v entry _ v).trans (if_pos rfl)
    · exact .same ((call_proceed _ w entry _ v).trans (if_neg same))
  | failed w applied entry handling u current outcome =>
    by_cases same : v = w
    · subst same
      exact .stopped (Or.inr ⟨applied, rfl⟩) ((call_setProcessor _ v _ v).trans (if_pos rfl))
    · exact .same ((call_setProcessor _ w _ v).trans (if_neg same))
  | crash w =>
    by_cases same : v = w
    · subst same
      exact .stopped (Or.inl rfl) (by simp [call, setWorker, Worker.booted])
    · refine .same ?_
      simp [call, setWorker, Function.update_of_ne same]
  | sweep w | reconcile w | abandoned w => exact .same (call_setReconciler _ w _ v)

/-- What a step does to the reconciliation pass that worker `v` is in. -/
inductive PassStep (env : Externals) (s : Services) (a : Action) (t : Services) (v : Nat) : Prop where
  | same : (t.workers v).reconciler = (s.workers v).reconciler → PassStep env s a t v
  | swept (rows) : a = .sweep v rows → s.store.db.PendingRead rows →
      (t.workers v).reconciler = some (.pay (rows.map PaymentRow.selected)) → PassStep env s a t v
  | answered (r next) : a = .reconcile v → (s.workers v).reconciler = some r →
      Settles s.store r t.store next → (t.workers v).reconciler = next → PassStep env s a t v
  | stopped : a = .crash v ∨ (∃ applied, a = .reconcileFailure v applied) →
      (t.workers v).reconciler = none → PassStep env s a t v

theorem pass_setReconciler (s : Services) (w : Nat) (r : Option Reconciling) (v : Nat) :
    ((s.setReconciler w r).workers v).reconciler =
      if v = w then r else (s.workers v).reconciler := by
  by_cases same : v = w
  · subst same
    simp [setReconciler, setWorker]
  · simp [setReconciler, setWorker, same]

theorem pass_setProcessor (s : Services) (w : Nat) (p : Processor) (v : Nat) :
    ((s.setProcessor w p).workers v).reconciler = (s.workers v).reconciler := by
  by_cases same : v = w
  · subst same
    simp [setProcessor, setWorker]
  · simp [setProcessor, setWorker, same]

theorem Moves.passStep (h : Moves env s a t) (v : Nat) : PassStep env s a t v := by
  cases h with
  | elapse | request | webhook => exact .same rfl
  | read w lastId processor => exact .same (pass_setProcessor s w _ v)
  | take w lastId entry payload rest processor =>
    refine .same ?_
    rw [noteSeen_workers]
    exact pass_setProcessor s w _ v
  | statement w entry handling u answer current executed =>
    cases continues : continuation answer with
    | none => exact .same (pass_setProcessor _ w _ v)
    | some following => exact .same (pass_setProcessor _ w _ v)
  | failed w applied entry handling u current outcome => exact .same (pass_setProcessor _ w _ v)
  | crash w =>
    by_cases same : v = w
    · subst same
      exact .stopped (Or.inl rfl) (by simp [setWorker, Worker.booted])
    · refine .same ?_
      simp [setWorker, Function.update_of_ne same]
  | sweep w rows pending =>
    have left := pass_setReconciler s w (some (.pay (rows.map PaymentRow.selected))) v
    by_cases same : v = w
    · subst same
      exact .swept rows rfl pending (left.trans (if_pos rfl))
    · exact .same (left.trans (if_neg same))
  | reconcile w reconciling u next current settled =>
    have left := pass_setReconciler (s.withStore u) w next v
    by_cases same : v = w
    · subst same
      exact .answered reconciling next rfl current settled (left.trans (if_pos rfl))
    · exact .same (left.trans (if_neg same))
  | abandoned w applied reconciling u current outcome =>
    have left := pass_setReconciler (s.withStore u) w none v
    by_cases same : v = w
    · subst same
      exact .stopped (Or.inr ⟨applied, rfl⟩) (left.trans (if_pos rfl))
    · exact .same (left.trans (if_neg same))

/-- A worker that does not act stays where it is. -/
theorem Moves.call_of_other (h : Moves env s a t) (other : a.worker ≠ some v) :
    t.call v = s.call v := by
  cases h.callStep v with
  | same kept => exact kept
  | taken _ action => exact absurd (action ▸ rfl) other
  | answered _ _ action => exact absurd (action ▸ rfl) other
  | stopped action =>
    rcases action with rfl | ⟨applied, rfl⟩
    · exact absurd rfl other
    · exact absurd rfl other

theorem Moves.idle (h : Moves env s a t) (acts : ∀ v ∈ a.worker, v = w)
    (idle : ∀ v ≠ w, s.call v = none) :
    ∀ v ≠ w, t.call v = none := by
  intro v other
  have kept := h.call_of_other fun actor => other (acts v actor)
  rw [kept]
  exact idle v other

/-- A call that holds an event goes on, completes or is cut short. -/
theorem Moves.holds (h : Moves env s a t) (holds : s.Holds v payload event) :
    t.Holds v payload event ∨ s.cutShort env a = some event ∨
      s.completes env a = some (payload, event) := by
  obtain ⟨handling, called, rfl, held⟩ := holds
  cases h.callStep v with
  | same kept => exact Or.inl ⟨handling, kept.trans called, rfl, held⟩
  | taken payload _ idle => cases called.symm.trans idle
  | answered handling' answer action called' executed continues =>
    cases called.symm.trans called'
    subst action
    cases answer with
    | error e => exact Or.inr (Or.inl (by simp [cutShort, called, executed.exec, held]))
    | ok following =>
      cases following with
      | none =>
        have done : s.performed (.statement v) = some handling := called
        exact Or.inr (Or.inr (by simp [completes, done, executed.exec, held]))
      | some next => exact Or.inl ⟨next, continues, executed.payload, executed.held held⟩
  | stopped action _ =>
    apply Or.inr
    rcases action with rfl | ⟨applied, rfl⟩
    · exact Or.inl (by simp [cutShort, called, held])
    · cases applied with
      | false => exact Or.inl (by simp [cutShort, called, held])
      | true =>
        have executed := executes_next env s.store handling
        have done : s.performed (.failure v true) = some handling := called
        cases answer : ((handling.next env).exec s.store).1 with
        | error e => exact Or.inl (by simp [cutShort, called, answer, held])
        | ok following =>
          cases following with
          | none => exact Or.inr (by simp [completes, done, answer, held])
          | some next =>
            rw [answer] at executed
            exact Or.inl (by simp [cutShort, called, answer, executed.held held])

/-- A call comes to hold an event only by setting its key. -/
theorem Moves.held_of (h : Moves env s a t) (holds : t.Holds v payload event) :
    s.Holds v payload event ∨ a = .statement v ∧ s.begins env a = some event := by
  obtain ⟨handling, called, rfl, held⟩ := holds
  cases h.callStep v with
  | same kept => exact Or.inl ⟨handling, kept.symm.trans called, rfl, held⟩
  | taken payload _ _ marking =>
    cases called.symm.trans marking
    cases held
  | answered before answer action called' executed continues =>
    cases continuation_eq_some.mp (continues.symm.trans called)
    rcases executed.setNx held with heldBefore | ⟨rfl, decoded, absent⟩
    · exact Or.inl ⟨before, called', executed.payload.symm, heldBefore⟩
    · subst action
      exact Or.inr ⟨rfl, by simp [begins, looksUp, called', decoded, absent]⟩
  | stopped _ ended => cases called.symm.trans ended

/-- Every mark is one that was there before, or its event is now held or was cut short. -/
theorem Moves.marked_of (h : Moves env s a t) (marked : t.store.marked key = true) :
    s.store.marked key = true ∨ ∃ v payload event, env.fromJson payload = some event ∧
      idemKey event = key ∧ (t.Holds v payload event ∨ s.cutShort env a = some event) := by
  cases h with
  | elapse n =>
    have later : s.store.now ≤ s.store.now + n := Nat.le_add_right _ _
    exact Or.inl (Store.marked_of_later
      (t := { s.store with now := s.store.now + n }) rfl later marked)
  | request a u api effect => exact Or.inl (effect.marked_of marked)
  | webhook gateway event payload same => exact Or.inl marked
  | statement w entry handling u answer current executed =>
    rw [proceed_store] at marked
    rcases executed.marked_of marked with before | ⟨next, event, rfl, same, held, decoded, key⟩
    · exact Or.inl before
    · exact Or.inr ⟨w, next.payload, event, decoded, key,
        Or.inl ⟨next, (call_proceed _ w entry _ w).trans (if_pos rfl), rfl, held⟩⟩
  | failed w applied entry handling u current outcome =>
    rcases outcome with ⟨rfl, -⟩ | ⟨rfl, answer, executed⟩
    · exact Or.inl marked
    · rcases executed.marked_of marked with before | ⟨next, event, rfl, same, held, decoded, key⟩
      · exact Or.inl before
      · exact Or.inr ⟨w, next.payload, event, decoded, key, Or.inr
          (by simp [cutShort, call_of_current current, executed.exec, held])⟩
  | reconcile w reconciling u next current settled => exact Or.inl (settled.marked_of marked)
  | abandoned w applied reconciling u current outcome =>
    rcases outcome with rfl | ⟨-, next, settled⟩
    · exact Or.inl marked
    · exact Or.inl (settled.marked_of marked)
  | take w lastId entry payload rest processor => exact Or.inl (by simpa using marked)
  | read w | crash w | sweep w => exact Or.inl marked

end Services
end PaymentBackend
