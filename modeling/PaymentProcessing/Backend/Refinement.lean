import PaymentProcessing.Backend.Provenance

/-! The statement machine computes the functions of the source: executed without
interruption, the statements of a call leave the stores as `handleEvent` and
`reconcileRows` leave them, and the worker where the function returns. -/
namespace PaymentBackend
variable {env : Externals}

/-- Execution of a call from one of its statements to its return. -/
inductive Returns (env : Externals) : Store → Handling → Store → Except Failure Unit → Prop where
  | returned : Executes env s handling t (.ok none) → Returns env s handling t (.ok ())
  | failed : Executes env s handling t (.error e) → Returns env s handling t (.error e)
  | next : Executes env s handling t (.ok (some rest)) → Returns env t rest u answer →
      Returns env s handling u answer

/-- The part of `handleEvent` that runs with the key set. -/
def processEvent (env : Externals) (payload : String) (event : GatewayWebhookEvent) :
    Effect Store Failure Unit := do
  Repository.logTransaction env event
  if event.status = .success then
    Repository.markPaymentSuccess event.paymentId event.orderId
    publishPaymentConfirmed payload

theorem processEvent_returns (payload : String) (event : GatewayWebhookEvent) (s : Store) :
    Returns env s (.log payload event) ((processEvent env payload event).exec s).2
      ((processEvent env payload event).exec s).1 := by
  have logging := executes_next env s (.log payload event)
  simp only [Handling.next, Effect.exec_bind] at logging
  simp only [processEvent, Effect.exec_bind]
  cases logged : (Repository.logTransaction env event).exec s with
  | mk answer t =>
    simp only [logged] at logging
    cases answer with
    | error e => exact .failed logging
    | ok done =>
      by_cases success : event.status = .success
      · simp only [success, if_true, Effect.exec_pure] at logging ⊢
        exact .next logging (.next .paid (.returned .published))
      · simp only [success, if_false, Effect.exec_pure] at logging ⊢
        exact .returned logging

theorem Store.putMark_self (s : Store) (key : String) :
    (s.putMark key .never).marked key = true := by
  simp [marked, putMark, Expiry.live]

/-- The store once a call has set its key and the key's expiry. -/
def Store.claim (s : Store) (event : GatewayWebhookEvent) : Store :=
  (s.putMark (idemKey event) .never).putMark (idemKey event) (.at (s.now + 3600))

theorem handleEvent_unmarked (decoded : env.fromJson payload = some event)
    (absent : s.marked (idemKey event) = false) :
    (handleEvent env payload).exec s = (processEvent env payload event).exec (s.claim event) := by
  have held := s.putMark_self (idemKey event)
  unfold Store.putMark at held
  simp [handleEvent, processEvent, parseEvent, decoded, markIfAbsent, setNx, expire, absent, held,
    Effect.exec_bind, Store.claim, Store.putMark]

theorem handleEvent_marked (decoded : env.fromJson payload = some event)
    (present : s.marked (idemKey event) = true) :
    (handleEvent env payload).exec s = (.ok (), s) := by
  simp [handleEvent, parseEvent, decoded, markIfAbsent, setNx, present, Effect.exec_bind]

/-- `handleEvent` is the execution of its statements from `SETNX` on. -/
theorem handleEvent_returns (env : Externals) (payload : String) (s : Store) :
    Returns env s (.mark payload) ((handleEvent env payload).exec s).2
      ((handleEvent env payload).exec s).1 := by
  cases decoded : env.fromJson payload with
  | none =>
    have executed : (handleEvent env payload).exec s = (.error .json, s) := by
      simp [handleEvent, parseEvent, decoded]
    rw [executed]
    exact .failed (.malformed decoded)
  | some event =>
    by_cases present : s.marked (idemKey event) = true
    · rw [handleEvent_marked decoded present]
      exact .returned (.duplicate decoded present)
    · rw [Bool.not_eq_true] at present
      rw [handleEvent_unmarked decoded present]
      have claimed : Executes env (s.putMark (idemKey event) .never) (.expire payload event)
          (s.claim event) (.ok (some (.log payload event))) :=
            .expired (s.putMark_self (idemKey event))
      exact .next (.marked decoded present) (.next claimed (processEvent_returns payload event _))

namespace Services
variable {gateways : List PaymentGateway} {s : Services}

theorem step_statement (gateways : List PaymentGateway)
    (current : (s.workers w).processor.current = some (entry, handling))
    (executed : Executes env s.store handling t answer) :
    step env gateways s (.statement w) =
      some ((s.withStore t).proceed w entry (continuation answer)) := by
  simp only [step, current, executed.exec]
  cases answer <;> rfl

theorem finish_workers (s : Services) (w entry : Nat) :
    ((s.finish w entry).workers w).processor =
      { (s.workers w).processor with lastId := entry, current := none } := by
  simp [finish, setProcessor, setWorker]

/-- Statements of one worker, uninterrupted, up to the return of the call. -/
theorem run_returns (returns : Returns env x handling u answer) (same : s.store = x)
    (current : (s.workers w).processor.current = some (entry, handling)) :
    ∃ n t, Transition.run (step env gateways) s (List.replicate n (.statement w)) = some t ∧
      t.store = u ∧
      (t.workers w).processor =
        { (s.workers w).processor with lastId := entry, current := none } := by
  induction returns generalizing s with
  | returned executed =>
    subst same
    have stepped := step_statement gateways current executed
    exact ⟨1, _, Transition.run_cons_iff.mpr ⟨_, stepped, rfl⟩, rfl, finish_workers _ w entry⟩
  | failed executed =>
    subst same
    have stepped := step_statement gateways current executed
    exact ⟨1, _, Transition.run_cons_iff.mpr ⟨_, stepped, rfl⟩, rfl, finish_workers _ w entry⟩
  | @next _ _ t rest _ _ executed returns ih =>
    subst same
    have stepped := step_statement gateways current executed
    have continues : (((s.withStore t).proceed w entry (some rest)).workers w).processor =
        { (s.workers w).processor with current := some (entry, rest) } := by
      simp [proceed, setProcessor, setWorker]
    obtain ⟨n, v, reached, store, processor⟩ :=
      ih (s := (s.withStore t).proceed w entry (some rest)) rfl (by rw [continues])
    rw [continues] at processor
    exact ⟨n + 1, v, Transition.run_cons_iff.mpr ⟨_, stepped, reached⟩, store, processor⟩

/-- A worker left alone with a call does to the stores what `handleEvent` does. -/
theorem run_handleEvent (current : (s.workers w).processor.current = some (entry, .mark payload)) :
    ∃ n t, Transition.run (step env gateways) s (List.replicate n (.statement w)) = some t ∧
      t.store = ((handleEvent env payload).exec s.store).2 ∧
      (t.workers w).processor = { (s.workers w).processor with lastId := entry, current := none } :=
  run_returns (handleEvent_returns env payload s.store) rfl current

theorem step_reconcile (env : Externals) (gateways : List PaymentGateway)
    (current : (s.workers w).reconciler = some reconciling)
    (executed : (reconciling.next env).exec s.store = (answer, t)) :
    step env gateways s (.reconcile w) =
      some ((s.withStore t).setReconciler w (continuation answer)) := by
  simp only [step, current, executed]
  cases answer <;> rfl

theorem setReconciler_workers (s : Services) (w : Nat) (r : Option Reconciling) :
    ((s.setReconciler w r).workers w).reconciler = r := by
  simp [setReconciler, setWorker]

/-- A reconciliation pass left alone does what the loop of `reconcile_once` does, up to
the first settlement that is rejected. -/
theorem run_reconcileRows (current : (s.workers w).reconciler = some (.pay pending)) :
    ∃ n t, Transition.run (step env gateways) s (List.replicate n (.reconcile w)) = some t ∧
      t.store = ((reconcileRows env pending).exec s.store).2 ∧ (t.workers w).reconciler = none := by
  induction pending generalizing s with
  | nil =>
    have stepped :
        step env gateways s (.reconcile w) = some ((s.withStore s.store).setReconciler w none) :=
      step_reconcile env gateways current rfl
    exact ⟨1, _, Transition.run_cons_iff.mpr ⟨_, stepped, rfl⟩, rfl, setReconciler_workers _ w none⟩
  | cons entry pending ih =>
    obtain ⟨paymentId, orderId, gateway⟩ := entry
    let paid : Store := { s.store with db := s.store.db.markSuccess paymentId orderId }
    let settling : Services :=
      (s.withStore paid).setReconciler w (some (.settle paymentId gateway pending))
    have first : step env gateways s (.reconcile w) = some settling :=
      step_reconcile env gateways current rfl
    have next : (settling.workers w).reconciler = some (.settle paymentId gateway pending) :=
      setReconciler_workers _ w _
    have paying : (Repository.markPaymentSuccess paymentId orderId).exec s.store = (.ok (), paid) :=
      rfl
    simp only [reconcileRows, Effect.exec_bind, paying]
    cases inserted : (Repository.insertSettlement env paymentId gateway 100).exec paid with
    | mk answer t =>
      cases answer with
      | error e =>
        have failed :
            ((Reconciling.settle paymentId gateway pending).next env).exec paid = (.error e, t) := by
          simp only [Reconciling.next, Effect.exec_bind, inserted]
        have second := step_reconcile env gateways next failed
        exact ⟨2, _, Transition.run_cons_iff.mpr
          ⟨_, first, Transition.run_cons_iff.mpr ⟨_, second, rfl⟩⟩,
          rfl, setReconciler_workers _ w none⟩
      | ok done =>
        have settled : ((Reconciling.settle paymentId gateway pending).next env).exec paid =
            (.ok (some (.pay pending)), t) := by
          simp only [Reconciling.next, Effect.exec_bind, inserted, Effect.exec_pure]
        have second := step_reconcile env gateways next settled
        obtain ⟨n, u, reached, store, idle⟩ :=
          ih (s := (settling.withStore t).setReconciler w (some (.pay pending)))
            (setReconciler_workers _ w _)
        exact ⟨n + 2, u, Transition.run_cons_iff.mpr ⟨_, first, Transition.run_cons_iff.mpr
          ⟨_, second, reached⟩⟩, store, idle⟩

end Services
end PaymentBackend
