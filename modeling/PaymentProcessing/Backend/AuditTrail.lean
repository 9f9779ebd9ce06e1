import PaymentProcessing.Backend.Charges

/-! The transactions table as the record of what gateways reported. Its key outlives the
idempotency key of the same event id, so an event that is handled later under a known
id writes no row of its own, whatever it reports, and its update follows all the same. -/
namespace PaymentBackend
open Relational Transition

namespace Database
variable {db db' : Database} {paymentId : Uuid} {status : PaymentStatus}

/-- An event with this status has been logged for the payment. -/
def LoggedAs (db : Database) (paymentId : Uuid) (status : PaymentStatus) : Prop :=
  ∃ r ∈ db.transactions, r.paymentId = paymentId ∧ r.status = status

instance (db : Database) (paymentId : Uuid) (status : PaymentStatus) :
    Decidable (db.LoggedAs paymentId status) :=
  inferInstanceAs (Decidable (∃ _ ∈ _, _))

theorem Grows.loggedAs (grows : Grows db db') (h : db.LoggedAs paymentId status) :
    db'.LoggedAs paymentId status := by
  obtain ⟨r, member, own, reported⟩ := h
  exact ⟨r, grows.transactions member, own, reported⟩

/-- The row that `log_transaction` adds, where it adds one. -/
def newTransaction (env : Externals) (db : Database) (event : GatewayWebhookEvent) :
    Option TransactionRow :=
  if Repository.acceptsTransaction env event = true ∧
      (∀ r ∈ db.transactions, r.event ≠ (Repository.transactionRow env event).event) ∧
      (∀ r ∈ db.transactions, r.gatewayTxn ≠ (Repository.transactionRow env event).gatewayTxn) ∧
      ∃ p ∈ db.payments, p.id = (Repository.transactionRow env event).paymentId then
    some (Repository.transactionRow env event)
  else none

theorem newTransaction_eq_some (h : db.newTransaction env event = some row) :
    row = Repository.transactionRow env event ∧ ¬ db.Logged event.key ∧
      ∃ p ∈ db.payments, p.id = event.paymentId := by
  unfold newTransaction at h
  split at h
  · rename_i added
    cases h
    refine ⟨rfl, ?_, added.2.2.2⟩
    rintro ⟨r, member, same⟩
    exact added.2.1 r member same
  · cases h

theorem newTransaction_inserts (h : db.newTransaction env event = some row) :
    Repository.acceptsTransaction env event = true ∧
      ∃ db', db.insertTransaction (Repository.transactionRow env event) = .ok db' := by
  unfold newTransaction at h
  split at h
  · rename_i added
    obtain ⟨accepted, fresh, txn, payment⟩ := added
    exact ⟨accepted, _, by rw [insertTransaction, dif_pos fresh, dif_pos txn, dif_pos payment]⟩
  · cases h

/-- An accepted insert adds the row, or its key is there already. -/
theorem insertTransaction_transactions
    (accepted : Repository.acceptsTransaction env event = true)
    (inserted : db.insertTransaction (Repository.transactionRow env event) = .ok db') :
    db'.transactions = db.transactions ++ (db.newTransaction env event).toList ∧
      (db.newTransaction env event = none → db.Logged event.key) := by
  unfold insertTransaction at inserted
  unfold newTransaction
  split at inserted
  · rename_i fresh
    split at inserted
    · rename_i txn
      split at inserted
      · rename_i payment
        cases inserted
        rw [if_pos ⟨accepted, fresh, txn, payment⟩]
        exact ⟨rfl, fun none => by cases none⟩
      · contradiction
    · contradiction
  · rename_i conflict
    cases inserted
    rw [if_neg fun all => conflict all.2.1]
    refine ⟨(List.append_nil _).symm, fun _ => ?_⟩
    simp only [not_forall, not_not] at conflict
    obtain ⟨r, member, same⟩ := conflict
    exact ⟨r, member, same⟩

end Database

section Statements
variable {env : Externals} {s t : Store}

/-- The event that the next statement of a call logs. -/
def Handling.logging : Handling → Option GatewayWebhookEvent
  | .log _ event => some event
  | _ => none

theorem ApiEffect.transactions (h : ApiEffect s t) : t.db.transactions = s.db.transactions := by
  cases h with
  | answered => rfl
  | order _ inserted => exact (Database.insertOrder_ok inserted).2.2.2.1
  | payment _ _ inserted => exact (Database.insertPayment_ok inserted).2.2.2.1

theorem Settles.transactions (h : Settles s reconciling t next) :
    t.db.transactions = s.db.transactions := by
  cases h with
  | settled inserted => exact (Database.insertSettlement_ok inserted).2.2.1
  | _ => rfl

/-- The one statement that writes the table. -/
theorem Executes.transactions (h : Executes env s handling t answer) :
    t.db.transactions = s.db.transactions ++
      (handling.logging.bind fun event => s.db.newTransaction env event).toList := by
  have rejected {event : GatewayWebhookEvent} {e : SqlError}
      (failed : s.db.insertTransaction (Repository.transactionRow env event) = .error e) :
      s.db.newTransaction env event = none := by
    cases added : s.db.newTransaction env event with
    | none => rfl
    | some row =>
      obtain ⟨-, db, inserted⟩ := Database.newTransaction_inserts added
      cases inserted.symm.trans failed
  cases h with
  | recorded accepted inserted | logged accepted inserted =>
    exact (Database.insertTransaction_transactions accepted inserted).1
  | refused refused =>
    simp only [Handling.logging, Option.bind_some, Database.newTransaction, refused]
    exact (List.append_nil _).symm
  | violates accepted failed =>
    simp only [Handling.logging, Option.bind_some, rejected failed]
    exact (List.append_nil _).symm
  | _ => exact (List.append_nil _).symm

/-- A call comes to its update by the statement that logs its event. -/
theorem Executes.updating (h : Executes env s handling t (.ok (some (.pay text event)))) :
    handling = .log text event ∧ event.status = .success ∧
      (s.db.Logged event.key ∨ t.db.LoggedAs event.paymentId .success) := by
  cases h with
  | logged accepted inserted success =>
    refine ⟨rfl, success, ?_⟩
    obtain ⟨rows, known⟩ := Database.insertTransaction_transactions accepted inserted
    cases added : s.db.newTransaction env event with
    | none => exact Or.inl (known added)
    | some row =>
      refine Or.inr ⟨row, ?_, ?_⟩
      · rw [rows, added]
        exact List.mem_append_right _ List.mem_cons_self
      · rw [(Database.newTransaction_eq_some added).1]
        exact ⟨rfl, success⟩

/-- The call of a SUCCESS event that enters the log goes on to its update. -/
theorem Executes.added (h : Executes env s (.log text event) t answer)
    (added : s.db.newTransaction env event = some row) (success : event.status = .success) :
    answer = .ok (some (.pay text event)) := by
  obtain ⟨accepted, db, inserted⟩ := Database.newTransaction_inserts added
  have executed : Executes env s (.log text event) { s with db := db } (.ok (some (.pay text event))) :=
    .logged accepted inserted success
  exact congrArg Prod.fst (h.exec.symm.trans executed.exec)

end Statements

/-- No statement fails and no worker crashes. -/
def Action.faultless : Action → Bool
  | .failure _ _ | .crash _ | .reconcileFailure _ _ => false
  | _ => true

namespace Services
variable {env : Externals} {gateways : List PaymentGateway} {s t : Services}

/-- The transactions row that the step adds. -/
def logs (env : Externals) (s : Services) (a : Action) : Option TransactionRow :=
  ((s.performed a).bind Handling.logging).bind fun event => s.store.db.newTransaction env event

theorem logs_eq_some (h : s.logs env a = some row) : ∃ payload event,
    s.performed a = some (.log payload event) ∧
      s.store.db.newTransaction env event = some row := by
  obtain ⟨event, logging, added⟩ := Option.bind_eq_some_iff.mp h
  obtain ⟨handling, performed, logged⟩ := Option.bind_eq_some_iff.mp logging
  cases handling with
  | log payload e =>
    cases logged
    exact ⟨payload, event, performed, added⟩
  | _ => cases logged

/-- Every step of the system adds to the log exactly the row it logs. -/
theorem Moves.transactions (h : Moves env s a t) :
    t.store.db.transactions = s.store.db.transactions ++ (s.logs env a).toList := by
  have frame (silent : s.performed a = none)
      (same : t.store.db.transactions = s.store.db.transactions) :
      t.store.db.transactions = s.store.db.transactions ++ (s.logs env a).toList := by
    rw [same, logs, silent]
    exact (List.append_nil _).symm
  cases h with
  | request a u api effect =>
    refine frame ?_ effect.transactions
    cases a <;> first | rfl | contradiction
  | statement w entry handling u answer current executed =>
    have performed : s.performed (.statement w) = some handling := call_of_current current
    rw [proceed_store, withStore_store, executed.transactions, logs, performed, Option.bind_some]
  | failed w applied entry handling u current outcome =>
    rcases outcome with ⟨rfl, rfl⟩ | ⟨rfl, answer, executed⟩
    · exact frame rfl rfl
    · have performed : s.performed (.failure w true) = some handling := call_of_current current
      change u.db.transactions = _
      rw [executed.transactions, logs, performed, Option.bind_some]
  | reconcile w reconciling u next current settled => exact frame rfl settled.transactions
  | abandoned w applied reconciling u current outcome =>
    rcases outcome with rfl | ⟨-, next, settled⟩
    · exact frame rfl rfl
    · exact frame rfl settled.transactions
  | take w lastId entry payload rest processor => exact frame rfl (by simp)
  | _ => exact frame rfl rfl

/-- The event by which a webhook turns its payment `SUCCESS` in this step. -/
def confirms (s : Services) (a : Action) : Option GatewayWebhookEvent :=
  match s.performed a with
  | some (.pay _ event) =>
      if ∃ p ∈ s.store.db.payments, p.id = event.paymentId ∧ p.status ≠ .success then some event
      else none
  | _ => none

theorem confirms_eq_some (h : s.confirms a = some event) : ∃ w payload,
    s.call w = some (.pay payload event) ∧ ¬ s.store.db.Succeeded event.paymentId := by
  unfold confirms at h
  split at h
  · rename_i payload e performed
    split at h
    · rename_i turned
      cases h
      obtain ⟨w, -, called⟩ := performed_worker performed
      refine ⟨w, payload, called, ?_⟩
      rintro ⟨q, inside, named, success⟩
      obtain ⟨p, member, same, other⟩ := turned
      rw [s.store.db.paymentsKey.unique inside member (named.trans same.symm)] at success
      exact other success
    · cases h
  · cases h

/-- A SUCCESS event is logged under a new key, or its payment has been confirmed: by a
logged SUCCESS event, or because it holds `SUCCESS` already. -/
def KeyedStep (s : Services) (a : Action) : Prop :=
  match s.performed a with
  | some (.log _ event) => event.status = .success → ¬ s.store.db.Logged event.key ∨
      s.store.db.LoggedAs event.paymentId .success ∨ s.store.db.Succeeded event.paymentId
  | _ => True

instance (s : Services) (a : Action) : Decidable (KeyedStep s a) := by
  unfold KeyedStep
  rcases s.performed a with _ | ⟨_ | _⟩ <;> infer_instance

/-- Every payment that webhooks have turned `SUCCESS` has its row in the log, and a call
that has still to update its payment has logged it or will not turn it. -/
structure Trailed (env : Externals) (gateways : List PaymentGateway) (past : List Action)
    (s : Services) : Prop where
  confirmed : ∀ event, Occurs (step env gateways) (fun u a => u.confirms a = some event) initial past →
    s.store.db.LoggedAs event.paymentId .success
  updating : ∀ w payload event, s.call w = some (.pay payload event) →
    s.store.db.LoggedAs event.paymentId .success ∨ s.store.db.Succeeded event.paymentId

theorem Moves.updating (h : Moves env s a t) (called : t.call w = some (.pay payload event)) :
    s.call w = some (.pay payload event) ∨
      s.performed a = some (.log payload event) ∧ event.status = .success ∧
        (s.store.db.Logged event.key ∨ t.store.db.LoggedAs event.paymentId .success) := by
  cases h.callStep w with
  | same kept => exact Or.inl (kept.symm.trans called)
  | taken payload' action idle marking => cases marking.symm.trans called
  | answered handling answer action position executed continues =>
    subst action
    rw [continuation_eq_some.mp (continues.symm.trans called)] at executed
    obtain ⟨rfl, success, logged⟩ := executed.updating
    exact Or.inr ⟨position, success, logged⟩
  | stopped action ended => cases ended.symm.trans called

theorem Moves.trailed (h : Moves env s a t)
    (reached : run (step env gateways) initial past = some s)
    (stepped : step env gateways s a = some t) (before : Trailed env gateways past s)
    (keyed : KeyedStep s a) : Trailed env gateways (past ++ [a]) t := by
  have grows := h.extends.db
  constructor
  · intro event happened
    simp only [occurs_append_iff reached, Occurs, stepped, Option.some.injEq, exists_eq_left',
      or_false] at happened
    rcases happened with old | now
    · exact grows.loggedAs (before.confirmed event old)
    · obtain ⟨w, payload, called, pending⟩ := confirms_eq_some now
      exact grows.loggedAs ((before.updating w payload event called).resolve_right pending)
  · intro w payload event called
    rcases h.updating called with old | ⟨performed, success, logged⟩
    · exact (before.updating w payload event old).imp grows.loggedAs grows.succeeded
    · have condition : event.status = .success → ¬ s.store.db.Logged event.key ∨
          s.store.db.LoggedAs event.paymentId .success ∨ s.store.db.Succeeded event.paymentId := by
        simpa only [KeyedStep, performed] using keyed
      rcases condition success with fresh | known
      · exact Or.inl (logged.resolve_left fresh)
      · exact known.imp grows.loggedAs grows.succeeded

/-- In a run whose SUCCESS events are logged under new keys, or after their payment has
been confirmed, every payment that became `SUCCESS` through a webhook has its row. -/
theorem run_success_logged (meets : Meets (step env gateways) KeyedStep initial schedule)
    (h : run (step env gateways) initial schedule = some t) (event : GatewayWebhookEvent)
    (confirmed : Occurs (step env gateways) (fun u a => u.confirms a = some event) initial schedule) :
    t.store.db.LoggedAs event.paymentId .success := by
  have trailed : Trailed env gateways schedule t := by
    refine history_of_meets (I := Trailed env gateways) (C := KeyedStep)
      (fun reached before keyed stepped =>
        (step_moves env gateways stepped).trailed reached stepped before keyed) ⟨?_, ?_⟩ meets h
    · intro event occurs
      cases occurs
    · intro w payload event called
      cases called
  exact trailed.confirmed event confirmed

/-- The PENDING notification of the example event. -/
def pendingNotice : GatewayWebhookEvent := { Sample.event with status := .pending }

/-- Order 1 with payment 11, whose SUCCESS event is handled up to the update. -/
def confirmedOnce : List Action :=
  Sample.orders ++ .receiveWebhook "Razorpay" Sample.event :: .read 0 :: Sample.handle 0 4

theorem confirmedOnce_logged : ∃ t,
    run (step (Sample.env [Sample.event]) configuredGateways) initial confirmedOnce = some t ∧
      t.store.db.LoggedAs 11 .success := by
  have runs : (run (step (Sample.env [Sample.event]) configuredGateways) initial
      confirmedOnce).isSome = true := by decide +kernel
  have meets : Meets (step (Sample.env [Sample.event]) configuredGateways) KeyedStep initial
      confirmedOnce := by decide +kernel
  have confirmed : Occurs (step (Sample.env [Sample.event]) configuredGateways)
      (fun u a => u.confirms a = some Sample.event) initial confirmedOnce := by decide +kernel
  obtain ⟨t, reached⟩ := Option.isSome_iff_exists.mp runs
  exact ⟨t, reached, run_success_logged meets reached Sample.event confirmed⟩

/-- The PENDING notification is handled; the same event id comes again an hour later with
the SUCCESS report, and its call is executed up to the update. -/
def reusedLater : List Action :=
  Sample.orders ++ .receiveWebhook "Razorpay" pendingNotice :: .read 0 :: Sample.handle 0 3 ++
    .elapse 3600 :: .receiveWebhook "Razorpay" Sample.event :: .read 0 :: Sample.handle 0 4

/-- Payment 11 becomes `SUCCESS` and the log holds the PENDING row only. -/
theorem reusedLater_unlogged :
    ¬ ∀ schedule t,
      run (step (Sample.env [Sample.event, pendingNotice]) configuredGateways) initial schedule =
        some t →
      (∀ a ∈ schedule, a.faultless = true) → ∀ event,
      Occurs (step (Sample.env [Sample.event, pendingNotice]) configuredGateways)
        (fun u a => u.confirms a = some event) initial schedule →
      t.store.db.LoggedAs event.paymentId .success := by
  intro claim
  have unlogged : (run (step (Sample.env [Sample.event, pendingNotice]) configuredGateways)
      initial reusedLater).map (fun t => decide (t.store.db.LoggedAs 11 .success)) =
      some false := by decide +kernel
  have confirmed : Occurs (step (Sample.env [Sample.event, pendingNotice]) configuredGateways)
      (fun u a => u.confirms a = some Sample.event) initial reusedLater := by decide +kernel
  obtain ⟨t, reached, missing⟩ := Option.map_eq_some_iff.mp unlogged
  exact of_decide_eq_false missing
    (claim reusedLater t reached (by decide) Sample.event confirmed)

end Services
end PaymentBackend
