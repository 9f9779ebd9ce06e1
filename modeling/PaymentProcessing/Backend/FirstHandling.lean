import PaymentProcessing.Backend.Refinement

/-! The first handling of an event. The transactions table is unique in the gateway's
transaction id as well as in its event id, and the insert tolerates a conflict on the
second only: an event whose transaction was logged before fails ahead of its update. -/
namespace PaymentBackend

namespace Database
variable {db : Database} {row : TransactionRow}

theorem insertTransaction_new (fresh : ¬ db.Logged row.event)
    (payment : ∃ p ∈ db.payments, p.id = row.paymentId) :
    (∃ db', db.insertTransaction row = .ok db') ↔
      ∀ r ∈ db.transactions, r.gatewayTxn ≠ row.gatewayTxn := by
  have unlogged : ∀ r ∈ db.transactions, r.event ≠ row.event :=
    fun r member same => fresh ⟨r, member, same⟩
  by_cases txn : ∀ r ∈ db.transactions, r.gatewayTxn ≠ row.gatewayTxn
  · rw [insertTransaction, dif_pos unlogged, dif_pos txn, dif_pos payment]
    exact ⟨fun _ => txn, fun _ => ⟨_, rfl⟩⟩
  · rw [insertTransaction, dif_pos unlogged, dif_neg txn]
    constructor
    · rintro ⟨db', inserted⟩
      cases inserted
    · intro new
      exact absurd new txn

end Database

variable {env : Externals} {s : Store} {event : GatewayWebhookEvent} {payload : String}

theorem processEvent_refused (refused : Repository.acceptsTransaction env event = false) :
    ((processEvent env payload event).exec s).2 = s := by
  simp [processEvent, Repository.logTransaction, Effect.exec_bind, exec_sql, refused]

theorem processEvent_violates
    (violates : s.db.insertTransaction (Repository.transactionRow env event) = .error e) :
    ((processEvent env payload event).exec s).2 = s := by
  cases accepted : Repository.acceptsTransaction env event with
  | false => exact processEvent_refused accepted
  | true => simp [processEvent, Repository.logTransaction, Effect.exec_bind, exec_sql, accepted,
    violates]

theorem processEvent_success
    {db : Database} (accepted : Repository.acceptsTransaction env event = true)
    (inserted : s.db.insertTransaction (Repository.transactionRow env event) = .ok db)
    (success : event.status = .success) :
    ((processEvent env payload event).exec s).2.db =
      db.markSuccess event.paymentId event.orderId := by
  simp [processEvent, Repository.logTransaction, Repository.markPaymentSuccess,
    publishPaymentConfirmed,
    Effect.exec_bind, exec_sql, accepted, inserted, success]

/-- The event has reached the tables: its payment, its order and its log row. -/
def Database.Recorded (db : Database) (event : GatewayWebhookEvent) : Prop :=
  db.Succeeded event.paymentId ∧ db.Paid event.orderId ∧ db.Logged event.key

instance (db : Database) (event : GatewayWebhookEvent) : Decidable (db.Recorded event) :=
  inferInstanceAs (Decidable (_ ∧ _))

/-- On stores without a log row for the event, `handle_event` records it exactly when
its key is free, its transaction id is new for the gateway and Postgres takes its texts. -/
theorem handleEvent_recorded_iff (decoded : env.fromJson payload = some event)
    (success : event.status = .success) (belongs : s.db.Belongs event.paymentId event.orderId)
    (fresh : ¬ s.db.Logged event.key) :
    ((handleEvent env payload).exec s).2.db.Recorded event ↔
      s.marked (idemKey event) = false ∧ Repository.acceptsTransaction env event = true ∧
        ∀ r ∈ s.db.transactions, r.gatewayTxn ≠ (event.gateway, event.gatewayTxnId) := by
  obtain ⟨p, present, named, order⟩ := belongs
  have insertable : (∃ db, s.db.insertTransaction (Repository.transactionRow env event) = .ok db) ↔
      ∀ r ∈ s.db.transactions, r.gatewayTxn ≠ (event.gateway, event.gatewayTxnId) :=
    Database.insertTransaction_new fresh ⟨p, present, named⟩
  constructor
  · rintro ⟨-, -, logged⟩
    by_cases marked : s.marked (idemKey event) = true
    · rw [handleEvent_marked decoded marked] at logged
      exact absurd logged fresh
    · rw [Bool.not_eq_true] at marked
      rw [handleEvent_unmarked decoded marked] at logged
      cases accepted : Repository.acceptsTransaction env event with
      | false =>
        rw [processEvent_refused accepted] at logged
        exact absurd logged fresh
      | true =>
        cases inserted : s.db.insertTransaction (Repository.transactionRow env event) with
        | error e =>
          have violates :
              (s.claim event).db.insertTransaction (Repository.transactionRow env event) =
              .error e := inserted
          rw [processEvent_violates violates] at logged
          exact absurd logged fresh
        | ok db => exact ⟨marked, rfl, insertable.mp ⟨db, inserted⟩⟩
  · rintro ⟨marked, accepted, txn⟩
    obtain ⟨db, inserted⟩ := insertable.mpr txn
    obtain ⟨orders, payments, -, logged, -⟩ := Database.insertTransaction_ok inserted
    rw [handleEvent_unmarked decoded marked, Database.Recorded,
      processEvent_success (s := s.claim event) accepted inserted success,
        Database.markSuccess_succeeded,
      Database.markSuccess_paid]
    obtain ⟨o, inside, owner⟩ := s.db.paymentsOrder.parent present
    refine ⟨Or.inr ⟨rfl, p, payments ▸ present, named⟩, Or.inr ⟨rfl, o, orders ▸ inside, ?_⟩,
      logged⟩
    exact owner.trans order

namespace Services
variable {gateways : List PaymentGateway}

/-- After any run, for a SUCCESS event that no worker has met yet, of an existing
payment and its order. -/
theorem run_first_recorded_iff {s : Services}
    (h : Transition.run (step env gateways) initial schedule = some s)
    (decoded : env.fromJson payload = some event) (success : event.status = .success)
    (belongs : s.store.db.Belongs event.paymentId event.orderId) (unseen : event.key ∉ s.seen) :
    ((handleEvent env payload).exec s.store).2.db.Recorded event ↔
      s.store.marked (idemKey event) = false ∧ Repository.acceptsTransaction env event = true ∧
        ∀ r ∈ s.store.db.transactions, r.gatewayTxn ≠ (event.gateway, event.gatewayTxnId) := by
  have fresh : ¬ s.store.db.Logged event.key := fun logged => unseen ((run_sound h).logged _ logged)
  exact handleEvent_recorded_iff decoded success belongs fresh

/-- A PENDING notification about the transaction, ahead of the example event. -/
def pendingEvent : GatewayWebhookEvent := { Sample.event with eventId := "evt_0", status := .pending }

/-- The notification is handled to its end. -/
def notified : List Action :=
  Sample.orders ++ .receiveWebhook "Razorpay" pendingEvent :: .read 0 :: Sample.handle 0 3

/-- The example event with a transaction id of its own. -/
def ownTxnEvent : GatewayWebhookEvent := { Sample.event with gatewayTxnId := "txn_2" }

set_option maxRecDepth 8000 in
theorem ownTxn_recorded : ∃ s,
    Transition.run
      (step (Sample.env [pendingEvent, ownTxnEvent]) configuredGateways) initial notified =
        some s ∧
      ((handleEvent (Sample.env [pendingEvent, ownTxnEvent]) (Sample.json ownTxnEvent)).exec
        s.store).2.db.Recorded ownTxnEvent := by
  refine ⟨_, rfl, ?_⟩
  have reached : Transition.run (step (Sample.env [pendingEvent, ownTxnEvent]) configuredGateways)
      initial notified = some _ := rfl
  exact (run_first_recorded_iff reached (by decide) rfl (by decide) (by decide)).mpr
    ⟨by decide, by decide, by decide⟩

set_option maxRecDepth 8000 in
/-- With the transaction id of the notification, it is not. -/
theorem notified_not_recorded :
    ¬ ∀ schedule s payload event,
      Transition.run
        (step (Sample.env [pendingEvent, Sample.event]) configuredGateways) initial schedule =
        some s →
      (Sample.env [pendingEvent, Sample.event]).fromJson payload = some event →
        event.status = .success →
      s.store.db.Belongs event.paymentId event.orderId → event.key ∉ s.seen →
      ((handleEvent (Sample.env [pendingEvent, Sample.event]) payload).exec s.store).2.db.Recorded
        event := by
  intro claim
  have recorded := claim notified _ (Sample.json Sample.event) Sample.event rfl (by decide) rfl
    (by decide) (by decide)
  exact absurd recorded (by decide)

end Services
end PaymentBackend
