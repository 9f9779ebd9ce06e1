import PaymentProcessing.Backend.Settlements
import PaymentProcessing.Backend.Verdicts

/-! A database that is ahead of another one: some reconciliation has been done in it that
the other has still to do. No request and no statement of `handle_event` can tell the
two apart, since none reads a status or a settlement. -/
namespace PaymentBackend
open Relational Transition

namespace Database
variable {db db' d d' : Database}

theorem setPaid_setPaid (o : OrderRow) : setPaid (setPaid o) = setPaid o := rfl

theorem setSuccess_setSuccess (p : PaymentRow) : setSuccess (setSuccess p) = setSuccess p := rfl

structure Ahead (db db' : Database) : Prop where
  orders : Advanced setPaid db.orders db'.orders
  payments : Advanced setSuccess db.payments db'.payments
  transactions : db'.transactions = db.transactions
  settlements : ∀ r ∈ db.settlements, ∃ r' ∈ db'.settlements, r'.paymentId = r.paymentId

theorem Ahead.refl (db : Database) : Ahead db db :=
  ⟨.refl _ _, .refl _ _, rfl, fun r member => ⟨r, member, rfl⟩⟩

theorem Ahead.trans (first : Ahead db db') (second : Ahead db' d) : Ahead db d := by
  refine ⟨first.orders.trans setPaid_setPaid second.orders,
    first.payments.trans setSuccess_setSuccess second.payments,
    second.transactions.trans first.transactions, fun r member => ?_⟩
  obtain ⟨r', member', same⟩ := first.settlements r member
  obtain ⟨r'', member'', same'⟩ := second.settlements r' member'
  exact ⟨r'', member'', same'.trans same⟩

theorem Ahead.order_ids (ahead : Ahead db db') : db'.orders.map OrderRow.id = db.orders.map OrderRow.id :=
  ahead.orders.map_eq fun _ => rfl

theorem Ahead.payment_ids (ahead : Ahead db db') :
    db'.payments.map PaymentRow.id = db.payments.map PaymentRow.id :=
  ahead.payments.map_eq fun _ => rfl

/-- Whether an id is taken is the same on both sides. -/
theorem exists_congr_of_map {key : α → κ} {xs ys : List α} (same : ys.map key = xs.map key) (k : κ) :
    (∃ y ∈ ys, key y = k) ↔ ∃ x ∈ xs, key x = k := by
  rw [← List.mem_map, ← List.mem_map, same]

theorem forall_ne_congr_of_map {key : α → κ} {xs ys : List α} (same : ys.map key = xs.map key) (k : κ) :
    (∀ y ∈ ys, key y ≠ k) ↔ ∀ x ∈ xs, key x ≠ k := by
  have taken := not_congr (exists_congr_of_map same k)
  simpa only [not_exists, not_and] using taken

/-- Two queries answer alike and leave one database ahead of the other. -/
def Agrees : Except SqlError Database → Except SqlError Database → Prop
  | .ok d, .ok d' => d.Ahead d'
  | .error e, .error e' => e = e'
  | _, _ => False

theorem Ahead.insertOrder (ahead : Ahead db db') (row : OrderRow) :
    Agrees (db.insertOrder row) (db'.insertOrder row) := by
  have ids := forall_ne_congr_of_map ahead.order_ids row.id
  unfold Database.insertOrder
  by_cases fresh : ∀ r ∈ db.orders, r.id ≠ row.id
  · rw [dif_pos fresh, dif_pos (ids.mpr fresh)]
    exact ⟨ahead.orders.append row, ahead.payments, ahead.transactions, ahead.settlements⟩
  · rw [dif_neg fresh, dif_neg (mt ids.mp fresh)]
    rfl

theorem Ahead.insertPayment (ahead : Ahead db db') (row : PaymentRow) :
    Agrees (db.insertPayment row) (db'.insertPayment row) := by
  have ids := forall_ne_congr_of_map ahead.payment_ids row.id
  have orders := exists_congr_of_map ahead.order_ids row.orderId
  unfold Database.insertPayment
  by_cases fresh : ∀ r ∈ db.payments, r.id ≠ row.id
  · rw [dif_pos fresh, dif_pos (ids.mpr fresh)]
    by_cases order : ∃ o ∈ db.orders, o.id = row.orderId
    · rw [dif_pos order, dif_pos (orders.mpr order)]
      exact ⟨ahead.orders, ahead.payments.append row, ahead.transactions, ahead.settlements⟩
    · rw [dif_neg order, dif_neg (mt orders.mp order)]
      rfl
  · rw [dif_neg fresh, dif_neg (mt ids.mp fresh)]
    rfl

theorem Ahead.insertTransaction (ahead : Ahead db db') (row : TransactionRow) :
    Agrees (db.insertTransaction row) (db'.insertTransaction row) := by
  have payments := exists_congr_of_map ahead.payment_ids row.paymentId
  have events : (∀ r ∈ db'.transactions, r.event ≠ row.event) ↔
      ∀ r ∈ db.transactions, r.event ≠ row.event := by rw [ahead.transactions]
  have txns : (∀ r ∈ db'.transactions, r.gatewayTxn ≠ row.gatewayTxn) ↔
      ∀ r ∈ db.transactions, r.gatewayTxn ≠ row.gatewayTxn := by rw [ahead.transactions]
  unfold Database.insertTransaction
  by_cases fresh : ∀ r ∈ db.transactions, r.event ≠ row.event
  · rw [dif_pos fresh, dif_pos (events.mpr fresh)]
    by_cases txn : ∀ r ∈ db.transactions, r.gatewayTxn ≠ row.gatewayTxn
    · rw [dif_pos txn, dif_pos (txns.mpr txn)]
      by_cases payment : ∃ p ∈ db.payments, p.id = row.paymentId
      · rw [dif_pos payment, dif_pos (payments.mpr payment)]
        exact ⟨ahead.orders, ahead.payments, congrArg (· ++ [row]) ahead.transactions,
          ahead.settlements⟩
      · rw [dif_neg payment, dif_neg (mt payments.mp payment)]
        rfl
    · rw [dif_neg txn, dif_neg (mt txns.mp txn)]
      rfl
  · rw [dif_neg fresh, dif_neg (mt events.mp fresh)]
    exact ahead

theorem Ahead.markSuccess (ahead : Ahead db db') (p o : Uuid) :
    (db.markSuccess p o).Ahead (db'.markSuccess p o) :=
  ⟨ahead.orders.updateWhere setPaid_setPaid fun _ => rfl,
    ahead.payments.updateWhere setSuccess_setSuccess fun _ => rfl, ahead.transactions,
    ahead.settlements⟩

end Database

/-- The stores differ in the database only, where one is ahead. -/
def Store.Ahead (s u : Store) : Prop := ∃ db, s.db.Ahead db ∧ u = { s with db := db }

section Relates
open Effect
variable {env : Externals}

theorem relates_sql {query : Database → Except SqlError Database}
    (agrees : ∀ {db db'}, Database.Ahead db db' → Database.Agrees (query db) (query db')) :
    Relates Store.Ahead (sql query) := by
  rintro s _ ⟨db, ahead, rfl⟩
  have both := agrees ahead
  rw [exec_sql, exec_sql]
  cases left : query s.db <;> cases right : query db <;> rw [left, right] at both
  · rw [show _ = _ from both]
    exact ⟨rfl, db, ahead, rfl⟩
  · exact both.elim
  · exact both.elim
  · exact ⟨rfl, _, both, rfl⟩

/-- A statement that neither reads nor writes the database. -/
theorem relates_statement {f : Store → Except ε α × Store}
    (frame : ∀ s db, f { s with db := db } = ((f s).1, { (f s).2 with db := db }))
    (kept : ∀ s, (f s).2.db = s.db) : Relates Store.Ahead (Effect.statement f) := by
  rintro s _ ⟨db, ahead, rfl⟩
  rw [exec_statement, exec_statement, frame s db]
  refine ⟨rfl, db, ?_, rfl⟩
  rw [kept]
  exact ahead

theorem relates_createOrder (env : Externals) (orderId : Uuid) (req : CreateOrderRequest) :
    Relates Store.Ahead (createOrder env orderId req) := by
  refine .bind (.mapError _ (.bind (relates_sql fun ahead => ?_) fun _ => relates_pure _))
    fun _ => relates_pure _
  split
  · exact ahead.insertOrder _
  · rfl

theorem relates_pickFrom (lastError : Option String) (orderId paymentId : Uuid)
    (method : PaymentMethod) (gateways : List PaymentGateway) :
    Relates Store.Ahead (SmartRouter.pickFrom lastError orderId paymentId method gateways) := by
  induction gateways generalizing lastError with
  | nil => exact relates_throw _
  | cons gateway rest ih =>
    rintro s _ ⟨db, ahead, rfl⟩
    simp only [SmartRouter.pickFrom, createCheckout, exec_statement]
    cases answer : gateway.createCheckout s.now orderId paymentId method with
    | ok session => exact ⟨rfl, db, ahead, rfl⟩
    | error e => exact ih _ s _ ⟨db, ahead, rfl⟩

theorem relates_initiatePayment (env : Externals) (gateways : List PaymentGateway)
    (paymentId rowId : Uuid) (createdAt : Nat) (req : InitiatePaymentRequest) :
    Relates Store.Ahead (initiatePayment env gateways paymentId rowId createdAt req) := by
  refine .bind (.mapError _ (relates_pickFrom _ _ _ _ _)) fun session =>
    .bind (.mapError _ (.bind (relates_sql fun ahead => ?_) fun _ => relates_pure _))
      fun _ => relates_pure _
  split
  · exact ahead.insertPayment _
  · rfl

theorem relates_receiveWebhook (env : Externals) (gateway : String) (event : GatewayWebhookEvent) :
    Relates Store.Ahead (receiveWebhook env gateway event) :=
  .bind (.mapError _ (relates_statement (fun _ _ => rfl) fun _ => rfl)) fun _ =>
    .bind (relates_statement (fun _ _ => rfl) fun _ => rfl) fun _ => relates_pure _

theorem relates_setNx (key : String) : Relates Store.Ahead (setNx key) := by
  refine relates_statement (fun s db => ?_) fun s => ?_
  · change (if s.marked key then _ else _) = _
    split <;> rfl
  · split <;> rfl

theorem relates_expire (key : String) (ttlSeconds : Nat) : Relates Store.Ahead (expire key ttlSeconds) := by
  refine relates_statement (fun s db => ?_) fun s => ?_
  · change (if s.marked key then _ else _) = _
    split <;> rfl
  · split <;> rfl

/-- No statement of `handle_event` can tell how far reconciliation has come. -/
theorem relates_handling (env : Externals) (handling : Handling) :
    Relates Store.Ahead (handling.next env) := by
  cases handling with
  | mark payload =>
    refine .bind ?_ fun event => .bind (relates_setNx _) fun _ => relates_pure _
    unfold parseEvent
    split
    · exact relates_pure _
    · exact relates_throw _
  | expire payload event => exact .bind (relates_expire _ _) fun _ => relates_pure _
  | log payload event =>
    refine .bind (relates_sql fun ahead => ?_) fun _ => relates_pure _
    split
    · exact ahead.insertTransaction _
    · rfl
  | pay payload event => exact .bind (relates_sql fun ahead => ahead.markSuccess _ _) fun _ => relates_pure _
  | publish payload event =>
    exact .bind (relates_statement (fun _ _ => rfl) fun _ => rfl) fun _ => relates_pure _

end Relates
end PaymentBackend
