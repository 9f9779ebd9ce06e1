import PaymentProcessing.Relational
import PaymentProcessing.Backend.Models

/-! The four tables of `0001_init.sql` with the constraints a later proof uses. A
`Database` carries the evidence that its rows meet them, so a statement either
answers with another such database or with the violation that Postgres reports.
Columns that no statement of the services reads are left out: that is also `updated_at`,
which the two updates set. -/
namespace PaymentBackend
open Relational

structure OrderRow where
  id : Uuid
  userId : String
  amount : Int64
  currency : String
  status : OrderStatus
  deriving DecidableEq, Repr

structure PaymentRow where
  id : Uuid
  orderId : Uuid
  gateway : String
  method : PaymentMethod
  checkoutUrl : String
  status : PaymentStatus
  createdAt : Nat
  deriving DecidableEq, Repr

structure TransactionRow where
  paymentId : Uuid
  gateway : String
  gatewayTxnId : String
  webhookEventId : String
  status : PaymentStatus
  rawPayload : String
  deriving DecidableEq, Repr

structure SettlementRow where
  paymentId : Uuid
  gateway : String
  settlementRef : String
  amount : Int64
  status : SettlementStatus
  deriving DecidableEq, Repr

/-- The columns of `UNIQUE (gateway, webhook_event_id)`. -/
def TransactionRow.event (row : TransactionRow) : String × String := (row.gateway, row.webhookEventId)

/-- The columns of `UNIQUE (gateway, gateway_txn_id)`. -/
def TransactionRow.gatewayTxn (row : TransactionRow) : String × String := (row.gateway, row.gatewayTxnId)

inductive SqlError where
  | invalidText | invalidJson | uniqueViolation | foreignKeyViolation
  deriving DecidableEq, Repr

structure Database where
  orders : List OrderRow
  payments : List PaymentRow
  transactions : List TransactionRow
  settlements : List SettlementRow
  ordersKey : Distinct OrderRow.id orders
  paymentsKey : Distinct PaymentRow.id payments
  paymentsOrder : References PaymentRow.orderId payments OrderRow.id orders
  transactionsPayment : References TransactionRow.paymentId transactions PaymentRow.id payments
  transactionsEvent : Distinct TransactionRow.event transactions
  transactionsTxn : Distinct TransactionRow.gatewayTxn transactions
  settlementsPayment : References SettlementRow.paymentId settlements PaymentRow.id payments
  settlementsRef : Distinct SettlementRow.settlementRef settlements

namespace Database

def empty : Database where
  orders := []
  payments := []
  transactions := []
  settlements := []
  ordersKey := List.nodup_nil
  paymentsKey := List.nodup_nil
  paymentsOrder := List.nil_subset _
  transactionsPayment := List.nil_subset _
  transactionsEvent := List.nodup_nil
  transactionsTxn := List.nodup_nil
  settlementsPayment := List.nil_subset _
  settlementsRef := List.nodup_nil

def insertOrder (db : Database) (row : OrderRow) : Except SqlError Database :=
  if fresh : ∀ r ∈ db.orders, r.id ≠ row.id then
    .ok { db with
      orders := db.orders ++ [row]
      ordersKey := db.ordersKey.append fresh
      paymentsOrder := db.paymentsOrder.append_parent row }
  else .error .uniqueViolation

def insertPayment (db : Database) (row : PaymentRow) : Except SqlError Database :=
  if fresh : ∀ r ∈ db.payments, r.id ≠ row.id then
    if order : ∃ o ∈ db.orders, o.id = row.orderId then
      .ok { db with
        payments := db.payments ++ [row]
        paymentsKey := db.paymentsKey.append fresh
        paymentsOrder := db.paymentsOrder.append order
        transactionsPayment := db.transactionsPayment.append_parent row
        settlementsPayment := db.settlementsPayment.append_parent row }
    else .error .foreignKeyViolation
  else .error .uniqueViolation

/-- `INSERT ... ON CONFLICT (gateway, webhook_event_id) DO NOTHING`: only a conflict
on the named constraint is tolerated, and it is looked for first. -/
def insertTransaction (db : Database) (row : TransactionRow) : Except SqlError Database :=
  if fresh : ∀ r ∈ db.transactions, r.event ≠ row.event then
    if txn : ∀ r ∈ db.transactions, r.gatewayTxn ≠ row.gatewayTxn then
      if payment : ∃ p ∈ db.payments, p.id = row.paymentId then
        .ok { db with
          transactions := db.transactions ++ [row]
          transactionsPayment := db.transactionsPayment.append payment
          transactionsEvent := db.transactionsEvent.append fresh
          transactionsTxn := db.transactionsTxn.append txn }
      else .error .foreignKeyViolation
    else .error .uniqueViolation
  else .ok db

/-- `INSERT ... ON CONFLICT DO NOTHING`. -/
def insertSettlement (db : Database) (row : SettlementRow) : Except SqlError Database :=
  if fresh : ∀ r ∈ db.settlements, r.settlementRef ≠ row.settlementRef then
    if payment : ∃ p ∈ db.payments, p.id = row.paymentId then
      .ok { db with
        settlements := db.settlements ++ [row]
        settlementsPayment := db.settlementsPayment.append payment
        settlementsRef := db.settlementsRef.append fresh }
    else .error .foreignKeyViolation
  else .ok db

def setSuccess (row : PaymentRow) : PaymentRow := { row with status := .success }

def setPaid (row : OrderRow) : OrderRow := { row with status := .paid }

/-- Both updates of the `mark_payment_success` transaction. The two ids select their
rows independently of each other. -/
def markSuccess (db : Database) (paymentId orderId : Uuid) : Database :=
  { db with
    orders := updateWhere (·.id == orderId) setPaid db.orders
    payments := updateWhere (·.id == paymentId) setSuccess db.payments
    ordersKey := db.ordersKey.updateWhere fun _ => rfl
    paymentsKey := db.paymentsKey.updateWhere fun _ => rfl
    paymentsOrder := db.paymentsOrder.congr (map_updateWhere _ fun _ => rfl)
      (map_updateWhere _ fun _ => rfl)
    transactionsPayment := db.transactionsPayment.congr rfl (map_updateWhere _ fun _ => rfl)
    settlementsPayment := db.settlementsPayment.congr rfl (map_updateWhere _ fun _ => rfl) }

/-- What `SELECT ... WHERE status = 'PENDING' ORDER BY created_at ASC LIMIT 100` may
answer: rows of equal `created_at` come in any order. -/
def PendingRead (db : Database) (rows : List PaymentRow) : Prop :=
  rows.Nodup ∧ rows.length = min 100 (db.payments.countP (·.status = .pending)) ∧
    (∀ r ∈ rows, r ∈ db.payments ∧ r.status = .pending) ∧
    rows.Pairwise (·.createdAt ≤ ·.createdAt) ∧
    ∀ p ∈ db.payments, p.status = .pending → p ∉ rows → ∀ r ∈ rows, r.createdAt ≤ p.createdAt

instance (db : Database) (rows : List PaymentRow) : Decidable (db.PendingRead rows) :=
  inferInstanceAs (Decidable (_ ∧ _))

/-- The payment's row holds `SUCCESS`. -/
def Succeeded (db : Database) (paymentId : Uuid) : Prop :=
  ∃ p ∈ db.payments, p.id = paymentId ∧ p.status = .success

/-- The order's row holds `PAID`. -/
def Paid (db : Database) (orderId : Uuid) : Prop := ∃ o ∈ db.orders, o.id = orderId ∧ o.status = .paid

/-- The payment's row belongs to the order. -/
def Belongs (db : Database) (paymentId orderId : Uuid) : Prop :=
  ∃ p ∈ db.payments, p.id = paymentId ∧ p.orderId = orderId

/-- A transactions row carries this gateway and event id. -/
def Logged (db : Database) (key : String × String) : Prop := ∃ r ∈ db.transactions, r.event = key

instance (db : Database) (id : Uuid) : Decidable (db.Succeeded id) :=
  inferInstanceAs (Decidable (∃ _ ∈ _, _))

instance (db : Database) (id : Uuid) : Decidable (db.Paid id) :=
  inferInstanceAs (Decidable (∃ _ ∈ _, _))

instance (db : Database) (p o : Uuid) : Decidable (db.Belongs p o) :=
  inferInstanceAs (Decidable (∃ _ ∈ _, _))

instance (db : Database) (key : String × String) : Decidable (db.Logged key) :=
  inferInstanceAs (Decidable (∃ _ ∈ _, _))

end Database
end PaymentBackend
