import PaymentProcessing.Backend.InFlight

/-! What may change a status. Two updates do: the one of `handle_event` and the one of
`reconcile_once`. Neither asks a gateway anything, so what speaks for a payment has to
come from the events and rows that reach them. -/
namespace PaymentBackend
open Relational

namespace Database
variable {db db' : Database} {x o : Uuid}

/-- Some payment or order has another status in `db'`. -/
def StatusChanged (db db' : Database) : Prop :=
  (∃ p ∈ db.payments, ∃ q ∈ db'.payments, q.id = p.id ∧ q.status ≠ p.status) ∨
    ∃ p ∈ db.orders, ∃ q ∈ db'.orders, q.id = p.id ∧ q.status ≠ p.status

theorem payment_kept (rows : db.payments ⊆ db'.payments) (before : p ∈ db.payments)
    (after : q ∈ db'.payments) (same : q.id = p.id) : q = p :=
  db'.paymentsKey.unique after (rows before) same

theorem not_statusChanged (payments : db.payments ⊆ db'.payments)
    (orders : db.orders ⊆ db'.orders) :
    ¬ StatusChanged db db' := by
  rintro (⟨p, before, q, after, same, changed⟩ | ⟨p, before, q, after, same, changed⟩)
  · exact changed (congrArg _ (payment_kept payments before after same))
  · exact changed (congrArg _ (db'.ordersKey.unique after (orders before) same))

/-- Only the payment that the update names can move. -/
theorem markSuccess_moves (before : p ∈ db.payments) (after : q ∈ (db.markSuccess x o).payments)
    (same : q.id = p.id) (changed : q.status ≠ p.status) : p.id = x := by
  by_contra other
  have kept : p ∈ (db.markSuccess x o).payments :=
    mem_updateWhere_of_miss before (by simpa using other)
  have equal := (db.markSuccess x o).paymentsKey.unique after kept same
  exact changed (congrArg _ equal)

end Database

namespace Services
variable {env : Externals} {s t : Services}

/-- Which update, if any, a step makes to the statuses. -/
inductive StatusStep (s : Services) (a : Action) (t : Services) : Prop where
  | kept : s.store.db.payments ⊆ t.store.db.payments → s.store.db.orders ⊆ t.store.db.orders →
      StatusStep s a t
  | webhook (payload event) : s.performed a = some (.pay payload event) →
      t.store.db = s.store.db.markSuccess event.paymentId event.orderId → StatusStep s a t
  | reconciled (w paymentId orderId gateway pending) : s.performed a = none →
      (s.workers w).reconciler = some (.pay ((paymentId, orderId, gateway) :: pending)) →
      t.store.db = s.store.db.markSuccess paymentId orderId → StatusStep s a t

theorem Moves.kept {db : Database} (same : t.store.db = db)
    (payments : s.store.db.payments ⊆ db.payments)
    (orders : s.store.db.orders ⊆ db.orders) : StatusStep s a t :=
  .kept (same ▸ payments) (same ▸ orders)

private theorem executed_status (called : s.performed a = some handling)
    (executed : Executes env s.store handling u answer) (db : t.store.db = u.db) :
    StatusStep s a t := by
  cases executed with
  | recorded _ inserted | logged _ inserted =>
    obtain ⟨orders, payments, -⟩ := Database.insertTransaction_ok inserted
    exact Moves.kept db (by simp [payments]) (by simp [orders])
  | paid => exact .webhook _ _ called db
  | _ => exact Moves.kept db (List.Subset.refl _) (List.Subset.refl _)

private theorem settled_status (idle : s.performed a = none)
    (current : (s.workers w).reconciler = some reconciling)
    (settled : Settles s.store reconciling u next) (db : t.store.db = u.db) : StatusStep s a t := by
  cases settled with
  | paid => exact .reconciled w _ _ _ _ idle current db
  | settled inserted =>
    obtain ⟨orders, payments, -⟩ := Database.insertSettlement_ok inserted
    exact Moves.kept db (by simp [payments]) (by simp [orders])
  | finished | failed => exact Moves.kept db (List.Subset.refl _) (List.Subset.refl _)

theorem Moves.statusStep (h : Moves env s a t) : StatusStep s a t := by
  have frame (db : t.store.db = s.store.db) : StatusStep s a t :=
    kept db (List.Subset.refl _) (List.Subset.refl _)
  cases h with
  | request a u api effect =>
    cases effect with
    | answered => exact frame rfl
    | order _ inserted =>
      obtain ⟨-, orders, payments, -⟩ := Database.insertOrder_ok inserted
      exact kept rfl (by simp [payments]) (by simp [orders])
    | payment _ _ inserted =>
      obtain ⟨-, orders, payments, -⟩ := Database.insertPayment_ok inserted
      exact kept rfl (by simp [payments]) (by simp [orders])
  | statement w entry handling u answer current executed =>
    exact executed_status (call_of_current current) executed
      (by rw [proceed_store, withStore_store])
  | failed w applied entry handling u current outcome =>
    rcases outcome with ⟨rfl, -⟩ | ⟨rfl, answer, executed⟩
    · exact frame rfl
    · exact executed_status (call_of_current current) executed rfl
  | reconcile w reconciling u next current settled => exact settled_status rfl current settled rfl
  | abandoned w applied reconciling u current outcome =>
    rcases outcome with rfl | ⟨-, next, settled⟩
    · exact frame rfl
    · exact settled_status rfl current settled rfl
  | take w lastId entry payload rest processor => exact frame (by simp)
  | _ => exact frame rfl

end Services
end PaymentBackend
