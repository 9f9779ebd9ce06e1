import PaymentProcessing.Backend.Provenance

/-! The link between an order and its payments. The reconciliation path takes both
ids from one payments row; the webhook path takes them from the event, unrelated. -/
namespace PaymentBackend
open Relational

namespace Database
variable {db db' : Database} {x p o : Uuid}

/-- Some payment of the order holds `SUCCESS`. -/
def PaidFor (db : Database) (orderId : Uuid) : Prop :=
  ∃ p ∈ db.payments, p.orderId = orderId ∧ p.status = .success

/-- An order is `PAID` exactly when one of its payments succeeded. -/
def PaidOrders (db : Database) : Prop := ∀ orderId, db.Paid orderId ↔ db.PaidFor orderId

/-- The two ids of an update name a payment and its own order, or what the update
would set wrongly is absent or set already. -/
def LinkedUpdate (db : Database) (paymentId orderId : Uuid) : Prop :=
  (∀ o ∈ db.orders, o.id = orderId → db.Belongs paymentId orderId ∨ db.Paid orderId) ∧
    ∀ p ∈ db.payments, p.id = paymentId → p.orderId = orderId ∨ db.Paid p.orderId

instance (db : Database) (p o : Uuid) : Decidable (db.LinkedUpdate p o) :=
  inferInstanceAs (Decidable (_ ∧ _))

instance (db : Database) (id : Uuid) : Decidable (db.PaidFor id) :=
  inferInstanceAs (Decidable (∃ _ ∈ _, _))

theorem markSuccess_paidFor : (db.markSuccess p o).PaidFor x ↔ db.PaidFor x ∨ db.Belongs p x := by
  constructor
  · rintro ⟨row, member, order, status⟩
    obtain ⟨old, present, rfl⟩ := mem_updateWhere.mp member
    split at order <;> rename_i hit
    · exact Or.inr ⟨old, present, by simpa using hit, order⟩
    · rw [if_neg hit] at status
      exact Or.inl ⟨old, present, order, status⟩
  · rintro (⟨row, member, order, status⟩ | ⟨row, member, same, order⟩)
    · by_cases hit : row.id = p
      · exact ⟨setSuccess row, mem_updateWhere_of_hit member (by simpa using hit), order, rfl⟩
      · exact ⟨row, mem_updateWhere_of_miss member (by simpa using hit), order, status⟩
    · exact ⟨setSuccess row, mem_updateWhere_of_hit member (by simpa using same), order, rfl⟩

/-- Where the link holds, an update keeps it exactly when its ids are linked. -/
theorem markSuccess_paidOrders (before : db.PaidOrders) :
    (db.markSuccess p o).PaidOrders ↔ db.LinkedUpdate p o := by
  simp only [PaidOrders, markSuccess_paid, markSuccess_paidFor]
  constructor
  · intro after
    constructor
    · intro order member same
      rcases (after o).mp (Or.inr ⟨rfl, order, member, same⟩) with paid | belongs
      · exact Or.inr ((before o).mpr paid)
      · exact Or.inl belongs
    · intro payment member same
      rcases (after payment.orderId).mpr (Or.inr ⟨payment, member, same, rfl⟩) with paid | ⟨same, -⟩
      · exact Or.inr paid
      · exact Or.inl same
  · rintro ⟨orders, payments⟩ x
    constructor
    · rintro (paid | ⟨rfl, order, member, same⟩)
      · exact Or.inl ((before x).mp paid)
      · cases orders order member same with
        | inl belongs => exact Or.inr belongs
        | inr paid => exact Or.inl ((before x).mp paid)
    · rintro (paid | ⟨payment, member, same, rfl⟩)
      · exact Or.inl ((before x).mpr paid)
      · rcases payments payment member same with rfl | paid
        · obtain ⟨order, inside, named⟩ := db.paymentsOrder.parent member
          exact Or.inr ⟨rfl, order, inside, named⟩
        · exact Or.inl paid

/-- The ids that a reconciliation pass read together are linked. -/
theorem Listed.linkedUpdate (listed : db.Listed (p, o, gateway)) : db.LinkedUpdate p o := by
  obtain ⟨row, member, selected⟩ := listed
  obtain ⟨rfl, rfl, -⟩ := Prod.mk.injEq .. ▸ selected
  refine ⟨fun _ _ _ => Or.inl ⟨row, member, rfl, rfl⟩, fun other inside same => Or.inl ?_⟩
  rw [db.paymentsKey.unique inside member same]

theorem insertOrder_paidOrders (before : db.PaidOrders) (pending : row.status = .pending)
    (h : db.insertOrder row = .ok db') : db'.PaidOrders := by
  obtain ⟨-, orders, payments, -⟩ := insertOrder_ok h
  intro x
  have same : db'.Paid x ↔ db.Paid x := by
    simp [Paid, orders, or_and_right, exists_or, pending]
  rw [same, before x, PaidFor, PaidFor, payments]

theorem insertPayment_paidOrders (before : db.PaidOrders) (pending : row.status = .pending)
    (h : db.insertPayment row = .ok db') : db'.PaidOrders := by
  obtain ⟨-, orders, payments, -⟩ := insertPayment_ok h
  intro x
  have same : db'.PaidFor x ↔ db.PaidFor x := by
    simp [PaidFor, payments, or_and_right, exists_or, pending]
  rw [same, ← before x, Paid, Paid, orders]

theorem PaidOrders.congr (before : db.PaidOrders) (orders : db'.orders = db.orders)
    (payments : db'.payments = db.payments) : db'.PaidOrders := by
  simpa only [PaidOrders, Paid, PaidFor, orders, payments] using before

end Database

theorem Executes.paidOrders (h : Executes env s handling t answer) (before : s.db.PaidOrders)
    (linked : ∀ payload event, handling = .pay payload event →
      s.db.LinkedUpdate event.paymentId event.orderId) : t.db.PaidOrders := by
  cases h with
  | recorded _ inserted | logged _ inserted =>
    obtain ⟨orders, payments, -⟩ := Database.insertTransaction_ok inserted
    exact before.congr orders payments
  | paid => exact (Database.markSuccess_paidOrders before).mpr (linked _ _ rfl)
  | _ => exact before

theorem Settles.paidOrders (h : Settles s reconciling t next) (before : s.db.PaidOrders)
    (listed : ∀ x ∈ reconciling.pending, s.db.Listed x) : t.db.PaidOrders := by
  cases h with
  | paid =>
    exact (Database.markSuccess_paidOrders before).mpr (listed _ List.mem_cons_self).linkedUpdate
  | settled inserted =>
    obtain ⟨orders, payments, -⟩ := Database.insertSettlement_ok inserted
    exact before.congr orders payments
  | finished | failed => exact before

namespace Services
variable {env : Externals} {gateways : List PaymentGateway} {s t : Services}

/-- A webhook update names a payment and its own order. -/
def LinkedStep (s : Services) (a : Action) : Prop :=
  match s.performed a with
  | some (.pay _ event) => s.store.db.LinkedUpdate event.paymentId event.orderId
  | _ => True

instance (s : Services) (a : Action) : Decidable (LinkedStep s a) := by
  unfold LinkedStep
  split <;> infer_instance

theorem Moves.paidOrders (h : Moves env s a t) (sound : s.Sound env)
    (before : s.store.db.PaidOrders)
    (linked : LinkedStep s a) : t.store.db.PaidOrders := by
  cases h with
  | request a u api effect =>
    cases effect with
    | answered => exact before
    | order pending inserted => exact Database.insertOrder_paidOrders before pending inserted
    | payment _ pending inserted => exact Database.insertPayment_paidOrders before pending inserted
  | statement w entry handling u answer current executed =>
    rw [proceed_store]
    apply executed.paidOrders before
    rintro payload event rfl
    simpa [LinkedStep, performed, current] using linked
  | failed w applied entry handling u current outcome =>
    rcases outcome with ⟨rfl, -⟩ | ⟨rfl, answer, executed⟩
    · exact before
    · apply executed.paidOrders before
      rintro payload event rfl
      simpa [LinkedStep, performed, current] using linked
  | reconcile w reconciling u next current settled =>
    exact settled.paidOrders before ((sound.workers w).pending _ current)
  | abandoned w applied reconciling u current outcome =>
    rcases outcome with rfl | ⟨-, next, settled⟩
    · exact before
    · exact settled.paidOrders before ((sound.workers w).pending _ current)
  | take => simpa using before
  | _ => exact before

/-- Whatever the API, the webhook loops and the reconciliation passes interleave to,
with failures and crashes anywhere, orders and payments agree as long as every
webhook update that takes effect was linked. -/
theorem run_paidOrders (meets : Transition.Meets (step env gateways) LinkedStep initial schedule)
    (h : Transition.run (step env gateways) initial schedule = some t) : t.store.db.PaidOrders := by
  have both : t.Sound env ∧ t.store.db.PaidOrders := by
    refine Transition.invariant_of_meets (I := fun s => s.Sound env ∧ s.store.db.PaidOrders)
      (fun before linked stepped => ?_) ⟨initial_sound, fun _ => ?_⟩ meets h
    · have moves := step_moves env gateways stepped
      exact ⟨moves.sound before.1, moves.paidOrders before.1 before.2 linked⟩
    · simp [Database.Paid, Database.PaidFor, initial, Store.empty, Database.empty]
  exact both.2

/-- The example event of order 1, handled to its end. -/
def linkedSchedule : List Action :=
  Sample.orders ++ .receiveWebhook "Razorpay" Sample.event :: .read 0 :: Sample.handle 0 5

set_option maxRecDepth 8000 in
theorem linkedSchedule_paidOrders : ∃ t,
    Transition.run (step (Sample.env [Sample.event]) configuredGateways) initial linkedSchedule =
      some t ∧
      t.store.db.PaidOrders := by
  have meets : Transition.Meets (step (Sample.env [Sample.event]) configuredGateways) LinkedStep
      initial linkedSchedule := by decide
  exact ⟨_, rfl, run_paidOrders meets rfl⟩

/-- The same event with the order id of another order. -/
def mislinkedEvent : GatewayWebhookEvent := { Sample.event with orderId := 2 }

set_option maxRecDepth 8000 in
/-- Payment 11 of order 1 succeeds, and order 2 is the one that becomes paid. -/
theorem mislinked_breaks_paidOrders :
    ¬ ∀ schedule t, Transition.run (step (Sample.env [mislinkedEvent]) configuredGateways)
      initial schedule = some t → t.store.db.PaidOrders := by
  intro claim
  have agree := claim
    (Sample.orders ++ .receiveWebhook "Razorpay" mislinkedEvent :: .read 0 :: Sample.handle 0 5) _ rfl
  exact absurd ((agree 2).mp (by decide)) (by decide)

end Services
end PaymentBackend
