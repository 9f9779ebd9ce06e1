import PaymentProcessing.Backend.Settlements
import PaymentProcessing.Backend.Evidence

/-! The amount of a payment in its three places: the order, the webhook event and the
settlement. The update for an event does not look at the event's amount, and every
settlement is written over 100, so the amounts agree where the data happen to. -/
namespace PaymentBackend
open Relational Transition

namespace Database
variable {db db' : Database} {orderId : Uuid} {amount : Int64}

/-- The order was placed over this amount. -/
def Costs (db : Database) (orderId : Uuid) (amount : Int64) : Prop :=
  ∃ o ∈ db.orders, o.id = orderId ∧ o.amount = amount

instance (db : Database) (orderId : Uuid) (amount : Int64) : Decidable (db.Costs orderId amount) :=
  inferInstanceAs (Decidable (∃ _ ∈ _, _))

/-- Every matched settlement is over the amount of the order its payment belongs to. -/
def SettlesAmounts (db : Database) : Prop :=
  ∀ row ∈ db.settlements, row.status = .matched →
    ∃ p ∈ db.payments, p.id = row.paymentId ∧ db.Costs p.orderId row.amount

instance (db : Database) : Decidable db.SettlesAmounts :=
  inferInstanceAs (Decidable (∀ _ ∈ _, _))

/-- The amount of an order never changes. -/
theorem Grows.costs_iff (grows : Grows db db') (present : o ∈ db.orders) :
    db'.Costs o.id amount ↔ o.amount = amount := by
  constructor
  · rintro ⟨row, member, same, rfl⟩
    cases grows.orders o present with
    | inl kept => rw [db'.ordersKey.unique member kept same]
    | inr paid => rw [db'.ordersKey.unique member paid same]; rfl
  · rintro rfl
    cases grows.orders o present with
    | inl kept => exact ⟨o, kept, rfl, rfl⟩
    | inr paid => exact ⟨setPaid o, paid, rfl, rfl⟩

theorem Grows.costs (grows : Grows db db') (h : db.Costs orderId amount) :
    db'.Costs orderId amount := by
  obtain ⟨o, present, rfl, same⟩ := h
  exact (grows.costs_iff present).mpr same

/-- What an order costs later it cost already. -/
theorem Grows.costs_of (grows : Grows db db') (present : o ∈ db.orders)
    (h : db'.Costs o.id amount) : db.Costs o.id amount :=
  ⟨o, present, rfl, (grows.costs_iff present).mp h⟩

/-- The order of a payment never changes. -/
theorem Grows.order_kept (grows : Grows db db') (present : p ∈ db.payments) (member : q ∈ db'.payments)
    (same : q.id = p.id) : q.orderId = p.orderId := by
  cases grows.payments p present with
  | inl kept => rw [db'.paymentsKey.unique member kept same]
  | inr success => rw [db'.paymentsKey.unique member success same]; rfl

theorem SettlesAmounts.rows (settles : db.SettlesAmounts) (grows : Grows db db') :
    ∀ row ∈ db.settlements, row.status = .matched →
      ∃ p ∈ db'.payments, p.id = row.paymentId ∧ db'.Costs p.orderId row.amount := by
  intro row member matched
  obtain ⟨p, present, named, costs⟩ := settles row member matched
  cases grows.payments p present with
  | inl kept => exact ⟨p, kept, named, grows.costs costs⟩
  | inr success => exact ⟨setSuccess p, success, named, grows.costs costs⟩

end Database

namespace Services
variable {env : Externals} {gateways : List PaymentGateway} {s t : Services}

/-- The event by which a webhook turns an order `PAID` in this step. -/
def marksPaid (s : Services) (a : Action) : Option GatewayWebhookEvent :=
  match s.performed a with
  | some (.pay _ event) =>
      if ∃ o ∈ s.store.db.orders, o.id = event.orderId ∧ o.status ≠ .paid then some event else none
  | _ => none

theorem marksPaid_order (h : s.marksPaid a = some event) :
    ∃ o ∈ s.store.db.orders, o.id = event.orderId := by
  unfold marksPaid at h
  split at h
  · split at h
    · rename_i marked
      cases h
      obtain ⟨o, member, named, -⟩ := marked
      exact ⟨o, member, named⟩
    · cases h
  · cases h

/-- The orders that webhooks have turned `PAID` and the settlements have the right amounts. -/
structure AmountsHold (env : Externals) (gateways : List PaymentGateway) (past : List Action)
    (s : Services) : Prop where
  orders : ∀ event, Occurs (step env gateways) (fun u a => u.marksPaid a = some event) initial past →
    s.store.db.Costs event.orderId event.amount
  settlements : s.store.db.SettlesAmounts

/-- An event that turns an order `PAID` has the amount of the order, and a payment that
gets its settlement belongs to an order over 100. -/
def AmountsMatch (env : Externals) (s : Services) (a : Action) : Prop :=
  (∀ event ∈ s.marksPaid a, s.store.db.Costs event.orderId event.amount) ∧
    ∀ row ∈ s.settles env a, ∀ p ∈ s.store.db.payments, p.id = row.paymentId →
      s.store.db.Costs p.orderId 100

instance (env : Externals) (s : Services) (a : Action) : Decidable (AmountsMatch env s a) :=
  inferInstanceAs (Decidable (_ ∧ _))

theorem step_settlesAmounts (h : step env gateways s a = some t)
    (before : s.store.db.SettlesAmounts) :
    t.store.db.SettlesAmounts ↔ ∀ row ∈ s.settles env a, ∀ p ∈ s.store.db.payments,
      p.id = row.paymentId → s.store.db.Costs p.orderId 100 := by
  have grows := (step_moves env gateways h).extends.db
  have added {row} (settled : s.settles env a = some row) :
      row.amount = 100 ∧ row.status = .matched ∧ ∃ p ∈ s.store.db.payments, p.id = row.paymentId := by
    obtain ⟨entry, -, new⟩ := Option.bind_eq_some_iff.mp settled
    obtain ⟨rfl, payment⟩ := Database.newSettlement_eq_some new
    exact ⟨rfl, rfl, payment⟩
  constructor
  · intro after row settled p present named
    obtain ⟨amount, matched, -⟩ := added settled
    have member : row ∈ t.store.db.settlements := by
      rw [step_settlements h]
      exact List.mem_append_right _ (Option.mem_toList.mpr settled)
    obtain ⟨q, inside, same, costs⟩ := after row member matched
    rw [grows.order_kept present inside (same.trans named.symm), amount] at costs
    obtain ⟨o, order, owned⟩ := s.store.db.paymentsOrder.parent present
    exact owned ▸ grows.costs_of order (owned ▸ costs)
  · intro met row member matched
    rw [step_settlements h, List.mem_append, Option.mem_toList] at member
    rcases member with old | settled
    · exact before.rows grows row old matched
    · obtain ⟨amount, -, p, present, named⟩ := added settled
      have costs := grows.costs (met row settled p present named)
      rw [amount]
      cases grows.payments p present with
      | inl kept => exact ⟨p, kept, named, costs⟩
      | inr success => exact ⟨Database.setSuccess p, success, named, costs⟩

theorem step_marksPaid (h : step env gateways s a = some t) :
    (∀ event ∈ s.marksPaid a, t.store.db.Costs event.orderId event.amount) ↔
      ∀ event ∈ s.marksPaid a, s.store.db.Costs event.orderId event.amount := by
  have grows := (step_moves env gateways h).extends.db
  constructor
  · intro after event marked
    obtain ⟨o, order, named⟩ := marksPaid_order marked
    exact named ▸ grows.costs_of order (named ▸ after event marked)
  · intro met event marked
    exact grows.costs (met event marked)

theorem step_amounts (reached : run (step env gateways) initial past = some s)
    (before : AmountsHold env gateways past s) (h : step env gateways s a = some t) :
    AmountsHold env gateways (past ++ [a]) t ↔ AmountsMatch env s a := by
  have grows := (step_moves env gateways h).extends.db
  have occurs (event : GatewayWebhookEvent) :
      Occurs (step env gateways) (fun u a => u.marksPaid a = some event) initial (past ++ [a]) ↔
        Occurs (step env gateways) (fun u a => u.marksPaid a = some event) initial past ∨
          s.marksPaid a = some event := by
    simp [occurs_append_iff reached, Occurs]
  constructor
  · intro after
    refine ⟨(step_marksPaid h).mp fun event marked => ?_,
      (step_settlesAmounts h before.settlements).mp after.settlements⟩
    exact after.orders event ((occurs event).mpr (Or.inr marked))
  · rintro ⟨marked, settled⟩
    refine ⟨fun event happened => ?_, (step_settlesAmounts h before.settlements).mpr settled⟩
    rcases (occurs event).mp happened with old | now
    · exact grows.costs (before.orders event old)
    · exact grows.costs (marked event now)

/-- Along a run the amounts agree exactly when every step finds them agreeing: the event
with its order, and the order of a payment to settle with 100. -/
theorem run_amounts_iff (schedule : List Action) (t : Services)
    (h : run (step env gateways) initial schedule = some t) :
    AlongHistory (step env gateways) (AmountsHold env gateways) initial schedule ↔
      Meets (step env gateways) (AmountsMatch env) initial schedule := by
  apply history_iff step_amounts ⟨?_, ?_⟩ h
  · intro event occurs
    cases occurs
  · intro row member
    cases member

/-- The example event over another amount. -/
def eventOver (amount : Int64) : GatewayWebhookEvent := { Sample.event with amount := amount }

/-- Payment 11 of an order over this amount, confirmed by an event over 100; payment 22
of an order over 100, settled by a pass. -/
def confirmedAndSettled (amount : Int64) : List Action :=
  [.createOrder 1 ⟨"u1", amount, "INR"⟩, .initiatePayment 10 11 0 ⟨1, .upi⟩,
    .receiveWebhook "Razorpay" (eventOver 100), .read 0] ++ Sample.handle 0 5 ++
  [.createOrder 2 ⟨"u2", 100, "INR"⟩, .initiatePayment 20 22 1 ⟨2, .card⟩,
    .sweep 0 [{ Sample.waitingRow with id := 22, orderId := 2, method := .card, createdAt := 1 }],
    .reconcile 0, .reconcile 0, .reconcile 0]

theorem confirmedAndSettled_amounts : ∃ t,
    run (step (Sample.env [eventOver 100]) [Sample.waiting]) initial (confirmedAndSettled 100) =
      some t ∧
    AlongHistory (step (Sample.env [eventOver 100]) [Sample.waiting])
      (AmountsHold (Sample.env [eventOver 100]) [Sample.waiting]) initial
      (confirmedAndSettled 100) := by
  have runs : (run (step (Sample.env [eventOver 100]) [Sample.waiting]) initial
      (confirmedAndSettled 100)).isSome = true := by decide +kernel
  have meets : Meets (step (Sample.env [eventOver 100]) [Sample.waiting])
      (AmountsMatch (Sample.env [eventOver 100])) initial (confirmedAndSettled 100) := by
    decide +kernel
  obtain ⟨t, reached⟩ := Option.isSome_iff_exists.mp runs
  exact ⟨t, reached, (run_amounts_iff _ t reached).mpr meets⟩

/-- Order 1 over 45000 with its payment, which an event over 100 confirms. -/
def underpaid : List Action :=
  Sample.initiated ++ .receiveWebhook "Razorpay" (eventOver 100) :: .read 0 :: Sample.handle 0 4

/-- The same order with its payment settled by a pass. -/
def oversettled : List Action :=
  Sample.initiated ++ [.sweep 0 [Sample.waitingRow], .reconcile 0, .reconcile 0]

/-- An event over 100 marks the order over 45000 `PAID`, and a pass settles 100 for it. -/
theorem amounts_disagree :
    (¬ ∀ schedule s,
      run (step (Sample.env [eventOver 100]) [Sample.waiting]) initial schedule = some s →
      ∀ event, Occurs (step (Sample.env [eventOver 100]) [Sample.waiting])
        (fun u a => u.marksPaid a = some event) initial schedule →
      s.store.db.Costs event.orderId event.amount) ∧
    ¬ ∀ schedule s,
      run (step (Sample.env [eventOver 100]) [Sample.waiting]) initial schedule = some s →
      s.store.db.SettlesAmounts := by
  constructor
  · intro claim
    have paid : Occurs (step (Sample.env [eventOver 100]) [Sample.waiting])
        (fun u a => u.marksPaid a = some (eventOver 100)) initial underpaid := by decide +kernel
    have costs : (run (step (Sample.env [eventOver 100]) [Sample.waiting]) initial underpaid).map
        (fun t => decide (t.store.db.Costs 1 100)) = some false := by decide +kernel
    obtain ⟨t, reached, wrong⟩ := Option.map_eq_some_iff.mp costs
    exact of_decide_eq_false wrong (claim _ t reached (eventOver 100) paid)
  · intro claim
    have settled : (run (step (Sample.env [eventOver 100]) [Sample.waiting]) initial
        oversettled).map (fun t => decide t.store.db.SettlesAmounts) = some false := by
      decide +kernel
    obtain ⟨t, reached, wrong⟩ := Option.map_eq_some_iff.mp settled
    exact of_decide_eq_false wrong (claim _ t reached)

end Services
end PaymentBackend
