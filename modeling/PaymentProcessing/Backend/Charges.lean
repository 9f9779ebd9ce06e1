import PaymentProcessing.Backend.StatusChanges

/-! How many payments of one order succeed. Payments are inserted without a look at the
order or at its other payments, and each update promotes the payment it names, so the
count is bounded only by what the updates of a run find when they take effect. -/
namespace PaymentBackend
open Relational Transition

namespace Database
variable {db db' : Database} {order x o : Uuid}

/-- At most one payment of the order holds `SUCCESS`. -/
def SoleSuccess (db : Database) (order : Uuid) : Prop :=
  ∀ p ∈ db.payments, p.orderId = order → p.status = .success →
    ∀ q ∈ db.payments, q.orderId = order → q.status = .success → q.id = p.id

/-- If the payment is one of the order, no other payment of the order has succeeded. -/
def Unrivalled (db : Database) (order paymentId : Uuid) : Prop :=
  db.Belongs paymentId order →
    ∀ q ∈ db.payments, q.orderId = order → q.status = .success → q.id = paymentId

instance (db : Database) (order : Uuid) : Decidable (db.SoleSuccess order) :=
  inferInstanceAs (Decidable (∀ _ ∈ _, _))

instance (db : Database) (order id : Uuid) : Decidable (db.Unrivalled order id) :=
  inferInstanceAs (Decidable (_ → _))

/-- Where the bound holds, an update keeps it exactly when its payment has no rival. -/
theorem markSuccess_soleSuccess (before : db.SoleSuccess order) :
    (db.markSuccess x o).SoleSuccess order ↔ db.Unrivalled order x := by
  constructor
  · intro after
    rintro ⟨p, present, named, own⟩ q member same success
    have promoted : setSuccess p ∈ (db.markSuccess x o).payments :=
      mem_updateWhere_of_hit present (by simpa using named)
    by_cases hit : q.id = x
    · exact hit
    · have kept : q ∈ (db.markSuccess x o).payments :=
        mem_updateWhere_of_miss member (by simpa using hit)
      exact (after _ promoted own rfl q kept same success).trans named
  · intro unrivalled
    -- a payment that counts afterwards counted before, or is the promoted one
    have counted (p) (member : p ∈ (db.markSuccess x o).payments) (own : p.orderId = order)
        (success : p.status = .success) :
        (p ∈ db.payments) ∨ p.id = x ∧ db.Belongs x order := by
      obtain ⟨old, present, rfl⟩ := mem_updateWhere.mp member
      split at own <;> rename_i hit
      · have named : old.id = x := by simpa using hit
        exact Or.inr ⟨by rw [if_pos hit]; exact named, old, present, named, own⟩
      · rw [if_neg hit]
        exact Or.inl present
    intro p member own success q member' own' success'
    rcases counted p member own success with present | ⟨named, belongs⟩
    · rcases counted q member' own' success' with present' | ⟨named', belongs⟩
      · exact before p present own success q present' own' success'
      · rw [named', unrivalled belongs p present own success]
    · rcases counted q member' own' success' with present' | ⟨named', -⟩
      · rw [named, unrivalled belongs q present' own' success']
      · rw [named, named']

theorem SoleSuccess.congr (before : db.SoleSuccess order)
    (same : ∀ p ∈ db'.payments, p.status = .success → p ∈ db.payments) :
    db'.SoleSuccess order := by
  intro p member own success q member' own' success'
  exact before p (same p member success) own success q (same q member' success') own' success'

end Database

/-- The one statement of `handle_event` that touches payments. -/
theorem Executes.payments (h : Executes env s handling t answer) :
    (∃ payload event, handling = .pay payload event ∧
      t.db = s.db.markSuccess event.paymentId event.orderId) ∨
    (∀ payload event, handling ≠ .pay payload event) ∧ t.db.payments = s.db.payments := by
  cases h with
  | recorded _ inserted | logged _ inserted =>
    obtain ⟨-, payments, -⟩ := Database.insertTransaction_ok inserted
    exact Or.inr ⟨by simp, payments⟩
  | paid => exact Or.inl ⟨_, _, rfl, rfl⟩
  | _ => exact Or.inr ⟨by simp, rfl⟩

theorem Settles.payments (h : Settles s reconciling t next) :
    (∃ paymentId orderId gateway pending,
      reconciling = .pay ((paymentId, orderId, gateway) :: pending) ∧
      t.db = s.db.markSuccess paymentId orderId) ∨
    (∀ head pending, reconciling ≠ .pay (head :: pending)) ∧ t.db.payments = s.db.payments := by
  cases h with
  | paid => exact Or.inl ⟨_, _, _, _, rfl, rfl⟩
  | settled inserted =>
    obtain ⟨-, payments, -⟩ := Database.insertSettlement_ok inserted
    exact Or.inr ⟨by simp, payments⟩
  | finished | failed => exact Or.inr ⟨by simp, rfl⟩

/-- The payment that a statement of the webhook loop promotes. -/
def Handling.promotes : Handling → Option Uuid
  | .pay _ event => some event.paymentId
  | _ => none

def Reconciling.promotes : Reconciling → Option Uuid
  | .pay ((paymentId, _, _) :: _) => some paymentId
  | _ => none

namespace Services
variable {env : Externals} {gateways : List PaymentGateway} {s t : Services} {order : Uuid}

/-- The payment that the step promotes, by a webhook or by a reconciliation pass. -/
def promotes (s : Services) : Action → Option Uuid
  | .statement w | .failure w true =>
      (s.workers w).processor.current.bind fun call => Handling.promotes call.2
  | .reconcile w | .reconcileFailure w true => (s.workers w).reconciler.bind Reconciling.promotes
  | _ => none

/-- A promotion finds no other successful payment of this order. -/
def Unrivalled (order : Uuid) (s : Services) (a : Action) : Prop :=
  ∀ paymentId ∈ s.promotes a, s.store.db.Unrivalled order paymentId

instance (order : Uuid) (s : Services) (a : Action) : Decidable (Unrivalled order s a) :=
  match promoted : s.promotes a with
  | none => .isTrue (by simp [Unrivalled, promoted])
  | some paymentId =>
      decidable_of_iff (s.store.db.Unrivalled order paymentId) (by simp [Unrivalled, promoted])

/-- What a step does to the payments that have succeeded. -/
inductive Promotion (s : Services) (a : Action) (t : Services) : Prop where
  | promoted (paymentId orderId) : s.promotes a = some paymentId →
      t.store.db = s.store.db.markSuccess paymentId orderId → Promotion s a t
  | steady : s.promotes a = none →
      (∀ p ∈ t.store.db.payments, p.status = .success → p ∈ s.store.db.payments) → Promotion s a t

theorem Promotion.of_executed (executed : Executes env s.store handling u answer)
    (called : s.promotes a = Handling.promotes handling) (db : t.store.db = u.db) :
    Promotion s a t := by
  rcases executed.payments with ⟨payload, event, rfl, updated⟩ | ⟨other, payments⟩
  · exact .promoted _ _ called (db.trans updated)
  · apply Promotion.steady
    · cases handling with
      | pay payload event => exact absurd rfl (other payload event)
      | _ => exact called
    · intro p member _
      rwa [db, payments] at member

theorem Promotion.of_settled (settled : Settles s.store reconciling u next)
    (called : s.promotes a = Reconciling.promotes reconciling) (db : t.store.db = u.db) :
    Promotion s a t := by
  rcases settled.payments with ⟨paymentId, orderId, gateway, pending, rfl, updated⟩ | ⟨other, payments⟩
  · exact .promoted _ _ called (db.trans updated)
  · apply Promotion.steady
    · cases reconciling with
      | pay rows =>
        cases rows with
        | nil => exact called
        | cons head pending => exact absurd rfl (other head pending)
      | settle _ _ _ => exact called
    · intro p member _
      rwa [db, payments] at member

theorem Promotion.of_frame (none : s.promotes a = none)
    (payments : t.store.db.payments = s.store.db.payments) :
    Promotion s a t :=
  .steady none fun _ member _ => payments ▸ member

theorem step_promotion (h : step env gateways s a = some t) : Promotion s a t := by
  have moves := step_moves env gateways h
  cases moves with
  | request a u api effect =>
    have silent : s.promotes a = none := by
      cases a <;> first | rfl | contradiction
    cases effect with
    | answered => exact .of_frame silent rfl
    | order _ inserted =>
      obtain ⟨-, -, payments, -⟩ := Database.insertOrder_ok inserted
      exact .of_frame silent payments
    | payment _ pending inserted =>
      obtain ⟨-, -, payments, -⟩ := Database.insertPayment_ok inserted
      apply Promotion.steady silent
      intro p member success
      rw [withStore_store, payments] at member
      cases List.mem_append.mp member with
      | inl old => exact old
      | inr new =>
        rw [List.mem_singleton.mp new, pending] at success
        contradiction
  | statement w entry handling u answer current executed =>
    apply Promotion.of_executed executed
    · simp only [promotes, current, Option.bind_some]
    · rw [proceed_store, withStore_store]
  | failed w applied entry handling u current outcome =>
    rcases outcome with ⟨rfl, rfl⟩ | ⟨rfl, answer, executed⟩
    · exact .of_frame rfl rfl
    · apply Promotion.of_executed executed
      · simp only [promotes, current, Option.bind_some]
      · rfl
  | reconcile w reconciling u next current settled =>
    apply Promotion.of_settled settled
    · simp only [promotes, current, Option.bind_some]
    · rfl
  | abandoned w applied reconciling u current outcome =>
    -- which store an applied failure leaves is read off the step itself
    simp only [step, current, Option.some.injEq] at h
    cases applied with
    | false => exact .of_frame rfl (by rw [← h]; rfl)
    | true =>
      apply Promotion.of_settled (settles_next env s.store reconciling)
      · simp only [promotes, current, Option.bind_some]
      · rw [← h]
        rfl
  | take w lastId entry payload rest processor => exact .of_frame rfl (by simp)
  | _ => exact .of_frame rfl rfl

theorem Promotion.soleSuccess (h : Promotion s a t) (before : s.store.db.SoleSuccess order) :
    t.store.db.SoleSuccess order ↔ Unrivalled order s a := by
  cases h with
  | promoted paymentId orderId promoted updated =>
    simp only [Unrivalled, promoted, Option.mem_some_iff, forall_eq', updated]
    exact Database.markSuccess_soleSuccess before
  | steady silent same =>
    simp only [Unrivalled, silent]
    exact ⟨fun _ => by simp, fun _ => before.congr same⟩

/-- Along a run, at most one payment of the order has succeeded in every state exactly
when each promotion of the run found no other one. -/
theorem run_soleSuccess_iff (order : Uuid) (schedule : List Action) (t : Services)
    (h : run (step env gateways) initial schedule = some t) :
    Throughout (step env gateways) (·.store.db.SoleSuccess order) initial schedule ↔
      Meets (step env gateways) (Unrivalled order) initial schedule := by
  apply throughout_iff _ _ h
  · intro u a v before stepped
    exact (step_promotion stepped).soleSuccess before
  · intro p member
    contradiction

/-- Order 1 is paid through payment 11; payment 13 is initiated for it afterwards. -/
def secondPayment : List Action :=
  [.createOrder 1 ⟨"u1", 45000, "INR"⟩, .initiatePayment 10 11 0 ⟨1, .upi⟩] ++
    .receiveWebhook "Razorpay" Sample.event :: .read 0 :: Sample.handle 0 5 ++
    [.initiatePayment 12 13 1 ⟨1, .card⟩]

/-- The pending row of payment 13. -/
def secondRow : PaymentRow where
  id := 13
  orderId := 1
  gateway := "Razorpay"
  method := .card
  checkoutUrl := "https://mock-razorpay.example/checkout?order_id=" ++ Uuid.hyphenated 1 ++
    "&payment_id=" ++ Uuid.hyphenated 12
  status := .pending
  createdAt := 1

theorem secondPayment_sole : ∃ t, run (step (Sample.env [Sample.event]) configuredGateways) initial
      secondPayment = some t ∧
    Throughout (step (Sample.env [Sample.event]) configuredGateways) (·.store.db.SoleSuccess 1)
      initial secondPayment := by
  have meets : Meets (step (Sample.env [Sample.event]) configuredGateways) (Unrivalled 1) initial
      secondPayment := by decide +kernel
  have runs : (run (step (Sample.env [Sample.event]) configuredGateways) initial
      secondPayment).isSome = true := by decide +kernel
  obtain ⟨t, reached⟩ := Option.isSome_iff_exists.mp runs
  exact ⟨t, reached, (run_soleSuccess_iff 1 _ t reached).mpr meets⟩

/-- The next reconciliation pass finds payment 13 pending and promotes it as well. -/
theorem secondPayment_charged_twice :
    ¬ ∀ schedule t, run (step (Sample.env [Sample.event]) configuredGateways) initial schedule =
      some t → ∀ order, t.store.db.SoleSuccess order := by
  intro claim
  have second : (run (step (Sample.env [Sample.event]) configuredGateways) initial
      (secondPayment ++ [.sweep 0 [secondRow], .reconcile 0])).map
        (fun t => decide (t.store.db.SoleSuccess 1)) = some false := by decide +kernel
  obtain ⟨t, reached, broken⟩ := Option.map_eq_some_iff.mp second
  exact of_decide_eq_false broken (claim _ t reached 1)

end Services
end PaymentBackend
