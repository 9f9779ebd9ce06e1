import PaymentProcessing.Backend.Draining

/-! What a client that polls `GET /orders/:order_id` sees. The status column of an order is
set to `PENDING` by the insert and to `PAID` by the two updates, and nothing else writes it. -/
namespace PaymentBackend
open Relational Transition

/-- What the route has to say about an order. -/
inductive Phase where
  | unknown
  | pending
  | paid
  deriving DecidableEq, Repr

namespace Phase

def answer (orderId : Uuid) : Phase → Except ApiError (Uuid × OrderStatus)
  | .unknown => .error (.notFound "order not found")
  | .pending => .ok (orderId, .pending)
  | .paid => .ok (orderId, .paid)

def rank : Phase → Nat
  | .unknown => 0
  | .pending => 1
  | .paid => 2

theorem answer_injective {orderId : Uuid} {phase other : Phase}
    (same : phase.answer orderId = other.answer orderId) : phase = other := by
  cases phase <;> cases other <;> simp [answer] at same ⊢

end Phase

namespace Database
variable {db db' : Database} {orderId : Uuid} {phase : Phase}

/-- The phase that the rows put an order in. -/
def InPhase (db : Database) (orderId : Uuid) : Phase → Prop
  | .unknown => ∀ o ∈ db.orders, o.id ≠ orderId
  | .pending => ∃ o ∈ db.orders, o.id = orderId ∧ o.status = .pending
  | .paid => db.Paid orderId

/-- No order is `FAILED`. -/
def Unfailed (db : Database) : Prop := ∀ o ∈ db.orders, o.status ≠ .failed

/-- What a statement may do to the table of orders. -/
inductive OrdersMove (db db' : Database) : Prop where
  | kept : db'.orders = db.orders → OrdersMove db db'
  | placed (row) : row.status = .pending → db'.orders = db.orders ++ [row] → OrdersMove db db'
  | paid (id) : db'.orders = updateWhere (OrderRow.id · == id) setPaid db.orders → OrdersMove db db'

theorem OrdersMove.unfailed (orders : OrdersMove db db') (unfailed : db.Unfailed) : db'.Unfailed := by
  intro o member
  cases orders with
  | kept same => exact unfailed o (same ▸ member)
  | placed row pending added =>
    rw [added, List.mem_append, List.mem_singleton] at member
    rcases member with old | rfl
    · exact unfailed o old
    · simp [pending]
  | paid id updated =>
    rw [updated] at member
    obtain ⟨row, inside, rfl⟩ := mem_updateWhere.mp member
    split
    · simp [setPaid]
    · exact unfailed row inside

theorem Unfailed.inPhase (unfailed : db.Unfailed) (orderId : Uuid) :
    ∃ phase, db.InPhase orderId phase := by
  by_cases present : ∃ o ∈ db.orders, o.id = orderId
  · obtain ⟨o, member, same⟩ := present
    cases status : o.status with
    | pending => exact ⟨.pending, o, member, same, status⟩
    | paid => exact ⟨.paid, o, member, same, status⟩
    | failed => exact absurd status (unfailed o member)
  · exact ⟨.unknown, fun o member same => present ⟨o, member, same⟩⟩

/-- A phase is what the route answers. -/
theorem InPhase.answered {s : Store} (h : s.db.InPhase orderId phase) :
    (getOrder orderId).exec s = (phase.answer orderId, s) := by
  simp only [getOrder, Effect.exec_statement]
  cases phase with
  | unknown =>
    have absent : s.db.orders.find? (·.id = orderId) = none := by
      rw [List.find?_eq_none]
      intro o member
      simpa using h o member
    rw [absent]
    rfl
  | pending | paid =>
    obtain ⟨o, member, same, status⟩ := h
    rw [s.db.ordersKey.find?_of_mem member same]
    simp [Phase.answer, same, status]

/-- An order moves forward where rows are only added and paid. -/
theorem Grows.inPhase (grows : Grows db db') (unfailed : db'.Unfailed)
    (h : db.InPhase orderId phase) :
    ∃ after, db'.InPhase orderId after ∧ phase.rank ≤ after.rank := by
  cases phase with
  | unknown =>
    obtain ⟨after, later⟩ := unfailed.inPhase orderId
    exact ⟨after, later, Nat.zero_le _⟩
  | pending =>
    obtain ⟨o, member, same, status⟩ := h
    rcases grows.orders o member with kept | paid
    · exact ⟨.pending, ⟨o, kept, same, status⟩, Nat.le_refl _⟩
    · exact ⟨.paid, ⟨setPaid o, paid, same, rfl⟩, by decide⟩
  | paid => exact ⟨.paid, grows.paid h, Nat.le_refl _⟩

end Database

section Statements
variable {env : Externals} {s t : Store}
open Database

theorem ApiEffect.ordersMoved (h : ApiEffect s t) : OrdersMove s.db t.db := by
  cases h with
  | answered => exact .kept rfl
  | order pending inserted => exact .placed _ pending (insertOrder_ok inserted).2.1
  | payment _ _ inserted => exact .kept (insertPayment_ok inserted).2.1

theorem Executes.ordersMoved (h : Executes env s handling t answer) : OrdersMove s.db t.db := by
  cases h with
  | recorded _ inserted | logged _ inserted => exact .kept (insertTransaction_ok inserted).1
  | paid => exact .paid _ rfl
  | _ => exact .kept rfl

theorem Settles.ordersMoved (h : Settles s reconciling t next) : OrdersMove s.db t.db := by
  cases h with
  | paid => exact .paid _ rfl
  | settled inserted => exact .kept (insertSettlement_ok inserted).1
  | finished | failed => exact .kept rfl

/-- The order of an answered request is new, and stored under the id of the answer. -/
theorem createOrder_answered {req : CreateOrderRequest} {response : CreateOrderResponse}
    (h : (createOrder env orderId req).exec s = (.ok response, t)) :
    response = ⟨orderId, .pending⟩ ∧ s.db.InPhase orderId .unknown ∧
      t.db.InPhase orderId .pending := by
  rcases createOrder_exec env orderId req s with ⟨e, nothing⟩ | ⟨db, inserted, answered⟩
  · rw [nothing] at h
    cases h
  · rw [answered] at h
    cases h
    obtain ⟨fresh, orders, -⟩ := insertOrder_ok inserted
    refine ⟨rfl, fresh, ⟨orderId, req.userId, req.amount, req.currency, .pending⟩, ?_, rfl, rfl⟩
    simp [orders]

end Statements

namespace Services
variable {env : Externals} {gateways : List PaymentGateway} {s t : Services}
open Database

theorem step_ordersMoved (h : step env gateways s a = some t) : OrdersMove s.store.db t.store.db := by
  cases step_moves env gateways h with
  | request a t api effect => exact effect.ordersMoved
  | statement w entry handling t answer current executed => simpa using executed.ordersMoved
  | failed w applied entry handling t current outcome =>
    rcases outcome with ⟨rfl, -⟩ | ⟨-, answer, executed⟩
    · exact .kept rfl
    · exact executed.ordersMoved
  | reconcile w reconciling t next current settled => exact settled.ordersMoved
  | abandoned w applied reconciling t current outcome =>
    rcases outcome with rfl | ⟨-, next, settled⟩
    · exact .kept rfl
    · exact settled.ordersMoved
  | take w lastId entry payload rest processor => exact .kept (by simp)
  | elapse | webhook | read | crash | sweep => exact .kept rfl

theorem run_unfailed (reached : run (step env gateways) initial past = some s) :
    s.store.db.Unfailed :=
  invariant (I := fun s => s.store.db.Unfailed)
    (fun before stepped => (step_ordersMoved stepped).unfailed before)
    (fun _ member => nomatch member) reached

/-- Whatever happens in between, two polls about one order never go back, neither of them says
`FAILED`, and an order that was just answered with is found by every later poll. -/
theorem run_polls (env : Externals) (gateways : List PaymentGateway) (past schedule : List Action)
    (s t : Services) (orderId : Uuid) (reached : run (step env gateways) initial past = some s)
    (h : run (step env gateways) s schedule = some t) :
    ∃ before after : Phase,
      (getOrder orderId).exec s.store = (before.answer orderId, s.store) ∧
      (getOrder orderId).exec t.store = (after.answer orderId, t.store) ∧
      before.rank ≤ after.rank ∧
      ∀ req response rest, schedule = .createOrder orderId req :: rest →
        ((createOrder env orderId req).exec s.store).1 = .ok response →
        response = ⟨orderId, .pending⟩ ∧ before = .unknown ∧ after ≠ .unknown ∧
          (rest = [] → after = .pending) := by
  have unfailed : t.store.db.Unfailed := run_unfailed (run_append_iff.mpr ⟨s, reached, h⟩)
  obtain ⟨before, first⟩ := (run_unfailed reached).inPhase orderId
  obtain ⟨after, second, forward⟩ := (run_extends h).db.inPhase unfailed first
  refine ⟨before, after, first.answered, second.answered, forward, ?_⟩
  rintro req response rest rfl answered
  obtain ⟨u, stepped, later⟩ := run_cons_iff.mp h
  cases stepped
  obtain ⟨same, fresh, placed⟩ := createOrder_answered (Prod.ext answered rfl)
  obtain ⟨next, found, onward⟩ := (run_extends later).db.inPhase unfailed placed
  have polled : after = next := Phase.answer_injective
    (congrArg Prod.fst (second.answered.symm.trans found.answered))
  subst polled
  refine ⟨same, Phase.answer_injective (congrArg Prod.fst (first.answered.symm.trans fresh.answered)),
    ?_, ?_⟩
  · rintro rfl
    exact absurd onward (by decide)
  · rintro rfl
    cases later
    exact Phase.answer_injective (congrArg Prod.fst (found.answered.symm.trans placed.answered))

/-- Order 1 is placed, and its payment is confirmed by a webhook. -/
def Sample.checkout : List Action :=
  Sample.orders ++ [.receiveWebhook "Razorpay" Sample.event, .read 0] ++ Sample.handle 0 5

theorem checkout_polls : ∃ t, run (step (Sample.env [Sample.event]) configuredGateways) initial
      Sample.checkout = some t ∧
    ∃ before after : Phase,
      (getOrder 1).exec initial.store = (before.answer 1, initial.store) ∧
      (getOrder 1).exec t.store = (after.answer 1, t.store) ∧
      before.rank ≤ after.rank ∧
      ∀ req response rest, Sample.checkout = .createOrder 1 req :: rest →
        ((createOrder (Sample.env [Sample.event]) 1 req).exec initial.store).1 = .ok response →
        response = ⟨1, .pending⟩ ∧ before = .unknown ∧ after ≠ .unknown ∧
          (rest = [] → after = .pending) := by
  obtain ⟨t, h⟩ := Option.isSome_iff_exists.mp
    (show (run (step (Sample.env [Sample.event]) configuredGateways) initial
      Sample.checkout).isSome by decide +kernel)
  exact ⟨t, h, run_polls _ _ [] Sample.checkout initial t 1 rfl h⟩

end Services
end PaymentBackend
