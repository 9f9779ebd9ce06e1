import PaymentProcessing.Transition
import PaymentProcessing.Backend.Worker
import Mathlib.Logic.Function.Basic

/-! The API and any number of workers over the shared stores, interleaved statement
by statement. A statement may fail with or without having taken effect, a worker may
crash at any point and then starts over from `0-0`, and time passes on its own. -/
namespace PaymentBackend

/-- `process_webhooks`: the cursor, the events read and not yet handled, and the
call of `handle_event` in progress with its stream id. -/
structure Processor where
  lastId : Nat
  batch : List (Nat × String)
  current : Option (Nat × Handling)
  deriving DecidableEq, Repr

structure Worker where
  processor : Processor
  reconciler : Option Reconciling
  deriving DecidableEq, Repr

def Worker.booted : Worker := ⟨⟨0, [], none⟩, none⟩

structure Services where
  store : Store
  workers : Nat → Worker
  /-- The keys of the events that `handle_event` has been started on; never read. -/
  seen : List (String × String)

def Services.initial : Services := ⟨.empty, fun _ => .booted, []⟩

inductive Action where
  | elapse (seconds : Nat)
  | createOrder (orderId : Uuid) (req : CreateOrderRequest)
  | initiatePayment (paymentId rowId : Uuid) (createdAt : Nat) (req : InitiatePaymentRequest)
  | receiveWebhook (gateway : String) (event : GatewayWebhookEvent)
  | read (worker : Nat)
  | take (worker : Nat)
  | statement (worker : Nat)
  | failure (worker : Nat) (applied : Bool)
  | crash (worker : Nat)
  | sweep (worker : Nat) (rows : List PaymentRow)
  | reconcile (worker : Nat)
  | reconcileFailure (worker : Nat) (applied : Bool)

/-- The worker that acts; `none` for the API and for time. -/
def Action.worker : Action → Option Nat
  | .read w | .take w | .statement w | .failure w _ | .crash w | .sweep w _ | .reconcile w
  | .reconcileFailure w _ => some w
  | _ => none

namespace Services

def setWorker (s : Services) (w : Nat) (worker : Worker) : Services :=
  { s with workers := Function.update s.workers w worker }

def setProcessor (s : Services) (w : Nat) (processor : Processor) : Services :=
  s.setWorker w { s.workers w with processor := processor }

def setReconciler (s : Services) (w : Nat) (reconciler : Option Reconciling) : Services :=
  s.setWorker w { s.workers w with reconciler := reconciler }

def withStore (s : Services) (store : Store) : Services := { s with store := store }

/-- `last_id = stream_id`, whatever `handle_event` returned. -/
def finish (s : Services) (w id : Nat) : Services :=
  s.setProcessor w { (s.workers w).processor with lastId := id, current := none }

def proceed (s : Services) (w id : Nat) : Option Handling → Services
  | some following =>
      s.setProcessor w { (s.workers w).processor with current := some (id, following) }
  | none => s.finish w id

section Step
variable (env : Externals) (gateways : List PaymentGateway)

def noteSeen (s : Services) (payload : String) : Services :=
  match env.fromJson payload with
  | some event => { s with seen := event.key :: s.seen }
  | none => s

def step (s : Services) : Action → Option Services
  | .elapse seconds => some (s.withStore { s.store with now := s.store.now + seconds })
  | .createOrder orderId req =>
      some (s.withStore ((PaymentBackend.createOrder env orderId req).exec s.store).2)
  | .initiatePayment paymentId rowId createdAt req =>
      some (s.withStore
        ((PaymentBackend.initiatePayment env gateways paymentId rowId createdAt req).exec s.store).2)
  | .receiveWebhook gateway event =>
      some (s.withStore ((PaymentBackend.receiveWebhook env gateway event).exec s.store).2)
  | .read w =>
      let p := (s.workers w).processor
      if p.batch.isEmpty && p.current.isNone then
        some (s.setProcessor w { p with batch := readAfter s.store.stream p.lastId 50 })
      else none
  | .take w =>
      match (s.workers w).processor with
      | ⟨lastId, (id, payload) :: rest, none⟩ =>
          some ((s.setProcessor w ⟨lastId, rest, some (id, .mark payload)⟩).noteSeen env payload)
      | _ => none
  | .statement w =>
      match (s.workers w).processor.current with
      | some (id, handling) =>
          match (handling.next env).exec s.store with
          | (.ok following, t) => some ((s.withStore t).proceed w id following)
          | (.error _, t) => some ((s.withStore t).finish w id)
      | none => none
  | .failure w applied =>
      match (s.workers w).processor.current with
      | some (id, handling) =>
          some ((s.withStore
            (if applied then ((handling.next env).exec s.store).2 else s.store)).finish w id)
      | none => none
  | .crash w => some (s.setWorker w .booted)
  | .sweep w rows =>
      if s.store.db.PendingRead rows ∧ (s.workers w).reconciler = none then
        some (s.setReconciler w (some (.pay (rows.map PaymentRow.selected))))
      else none
  | .reconcile w =>
      match (s.workers w).reconciler with
      | some reconciling =>
          match (reconciling.next env).exec s.store with
          | (.ok following, t) => some ((s.withStore t).setReconciler w following)
          | (.error _, t) => some ((s.withStore t).setReconciler w none)
      | none => none
  | .reconcileFailure w applied =>
      match (s.workers w).reconciler with
      | some reconciling =>
          some ((s.withStore
            (if applied then ((reconciling.next env).exec s.store).2 else s.store)).setReconciler w none)
      | none => none

end Step

/-- The statement of `handle_event` that takes effect in this step. -/
def performed (s : Services) : Action → Option Handling
  | .statement w | .failure w true => (s.workers w).processor.current.map Prod.snd
  | _ => none

end Services

/-! Events to run schedules on, with the JSON text that carries them. -/
namespace Sample

def statusText : PaymentStatus → String
  | .pending => "PENDING"
  | .success => "SUCCESS"
  | .failed => "FAILED"

def json (event : GatewayWebhookEvent) : String :=
  "\x7b\"event_id\":\"" ++ event.eventId ++ "\",\"gateway\":\"" ++ event.gateway ++
    "\",\"order_id\":\"" ++ event.orderId.hyphenated ++
    "\",\"payment_id\":\"" ++ event.paymentId.hyphenated ++
    "\",\"gateway_txn_id\":\"" ++ event.gatewayTxnId ++ "\",\"status\":\"" ++ statusText event.status ++
    "\",\"amount\":" ++ toString event.amount ++ ",\"signature\":\"" ++ event.signature ++
    "\",\"occurred_at\":\"2026-02-21T00:00:00Z\"\x7d"

/-- Decoding is the inverse of encoding on the listed events. -/
def env (events : List GatewayWebhookEvent) : Externals where
  toJson := json
  fromJson text := events.find? (json · = text)
  acceptsText _ := true
  acceptsJsonb _ := true

def event : GatewayWebhookEvent :=
  ⟨"evt_1", "Razorpay", 1, 11, "txn_1", .success, 45000, "Razorpay:dev-secret", 1771632000000000000⟩

/-- Order 1 with payment 11, order 2 with payment 22. -/
def orders : List Action :=
  [.createOrder 1 ⟨"u1", 45000, "INR"⟩, .initiatePayment 10 11 0 ⟨1, .upi⟩,
    .createOrder 2 ⟨"u2", 45000, "INR"⟩, .initiatePayment 20 22 1 ⟨2, .card⟩]

/-- A worker takes the next event and executes this many statements of its handling. -/
def handle (worker statements : Nat) : List Action :=
  .take worker :: List.replicate statements (.statement worker)

end Sample
end PaymentBackend
