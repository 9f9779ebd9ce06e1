import PaymentProcessing.Backend.Api

/-! The two loops of the worker. `handleEvent` and `reconcileOnce` are written as the
source writes them; `Handling` cuts the first into its statements, each of which can
be the last one before a failure or a crash. -/
namespace PaymentBackend
variable (env : Externals)

def idemKey (event : GatewayWebhookEvent) : String :=
  "idemp:webhook:" ++ event.gateway ++ ":" ++ event.eventId

/-- `serde_json::from_str(payload)?` -/
def parseEvent (payload : String) : Effect Store Failure GatewayWebhookEvent :=
  match env.fromJson payload with
  | some event => pure event
  | none => throw .json

def handleEvent (payload : String) : Effect Store Failure Unit := do
  let event ← parseEvent env payload
  let shouldProcess ← markIfAbsent (idemKey event) 3600
  if !shouldProcess then
    return ()
  Repository.logTransaction env event
  if event.status = .success then
    Repository.markPaymentSuccess event.paymentId event.orderId
    publishPaymentConfirmed payload

/-- What `handle_event` is about to execute. -/
inductive Handling where
  | mark (payload : String)
  | expire (payload : String) (event : GatewayWebhookEvent)
  | log (payload : String) (event : GatewayWebhookEvent)
  | pay (payload : String) (event : GatewayWebhookEvent)
  | publish (payload : String) (event : GatewayWebhookEvent)
  deriving DecidableEq, Repr

/-- Execute the next statement; `none` is the return with `Ok(())`. -/
def Handling.next : Handling → Effect Store Failure (Option Handling)
  | .mark payload => do
      let event ← parseEvent env payload
      let wasSet ← setNx (idemKey event)
      return if wasSet then some (.expire payload event) else none
  | .expire payload event => do
      PaymentBackend.expire (idemKey event) 3600
      return some (.log payload event)
  | .log payload event => do
      Repository.logTransaction env event
      return if event.status = .success then some (.pay payload event) else none
  | .pay payload event => do
      Repository.markPaymentSuccess event.paymentId event.orderId
      return some (.publish payload event)
  | .publish payload _ => do
      publishPaymentConfirmed payload
      return none

/-- What `reconcile_once` is about to execute: the update for the first listed
payment, or the settlement that follows it. -/
inductive Reconciling where
  | pay (pending : List (Uuid × Uuid × String))
  | settle (paymentId : Uuid) (gateway : String) (pending : List (Uuid × Uuid × String))
  deriving DecidableEq, Repr

def Reconciling.next : Reconciling → Effect Store Failure (Option Reconciling)
  | .pay [] => return none
  | .pay ((paymentId, orderId, gateway) :: pending) => do
      Repository.markPaymentSuccess paymentId orderId
      return some (.settle paymentId gateway pending)
  | .settle paymentId gateway pending => do
      Repository.insertSettlement env paymentId gateway 100
      return some (.pay pending)

/-- The columns that `pending_payments` selects. -/
def PaymentRow.selected (row : PaymentRow) : Uuid × Uuid × String := (row.id, row.orderId, row.gateway)

/-- The loop of `reconcile_once` over the rows that `pending_payments` answered. -/
def reconcileRows : List (Uuid × Uuid × String) → Effect Store Failure Unit
  | [] => return ()
  | (paymentId, orderId, gateway) :: pending => do
      Repository.markPaymentSuccess paymentId orderId
      Repository.insertSettlement env paymentId gateway 100
      reconcileRows pending

end PaymentBackend
