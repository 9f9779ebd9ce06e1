import PaymentProcessing.Effect
import PaymentProcessing.Backend.Database

/-! The two stores the services share and the adapters that issue one statement
each: the repository on Postgres, the queue, the idempotency keys and the realtime
channel on Redis. `confirmed`, `broadcast` and `sessions` record what left the system. -/
namespace PaymentBackend

/-- Behavior of the third-party code: `serde_json` on webhook events, and which
text Postgres takes for a `TEXT` or a `JSONB` parameter. -/
structure Externals where
  toJson : GatewayWebhookEvent → String
  fromJson : String → Option GatewayWebhookEvent
  acceptsText : String → Bool
  acceptsJsonb : String → Bool

structure CheckoutSession where
  gateway : String
  checkoutUrl : String
  expiresAt : Nat
  deriving DecidableEq, Repr

/-- When Redis drops a key. `SETNX` alone leaves it without an expiry. -/
inductive Expiry where
  | never | at (second : Nat)
  deriving DecidableEq, Repr

def Expiry.live (now : Nat) : Expiry → Bool
  | .never => true
  | .at second => decide (now < second)

/-- One entry of `stream:webhooks`; another producer may leave `payload` out. -/
structure StreamEntry where
  id : Nat
  payload : Option String
  deriving DecidableEq, Repr

structure Store where
  now : Nat
  db : Database
  marks : String → Option Expiry
  stream : List StreamEntry
  /-- Messages published on `payments.confirmed`. -/
  confirmed : List String
  /-- Messages sent to the WebSocket broadcast of the API. -/
  broadcast : List String
  /-- Checkout sessions that gateways have opened, with the payment id each was given. -/
  sessions : List (Uuid × CheckoutSession)

inductive Failure where
  | json
  | sql (error : SqlError)
  | gateway (message : String)
  deriving DecidableEq, Repr

def Store.empty : Store := ⟨0, .empty, fun _ => none, [], [], [], []⟩

/-- Whether `SETNX` finds the key. -/
def Store.marked (s : Store) (key : String) : Bool := (s.marks key).any (·.live s.now)

/-- One SQL statement or transaction: it takes effect fully or not at all. -/
def sql (query : Database → Except SqlError Database) : Effect Store Failure Unit :=
  .statement fun s =>
    match query s.db with
    | .ok db => (.ok (), { s with db := db })
    | .error e => (.error (.sql e), s)

namespace Repository
variable (env : Externals)

def createOrder (orderId : Uuid) (userId : String) (amount : Int64) (currency : String) :
    Effect Store Failure Uuid := do
  sql fun db =>
    if env.acceptsText userId && env.acceptsText currency then
      db.insertOrder ⟨orderId, userId, amount, currency, .pending⟩
    else .error .invalidText
  return orderId

def createPayment (paymentId orderId : Uuid) (gateway : String) (method : PaymentMethod)
    (checkoutUrl : String) (createdAt : Nat) : Effect Store Failure Uuid := do
  sql fun db =>
    if env.acceptsText gateway && env.acceptsText checkoutUrl then
      db.insertPayment ⟨paymentId, orderId, gateway, method, checkoutUrl, .pending, createdAt⟩
    else .error .invalidText
  return paymentId

def markPaymentSuccess (paymentId orderId : Uuid) : Effect Store Failure Unit :=
  sql fun db => .ok (db.markSuccess paymentId orderId)

def transactionRow (event : GatewayWebhookEvent) : TransactionRow where
  paymentId := event.paymentId
  gateway := event.gateway
  gatewayTxnId := event.gatewayTxnId
  webhookEventId := event.eventId
  status := event.status
  rawPayload := env.toJson event

def acceptsTransaction (event : GatewayWebhookEvent) : Bool :=
  env.acceptsText event.gateway && env.acceptsText event.gatewayTxnId &&
    env.acceptsText event.eventId && env.acceptsJsonb (env.toJson event)

def logTransaction (event : GatewayWebhookEvent) : Effect Store Failure Unit :=
  sql fun db =>
    if acceptsTransaction env event then db.insertTransaction (transactionRow env event)
    else .error .invalidJson

def insertSettlement (paymentId : Uuid) (gateway : String) (amount : Int64) :
    Effect Store Failure Unit :=
  sql fun db =>
    if env.acceptsText gateway then
      db.insertSettlement ⟨paymentId, gateway, "settle-" ++ paymentId.hyphenated, amount, .matched⟩
    else .error .invalidText

end Repository

/-- `XADD`: the next id is above every id of the stream. -/
def enqueue (payload : String) : Effect Store Failure Unit :=
  .statement fun s =>
    (.ok (), { s with stream := s.stream ++ [⟨s.stream.length + 1, some payload⟩] })

/-- What `read_after` makes of an entry. -/
def StreamEntry.carried (entry : StreamEntry) : Option (Nat × String) :=
  entry.payload.map (entry.id, ·)

/-- `XREAD COUNT`: the first entries above the cursor that carry a payload, after the
count was taken over all entries. -/
def readAfter (stream : List StreamEntry) (lastId count : Nat) : List (Nat × String) :=
  ((stream.filter (lastId < ·.id)).take count).filterMap StreamEntry.carried

def setNx (key : String) : Effect Store Failure Bool :=
  .statement fun s =>
    if s.marked key then (.ok false, s)
    else (.ok true, { s with marks := fun k => if k = key then some .never else s.marks k })

def expire (key : String) (ttlSeconds : Nat) : Effect Store Failure Unit :=
  .statement fun s =>
    if s.marked key then
      (.ok (), { s with
        marks := fun k => if k = key then some (.at (s.now + ttlSeconds)) else s.marks k })
    else (.ok (), s)

def markIfAbsent (key : String) (ttlSeconds : Nat) : Effect Store Failure Bool := do
  let wasSet ← setNx key
  if wasSet then
    expire key ttlSeconds
  return wasSet

def publishPaymentConfirmed (payload : String) : Effect Store Failure Unit :=
  .statement fun s => (.ok (), { s with confirmed := s.confirmed ++ [payload] })

end PaymentBackend
