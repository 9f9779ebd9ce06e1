import PaymentProcessing.Uuid

/-! Values of the payment backend: statuses, payment methods, the webhook event and
the requests of the HTTP API. Status columns hold the text of these enumerations;
rows keep the enumeration. -/
namespace PaymentBackend

inductive OrderStatus where
  | pending | paid | failed
  deriving DecidableEq, Repr

inductive PaymentStatus where
  | pending | success | failed
  deriving DecidableEq, Repr

inductive PaymentMethod where
  | upi | card
  deriving DecidableEq, Repr

/-- The only status that a settlements row is ever given. -/
inductive SettlementStatus where
  | matched
  deriving DecidableEq, Repr

structure GatewayWebhookEvent where
  eventId : String
  gateway : String
  orderId : Uuid
  paymentId : Uuid
  gatewayTxnId : String
  status : PaymentStatus
  amount : Int64
  signature : String
  /-- Nanoseconds since the Unix epoch. -/
  occurredAt : Int
  deriving DecidableEq, Repr

/-- What the transactions table calls one webhook: `UNIQUE (gateway, webhook_event_id)`. -/
def GatewayWebhookEvent.key (event : GatewayWebhookEvent) : String × String :=
  (event.gateway, event.eventId)

structure CreateOrderRequest where
  userId : String
  amount : Int64
  currency : String

structure CreateOrderResponse where
  orderId : Uuid
  status : OrderStatus
  deriving DecidableEq, Repr

structure InitiatePaymentRequest where
  orderId : Uuid
  paymentMethod : PaymentMethod

structure InitiatePaymentResponse where
  paymentId : Uuid
  gateway : String
  checkoutUrl : String
  expiresAt : Nat
  deriving DecidableEq, Repr

end PaymentBackend
