import PaymentProcessing.Backend.Store

/-! The HTTP handlers of the payment API and the gateways they route to. Every
`map_err(ApiError::internal)` of the source hides the cause behind one message. -/
namespace PaymentBackend

/-- The `PaymentGateway` trait. Answers may depend on the time of the call. -/
structure PaymentGateway where
  name : String
  createCheckout : (now : Nat) → (orderId paymentId : Uuid) → PaymentMethod →
    Except String CheckoutSession
  verifyWebhookSignature : GatewayWebhookEvent → (secret : String) → Bool
  fetchPaymentStatus : (now : Nat) → (paymentId : Uuid) → Except String PaymentStatus

structure MockGateway where
  gatewayName : String
  shouldFail : Bool

def MockGateway.gateway (mock : MockGateway) : PaymentGateway where
  name := mock.gatewayName
  createCheckout now orderId paymentId _ :=
    if mock.shouldFail then .error (mock.gatewayName ++ " unavailable")
    else .ok {
      gateway := mock.gatewayName
      checkoutUrl := "https://mock-" ++ mock.gatewayName.toLower ++ ".example/checkout?order_id=" ++
        orderId.hyphenated ++ "&payment_id=" ++ paymentId.hyphenated
      expiresAt := now + 15 * 60 }
  verifyWebhookSignature event secret := event.signature == mock.gatewayName ++ ":" ++ secret
  fetchPaymentStatus _ _ := .ok .success

/-- The gateways that the API's `main` configures. -/
def configuredGateways : List PaymentGateway :=
  [⟨"Razorpay", false⟩, ⟨"Cashfree", false⟩, ⟨"Juspay", false⟩].map MockGateway.gateway

structure ApiError where
  code : Nat
  message : String
  deriving DecidableEq, Repr

def ApiError.internal (_ : Failure) : ApiError := ⟨500, "internal server error"⟩

def ApiError.notFound (message : String) : ApiError := ⟨404, message⟩

/-- One gateway is asked for a session; a session it opens stays open. -/
def createCheckout (gateway : PaymentGateway) (orderId paymentId : Uuid) (method : PaymentMethod) :
    Effect Store String CheckoutSession :=
  .statement fun s =>
    match gateway.createCheckout s.now orderId paymentId method with
    | .ok session => (.ok session, { s with sessions := s.sessions ++ [(paymentId, session)] })
    | .error e => (.error e, s)

namespace SmartRouter

/-- The loop of `pick_checkout`, carrying `last_error`. -/
def pickFrom (lastError : Option String) (orderId paymentId : Uuid) (method : PaymentMethod) :
    List PaymentGateway → Effect Store Failure CheckoutSession
  | [] => throw (.gateway (lastError.getD "no gateway configured"))
  | gateway :: rest => .statement fun s =>
      match (createCheckout gateway orderId paymentId method).exec s with
      | (.ok session, t) => (.ok session, t)
      | (.error e, t) =>
        (pickFrom (some (gateway.name ++ " failed: " ++ e)) orderId paymentId method rest).exec t

def pickCheckout (gateways : List PaymentGateway) (orderId paymentId : Uuid)
    (method : PaymentMethod) : Effect Store Failure CheckoutSession :=
  pickFrom none orderId paymentId method gateways

end SmartRouter

section Handlers
variable (env : Externals)

def createOrder (orderId : Uuid) (req : CreateOrderRequest) :
    Effect Store ApiError CreateOrderResponse := do
  let orderId ← Effect.mapError .internal
    (Repository.createOrder env orderId req.userId req.amount req.currency)
  return ⟨orderId, .pending⟩

/-- Two ids are generated: the handler's, given to the gateway, and the repository's,
stored in the row. -/
def initiatePayment (gateways : List PaymentGateway) (paymentId rowId : Uuid) (createdAt : Nat)
    (req : InitiatePaymentRequest) : Effect Store ApiError InitiatePaymentResponse := do
  let session ← Effect.mapError .internal
    (SmartRouter.pickCheckout gateways req.orderId paymentId req.paymentMethod)
  let createdPaymentId ← Effect.mapError .internal
    (Repository.createPayment env rowId req.orderId session.gateway req.paymentMethod
      session.checkoutUrl createdAt)
  return ⟨createdPaymentId, session.gateway, session.checkoutUrl, session.expiresAt⟩

/-- Answers `202 Accepted`. -/
def receiveWebhook (gateway : String) (event : GatewayWebhookEvent) : Effect Store ApiError Nat := do
  let event := { event with gateway := gateway }
  let payload := env.toJson event
  Effect.mapError .internal (enqueue payload)
  .statement fun s => (.ok (), { s with broadcast := s.broadcast ++ [payload] })
  return 202

end Handlers

def getOrder (orderId : Uuid) : Effect Store ApiError (Uuid × OrderStatus) :=
  .statement fun s =>
    match s.db.orders.find? (·.id = orderId) with
    | some row => (.ok (row.id, row.status), s)
    | none => (.error (.notFound "order not found"), s)

end PaymentBackend
