import PaymentProcessing.Backend.Identifiers

/-! What a failed `initiate_payment` leaves behind. The checkout session is opened at a gateway
before the payments row is inserted, and nothing takes it back. -/
namespace PaymentBackend

/-- What becomes of a statement that is sent to the database. -/
inductive DatabaseOutcome where
  /-- The statement is executed and its result arrives. -/
  | answered
  /-- The statement is never executed. -/
  | unreached (error : Failure)
  /-- The statement is executed and its result is lost. -/
  | unanswered (error : Failure)

def DatabaseOutcome.apply (outcome : DatabaseOutcome) (x : Effect Store Failure α) :
    Effect Store Failure α :=
  .statement fun s =>
    match outcome with
    | .answered => x.exec s
    | .unreached error => (.error error, s)
    | .unanswered error => (.error error, (x.exec s).2)

/-- `initiate_payment` with an outcome for its insert. -/
def initiatePaymentUnder (env : Externals) (outcome : DatabaseOutcome)
    (gateways : List PaymentGateway) (paymentId rowId : Uuid) (createdAt : Nat)
    (req : InitiatePaymentRequest) : Effect Store ApiError InitiatePaymentResponse := do
  let session ← Effect.mapError .internal
    (SmartRouter.pickCheckout gateways req.orderId paymentId req.paymentMethod)
  let createdPaymentId ← Effect.mapError .internal (outcome.apply
    (Repository.createPayment env rowId req.orderId session.gateway req.paymentMethod
      session.checkoutUrl createdAt))
  return ⟨createdPaymentId, session.gateway, session.checkoutUrl, session.expiresAt⟩

/-- At most one session was opened, and with an error neither a session nor a row is left. -/
def LeavesNothing (s t : Store) (answer : Except ApiError InitiatePaymentResponse) : Prop :=
  (∃ opened, t.sessions = s.sessions ++ opened ∧ opened.length ≤ 1) ∧
    ∀ e, answer = .error e → t.sessions = s.sessions ∧ t.db.payments = s.db.payments

/-- The session of the first gateway that opens one. -/
def firstSession (gateways : List PaymentGateway) (now : Nat) (orderId paymentId : Uuid)
    (method : PaymentMethod) : Option CheckoutSession :=
  gateways.findSome? fun gateway => (gateway.createCheckout now orderId paymentId method).toOption

/-- The row of the payment is one that the tables take. -/
def Insertable (env : Externals) (db : Database) (rowId orderId : Uuid)
    (session : CheckoutSession) : Prop :=
  env.acceptsText session.gateway = true ∧ env.acceptsText session.checkoutUrl = true ∧
    (∀ p ∈ db.payments, p.id ≠ rowId) ∧ ∃ o ∈ db.orders, o.id = orderId

section Call
variable {env : Externals} {gateways : List PaymentGateway} {s : Store}

/-- Where every insert is answered, this is the handler itself. -/
theorem initiatePaymentUnder_answered :
    initiatePaymentUnder env .answered gateways paymentId rowId createdAt req =
      initiatePayment env gateways paymentId rowId createdAt req := rfl

theorem pickFrom_opens (lastError : Option String)
    (opens : firstSession gateways s.now orderId paymentId method = some session) :
    (SmartRouter.pickFrom lastError orderId paymentId method gateways).exec s =
      (.ok session, { s with sessions := s.sessions ++ [(paymentId, session)] }) := by
  induction gateways generalizing lastError with
  | nil => contradiction
  | cons gateway rest ih =>
    simp only [SmartRouter.pickFrom, createCheckout, Effect.exec_statement]
    cases answer : gateway.createCheckout s.now orderId paymentId method with
    | ok first =>
      simp only [firstSession, List.findSome?_cons, answer, Except.toOption, Option.some.injEq] at opens
      rw [opens]
    | error e =>
      simp only [firstSession, List.findSome?_cons, answer, Except.toOption] at opens
      exact ih _ opens

theorem pickFrom_opens_none (lastError : Option String)
    (opens : firstSession gateways s.now orderId paymentId method = none) :
    ∃ e, (SmartRouter.pickFrom lastError orderId paymentId method gateways).exec s =
      (.error e, s) := by
  induction gateways generalizing lastError with
  | nil => exact ⟨_, rfl⟩
  | cons gateway rest ih =>
    simp only [SmartRouter.pickFrom, createCheckout, Effect.exec_statement]
    cases answer : gateway.createCheckout s.now orderId paymentId method with
    | ok first => simp [firstSession, answer, Except.toOption] at opens
    | error e =>
      simp only [firstSession, List.findSome?_cons, answer, Except.toOption] at opens
      exact ih _ opens

theorem createPayment_sessions : ((Repository.createPayment env rowId orderId gateway method url
    createdAt).exec s).2.sessions = s.sessions := by
  simp only [Repository.createPayment, Effect.exec_bind, exec_sql]
  split <;> rename_i inserted <;> split at inserted <;> cases inserted <;> rfl

theorem createPayment_answer : (∃ id, ((Repository.createPayment env rowId orderId session.gateway
    method session.checkoutUrl createdAt).exec s).1 = .ok id) ↔
      Insertable env s.db rowId orderId session := by
  constructor
  · rintro ⟨id, answer⟩
    obtain ⟨_, _, inserted, -⟩ := Effect.exec_bind_ok.mp (Prod.ext answer rfl)
    obtain ⟨db, accepted, -⟩ := sql_ok inserted
    split at accepted
    · rename_i texts
      obtain ⟨gateway, url⟩ := Bool.and_eq_true_iff.mp texts
      unfold Database.insertPayment at accepted
      split at accepted
      · rename_i fresh
        split at accepted
        · rename_i order
          exact ⟨gateway, url, fresh, order⟩
        · contradiction
      · contradiction
    · contradiction
  · rintro ⟨gateway, url, fresh, order⟩
    refine ⟨rowId, ?_⟩
    simp [Repository.createPayment, exec_sql, gateway, url, Database.insertPayment, dif_pos fresh,
      dif_pos order]

theorem DatabaseOutcome.apply_sessions {x : Effect Store Failure α}
    (kept : (x.exec s).2.sessions = s.sessions) (outcome : DatabaseOutcome) :
    ((outcome.apply x).exec s).2.sessions = s.sessions := by
  cases outcome with
  | answered => exact kept
  | unreached error => rfl
  | unanswered error => exact kept

theorem DatabaseOutcome.apply_ok {x : Effect Store Failure α} (outcome : DatabaseOutcome) :
    (∃ a, ((outcome.apply x).exec s).1 = .ok a) ↔
      outcome = .answered ∧ ∃ a, (x.exec s).1 = .ok a := by
  cases outcome <;> simp [apply]

theorem mapError_answer {x : Effect Store ε α} (f : ε → δ) :
    (∃ a, ((Effect.mapError f x).exec s).1 = .ok a) ↔ ∃ a, (x.exec s).1 = .ok a := by
  rw [Effect.exec_mapError]
  cases (x.exec s).1 <;> simp [Except.mapError]

variable {outcome : DatabaseOutcome} {req : InitiatePaymentRequest}

theorem initiatePaymentUnder_none (opens : firstSession gateways s.now req.orderId paymentId
    req.paymentMethod = none) :
    ∃ e, (initiatePaymentUnder env outcome gateways paymentId rowId createdAt req).exec s =
      (.error e, s) := by
  obtain ⟨e, refused⟩ := pickFrom_opens_none none opens
  refine ⟨.internal e, ?_⟩
  simp only [initiatePaymentUnder, Effect.exec_bind, Effect.exec_mapError, SmartRouter.pickCheckout,
    refused, Except.mapError]

/-- Once a session is open the call keeps it, and succeeds just where its insert does. -/
theorem initiatePaymentUnder_some (opens : firstSession gateways s.now req.orderId paymentId
    req.paymentMethod = some session) :
    ((initiatePaymentUnder env outcome gateways paymentId rowId createdAt req).exec s).2.sessions =
        s.sessions ++ [(paymentId, session)] ∧
      ((∃ resp, ((initiatePaymentUnder env outcome gateways paymentId rowId createdAt req).exec
        s).1 = .ok resp) ↔ outcome = .answered ∧ Insertable env s.db rowId req.orderId session) := by
  have picked := pickFrom_opens none opens
  generalize opened : ({ s with sessions := s.sessions ++ [(paymentId, session)] } : Store) = u
    at picked
  have sessions : u.sessions = s.sessions ++ [(paymentId, session)] := by rw [← opened]
  have db : u.db = s.db := by rw [← opened]
  generalize inserted : Effect.mapError ApiError.internal (outcome.apply (Repository.createPayment env rowId
    req.orderId session.gateway req.paymentMethod session.checkoutUrl createdAt)) = insert
  have kept : (insert.exec u).2.sessions = u.sessions := by
    rw [← inserted, Effect.exec_mapError]
    exact outcome.apply_sessions createPayment_sessions
  have succeeds : (∃ a, (insert.exec u).1 = .ok a) ↔
      outcome = .answered ∧ Insertable env s.db rowId req.orderId session := by
    rw [← inserted, mapError_answer, outcome.apply_ok, createPayment_answer, db]
  have start : (Effect.mapError ApiError.internal (SmartRouter.pickCheckout gateways req.orderId
      paymentId req.paymentMethod)).exec s = (.ok session, u) :=
    Effect.mapError_ok.mpr picked
  rw [initiatePaymentUnder, Effect.exec_bind, start]
  dsimp only
  rw [inserted, Effect.exec_bind, ← sessions, ← kept, ← succeeds]
  cases insert.exec u with
  | mk answer t => cases answer <;> simp

end Call

/-- For any gateways, order and database outcome: a call leaves nothing behind on failure exactly
when no gateway opens a session, or the row is one that the tables take and the insert is
answered. -/
theorem leavesNothing_iff (env : Externals) (outcome : DatabaseOutcome)
    (gateways : List PaymentGateway) (paymentId rowId : Uuid) (createdAt : Nat)
    (req : InitiatePaymentRequest) (s : Store) :
    LeavesNothing s
        ((initiatePaymentUnder env outcome gateways paymentId rowId createdAt req).exec s).2
        ((initiatePaymentUnder env outcome gateways paymentId rowId createdAt req).exec s).1 ↔
      ∀ session, firstSession gateways s.now req.orderId paymentId req.paymentMethod =
          some session →
        outcome = .answered ∧ Insertable env s.db rowId req.orderId session := by
  cases opens : firstSession gateways s.now req.orderId paymentId req.paymentMethod with
  | none =>
    obtain ⟨e, refused⟩ := initiatePaymentUnder_none opens
    rw [refused]
    refine iff_of_true ⟨⟨[], (List.append_nil _).symm, Nat.zero_le 1⟩, fun _ _ => ⟨rfl, rfl⟩⟩ ?_
    exact fun _ none => nomatch none
  | some session =>
    obtain ⟨sessions, succeeds⟩ := initiatePaymentUnder_some opens
    constructor
    · rintro ⟨-, clean⟩ _ ⟨⟩
      refine succeeds.mp ?_
      cases answer : ((initiatePaymentUnder env outcome gateways paymentId rowId createdAt
          req).exec s).1 with
      | ok resp => exact ⟨resp, rfl⟩
      | error e =>
        have same := (clean e answer).1
        rw [sessions] at same
        simp at same
    · intro condition
      obtain ⟨resp, answer⟩ := succeeds.mpr (condition session rfl)
      refine ⟨⟨[(paymentId, session)], sessions, Nat.le_refl 1⟩, fun e failed => ?_⟩
      exact absurd (answer.symm.trans failed) (by simp)

/-- There is no order 1: the first gateway opens a session, and the insert is refused. -/
theorem orderless_leaves_session :
    ((initiatePaymentUnder (Sample.env []) .answered configuredGateways 10 11 0 ⟨1, .upi⟩).exec
        .empty).1 = .error ⟨500, "internal server error"⟩ ∧
      ((initiatePaymentUnder (Sample.env []) .answered configuredGateways 10 11 0 ⟨1, .upi⟩).exec
        .empty).2.sessions.length = 1 ∧
      ¬ LeavesNothing .empty
        ((initiatePaymentUnder (Sample.env []) .answered configuredGateways 10 11 0 ⟨1, .upi⟩).exec
          .empty).2
        ((initiatePaymentUnder (Sample.env []) .answered configuredGateways 10 11 0 ⟨1, .upi⟩).exec
          .empty).1 := by
  refine ⟨rfl, rfl, ?_⟩
  rintro ⟨-, clean⟩
  have same := congrArg List.length (clean _ rfl).1
  contradiction

end PaymentBackend
