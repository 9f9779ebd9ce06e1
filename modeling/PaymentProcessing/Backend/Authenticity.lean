import PaymentProcessing.Backend.StatusChanges

/-! Who may change a status through a webhook. The receiver takes the gateway from the
URL and the event as posted; the signature is carried to the end and never verified,
and no stage compares the gateway with the one on the payments row. -/
namespace PaymentBackend

/-- The payments row names the event's gateway, and that gateway verifies the signature. -/
def Database.Authentic (gateways : List PaymentGateway) (secret : String) (db : Database)
    (event : GatewayWebhookEvent) : Prop :=
  (∃ p ∈ db.payments, p.id = event.paymentId ∧ p.gateway = event.gateway) ∧
    ∃ g ∈ gateways, g.name = event.gateway ∧ g.verifyWebhookSignature event secret = true

instance (gateways : List PaymentGateway) (secret : String) (db : Database)
    (event : GatewayWebhookEvent) : Decidable (db.Authentic gateways secret event) :=
  inferInstanceAs (Decidable (_ ∧ _))

instance (db db' : Database) : Decidable (db.StatusChanged db') :=
  inferInstanceAs (Decidable (_ ∨ _))

variable {env : Externals} {gateways : List PaymentGateway} {secret : String}

/-- A payment keeps the gateway it was created with. -/
theorem Database.Grows.authentic {db db' : Database} (grows : Database.Grows db db')
    (h : db.Authentic gateways secret event) : db'.Authentic gateways secret event := by
  obtain ⟨⟨p, member, same, gateway⟩, verified⟩ := h
  refine ⟨?_, verified⟩
  cases grows.payments p member with
  | inl kept => exact ⟨p, kept, same, gateway⟩
  | inr success => exact ⟨_, success, same, gateway⟩

namespace Services
variable {s t : Services}

/-- A SUCCESS event whose handling starts is authentic. -/
def AuthenticStart (env : Externals) (gateways : List PaymentGateway) (secret : String) (s : Services)
    (a : Action) : Prop :=
  ∀ event ∈ s.begins env a, event.status = .success → s.store.db.Authentic gateways secret event

instance (env : Externals) (gateways : List PaymentGateway) (secret : String) (s : Services)
    (a : Action) : Decidable (AuthenticStart env gateways secret s a) :=
  inferInstanceAs (Decidable (∀ _ ∈ _, _))

/-- Every SUCCESS event in progress is authentic. -/
def AuthenticCalls (gateways : List PaymentGateway) (secret : String) (s : Services) : Prop :=
  ∀ v payload event, s.Holds v payload event → event.status = .success →
    s.store.db.Authentic gateways secret event

theorem Moves.authenticCalls (h : Moves env s a t) (before : AuthenticCalls gateways secret s)
    (start : AuthenticStart env gateways secret s a) : AuthenticCalls gateways secret t := by
  intro v payload event holds success
  have earlier : s.store.db.Authentic gateways secret event := by
    rcases h.held_of holds with heldBefore | ⟨-, begins⟩
    · exact before v payload event heldBefore success
    · exact start event begins success
  exact h.extends.db.authentic earlier

/-- A status that processing an event changes, for whatever body and path segment was
posted, is changed on behalf of the payment's own gateway, as long as no handling of
an unauthentic SUCCESS event is started. -/
theorem run_changes_authentic
    (meets : Transition.Meets (step env gateways) (AuthenticStart env gateways secret) initial
      (before ++ [a]))
    (h : Transition.run (step env gateways) initial before = some s)
    (stepped : step env gateways s a = some t) (performed : s.performed a = some handling)
    (decoded : env.fromJson handling.payload = some event)
    (changed : s.store.db.StatusChanged t.store.db) :
    s.store.db.Authentic gateways secret event := by
  have calls : AuthenticCalls gateways secret s := by
    refine Transition.invariant_of_meets (I := AuthenticCalls gateways secret)
      (fun before start stepped => (step_moves env gateways stepped).authenticCalls before start)
      ?_ (meets.last h).1 h
    intro v payload event holds
    obtain ⟨handling, called, -⟩ := holds
    cases called
  cases (step_moves env gateways stepped).statusStep with
  | kept payments orders => exact absurd changed (Database.not_statusChanged payments orders)
  | webhook payload e paying updated =>
    cases performed.symm.trans paying
    obtain ⟨w, -, called⟩ := performed_worker performed
    obtain ⟨same, success, -⟩ := ((run_sound h).reached called).1
    cases decoded.symm.trans same
    exact calls w payload event ⟨_, called, rfl, rfl⟩ success
  | reconciled w paymentId orderId gateway pending idle =>
    cases performed.symm.trans idle

/-- The example event is posted under its own gateway and handled up to its update. -/
def upToUpdate (event : GatewayWebhookEvent) : List Action :=
  Sample.orders ++ .receiveWebhook "Razorpay" event :: .read 0 :: Sample.handle 0 3

set_option maxRecDepth 8000 in
theorem signed_changes_authentic : ∃ s t,
    Transition.run (step (Sample.env [Sample.event]) configuredGateways) initial
      (upToUpdate Sample.event) = some s ∧
    step (Sample.env [Sample.event]) configuredGateways s (.statement 0) = some t ∧
    s.store.db.StatusChanged t.store.db ∧
    s.store.db.Authentic configuredGateways "dev-secret" Sample.event := by
  have meets : Transition.Meets (step (Sample.env [Sample.event]) configuredGateways)
      (AuthenticStart (Sample.env [Sample.event]) configuredGateways "dev-secret") initial
      (upToUpdate Sample.event ++ [.statement 0]) := by decide
  refine ⟨_, _, rfl, rfl, by decide, ?_⟩
  exact run_changes_authentic meets rfl rfl
    (rfl : performed _ _ = some (.pay (Sample.json Sample.event) Sample.event)) (by decide)
      (by decide)

/-- The example event with a signature that no gateway made. -/
def forgedEvent : GatewayWebhookEvent := { Sample.event with signature := "forged" }

set_option maxRecDepth 8000 in
/-- Anyone who can post to the webhook route settles a payment. -/
theorem forged_changes_status :
    ¬ ∀ before s a t handling event,
      Transition.run (step (Sample.env [forgedEvent]) configuredGateways) initial before = some s →
      step (Sample.env [forgedEvent]) configuredGateways s a = some t →
      s.performed a = some handling →
        (Sample.env [forgedEvent]).fromJson handling.payload = some event →
      s.store.db.StatusChanged t.store.db →
      s.store.db.Authentic configuredGateways "dev-secret" event := by
  intro claim
  have authentic := claim (upToUpdate forgedEvent) _ (.statement 0) _
    (.pay (Sample.json forgedEvent) forgedEvent) forgedEvent rfl rfl rfl (by decide) (by decide)
  exact absurd authentic (by decide)

end Services
end PaymentBackend
