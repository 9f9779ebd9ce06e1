import PaymentProcessing.Backend.InFlight
import PaymentProcessing.Backend.StatusChanges

/-! What speaks for a payment that becomes `SUCCESS`. The webhook path has an event for
it; the reconciliation path takes every payment that is still `PENDING`, so it needs
the evidence to be there already when it lists them. -/
namespace PaymentBackend

/-- A SUCCESS event naming the payment was received, or its gateway answered `Success`
when asked for the status of this payment. -/
def Store.Evidenced (env : Externals) (gateways : List PaymentGateway) (s : Store) (paymentId : Uuid) :
    Prop :=
  (∃ x ∈ s.stream, ∃ event ∈ x.payload.bind env.fromJson,
      event.paymentId = paymentId ∧ event.status = .success) ∨
    ∃ p ∈ s.db.payments, p.id = paymentId ∧ ∃ g ∈ gateways, g.name = p.gateway ∧
      ∃ now ≤ s.now, g.fetchPaymentStatus now paymentId = .ok .success

instance (env : Externals) (gateways : List PaymentGateway) (s : Store) (paymentId : Uuid) :
    Decidable (s.Evidenced env gateways paymentId) :=
  inferInstanceAs (Decidable (_ ∨ _))

variable {env : Externals} {gateways : List PaymentGateway}

theorem Store.Extends.evidenced {s t : Store} (h : s.Extends t)
    (evidence : s.Evidenced env gateways paymentId) :
    t.Evidenced env gateways paymentId := by
  rcases evidence with
    ⟨x, member, event, carried, named⟩ | ⟨p, member, same, g, asked, name, now, past, answer⟩
  · exact Or.inl ⟨x, h.stream member, event, carried, named⟩
  · apply Or.inr
    have earlier : now ≤ t.now := past.trans h.now
    cases h.db.payments p member with
    | inl kept => exact ⟨p, kept, same, g, asked, name, now, earlier, answer⟩
    | inr success => exact ⟨_, success, same, g, asked, name, now, earlier, answer⟩

/-- A SUCCESS event naming the payment was received. -/
def Store.Announced (env : Externals) (s : Store) (paymentId : Uuid) : Prop :=
  ∃ x ∈ s.stream, ∃ event ∈ x.payload.bind env.fromJson,
    event.paymentId = paymentId ∧ event.status = .success

theorem Store.evidenced_nil {s : Store} : s.Evidenced env [] paymentId ↔ s.Announced env paymentId := by
  simp [Evidenced, Announced]

namespace Services
variable {s t : Services}

/-- A reconciliation pass starts only where every payment it lists has evidence. -/
def EvidencedSweep (env : Externals) (gateways : List PaymentGateway) (s : Services) (a : Action) : Prop :=
  match a with
  | .sweep _ rows => ∀ row ∈ rows, s.store.Evidenced env gateways row.id
  | _ => True

instance (env : Externals) (gateways : List PaymentGateway) (s : Services) (a : Action) :
    Decidable (EvidencedSweep env gateways s a) := by
  unfold EvidencedSweep
  split <;> infer_instance

/-- The payments that a pass has still to update have evidence. -/
def EvidencedList (env : Externals) (gateways : List PaymentGateway) (s : Store) (worker : Worker) : Prop :=
  ∀ r, worker.reconciler = some r → ∀ x ∈ r.pending, s.Evidenced env gateways x.1

theorem Moves.evidencedList (h : Moves env s a t)
    (before : ∀ w, EvidencedList env gateways s.store (s.workers w))
    (evidenced : EvidencedSweep env gateways s a) :
    ∀ w, EvidencedList env gateways t.store (t.workers w) := by
  intro w r current x member
  cases h.passStep w with
  | same kept => exact h.extends.evidenced (before w r (kept.symm.trans current) x member)
  | swept rows action pending listed =>
    subst action
    obtain rfl := Option.some.inj (listed.symm.trans current)
    obtain ⟨row, inside, rfl⟩ := List.mem_map.mp member
    exact h.extends.evidenced (evidenced row inside)
  | answered earlier next action here settled continues =>
    obtain rfl := continues.symm.trans current
    have waited : x ∈ earlier.pending := settled.pending member
    exact h.extends.evidenced (before w earlier here x waited)
  | stopped action stops => cases stops.symm.trans current

/-- The event that a handling updates for was received. -/
theorem Sound.evidenced (sound : s.Sound env)
    (performed : s.performed a = some (.pay payload event)) :
    s.store.Evidenced env gateways event.paymentId := by
  obtain ⟨w, -, called⟩ := performed_worker performed
  obtain ⟨⟨decoded, success, -⟩, x, member, carries⟩ := sound.reached called
  have carried :
      event ∈ x.payload.bind env.fromJson := by simpa [carries, Handling.payload] using decoded
  exact Or.inl ⟨x, member, event, carried, rfl, success⟩

theorem Moves.evidenced (h : Moves env s a t) (sound : s.Sound env)
    (listed : ∀ w, EvidencedList env gateways s.store (s.workers w))
    (before : p ∈ s.store.db.payments)
    (pending : p.status ≠ .success) (after : q ∈ t.store.db.payments) (same : q.id = p.id)
    (success : q.status = .success) : s.store.Evidenced env gateways p.id := by
  have changed : q.status ≠ p.status := fun equal => pending (equal ▸ success)
  cases h.statusStep with
  | kept payments orders =>
    cases Database.payment_kept payments before after same
    exact absurd success pending
  | webhook payload event performed updated =>
    rw [updated] at after
    rw [Database.markSuccess_moves before after same changed]
    exact sound.evidenced performed
  | reconciled w paymentId orderId gateway rest idle current updated =>
    rw [updated] at after
    rw [Database.markSuccess_moves before after same changed]
    exact listed w _ current _ List.mem_cons_self

/-- Which gateways are taken to testify does not matter: no step asks any. -/
theorem evidenced_of_success (asked : List PaymentGateway)
    (meets : Transition.Meets (step env gateways) (EvidencedSweep env asked) initial (before ++ [a]))
    (h : Transition.run (step env gateways) initial before = some s)
    (stepped : step env gateways s a = some t) (present : p ∈ s.store.db.payments)
    (pending : p.status ≠ .success) (after : q ∈ t.store.db.payments) (same : q.id = p.id)
    (success : q.status = .success) : s.store.Evidenced env asked p.id := by
  have listed : ∀ w, EvidencedList env asked s.store (s.workers w) := by
    refine Transition.invariant_of_meets
      (I := fun s => ∀ w, EvidencedList env asked s.store (s.workers w))
      (fun before evidenced stepped => (step_moves env gateways stepped).evidencedList before evidenced)
      ?_ (meets.last h).1 h
    intro w r current
    cases current
  exact (step_moves env gateways stepped).evidenced
    (run_sound h) listed present pending after same success

/-- Whatever webhooks and reconciliation passes interleave to, a payment becomes
`SUCCESS` on evidence only, as long as no pass starts on payments without any. -/
theorem run_success_evidenced
    (meets : Transition.Meets (step env gateways) (EvidencedSweep env gateways) initial
      (before ++ [a]))
    (h : Transition.run (step env gateways) initial before = some s)
    (stepped : step env gateways s a = some t) (present : p ∈ s.store.db.payments)
    (pending : p.status ≠ .success) (after : q ∈ t.store.db.payments) (same : q.id = p.id)
    (success : q.status = .success) : s.store.Evidenced env gateways p.id :=
  evidenced_of_success gateways meets h stepped present pending after same success

/-- The same for received events alone: where each pass lists only payments that a SUCCESS event
has named, every payment that becomes `SUCCESS` was named by one. -/
theorem run_success_announced
    (meets : Transition.Meets (step env gateways)
      (fun s a => ∀ w rows, a = .sweep w rows → ∀ row ∈ rows, s.store.Announced env row.id) initial
      (before ++ [a]))
    (h : Transition.run (step env gateways) initial before = some s)
    (stepped : step env gateways s a = some t) (present : p ∈ s.store.db.payments)
    (pending : p.status ≠ .success) (after : q ∈ t.store.db.payments) (same : q.id = p.id)
    (success : q.status = .success) : s.store.Announced env p.id := by
  rw [← Store.evidenced_nil]
  refine evidenced_of_success [] (meets.mono fun {s a} announced => ?_) h stepped present pending
    after same success
  cases a with
  | sweep w rows => exact fun row member => Store.evidenced_nil.mpr (announced w rows rfl row member)
  | _ => trivial

end Services

namespace Sample

/-- A gateway that opens checkouts and never reports more than `PENDING`. -/
def waiting : PaymentGateway where
  name := "Razorpay"
  createCheckout now _ _ _ := .ok ⟨"Razorpay", "https://pay.example", now + 900⟩
  verifyWebhookSignature _ _ := false
  fetchPaymentStatus _ _ := .ok .pending

/-- The row that the first checkout of `orders` writes with this gateway. -/
def waitingRow : PaymentRow := ⟨11, 1, "Razorpay", .upi, "https://pay.example", .pending, 0⟩

/-- Order 1 and its payment, just initiated. -/
def initiated : List Action := [.createOrder 1 ⟨"u1", 45000, "INR"⟩, .initiatePayment 10 11 0 ⟨1, .upi⟩]

end Sample

namespace Services

set_option maxRecDepth 8000 in
/-- The SUCCESS event has been received, but not processed, when the pass starts. -/
theorem received_success_evidenced : ∃ s t,
    Transition.run (step (Sample.env [Sample.event]) [Sample.waiting]) initial
      (Sample.initiated ++ [.receiveWebhook "Razorpay" Sample.event,
        .sweep 0 [Sample.waitingRow]]) = some s ∧
    step (Sample.env [Sample.event]) [Sample.waiting] s (.reconcile 0) = some t ∧
    Sample.waitingRow ∈ s.store.db.payments ∧
    Database.setSuccess Sample.waitingRow ∈ t.store.db.payments ∧
    s.store.Evidenced (Sample.env [Sample.event]) [Sample.waiting] Sample.waitingRow.id := by
  have meets : Transition.Meets (step (Sample.env [Sample.event]) [Sample.waiting])
      (EvidencedSweep (Sample.env [Sample.event]) [Sample.waiting]) initial
      ((Sample.initiated ++ [.receiveWebhook "Razorpay" Sample.event,
        .sweep 0 [Sample.waitingRow]]) ++
        [.reconcile 0]) := by decide
  refine ⟨_, _, rfl, rfl, by decide, by decide, ?_⟩
  exact run_success_evidenced meets rfl rfl (p := Sample.waitingRow)
    (q := Database.setSuccess Sample.waitingRow) (by decide) (by decide) (by decide) rfl rfl

set_option maxRecDepth 8000 in
/-- A payment that was only initiated is listed and updated. -/
theorem initiated_becomes_success :
    ¬ ∀ before s a t p q,
      Transition.run (step (Sample.env []) [Sample.waiting]) initial before = some s →
      step (Sample.env []) [Sample.waiting] s a = some t →
      p ∈ s.store.db.payments → p.status ≠ .success → q ∈ t.store.db.payments → q.id = p.id →
      q.status = .success → s.store.Evidenced (Sample.env []) [Sample.waiting] p.id := by
  intro claim
  have evidence := claim (Sample.initiated ++ [.sweep 0 [Sample.waitingRow]]) _ (.reconcile 0) _
    Sample.waitingRow (Database.setSuccess Sample.waitingRow) rfl rfl (by decide) (by decide)
      (by decide)
    rfl rfl
  exact absurd evidence (by decide)

end Services
end PaymentBackend
