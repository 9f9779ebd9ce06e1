import PaymentProcessing.Backend.AuditTrail
import PaymentProcessing.Backend.Evidence

/-! The status of a payment against the log, while no reconciliation pass has run. A
SUCCESS event is logged and then stored; a FAILED event is logged only, and leaves a
payment that the log calls failed among the pending ones. -/
namespace PaymentBackend
open Relational Transition

namespace Database
variable {db db' : Database} {paymentId : Uuid}

/-- The status that the log gives a payment. -/
def verdict (db : Database) (paymentId : Uuid) : PaymentStatus :=
  if db.LoggedAs paymentId .success then .success
  else if db.LoggedAs paymentId .failed then .failed
  else .pending

theorem LoggedAs.payment (h : db.LoggedAs paymentId status) :
    ∃ p ∈ db.payments, p.id = paymentId := by
  obtain ⟨r, member, own, -⟩ := h
  obtain ⟨p, present, same⟩ := db.transactionsPayment.parent member
  exact ⟨p, present, same.trans own⟩

/-- The row of a succeeded payment is the one with its id. -/
theorem Succeeded.status (succeeded : db.Succeeded paymentId) (member : p ∈ db.payments)
    (named : p.id = paymentId) : p.status = .success := by
  obtain ⟨q, inside, same, success⟩ := succeeded
  rw [db.paymentsKey.unique member inside (named.trans same.symm), success]

end Database

theorem Executes.pays {s t : Store} (h : Executes env s (.pay text event) t answer) :
    t.db = s.db.markSuccess event.paymentId event.orderId := by
  cases h
  rfl

namespace Services
variable {env : Externals} {gateways : List PaymentGateway} {s t : Services} {paymentId : Uuid}

/-- Some call has logged its event and is about to update this payment. -/
def Updating (s : Services) (paymentId : Uuid) : Prop :=
  ∃ w payload event, s.call w = some (.pay payload event) ∧ event.paymentId = paymentId

/-- Statements do not fail, workers restart between two calls only, and no reconciliation
pass begins. -/
def Undisturbed (s : Services) (a : Action) : Prop :=
  match a with
  | .failure _ _ | .reconcileFailure _ _ | .sweep _ _ | .reconcile _ => False
  | .crash w => s.call w = none
  | _ => True

instance (s : Services) (a : Action) : Decidable (Undisturbed s a) := by
  apply Action.casesOn (motive := fun a => Decidable (Undisturbed s a)) a <;>
    (intros; dsimp only [Undisturbed]; infer_instance)

/-- Outside an update, each payment has the status that the log gives it; none that a
gateway has reported as failed is read as pending. -/
def StatusFollows (s : Services) : Prop :=
  (∀ p ∈ s.store.db.payments, ¬ s.Updating p.id → p.status = s.store.db.verdict p.id) ∧
    ∀ rows, s.store.db.PendingRead rows → ∀ r ∈ rows, ¬ s.Updating r.id →
      ¬ s.store.db.LoggedAs r.id .failed

/-- A FAILED event that enters the log concerns a payment with a logged SUCCESS event; a
SUCCESS event comes under a new key, or concerns such a payment too. -/
def VerdictStep (env : Externals) (s : Services) (a : Action) : Prop :=
  match s.performed a with
  | some (.log _ event) =>
      (event.status = .failed → s.store.db.newTransaction env event ≠ none →
        s.store.db.LoggedAs event.paymentId .success) ∧
      (event.status = .success → ¬ s.store.db.Logged event.key ∨
        s.store.db.LoggedAs event.paymentId .success)
  | _ => True

instance (env : Externals) (s : Services) (a : Action) : Decidable (VerdictStep env s a) := by
  unfold VerdictStep
  rcases s.performed a with _ | ⟨_ | _⟩ <;> infer_instance

/-- How statuses, log and calls in progress fit together. -/
structure Agreeing (s : Services) : Prop where
  success : ∀ p ∈ s.store.db.payments, p.status = .success → s.store.db.LoggedAs p.id .success
  logged : ∀ p ∈ s.store.db.payments, s.store.db.LoggedAs p.id .success →
    p.status = .success ∨ s.Updating p.id
  open_ : ∀ p ∈ s.store.db.payments, p.status ≠ .failed
  failed : ∀ paymentId, s.store.db.LoggedAs paymentId .failed → s.store.db.LoggedAs paymentId .success
  updating : ∀ paymentId, s.Updating paymentId → s.store.db.LoggedAs paymentId .success

theorem initial_agreeing : initial.Agreeing := by
  constructor
  · intro p member
    cases member
  · intro p member
    cases member
  · intro p member
    cases member
  · rintro paymentId ⟨r, member, -⟩
    cases member
  · rintro paymentId ⟨w, payload, event, called, -⟩
    cases called

theorem Agreeing.follows (agreeing : s.Agreeing) : s.StatusFollows := by
  have verdict (p) (member : p ∈ s.store.db.payments) (settled : ¬ s.Updating p.id) :
      p.status = s.store.db.verdict p.id := by
    unfold Database.verdict
    by_cases success : s.store.db.LoggedAs p.id .success
    · rw [if_pos success]
      exact (agreeing.logged p member success).resolve_right settled
    · rw [if_neg success, if_neg (success ∘ agreeing.failed p.id)]
      cases status : p.status with
      | pending => rfl
      | success => exact absurd (agreeing.success p member status) success
      | failed => exact absurd status (agreeing.open_ p member)
  refine ⟨verdict, fun rows pending r member settled reported => ?_⟩
  obtain ⟨present, status⟩ := pending.2.2.1 r member
  have success := agreeing.failed r.id reported
  rw [verdict r present settled, Database.verdict, if_pos success] at status
  cases status

/-- A row that is not `SUCCESS` was there before or is new and pending. -/
theorem Moves.unpaid (h : Moves env s a t) (member : p ∈ t.store.db.payments)
    (unpaid : p.status ≠ .success) : p ∈ s.store.db.payments ∨ p.status = .pending := by
  have marked {x o : Uuid} (inside : p ∈ (s.store.db.markSuccess x o).payments) :
      p ∈ s.store.db.payments := by
    obtain ⟨row, present, rfl⟩ := mem_updateWhere.mp inside
    split at unpaid <;> rename_i hit
    · exact absurd rfl unpaid
    · rw [if_neg hit]
      exact present
  have executed {handling u answer} (ran : Executes env s.store handling u answer)
      (inside : p ∈ u.db.payments) : p ∈ s.store.db.payments := by
    rcases ran.payments with ⟨payload, event, -, updated⟩ | ⟨-, same⟩
    · exact marked (updated ▸ inside)
    · exact same ▸ inside
  have settled {reconciling u next} (ran : Settles s.store reconciling u next)
      (inside : p ∈ u.db.payments) : p ∈ s.store.db.payments := by
    rcases ran.payments with ⟨x, o, gateway, pending, -, updated⟩ | ⟨-, same⟩
    · exact marked (updated ▸ inside)
    · exact same ▸ inside
  cases h with
  | request a u api effect =>
    cases effect with
    | answered => exact Or.inl member
    | order _ inserted => exact Or.inl ((Database.insertOrder_ok inserted).2.2.1 ▸ member)
    | payment _ pending inserted =>
      have member : p ∈ s.store.db.payments ++ _ := (Database.insertPayment_ok inserted).2.2.1 ▸ member
      rcases List.mem_append.mp member with old | new
      · exact Or.inl old
      · rw [List.mem_singleton.mp new]
        exact Or.inr pending
  | statement w entry handling u answer current ran =>
    rw [proceed_store] at member
    exact Or.inl (executed ran member)
  | failed w applied entry handling u current outcome =>
    rcases outcome with ⟨rfl, -⟩ | ⟨rfl, answer, ran⟩
    · exact Or.inl member
    · exact Or.inl (executed ran member)
  | reconcile w reconciling u next current ran => exact Or.inl (settled ran member)
  | abandoned w applied reconciling u current outcome =>
    rcases outcome with rfl | ⟨-, next, ran⟩
    · exact Or.inl member
    · exact Or.inl (settled ran member)
  | take w lastId entry payload rest processor => exact Or.inl (by simpa using member)
  | _ => exact Or.inl member

/-- A call that is about to update stays so, or the payment is `SUCCESS` afterwards. -/
theorem Moves.updated (h : Moves env s a t) (undisturbed : s.Undisturbed a)
    (present : ∃ p ∈ s.store.db.payments, p.id = paymentId) (updating : s.Updating paymentId) :
    t.Updating paymentId ∨ t.store.db.Succeeded paymentId := by
  obtain ⟨w, payload, event, called, rfl⟩ := updating
  cases h.callStep w with
  | same kept => exact Or.inl ⟨w, payload, event, kept.trans called, rfl⟩
  | taken text action idle => cases called.symm.trans idle
  | answered handling answer action position executed =>
    cases called.symm.trans position
    rw [executed.pays]
    exact Or.inr ((Database.markSuccess_succeeded _ _ _).mpr (Or.inr ⟨rfl, present⟩))
  | stopped action =>
    rcases action with rfl | ⟨applied, rfl⟩
    · cases called.symm.trans undisturbed
    · exact undisturbed.elim

/-- Without reconciliation, payments are promoted by calls that have logged their event. -/
theorem promotes_updating (undisturbed : s.Undisturbed a) (h : s.promotes a = some paymentId) :
    s.Updating paymentId := by
  cases a with
  | statement w =>
    obtain ⟨⟨entry, handling⟩, current, promoted⟩ := Option.bind_eq_some_iff.mp h
    cases handling with
    | pay payload event =>
      cases promoted
      exact ⟨w, payload, event, call_of_current current, rfl⟩
    | _ => cases promoted
  | failure _ _ | reconcile _ | reconcileFailure _ _ => exact undisturbed.elim
  | _ => cases h

/-- What is newly logged about a payment comes from an event that is logged in this step,
and the call of a SUCCESS event then is about to update the payment. -/
theorem Moves.loggedAs (h : Moves env s a t) (undisturbed : s.Undisturbed a)
    (reported : t.store.db.LoggedAs paymentId status) :
    s.store.db.LoggedAs paymentId status ∨ ∃ payload event,
      s.performed a = some (.log payload event) ∧ event.paymentId = paymentId ∧
        event.status = status ∧ s.store.db.newTransaction env event ≠ none ∧
        (status = .success → t.Updating paymentId) := by
  obtain ⟨r, member, own, same⟩ := reported
  rw [h.transactions, List.mem_append, Option.mem_toList] at member
  rcases member with old | new
  · exact Or.inl ⟨r, old, own, same⟩
  · obtain ⟨payload, event, performed, added⟩ := logs_eq_some new
    obtain ⟨rfl, -⟩ := Database.newTransaction_eq_some added
    refine Or.inr ⟨payload, event, performed, own, same, by simp [added], fun success => ?_⟩
    cases h with
    | statement w entry handling u answer current executed =>
      cases (call_of_current current).symm.trans performed
      refine ⟨w, payload, event, ?_, own⟩
      rw [call_proceed, if_pos rfl, executed.added added (same.trans success)]
      rfl
    | failed => exact undisturbed.elim
    | request a u api effect =>
      obtain ⟨w, acts, -⟩ := performed_worker performed
      cases api.symm.trans acts
    | _ => cases performed

theorem Moves.agreeing (h : Moves env s a t) (promotion : Promotion s a t) (before : s.Agreeing)
    (undisturbed : s.Undisturbed a) (step : VerdictStep env s a) : t.Agreeing := by
  have grows := h.extends.db
  -- a SUCCESS row was there, or its call is under way
  have success (paymentId) (reported : t.store.db.LoggedAs paymentId .success) :
      s.store.db.LoggedAs paymentId .success ∨ t.Updating paymentId := by
    rcases h.loggedAs undisturbed reported with old | ⟨_, _, -, -, -, -, updating⟩
    · exact Or.inl old
    · exact Or.inr (updating rfl)
  constructor
  · intro p member status
    cases promotion with
    | steady silent same => exact grows.loggedAs (before.success p (same p member status) status)
    | promoted paymentId orderId promotes updated =>
      rw [updated] at member
      obtain ⟨row, present, rfl⟩ := mem_updateWhere.mp member
      split at status <;> rename_i hit
      · rw [if_pos hit]
        have named : row.id = paymentId := by simpa using hit
        have logged := before.updating _ (promotes_updating undisturbed promotes)
        exact grows.loggedAs (named ▸ logged)
      · rw [if_neg hit]
        exact grows.loggedAs (before.success row present status)
  · intro p member reported
    rcases success p.id reported with old | updating
    · obtain ⟨q, present, named⟩ := old.payment
      rcases before.logged q present (named ▸ old) with status | updating
      · have kept : t.store.db.Succeeded q.id := grows.succeeded ⟨q, present, rfl, status⟩
        exact Or.inl (kept.status member named.symm)
      · rcases h.updated undisturbed ⟨q, present, rfl⟩ updating with going | done
        · exact Or.inr (named ▸ going)
        · exact Or.inl (done.status member named.symm)
    · exact Or.inr updating
  · intro p member status
    rcases h.unpaid member (by rw [status]; decide) with old | pending
    · exact before.open_ p old status
    · cases status.symm.trans pending
  · intro paymentId reported
    rcases h.loggedAs undisturbed reported with old | ⟨payload, event, performed, rfl, failed, new, -⟩
    · exact grows.loggedAs (before.failed paymentId old)
    · simp only [VerdictStep, performed] at step
      exact grows.loggedAs (step.1 failed new)
  · rintro paymentId ⟨w, payload, event, called, rfl⟩
    rcases h.updating called with old | ⟨performed, status, logged⟩
    · exact grows.loggedAs (before.updating _ ⟨w, payload, event, old, rfl⟩)
    · simp only [VerdictStep, performed] at step
      rcases step.2 status with fresh | known
      · exact logged.resolve_left fresh
      · exact grows.loggedAs known

/-- While nothing fails and no reconciliation pass begins, statuses follow the log in a run
whose FAILED events come after a SUCCESS event of their payment and whose SUCCESS events
come under new keys. -/
theorem run_statusFollows (undisturbed : Meets (step env gateways) Undisturbed initial schedule)
    (meets : Meets (step env gateways) (VerdictStep env) initial schedule)
    (h : run (step env gateways) initial schedule = some t) : t.StatusFollows := by
  have agreeing : t.Agreeing := by
    refine invariant_of_meets (I := Agreeing) (C := fun s a => Undisturbed s a ∧ VerdictStep env s a)
      (fun before both stepped => ?_) initial_agreeing (undisturbed.and meets) h
    exact (step_moves env gateways stepped).agreeing (step_promotion stepped) before both.1 both.2
  exact agreeing.follows

/-- Workers that never act have no call in progress. -/
theorem run_idle (acts : ∀ a ∈ schedule, ∀ v ∈ a.worker, v = w)
    (h : run (step env gateways) initial schedule = some t) : ∀ v ≠ w, t.call v = none :=
  invariant_of_meets (I := fun s => ∀ v ≠ w, s.call v = none) (C := fun _ a => ∀ v ∈ a.worker, v = w)
    (fun idle acts stepped => (step_moves env gateways stepped).idle acts idle)
    (fun _ _ => rfl) (.of_forall acts initial) h

/-- The SUCCESS event of payment 11, handled to its end. -/
def succeeds : List Action :=
  Sample.initiated ++ .receiveWebhook "Razorpay" Sample.event :: .read 0 :: Sample.handle 0 5

theorem succeeds_statusFollows : ∃ t,
    run (step (Sample.env [Sample.event]) [Sample.waiting]) initial succeeds = some t ∧
      t.StatusFollows := by
  have runs : (run (step (Sample.env [Sample.event]) [Sample.waiting]) initial
      succeeds).isSome = true := by decide +kernel
  have undisturbed : Meets (step (Sample.env [Sample.event]) [Sample.waiting]) Undisturbed initial
      succeeds := by decide +kernel
  have meets : Meets (step (Sample.env [Sample.event]) [Sample.waiting])
      (VerdictStep (Sample.env [Sample.event])) initial succeeds := by decide +kernel
  obtain ⟨t, reached⟩ := Option.isSome_iff_exists.mp runs
  exact ⟨t, reached, run_statusFollows undisturbed meets reached⟩

/-- The gateway reports that payment 11 has failed. -/
def failedEvent : GatewayWebhookEvent := { Sample.event with status := .failed }

/-- The FAILED event of payment 11, handled to its end. -/
def fails : List Action :=
  Sample.initiated ++ .receiveWebhook "Razorpay" failedEvent :: .read 0 :: Sample.handle 0 3

/-- Payment 11 is reported failed, stays `PENDING`, and is what a pass would read. -/
theorem fails_stays_pending :
    ¬ ∀ schedule t,
      run (step (Sample.env [failedEvent]) [Sample.waiting]) initial schedule = some t →
      Meets (step (Sample.env [failedEvent]) [Sample.waiting]) Undisturbed initial schedule →
      t.StatusFollows := by
  intro claim
  have facts : (run (step (Sample.env [failedEvent]) [Sample.waiting]) initial fails).map (fun t =>
      (t.call 0, decide (t.store.db.PendingRead [Sample.waitingRow]),
        decide (t.store.db.LoggedAs 11 .failed))) = some (none, true, true) := by decide +kernel
  have undisturbed : Meets (step (Sample.env [failedEvent]) [Sample.waiting]) Undisturbed initial
      fails := by decide +kernel
  obtain ⟨t, reached, facts⟩ := Option.map_eq_some_iff.mp facts
  simp only [Prod.mk.injEq, decide_eq_true_eq] at facts
  obtain ⟨returned, pending, reported⟩ := facts
  have settled : ¬ t.Updating Sample.waitingRow.id := by
    rintro ⟨w, payload, event, called, -⟩
    by_cases first : w = 0
    · subst first
      cases called.symm.trans returned
    · cases called.symm.trans (run_idle (w := 0) (by decide) reached w first)
  exact (claim fails t reached undisturbed).2 _ pending _ List.mem_cons_self settled reported

end Services
end PaymentBackend
