import PaymentProcessing.Backend.InFlight

/-! When a skipped duplicate has been handled before. The mark is set first and never
taken back, so it vouches for the rest of `handle_event` only where no call is cut
short, its update reaches the order of its payment, and the key names one event. -/
namespace PaymentBackend
open Relational

namespace Database
variable {db db' : Database} {p o : Uuid}

/-- The payment holds `SUCCESS` and the order it belongs to `PAID`. -/
def Settled (db : Database) (paymentId : Uuid) : Prop :=
  ∃ p ∈ db.payments, p.id = paymentId ∧ p.status = .success ∧ db.Paid p.orderId

/-- An update with these ids leaves the payment settled. -/
def PaysOwn (db : Database) (paymentId orderId : Uuid) : Prop :=
  ∃ p ∈ db.payments, p.id = paymentId ∧ (p.orderId = orderId ∨ db.Paid p.orderId)

instance (db : Database) (p o : Uuid) : Decidable (db.PaysOwn p o) :=
  inferInstanceAs (Decidable (∃ _ ∈ _, _))

theorem Grows.settled (grows : Grows db db') (h : db.Settled p) : db'.Settled p := by
  obtain ⟨row, member, same, status, paid⟩ := h
  cases grows.payments row member with
  | inl kept => exact ⟨row, kept, same, status, grows.paid paid⟩
  | inr success => exact ⟨setSuccess row, success, same, rfl, grows.paid paid⟩

theorem markSuccess_settled : (db.markSuccess p o).Settled p ↔ db.PaysOwn p o := by
  constructor
  · rintro ⟨row, member, same, -, paid⟩
    obtain ⟨old, present, rfl⟩ := mem_updateWhere.mp member
    rw [markSuccess_paid] at paid
    have order : (if old.id == p then setSuccess old else old).orderId = old.orderId := by
      split <;> rfl
    have id : (if old.id == p then setSuccess old else old).id = old.id := by
      split <;> rfl
    rw [order] at paid
    refine ⟨old, present, id.symm.trans same, ?_⟩
    rcases paid with before | ⟨own, -⟩
    · exact Or.inr before
    · exact Or.inl own
  · rintro ⟨row, member, same, own⟩
    refine ⟨setSuccess row, mem_updateWhere_of_hit member (by simpa using same), same, rfl, ?_⟩
    refine (markSuccess_paid db p o).mpr ?_
    cases own with
    | inl own =>
      obtain ⟨order, inside, named⟩ := db.paymentsOrder.parent member
      exact Or.inr ⟨own, order, inside, named.trans own⟩
    | inr paid => exact Or.inl paid

end Database

/-- Where the handling is at its update, the update settles the payment. -/
def Handling.PaysOwn (db : Database) : Handling → Prop
  | .pay _ event => db.PaysOwn event.paymentId event.orderId
  | _ => True

instance (db : Database) (h : Handling) : Decidable (h.PaysOwn db) := by
  cases h <;> unfold Handling.PaysOwn <;> infer_instance

/-- What a handling that ran to its end has left in the stores. -/
def Store.Completed (s : Store) (payload : String) (event : GatewayWebhookEvent) : Prop :=
  s.db.Logged event.key ∧
    (event.status = .success → s.db.Settled event.paymentId ∧ payload ∈ s.confirmed)

/-- No received event of another gateway and event id has the same key text. -/
def Store.OwnKey (env : Externals) (s : Store) (event : GatewayWebhookEvent) : Prop :=
  ∀ x ∈ s.stream, ∀ other ∈ x.payload.bind env.fromJson,
    idemKey other = idemKey event → other.key = event.key

instance (env : Externals) (s : Store) (event : GatewayWebhookEvent) : Decidable (s.OwnKey env event) :=
  inferInstanceAs (Decidable (∀ _ ∈ _, ∀ _ ∈ _, _))

theorem Store.Extends.completed {s t : Store} (h : s.Extends t) (done : s.Completed payload event) :
    t.Completed payload event := by
  refine ⟨h.db.logged done.1, ?_⟩
  intro success
  obtain ⟨settled, published⟩ := done.2 success
  exact ⟨h.db.settled settled, h.confirmed published⟩

/-- The last statement of a handling completes it. -/
theorem Executes.completed (h : Executes env s handling t (.ok none))
    (held : handling.held = some event)
    (reached : handling.Reached env s)
    (settled : handling = .publish handling.payload event → s.db.Settled event.paymentId) :
    t.Completed handling.payload event := by
  cases h with
  | duplicate => cases held
  | recorded _ inserted other =>
    cases held
    exact ⟨(Database.insertTransaction_ok inserted).2.2.2.1, fun success => absurd success other⟩
  | published =>
    cases held
    exact ⟨reached.2.2, fun _ => ⟨settled rfl, by simp [Handling.payload]⟩⟩

namespace Services
variable {env : Externals} {gateways : List PaymentGateway} {s t : Services} {past : List Action}

/-- An earlier call of `handle_event` ran to its end on this payload. -/
def Handled (env : Externals) (gateways : List PaymentGateway) (past : List Action) (s : Services)
    (payload : String) (event : GatewayWebhookEvent) : Prop :=
  Transition.Occurs (step env gateways) (fun u a => u.completes env a = some (payload, event))
    initial past ∧ s.store.Completed payload event

/-- No handling is cut short and each update settles the payment it names; a skipped
event shares its key with no other one and no call in progress. -/
def OrderlyStep (env : Externals) (s : Services) (a : Action) : Prop :=
  s.cutShort env a = none ∧ (∀ h ∈ s.performed a, h.PaysOwn s.store.db) ∧
    ∀ event ∈ s.skips env a, s.store.OwnKey env event ∧
      ∀ v payload other, s.Holds v payload other → other.key ≠ event.key

/-- The same for a single worker, which has no other call in progress when it skips. -/
def SoloStep (env : Externals) (w : Nat) (s : Services) (a : Action) : Prop :=
  (∀ v ∈ a.worker, v = w) ∧ s.cutShort env a = none ∧ (∀ h ∈ s.performed a, h.PaysOwn s.store.db) ∧
    ∀ event ∈ s.skips env a, s.store.OwnKey env event

instance (env : Externals) (w : Nat) (s : Services) (a : Action) : Decidable (SoloStep env w s a) :=
  inferInstanceAs (Decidable (_ ∧ _))

/-- Each mark belongs to an event that is in progress or was handled to the end. -/
structure Tracked (env : Externals) (gateways : List PaymentGateway) (past : List Action)
    (s : Services) : Prop where
  sound : s.Sound env
  marks : ∀ key, s.store.marked key = true → ∃ payload event, env.fromJson payload = some event ∧
    idemKey event = key ∧ s.store.Received payload ∧
      ((∃ v, s.Holds v payload event) ∨ Handled env gateways past s payload event)
  publishing : ∀ v payload event, s.call v = some (.publish payload event) →
    s.store.db.Settled event.paymentId

theorem initial_tracked : Tracked env gateways [] initial :=
  ⟨initial_sound, by simp [initial, Store.empty, Store.marked], by
    simp [call, initial, Worker.booted]⟩

/-- The update precedes the message. -/
theorem Moves.publishing (h : Moves env s a t) (tracked : Tracked env gateways past s)
    (orderly : s.OrderlyStep env a) (called : t.call v = some (.publish payload event)) :
    t.store.db.Settled event.paymentId := by
  cases h.callStep v with
  | same kept =>
    exact h.extends.db.settled (tracked.publishing v payload event (kept.symm.trans called))
  | taken other _ _ marking => cases called.symm.trans marking
  | answered before answer action calledBefore executed continues =>
    cases continuation_eq_some.mp (continues.symm.trans called)
    generalize same : t.store = u at executed ⊢
    cases executed with
    | paid =>
      subst action
      exact Database.markSuccess_settled.mpr (orderly.2.1 _ calledBefore)
  | stopped _ ended => cases called.symm.trans ended

/-- Where the last statement of a call takes effect, it leaves a completed event. -/
theorem Moves.completes_completed (h : Moves env s a t) (tracked : Tracked env gateways past s)
    (done : s.completes env a = some (payload, event)) : t.store.Completed payload event := by
  obtain ⟨handling, performed, answered⟩ := Option.bind_eq_some_iff.mp done
  split at answered
  · rename_i answer
    obtain ⟨e, held, same⟩ := Option.map_eq_some_iff.mp answered
    obtain ⟨rfl, rfl⟩ := Prod.mk.inj same
    have executed := executes_next env s.store handling
    rw [answer] at executed
    have completed (v : Nat) (called : s.call v = some handling) :
        ((handling.next env).exec s.store).2.Completed handling.payload e := by
      apply executed.completed held (tracked.sound.reached called).1
      intro publish
      exact tracked.publishing v handling.payload e (publish ▸ called)
    cases h with
    | statement w entry before u answer current effect =>
      have called := call_of_current current
      cases called.symm.trans performed
      simpa only [effect.exec, proceed_store, withStore_store] using completed w called
    | failed w applied entry before u current outcome =>
      have called := call_of_current current
      rcases outcome with ⟨-, rfl⟩ | ⟨rfl, answer, effect⟩
      · cases performed
      · cases called.symm.trans performed
        simpa only [effect.exec, finish_store, withStore_store] using completed w called
    | request a u api effect =>
      obtain ⟨w, acts, -⟩ := performed_worker performed
      cases api.symm.trans acts
    | _ => cases performed
  · cases answered

theorem Moves.tracked (h : Moves env s a t)
    (reached : Transition.run (step env gateways) initial past = some s)
    (tracked : Tracked env gateways past s)
    (orderly : s.OrderlyStep env a) : Tracked env gateways (past ++ [a]) t := by
  have sound := h.sound tracked.sound
  refine ⟨sound, fun key marked => ?_,
    fun v payload event called => h.publishing tracked orderly called⟩
  have handled (payload event)
      (done : Handled env gateways past s payload event ∨
        s.completes env a = some (payload, event)) :
      Handled env gateways (past ++ [a]) t payload event := by
    rw [Handled, Transition.occurs_append_iff reached]
    rcases done with ⟨occurred, completed⟩ | now
    · exact ⟨Or.inl occurred, h.extends.completed completed⟩
    · exact ⟨Or.inr (Or.inl now), h.completes_completed tracked now⟩
  rcases h.marked_of marked with before | ⟨v, payload, event, decoded, same, holds | cut⟩
  · obtain ⟨payload, event, decoded, same, received, progress⟩ := tracked.marks key before
    refine ⟨payload, event, decoded, same, h.extends.received received, ?_⟩
    rcases progress with ⟨v, holds⟩ | done
    · rcases h.holds holds with holds | cut | now
      · exact Or.inl ⟨v, holds⟩
      · cases orderly.1.symm.trans cut
      · exact Or.inr (handled payload event (Or.inr now))
    · exact Or.inr (handled payload event (Or.inl done))
  · exact ⟨payload, event, decoded, same, sound.holds holds, Or.inl ⟨v, holds⟩⟩
  · cases orderly.1.symm.trans cut

/-- In an orderly run, with any redelivery and any restart between calls, an event is
skipped only after a call on its gateway and event id ran to its end. -/
theorem run_skips_completed
    (meets : Transition.Meets (step env gateways) (OrderlyStep env) initial (before ++ [a]))
    (h : Transition.run (step env gateways) initial before = some s)
    (skipped : s.skips env a = some event) :
    ∃ payload earlier, earlier.key = event.key ∧ Handled env gateways before s payload earlier := by
  obtain ⟨meets, orderly⟩ := meets.last h
  have tracked : Tracked env gateways before s := by
    refine Transition.history_of_meets (I := Tracked env gateways)
      (fun reached tracked orderly stepped => ?_) initial_tracked meets h
    exact (step_moves env gateways stepped).tracked reached tracked orderly
  obtain ⟨found, marked⟩ := Option.filter_eq_some_iff.mp skipped
  obtain ⟨payload, earlier, decoded, same, ⟨x, member, carries⟩, progress⟩ := tracked.marks _ marked
  obtain ⟨own, alone⟩ := orderly.2.2 event skipped
  have key : earlier.key = event.key := own x member earlier (by simp [carries, decoded]) same
  rcases progress with ⟨v, holds⟩ | handled
  · exact absurd key (alone v payload earlier holds)
  · exact ⟨payload, earlier, key, handled⟩

theorem solo_orderly
    (meets : Transition.Meets (step env gateways) (SoloStep env w) initial schedule) :
    Transition.Meets (step env gateways) (OrderlyStep env) initial schedule := by
  refine Transition.Meets.of_invariant (I := fun s => ∀ v ≠ w, s.call v = none)
    (fun idle solo stepped => (step_moves env gateways stepped).idle solo.1 idle)
    (fun idle solo => ?_) (by simp [call, initial, Worker.booted]) meets
  refine ⟨solo.2.1, solo.2.2.1, fun event skipped => ⟨solo.2.2.2 event skipped, ?_⟩⟩
  intro v payload other holds
  have found := (Option.filter_eq_some_iff.mp skipped).1
  exact absurd holds (looksUp_alone idle solo.1 found)

/-- The example event is handled to its end; the worker restarts, the gateway delivers
the event once more, and the worker meets both deliveries again. -/
def redelivery : List Action :=
  Sample.orders ++ .receiveWebhook "Razorpay" Sample.event :: .read 0 :: Sample.handle 0 5 ++
    [.crash 0, .receiveWebhook "Razorpay" Sample.event, .read 0, .take 0]

set_option maxRecDepth 8000 in
theorem redelivery_skips_completed : ∃ s,
    Transition.run (step (Sample.env [Sample.event]) configuredGateways) initial redelivery =
      some s ∧
      s.skips (Sample.env [Sample.event]) (.statement 0) = some Sample.event ∧
      ∃ payload earlier, earlier.key = Sample.event.key ∧
        Handled (Sample.env [Sample.event]) configuredGateways redelivery s payload earlier := by
  have solo : Transition.Meets (step (Sample.env [Sample.event]) configuredGateways)
      (SoloStep (Sample.env [Sample.event]) 0) initial (redelivery ++ [.statement 0]) := by decide
  exact ⟨_, rfl, rfl, run_skips_completed (solo_orderly solo) rfl rfl⟩

set_option maxRecDepth 8000 in
/-- The worker crashes right after `SETNX`; its next look at the event skips it. -/
theorem crash_skips_unhandled :
    ¬ ∀ before s a event,
      Transition.run (step (Sample.env [Sample.event]) configuredGateways) initial before = some s →
      s.skips (Sample.env [Sample.event]) a = some event →
      ∃ payload earlier, earlier.key = event.key ∧
        Handled (Sample.env [Sample.event]) configuredGateways before s payload earlier := by
  intro claim
  obtain ⟨_, _, _, -, ⟨row, member, -⟩, -⟩ := claim
    (Sample.orders ++ .receiveWebhook "Razorpay" Sample.event :: .read 0 :: Sample.handle 0 1 ++
      [.crash 0, .read 0, .take 0]) _ (.statement 0) Sample.event rfl rfl
  cases member

end Services
end PaymentBackend
