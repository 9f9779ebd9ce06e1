import PaymentProcessing.Backend.InFlight

/-! Messages on `payments.confirmed`. Only the idempotency key stands between an event
and a second message: the transactions row of an earlier handling is met with `ON
CONFLICT DO NOTHING`, and the handling goes on to the update and the message. -/
namespace PaymentBackend

/-- How many messages carry an event of this gateway and event id. -/
def Store.confirmations (env : Externals) (s : Store) (key : String × String) : Nat :=
  s.confirmed.countP fun payload => (env.fromJson payload).any (·.key = key)

theorem Store.confirmations_publish {env : Externals} {s t : Store}
    (published : t.confirmed = s.confirmed ++ [payload])
    (decoded : env.fromJson payload = some event) :
    t.confirmations env key = s.confirmations env key + if event.key = key then 1 else 0 := by
  simp [confirmations, published, decoded, List.countP_append, List.countP_singleton]

namespace Services
variable {env : Externals} {gateways : List PaymentGateway} {s t : Services}

/-- The key of a SUCCESS event is set only where no message for its gateway and event
id was published and no other call is about to publish one. -/
def FirstStep (env : Externals) (s : Services) (a : Action) : Prop :=
  ∀ event ∈ s.begins env a, event.status = .success → s.store.confirmations env event.key = 0 ∧
    ∀ v payload other, s.Holds v payload other → other.status = .success → other.key ≠ event.key

/-- The same for a single worker. -/
def SoloFirstStep (env : Externals) (w : Nat) (s : Services) (a : Action) : Prop :=
  (∀ v ∈ a.worker, v = w) ∧ ∀ event ∈ s.begins env a, event.status = .success →
    s.store.confirmations env event.key = 0

instance (env : Externals) (w : Nat) (s : Services) (a : Action) : Decidable (SoloFirstStep env w s a) :=
  inferInstanceAs (Decidable (_ ∧ _))

/-- A call that may still publish is the only one for its key, and nothing was published. -/
structure Exclusive (env : Externals) (s : Services) : Prop where
  sound : s.Sound env
  once : ∀ key, s.store.confirmations env key ≤ 1
  fresh : ∀ v payload event, s.Holds v payload event → event.status = .success →
    s.store.confirmations env event.key = 0
  single : ∀ v w payload payload' event event', s.Holds v payload event → s.Holds w payload' event' →
    event.status = .success → event'.status = .success → event.key = event'.key → v = w

theorem initial_exclusive : initial.Exclusive env := by
  refine ⟨initial_sound, fun _ => Nat.zero_le 1, ?_, ?_⟩ <;>
    simp [Holds, call, initial, Worker.booted]

/-- Messages are published by the last statement of a call only. -/
theorem Moves.confirmed (h : Moves env s a t) : t.store.confirmed = s.store.confirmed ∨
    ∃ v payload event, a.worker = some v ∧ s.call v = some (.publish payload event) ∧
      t.call v = none ∧ t.store.confirmed = s.store.confirmed ++ [payload] := by
  cases h with
  | request a u api effect => cases effect <;> exact Or.inl rfl
  | statement w entry handling u answer current executed =>
    have called := call_of_current current
    have after := call_proceed (s.withStore u) w entry (continuation answer) w
    rw [proceed_store]
    cases executed with
    | published => exact Or.inr ⟨w, _, _, rfl, called, after.trans (if_pos rfl), rfl⟩
    | _ => exact Or.inl rfl
  | failed w applied entry handling u current outcome =>
    have called := call_of_current current
    have after := call_setProcessor (s.withStore u) w
      { ((s.withStore u).workers w).processor with lastId := entry, current := none } w
    rcases outcome with ⟨rfl, -⟩ | ⟨-, answer, executed⟩
    · exact Or.inl rfl
    · cases executed with
      | published => exact Or.inr ⟨w, _, _, rfl, called, after.trans (if_pos rfl), rfl⟩
      | _ => exact Or.inl rfl
  | reconcile w reconciling u next current settled => cases settled <;> exact Or.inl rfl
  | abandoned w applied reconciling u current outcome =>
    rcases outcome with rfl | ⟨-, next, settled⟩
    · exact Or.inl rfl
    · cases settled <;> exact Or.inl rfl
  | take w lastId entry payload rest processor => exact Or.inl (by simp)
  | _ => exact Or.inl rfl

/-- One step adds at most one message, of an event that had none. -/
theorem Moves.confirmations (h : Moves env s a t) (before : s.Exclusive env) :
    (∀ key, t.store.confirmations env key = s.store.confirmations env key) ∨
      ∃ v payload event, a.worker = some v ∧ s.call v = some (.publish payload event) ∧
        t.call v = none ∧ s.Holds v payload event ∧ event.status = .success ∧
        ∀ key, t.store.confirmations env key =
          s.store.confirmations env key + if event.key = key then 1 else 0 := by
  rcases h.confirmed with same | ⟨v, payload, event, acts, called, ended, published⟩
  · exact Or.inl fun key => by rw [Store.confirmations, Store.confirmations, same]
  · obtain ⟨⟨entry, handling⟩, current, rfl⟩ := Option.map_eq_some_iff.mp called
    have reached := (before.sound.workers v).reached entry _ current
    exact Or.inr ⟨v, payload, event, acts, called, ended, ⟨_, called, rfl, rfl⟩, reached.2.1,
      fun key => Store.confirmations_publish published reached.1⟩

theorem Moves.once (h : Moves env s a t) (before : s.Exclusive env) (key : String × String) :
    t.store.confirmations env key ≤ 1 := by
  have bound := before.once key
  rcases h.confirmations before with same | ⟨v, payload, event, -, -, -, holds, success, count⟩
  · rw [same]
    exact bound
  · have none := before.fresh v payload event holds success
    rw [count]
    split
    · rename_i same
      rw [same] at none
      omega
    · omega

theorem Moves.fresh (h : Moves env s a t) (before : s.Exclusive env) (first : s.FirstStep env a)
    (holds : t.Holds v payload event) (success : event.status = .success) :
    t.store.confirmations env event.key = 0 := by
  have earlier : s.store.confirmations env event.key = 0 := by
    rcases h.held_of holds with heldBefore | ⟨-, begins⟩
    · exact before.fresh v payload event heldBefore success
    · exact (first event begins success).1
  rcases h.confirmations before with same | ⟨w, payload', other, acts, called, ended, held, paid,
    count⟩
  · rw [same, earlier]
  · rw [count, earlier]
    split
    · rename_i same
      have different : v ≠ w := by
        rintro rfl
        obtain ⟨handling, called', -, -⟩ := holds
        cases called'.symm.trans ended
      rcases h.held_of holds with heldBefore | ⟨action, begins⟩
      · exact absurd (before.single v w _ _ _ _ heldBefore held success paid same.symm) different
      · rw [action] at acts
        cases acts
        exact absurd rfl different
    · rfl

theorem Moves.single (h : Moves env s a t) (before : s.Exclusive env) (first : s.FirstStep env a)
    (left : t.Holds v payload event) (right : t.Holds w payload' event')
    (success : event.status = .success) (success' : event'.status = .success)
    (same : event.key = event'.key) : v = w := by
  rcases h.held_of left with heldLeft | ⟨action, begins⟩
  · rcases h.held_of right with heldRight | ⟨-, begins⟩
    · exact before.single v w _ _ _ _ heldLeft heldRight success success' same
    · exact absurd same ((first event' begins success').2 v payload event heldLeft success)
  · rcases h.held_of right with heldRight | ⟨action', -⟩
    · exact absurd same.symm ((first event begins success).2 w payload' event' heldRight success')
    · cases action.symm.trans action'
      rfl

theorem Moves.exclusive (h : Moves env s a t) (before : s.Exclusive env)
    (first : s.FirstStep env a) :
    t.Exclusive env :=
  ⟨h.sound before.sound, h.once before, fun _ _ _ => h.fresh before first,
    fun _ _ _ _ _ _ => h.single before first⟩

/-- Whatever is redelivered, restarted or expires, an event is confirmed at most once
as long as its handling is not started again after a message or beside another call. -/
theorem run_confirms_once
    (meets : Transition.Meets (step env gateways) (FirstStep env) initial schedule)
    (h : Transition.run (step env gateways) initial schedule = some t) (key : String × String) :
    t.store.confirmations env key ≤ 1 := by
  have exclusive : t.Exclusive env := by
    refine Transition.invariant_of_meets (I := Exclusive env) ?_ initial_exclusive meets h
    intro _ _ _ before first stepped
    exact (step_moves env gateways stepped).exclusive before first
  exact exclusive.once key

theorem solo_first
    (meets : Transition.Meets (step env gateways) (SoloFirstStep env w) initial schedule) :
    Transition.Meets (step env gateways) (FirstStep env) initial schedule := by
  refine Transition.Meets.of_invariant (I := fun s => ∀ v ≠ w, s.call v = none)
    (fun idle solo stepped => (step_moves env gateways stepped).idle solo.1 idle)
    (fun idle solo event begins success => ⟨solo.2 event begins success, ?_⟩)
    (by simp [call, initial, Worker.booted]) meets
  intro v payload other holds
  have found := (Option.filter_eq_some_iff.mp begins).1
  exact absurd holds (looksUp_alone idle solo.1 found)

/-- The example event is handled to its end, and met again after a restart. -/
def restarted (seconds : Nat) : List Action :=
  Sample.orders ++ .receiveWebhook "Razorpay" Sample.event :: .read 0 :: Sample.handle 0 5 ++
    [.elapse seconds, .crash 0, .read 0] ++ Sample.handle 0 1

set_option maxRecDepth 8000 in
theorem restarted_confirms_once : ∃ t,
    Transition.run (step (Sample.env [Sample.event]) configuredGateways) initial (restarted 3599) =
      some t ∧
      t.store.confirmations (Sample.env [Sample.event]) Sample.event.key ≤ 1 := by
  have solo : Transition.Meets (step (Sample.env [Sample.event]) configuredGateways)
      (SoloFirstStep (Sample.env [Sample.event]) 0) initial (restarted 3599) := by decide
  exact ⟨_, rfl, run_confirms_once (solo_first solo) rfl _⟩

set_option maxRecDepth 8000 in
/-- One second later the key is gone, and the event is confirmed a second time. -/
theorem expired_confirms_twice :
    ¬ ∀ schedule t key, Transition.run (step (Sample.env [Sample.event]) configuredGateways)
      initial schedule = some t → t.store.confirmations (Sample.env [Sample.event]) key ≤ 1 := by
  intro claim
  have once := claim (restarted 3600 ++ List.replicate 4 (.statement 0)) _ Sample.event.key rfl
  exact absurd once (by decide)

end Services
end PaymentBackend
