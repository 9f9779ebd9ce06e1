import PaymentProcessing.Propeller.Shards

/-! No handler is stuck. Redis' answers come first: while a topic is being added, a shard of the
registry is locked, and `subscribe` and `unsubscribe` of other handlers may wait for it. Once the
locks are given back, a handler needs nothing but its own turns to end. -/
namespace Propeller
open Relational Transition

/-- A handler that asks for no topic leaves the registry free. -/
theorem Handler.Moves.leavesFree {config : ClientConfig} {json : AttributesJson} {s u : Service}
    {h h' : Handler} (moves : h.Moves config json s input u h') (free : s.adding = [])
    (unasked : input.topicRequest = none) : u.adding = [] := by
  cases moves with
  | called ok t c calling stepped => rw [Service.step_leavesAdding stepped rfl, free]
  | sent | idle | refused => exact free
  | sentLast ok output well badly t stage following stepped =>
    rw [Service.step_leavesAdding stepped rfl, free]
  | quit ok output well badly t stage following stepped =>
    rw [Service.step_leavesAdding stepped rfl, free]
  | left input t waiting other stepped => rw [Service.step_leavesAdding stepped rfl, free]
  | talks input output well t waiting other loops alone received =>
    rcases received with rfl | stepped
    · exact free
    · rw [Service.step_leavesAdding stepped rfl, free]
  | requested input topic c channel t waiting asked =>
    rw [unasked] at asked
    contradiction
  | withdrawn input topic c channel broker t waiting asked =>
    rw [unasked] at asked
    contradiction
  | adding ok text topic task a t stage inside => simp [free] at inside
  | added ok text topic task a t result stage inside => simp [free] at inside

namespace Server
variable {config : ClientConfig} {json : AttributesJson} {shard : Uuid → Nat} {s t : Server}
  {h h' k : Handler} {u : Service}

/-- What holds of every reachable server none of whose shards is locked. -/
structure Free (s : Server) : Prop where
  able : s.Able
  unlocked : s.service.adding = []

/-- By its own turns alone, the handler can end, with its subscription given back if it had one. -/
def Ends (shard : Uuid → Nat) (config : ClientConfig) (json : AttributesJson) (s : Server)
    (sub : Uuid) : Prop :=
  ∃ (inputs : List Input) (t : Server) (k : Handler),
    run (lockedStep shard config json) s (inputs.map (.turn sub)) = some t ∧
    t.handler sub = some k ∧ k.stage = .ended ∧ (k.trace.subscribed = true →
      k.trace.unsubscribes = 1 ∧ sub ∉ t.service.registrations)

theorem Ends.after (free : s.Free) (found : s.handler h.sub = some h)
    (stepped : h.step config json s.service input = some (u, h')) (unasked : input.topicRequest = none)
    (rest : ∀ t, t.Free → t.handler h.sub = some h' → t.service = u →
      Ends shard config json t h.sub) :
    Ends shard config json s h.sub := by
  have moves := Handler.step_moves stepped
  have turned : s.lockedStep shard config json (.turn h.sub input) =
      some ⟨u, updateWhere (·.sub == h.sub) (fun _ => h') s.handlers⟩ := by
    rw [lockedStep_of_free free.unlocked]
    simp [Server.step, found, stepped]
  obtain ⟨inputs, t, k, reached, final⟩ := rest _
    ⟨lockedStep_able free.able turned, moves.leavesFree free.unlocked unasked⟩
    (handler_turned found moves.sub) rfl
  exact ⟨input :: inputs, t, k, run_cons_iff.mpr ⟨_, turned, reached⟩, final⟩

/-- A call that the handler awaits leads its connection to this phase. -/
theorem Ends.call (free : s.Free) (found : s.handler h.sub = some h)
    (calling : h.stage = .subscribing ∨ h.stage = .unsubscribing)
    (known : s.service.connection h.sub = some c)
    (advanced : s.service.advance config json c ok = some u)
    (connections : u.connections = (s.service.enter h.sub phase).connections)
    (rest : ∀ t d, t.Free → t.handler h.sub = some (h.called phase) →
      t.service.connection h.sub = some d → d.phase = phase → Ends shard config json t h.sub) :
    Ends shard config json s h.sub := by
  obtain ⟨-, named⟩ := Service.connection_mem known
  have entered : u.connection h.sub = some { c with phase := phase } := by
    have kept := Service.connection_enter s.service h.sub h.sub phase
    rw [known, Option.map_some, if_pos (by simp [named])] at kept
    rw [Service.connection, connections]
    exact kept
  have stepped : h.step config json s.service (.call ok) = some (u, h.called phase) := by
    simp [Handler.step, calling, Service.step, known, advanced, entered]
  refine Ends.after free found stepped rfl fun t free' found' same => ?_
  exact rest t _ free' found' (same ▸ entered) rfl

theorem ends_closed (free : s.Free) (found : s.handler sub = some h)
    (known : s.service.connection sub = some c) (closed : c.phase = .closed) :
    Ends shard config json s sub := by
  obtain ⟨member, rfl⟩ := handler_mem found
  obtain ⟨d, known', agrees⟩ := free.able.1.connection member
  cases known.symm.trans known'
  rw [closed] at agrees
  obtain ⟨inside, named⟩ := Service.connection_mem known
  refine ⟨[], s, h, rfl, found, agrees.1, fun _ => ⟨agrees.2.2, ?_⟩⟩
  exact named ▸ free.able.1.accounted.released c inside closed

theorem ends_failed (free : s.Free) (found : s.handler sub = some h)
    (known : s.service.connection sub = some c) (failed : c.phase = .failed) :
    Ends shard config json s sub := by
  obtain ⟨member, rfl⟩ := handler_mem found
  obtain ⟨d, known', agrees⟩ := free.able.1.connection member
  cases known.symm.trans known'
  rw [failed] at agrees
  refine ⟨[], s, h, rfl, found, agrees.1, fun subscribed => ?_⟩
  rw [agrees.2.1] at subscribed
  contradiction

theorem ends_leaving (free : s.Free) (found : s.handler sub = some h)
    (stage : h.stage = .unsubscribing) (known : s.service.connection sub = some c)
    (leaving : c.phase = .leaving) : Ends shard config json s sub := by
  obtain ⟨member, rfl⟩ := handler_mem found
  obtain ⟨-, named⟩ := Service.connection_mem known
  have advanced : s.service.advance config json c true = some { (s.service.withBroker
      (s.service.broker.unsubscribe c.sub)).enter c.sub .closed with
        gauge := s.service.gauge - 1 } := by
    simp only [Service.advance, leaving, free.unlocked]
    rfl
  refine Ends.call free found (Or.inr stage) known advanced (by rw [named]; rfl) ?_
  exact fun t d free' found' known' closed => ends_closed free' found' known' closed

theorem ends_unsubscribing (free : s.Free) (found : s.handler sub = some h)
    (stage : h.stage = .unsubscribing) : Ends shard config json s sub := by
  obtain ⟨member, rfl⟩ := handler_mem found
  obtain ⟨c, known, agrees⟩ := free.able.1.connection member
  obtain ⟨-, named⟩ := Service.connection_mem known
  cases phase : c.phase with
  | leaving => exact ends_leaving free found stage known phase
  | deleting =>
    have advanced : s.service.advance config json c true = some { s.service.enter c.sub .leaving with
        devices := s.service.deleted config c true } := by
      simp only [Service.advance, phase]
    refine Ends.call free found (Or.inr stage) known advanced (by rw [named]) ?_
    intro t d free' found' known' leaving
    have same : h.called .leaving = h := by simp [Handler.called, stage]
    rw [same] at found'
    exact ends_leaving free' found' stage known' leaving
  | subscribed => simp [phase, Handler.Agrees, Handler.Looping, stage, Stage.looping] at agrees
  | _ => simp [phase, Handler.Agrees, stage] at agrees

/-- A handler in its loop may leave it. -/
theorem Coherent.leaves (config : ClientConfig) (json : AttributesJson) (coherent : s.Coherent)
    (member : h ∈ s.handlers) (inside : h.stage.looping = true) (same : k.sub = h.sub) :
    ∃ u, k.leave config json s.service = some (u, k.leaving) := by
  obtain ⟨c, known, agrees⟩ := coherent.connection member
  have subscribed := (agrees.subscribed inside).1
  have stepped : s.service.step config json (.disconnect k.sub) = some (s.service.enter h.sub
      (if (c.registered config).isSome then .deleting else .leaving)) := by
    simp [Service.step, same, known, subscribed]
  exact ⟨_, by rw [Handler.leave, stepped, Option.map_some]; rfl⟩

theorem ends_waiting (free : s.Free) (found : s.handler sub = some h) (waiting : h.stage = .waiting) :
    Ends shard config json s sub := by
  obtain ⟨member, rfl⟩ := handler_mem found
  obtain ⟨u, left⟩ := Coherent.leaves config json free.able.1 member (by rw [waiting]; rfl) rfl
  obtain ⟨input, unasked, stepped⟩ : ∃ input : Input, input.topicRequest = none ∧
      h.step config json s.service input = some (u, h.leaving) := by
    cases front : h.frontend with
    | ws =>
      refine ⟨.frame .closed, rfl, ?_⟩
      simp [Handler.step, waiting, front, Handler.received, left]
    | grpc =>
      refine ⟨.message .closed, rfl, ?_⟩
      simp [Handler.step, waiting, front, Handler.handleClientRequest, left]
  refine Ends.after free found stepped unasked fun t free' found' _ => ?_
  exact ends_unsubscribing free' found' rfl

theorem ends_sending (free : s.Free) (found : s.handler sub = some h)
    (stage : h.stage = .sending output well badly) : Ends shard config json s sub := by
  obtain ⟨member, rfl⟩ := handler_mem found
  have inside : h.stage.looping = true := by rw [stage]; rfl
  have sends : h.step config json s.service (.sent true) =
      (h.log output true).proceed config json s.service well := by
    simp [Handler.step, Handler.sent, stage, Handler.log]
  cases well with
  | loop => exact Ends.after free found sends rfl fun t free' found' _ => ends_waiting free' found' rfl
  | leave =>
    obtain ⟨u, left⟩ :=
      Coherent.leaves config json free.able.1 (k := h.log output true) member inside rfl
    refine Ends.after free found (sends.trans left) rfl fun t free' found' _ => ?_
    exact ends_unsubscribing free' found' rfl
  | quit =>
    obtain ⟨c, known, agrees⟩ := free.able.1.connection member
    rw [(agrees.subscribed inside).1] at agrees
    exact absurd rfl (agrees.1.2 output .quit badly stage).1

theorem called_subscribed (stage : h.stage = .subscribing) :
    (h.called .subscribed).stage = .sending h.frontend.connectAck .loop .quit := by
  simp only [Handler.called, stage]

theorem ends_storing (free : s.Free) (found : s.handler sub = some h)
    (stage : h.stage = .subscribing) (known : s.service.connection sub = some c)
    (storing : c.phase = .storing) : Ends shard config json s sub := by
  obtain ⟨member, rfl⟩ := handler_mem found
  obtain ⟨-, named⟩ := Service.connection_mem known
  have advanced : s.service.advance config json c true = some { s.service.enter c.sub .subscribed with
      devices := s.service.stored config json c true
      gauge := s.service.gauge + 1 } := by
    simp only [Service.advance, storing]
  refine Ends.call free found (Or.inl stage) known advanced (by rw [named]) ?_
  intro t d free' found' known' _
  exact ends_sending free' found' (called_subscribed stage)

theorem ends_subscribing (free : s.Free) (found : s.handler sub = some h)
    (stage : h.stage = .subscribing) : Ends shard config json s sub := by
  obtain ⟨member, rfl⟩ := handler_mem found
  obtain ⟨c, known, agrees⟩ := free.able.1.connection member
  obtain ⟨-, named⟩ := Service.connection_mem known
  have fails {u : Service} (advanced : s.service.advance config json c false = some u)
      (connections : u.connections = (s.service.enter h.sub .failed).connections) :
      Ends shard config json s h.sub := by
    refine Ends.call free found (Or.inl stage) known advanced connections ?_
    exact fun t d free' found' known' failed => ends_failed free' found' known' failed
  cases phase : c.phase with
  | storing => exact ends_storing free found stage known phase
  | opening number connected todo =>
    cases connected with
    | false =>
      refine fails (u := s.service.enter c.sub .failed) ?_ (by rw [named])
      simp [Service.advance, phase]
    | true =>
      cases todo with
      | cons channel todo =>
        refine fails (u := (s.service.withBroker
          (s.service.broker.close ⟨c.sub, none, number⟩)).enter c.sub .failed) ?_ (by rw [named]; rfl)
        simp [Service.advance, phase]
      | nil =>
        cases device : c.registered config with
        | none =>
          have advanced : s.service.advance config json c true = some { (s.service.withBroker
              (s.service.broker.start ⟨c.sub, none, number⟩)).enter c.sub .subscribed with
                gauge := s.service.gauge + 1 } := by
            simp [Service.advance, phase, device]
          refine Ends.call free found (Or.inl stage) known advanced (by rw [named]; rfl) ?_
          intro t d free' found' known' _
          exact ends_sending free' found' (called_subscribed stage)
        | some dev =>
          have advanced : s.service.advance config json c true = some ((s.service.withBroker
              (s.service.broker.start ⟨c.sub, none, number⟩)).enter c.sub .storing) := by
            simp [Service.advance, phase, device]
          refine Ends.call free found (Or.inl stage) known advanced (by rw [named]; rfl) ?_
          intro t d free' found' known' storing
          have same : h.called .storing = h := by simp [Handler.called, stage]
          rw [same] at found'
          exact ends_storing free' found' stage known' storing
  | subscribed => simp [phase, Handler.Agrees, Handler.Looping, stage, Stage.looping] at agrees
  | _ => simp [phase, Handler.Agrees, stage] at agrees

theorem ends_of_free (free : s.Free) (found : s.handler sub = some h) (going : h.stage ≠ .ended) :
    Ends shard config json s sub := by
  cases stage : h.stage with
  | subscribing => exact ends_subscribing free found stage
  | sending output well badly => exact ends_sending free found stage
  | waiting => exact ends_waiting free found stage
  | requesting topic task =>
    obtain ⟨-, a, inside, -⟩ := free.able.2.adding h (handler_mem found).1 topic task stage
    simp [free.unlocked] at inside
  | unsubscribing => exact ends_unsubscribing free found stage
  | ended => exact absurd stage going

/-- In every reachable state, however the registry is sharded: whatever Redis answers to the
additions under way, they end and give their locks back, and each handler that had not ended can
then end by its own turns alone, whatever the other handlers, the publishers and the broker's tasks
are at. A subscription that it had is then given back, once, and no longer registered. -/
theorem run_can_end (shard : Uuid → Nat) (config : ClientConfig) (json : AttributesJson)
    (schedule : List Action) (s : Server)
    (h : run (lockedStep shard config json) initial schedule = some s)
    (redis : Adding → Bool × String) :
    ∃ answers t, run (lockedStep shard config json) s answers = some t ∧
      Meets (lockedStep shard config json) (Answers redis) s answers ∧ t.service.adding = [] ∧
      ∀ k ∈ s.handlers, k.stage ≠ .ended → Ends shard config json t k.sub := by
  have able : s.Able :=
    invariant (I := Able) lockedStep_able ⟨initial_coherent, initial_awaited⟩ h
  obtain ⟨answers, t, reached, meets, able', unlocked, outlives⟩ :=
    released shard config json able redis
  refine ⟨answers, t, reached, meets, unlocked, ?_⟩
  intro k member going
  obtain ⟨k', present, same, still⟩ := outlives k member going
  rw [← same]
  exact ends_of_free ⟨able', unlocked⟩ (able'.1.distinct.find?_of_mem present rfl) still

/-- One channel leaves and another one has asked for a topic, to which Redis has not answered yet. -/
def asking : List Action :=
  let opens (sub : Uuid) (clientId : String) : List Action :=
    .accept .grpc sub "acme" clientId none :: List.replicate 3 (.turn sub (.call true)) ++
      [.turn sub (.sent true)]
  opens 0 "alice" ++ opens 1 "bob" ++ [.turn 1 (.message .closed),
    .turn 0 (.message (.request (some (.topicSubscriptionRequest "quotes")))), .turn 0 (.add true "")]

/-- With both in one shard, the one that leaves has to wait. -/
theorem asking_can_end : ∃ s,
    run (lockedStep (fun _ => 0) AppConfig.shipped.client plainJson) initial asking = some s ∧
    s.handlers.map Handler.stage =
      [.requesting "quotes" ⟨0, some "tenant:acme:topic:quotes", 2⟩, .unsubscribing] ∧
    (s.lockedStep (fun _ => 0) AppConfig.shipped.client plainJson (.turn 1 (.call true))).isNone ∧
    ∃ answers t, run (lockedStep (fun _ => 0) AppConfig.shipped.client plainJson) s answers = some t ∧
      Meets (lockedStep (fun _ => 0) AppConfig.shipped.client plainJson)
        (Answers fun _ => (true, "")) s answers ∧ t.service.adding = [] ∧
      ∀ k ∈ s.handlers, k.stage ≠ .ended →
        Ends (fun _ => 0) AppConfig.shipped.client plainJson t k.sub := by
  have busy : (run (lockedStep (fun _ => 0) AppConfig.shipped.client plainJson) initial asking).map
      (fun s => (s.handlers.map Handler.stage,
        (s.lockedStep (fun _ => 0) AppConfig.shipped.client plainJson (.turn 1 (.call true))).isNone)) =
      some ([.requesting "quotes" ⟨0, some "tenant:acme:topic:quotes", 2⟩, .unsubscribing], true) := by
    decide +kernel
  obtain ⟨s, reached, stands⟩ := Option.map_eq_some_iff.mp busy
  injection stands with stages waits
  exact ⟨s, reached, stages, waits, run_can_end _ _ _ _ s reached fun _ => (true, "")⟩

end Server
end Propeller
