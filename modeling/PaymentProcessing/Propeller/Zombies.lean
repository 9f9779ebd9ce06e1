import PaymentProcessing.Transition
import PaymentProcessing.Propeller.TaskSteps

/-! Registered subscriptions without their listeners. The registry knows of a task only
its control sender, so a task that returns unasked stays registered; and the sender of
events that the registry keeps, like the one in the `Subscription` itself, holds the event
queue open without it. -/
namespace Propeller
open Transition

/-- The call waits for Redis. -/
def CallStage.connecting : CallStage → Bool
  | .opening false _ | .opening true (_ :: _) => true
  | _ => false

namespace PubSub

/-- The senders of an event queue: one in the `Subscription`, one with each call under way,
one in the registry entry and one with each task. -/
def eventSenders (s : PubSub) (sub : Uuid) : Nat :=
  (if s.owned sub then 1 else 0) +
    s.calls.countP (fun c => c.sub = sub ∧ c.stage.isOpening = true) +
    s.adding.countP (·.task.sub = sub) + s.broker.subscriptions.countP (·.id = sub) +
    s.broker.listeners.countP (fun l => l.id.sub = sub ∧ l.running = true)

/-- `event_rx.recv()` yields `None`. -/
def Ends (s : PubSub) (sub : Uuid) : Prop := s.broker.queues sub = [] ∧ s.eventSenders sub = 0

/-- Every channel that a registered subscription claims has its listener task, or its owner
can tell. A key that is gone from `topic_controls` is no claim any more. -/
structure NoZombies (s : PubSub) : Prop where
  base : ∀ claim ∈ s.baseClaims, s.tasks.Live claim.1 claim.2 ∨ s.Ends claim.1.sub
  topics : ∀ claim ∈ s.topicClaims, s.tasks.Live claim.1 claim.2

section Claims
variable {s : PubSub}

/-- The registry entry keeps a sender, so its subscription never sees the end. -/
theorem not_ends (registered : entry ∈ s.broker.subscriptions) : ¬ s.Ends entry.id := by
  rintro ⟨-, none⟩
  have counted : 0 < s.broker.subscriptions.countP (·.id = entry.id) :=
    List.countP_pos_iff.mpr ⟨entry, registered, by simp⟩
  unfold eventSenders at none
  omega

theorem noZombies_iff : s.NoZombies ↔ s.tasks.NoneLost := by
  constructor
  · intro h task channel claimed
    rcases List.mem_append.mp claimed with base | topic
    · refine (h.base _ base).resolve_right ?_
      obtain ⟨entry, registered, c, -, same, -, -, rfl⟩ := mem_baseClaims.mp base
      change ¬ s.Ends c.sub
      exact same ▸ not_ends registered
    · exact h.topics _ topic
  · intro h
    refine ⟨fun claim base => Or.inl ?_, fun claim topic => ?_⟩
    · exact h _ _ (List.mem_append_left _ base)
    · exact h _ _ (List.mem_append_right _ topic)

end Claims

/-- No task that is still to answer ends unasked, with its Redis connection or at a send
that fails since the receiver is dropped; and a `subscribe` that fails had no channels. -/
def Spares (s : PubSub) : Action → Prop
  | .endOfStream task => ∀ claim ∈ s.claims, claim.1 ≠ task
  | .deliver task => task.sub ∈ s.broker.dropped → ∀ claim ∈ s.claims, claim.1 ≠ task
  | .advance sub false => ∀ c ∈ s.call sub, c.stage.connecting = true → c.channels = []
  | _ => True

instance (s : PubSub) (a : Action) : Decidable (s.Spares a) := by
  unfold Spares
  split <;> infer_instance

section Runs
variable {s t : PubSub}

theorem Advances.zombies (h : Advances s c ok t) (tidy : s.Tidy) (found : s.call c.sub = some c) :
    t.Tidy ∧ (s.tasks.NoneLost → (t.tasks.NoneLost ↔ s.Spares (.advance c.sub ok))) := by
  cases h with
  | connected todo stage =>
    have wired := tidy.sane.wired _ (setup_of_call found stage)
    have smooth := smooth_onward (t := (s.withBroker (s.broker.connect c.task)).enter c.sub
      (.opening true todo)) tidy found (reserved_call found stage)
      (Tasks.follows_connect s.broker c.task) (fun _ => id) rfl rfl rfl (wired.connect rfl rfl)
    refine ⟨tidy.entered found (by simp [stage, CallStage.isOpening]) (smooth.sane tidy.sane) rfl rfl
      rfl rfl, fun clean => iff_of_true (smooth.noneLost clean) trivial⟩
  | listening channel todo stage =>
    have wired := tidy.sane.wired _ (setup_of_call found stage)
    have smooth := smooth_onward (t := (s.withBroker (s.broker.listen c.task channel)).enter c.sub
      (.opening true todo)) tidy found (reserved_call found stage)
      (Tasks.follows_listen s.broker c.task channel) (fun _ => False.elim) rfl rfl rfl
      (wired.listen rfl rfl rfl rfl)
    refine ⟨tidy.entered found (by simp [stage, CallStage.isOpening]) (smooth.sane tidy.sane) rfl rfl
      rfl rfl, fun clean => iff_of_true (smooth.noneLost clean) trivial⟩
  | unconnected todo stage =>
    have opening : c.stage.isOpening = true := by simp [stage, CallStage.isOpening]
    have step := settled_step (t := (s.withBroker (s.broker.drop c.sub)).enter c.sub .failed) tidy
      found (reserved_call found stage) (.same _) (fun _ h => h.elim False.elim False.elim) rfl rfl
      rfl rfl
    refine ⟨tidy.entered found opening (tidy.sane.step step) rfl rfl rfl rfl, fun clean => ?_⟩
    rw [failed_iff tidy clean found opening (reserved_call found stage) (fun _ => False.elim) step
      rfl rfl]
    simp [Spares, found, stage, CallStage.connecting]
  | unsubscribed channel todo stage =>
    have opening : c.stage.isOpening = true := by simp [stage, CallStage.isOpening]
    have step := settled_step
      (t := (s.withBroker ((s.broker.close c.task).drop c.sub)).enter c.sub .failed) tidy found
      (reserved_call found stage) (Tasks.follows_close s.broker c.task)
      (fun _ h => h.resolve_right id) rfl rfl rfl rfl
    refine ⟨tidy.entered found opening (tidy.sane.step step) rfl rfl rfl rfl, fun clean => ?_⟩
    rw [failed_iff tidy clean found opening (reserved_call found stage) (fun _ => id) step rfl rfl]
    simp [Spares, found, stage, CallStage.connecting]
  | spawned ok stage =>
    have smooth := smooth_spawned
      (t := (s.withBroker (s.broker.start c.task)).enter c.sub .returned) tidy found stage rfl rfl
      rfl rfl
    refine ⟨tidy.entered found (by simp [stage, CallStage.isOpening]) (smooth.sane tidy.sane) rfl rfl
      rfl rfl, fun clean => iff_of_true (smooth.noneLost clean) ?_⟩
    cases ok with
    | true => trivial
    | false => simp [Spares, found, stage, CallStage.connecting]

theorem turn_zombies {b : Broker Nat} (h : s.broker.Turns .turn a b) (tidy : s.Tidy) :
    (s.withBroker b).Tidy ∧
      (s.tasks.NoneLost → ((s.withBroker b).tasks.NoneLost ↔ s.Spares a)) := by
  have finished {task l} (finishes : Broker.Finishes s.broker task l b) : (s.withBroker b).Tidy := by
    have claims := same_claims (s := s) (t := s.withBroker b) rfl finishes.subscriptions
    have step := Tasks.Step.finish (t := (s.withBroker b).tasks) tidy.sane finishes rfl rfl rfl claims
    refine ⟨tidy.distinct, tidy.topics, ?_, tidy.sane.step step⟩
    simp only [withBroker, finishes.subscriptions]
    exact tidy.registered
  have idle (listeners : Tasks.Follows (fun _ => False) (fun _ => False) (fun _ => False)
      (fun _ => False) s.broker.listeners b.listeners)
      (subscriptions : b.subscriptions = s.broker.subscriptions) (spares : s.Spares a) :
      (s.withBroker b).Tidy ∧
        (s.tasks.NoneLost → ((s.withBroker b).tasks.NoneLost ↔ s.Spares a)) := by
    have smooth := smooth_idle (s := s) (t := s.withBroker b) listeners rfl rfl subscriptions
    refine ⟨tidy.smooth smooth rfl rfl rfl ?_,
      fun clean => iff_of_true (smooth.noneLost clean) spares⟩
    simp only [withBroker, subscriptions]
    exact fun _ _ _ => id
  cases h with
  | deliver task _ delivered =>
    rcases Broker.deliver_cases delivered with ⟨gone, l, finishes⟩ | ⟨l, message, rest, delivers⟩
    · refine ⟨finished finishes, fun clean => ?_⟩
      rw [finished_iff tidy clean finishes]
      exact ⟨fun spared _ => spared, fun spared => spared gone⟩
    · exact idle (Tasks.follows_delivers delivers) delivers.subscriptions
        fun gone => absurd gone delivers.owned
  | stop task _ stopped =>
    obtain ⟨l, finishes, stopping⟩ := Broker.stop_finishes stopped
    refine ⟨finished finishes, fun clean => iff_of_true ?_ trivial⟩
    rw [finished_iff tidy clean finishes]
    rintro ⟨_, channel⟩ claimed rfl
    apply tidy.sane.stopping l finishes.member stopping channel
    rw [finishes.id]
    exact claimed
  | endOfStream task _ ended =>
    obtain ⟨l, finishes⟩ := Broker.endOfStream_finishes ended
    exact ⟨finished finishes, fun clean => finished_iff tidy clean finishes⟩
  | hangUp task => exact idle (Tasks.follows_hangUp s.broker task) rfl trivial
  | receive sub message _ received =>
    refine idle ?_ (Broker.receive_subscriptions received) trivial
    obtain ⟨rest, -, rfl⟩ := Broker.receive_ok received
    exact .same _
  | drop sub => exact idle (.same _) rfl trivial

theorem Moves.zombies (moves : Moves s a t) (tidy : s.Tidy) :
    t.Tidy ∧ (s.tasks.NoneLost → (t.tasks.NoneLost ↔ s.Spares a)) := by
  cases moves with
  | unadded | unremoved => exact ⟨tidy, fun clean => iff_of_true clean trivial⟩
  | publish channel data =>
    have smooth := smooth_idle (s := s) (t := { s with
      broker := s.broker.publish ⟨channel, data, s.published.length⟩
      published := s.published ++ [⟨channel, data, s.published.length⟩] })
      (Tasks.follows_publish s.broker _) rfl rfl rfl
    exact ⟨tidy.smooth smooth rfl rfl rfl fun _ _ _ => id,
      fun clean => iff_of_true (smooth.noneLost clean) trivial⟩
  | subscribe sub channels absent =>
    obtain ⟨kept, claims⟩ := tidy.subscribe channels absent
    refine ⟨kept, fun clean => iff_of_true (fun task channel claimed => ?_) trivial⟩
    exact clean task channel (claims claimed)
  | advance c ok _ found advanced => exact advanced.zombies tidy found
  | addSubscription channel sub checked =>
    exact ⟨tidy.addSubscription channel sub, fun clean => iff_of_true clean trivial⟩
  | advanceAdd a ok _ present adds =>
    exact ⟨adds.tidy tidy present, fun clean =>
      iff_of_true ((adds.smooth tidy present).noneLost clean) trivial⟩
  | removeSubscription channel sub b removed =>
    have smooth := smooth_removal tidy removed
    refine ⟨tidy.smooth smooth rfl rfl rfl ?_,
      fun clean => iff_of_true (smooth.noneLost clean) trivial⟩
    simp only [withBroker, Broker.removeSubscription_ids removed]
    exact fun _ _ _ => id
  | unsubscribe sub idle free =>
    have smooth := smooth_unsubscribe idle free
    refine ⟨tidy.smooth smooth rfl rfl rfl ?_,
      fun clean => iff_of_true (smooth.noneLost clean) trivial⟩
    intro c member opening registered
    obtain ⟨entry, present, same⟩ := List.mem_map.mp registered
    have other : c.sub ≠ sub := fun equal => absurd opening (by simp [idle c member equal])
    rw [withBroker, Broker.unsubscribe_subscriptions]
    exact List.mem_map.mpr ⟨entry, List.mem_filter.mpr ⟨present, by simpa [same] using other⟩, same⟩
  | turn a b turns => exact turn_zombies turns tidy

theorem initial_tidy : initial.Tidy := by
  refine ⟨List.nodup_nil, ?_, ?_, ?_⟩
  · simp [initial]
  · simp [initial]
  · constructor <;>
      simp [initial, tasks, Tasks.Reserved, claims, baseClaims, topicClaims, Broker.empty]

/-- No registered subscription is ever without the listeners it claims exactly if no task
ends unasked that is still to answer, and no `subscribe` to some channel fails. -/
theorem run_noZombies_iff (schedule : List Action) (s : PubSub)
    (h : run step initial schedule = some s) :
    Throughout step NoZombies initial schedule ↔ Meets step Spares initial schedule := by
  have exactly : Throughout step (fun s => s.Tidy ∧ s.tasks.NoneLost) initial schedule ↔
      Meets step Spares initial schedule := by
    refine throughout_iff ?_ ⟨initial_tidy, ?_⟩ h
    · rintro u a v ⟨tidy, clean⟩ stepped
      obtain ⟨kept, lost⟩ := (step_moves stepped).zombies tidy
      rw [and_iff_right kept, lost clean]
    · intro task channel claimed
      simp [initial, tasks, claims, baseClaims, topicClaims, Broker.empty] at claimed
  rw [← exactly]
  constructor
  · intro always past rest u split reached
    have tidy : u.Tidy :=
      invariant (fun before stepped => ((step_moves stepped).zombies before).1) initial_tidy reached
    exact ⟨tidy, noZombies_iff.mp (always past rest u split reached)⟩
  · intro always past rest u split reached
    exact noZombies_iff.mpr (always past rest u split reached).2

end Runs

/-- The topic is given up, and in the end the whole subscription. -/
def farewell : List Action :=
  [.removeSubscription "news" 0, .publish "news" [1], .deliver ⟨0, some "news", 1⟩,
    .stop ⟨0, some "news", 1⟩, .unsubscribe 0, .drop 0, .stop ⟨0, none, 0⟩]

theorem farewell_noZombies : Throughout step NoZombies initial (arrival ++ farewell) := by
  obtain ⟨s, reached⟩ : ∃ s, run step initial (arrival ++ farewell) = some s :=
    Option.isSome_iff_exists.mp (by decide +kernel)
  exact (run_noZombies_iff _ s reached).mpr (by decide +kernel)

/-- Both Redis connections end on their own. -/
def outage : List Action :=
  [.hangUp ⟨0, none, 0⟩, .endOfStream ⟨0, none, 0⟩, .hangUp ⟨0, some "news", 1⟩,
    .endOfStream ⟨0, some "news", 1⟩]

/-- No listener is left, but the queue stays open and the topic cannot be added again. -/
theorem outage_unnoticed : ∃ s, run step initial (arrival ++ outage) = some s ∧
    ¬ s.NoZombies ∧ s.broker.listeners = [] ∧ ¬ s.Ends 0 ∧
      s.broker.checkAdd "news" 0 ≠ .ok () := by
  have lost : (run step initial (arrival ++ outage)).map (fun s =>
      (s.broker.listeners, s.baseClaims, s.eventSenders 0,
        (s.broker.checkAdd "news" 0).toOption)) =
      some ([], [(⟨0, none, 0⟩, "inbox")], 2, none) := by
    decide +kernel
  obtain ⟨s, reached, fields⟩ := Option.map_eq_some_iff.mp lost
  simp only [Prod.mk.injEq] at fields
  obtain ⟨listeners, base, senders, refused⟩ := fields
  have held : ¬ s.Ends 0 := by
    rintro ⟨-, none⟩
    rw [senders] at none
    contradiction
  refine ⟨s, reached, ?_, listeners, held, ?_⟩
  · intro noZombies
    have claimed : (⟨0, none, 0⟩, "inbox") ∈ s.baseClaims := by simp [base]
    rcases noZombies.base _ claimed with ⟨l, member, -⟩ | ends
    · rw [show s.tasks.listeners = [] from listeners] at member
      contradiction
    · exact held ends
  · intro added
    rw [added] at refused
    contradiction

end PubSub
end Propeller
