import PaymentProcessing.Propeller.Push

/-! `RedisPubSub` under arbitrary callers: any number of `subscribe`, `add_subscription`,
`remove_subscription` and `unsubscribe` calls, interleaved at every await with each other,
with publishers and with the listener tasks. A subscription is known to callers by its
random id, so only once its `subscribe` has ended. -/
namespace Propeller
open Relational

/-- Where a call of `subscribe` stands. -/
inductive CallStage where
  /-- Whether connected, and the channels still to go. -/
  | opening (connected : Bool) (todo : List String)
  | returned
  | failed
  deriving DecidableEq, Repr

/-- Where the `subscribe` of a connection in this phase stands. -/
def Phase.stage : Phase → CallStage
  | .opening _ connected todo => .opening connected todo
  | .failed => .failed
  | _ => .returned

def CallStage.isOpening : CallStage → Bool
  | .opening .. => true
  | _ => false

structure Call where
  sub : Uuid
  channels : List String
  number : Nat
  stage : CallStage
  deriving DecidableEq, Repr

/-- The task that the call spawns for its channels. -/
def Call.task (c : Call) : TaskId := ⟨c.sub, none, c.number⟩

structure PubSub where
  broker : Broker Nat
  calls : List Call
  adding : List Adding
  /-- Number of the next task. -/
  next : Nat
  /-- What Redis was told to publish, in this order; a message has its place as `origin`. -/
  published : List (Message Nat)

namespace PubSub

inductive Action where
  | publish (channel : String) (data : List UInt8)
  | subscribe (sub : Uuid) (channels : List String)
  /-- The awaited call of a `subscribe` ends, well or with an error. -/
  | advance (sub : Uuid) (ok : Bool)
  | addSubscription (channel : String) (sub : Uuid)
  /-- The awaited call of an `add_subscription` ends. -/
  | advanceAdd (task : TaskId) (ok : Bool)
  | removeSubscription (channel : String) (sub : Uuid)
  | unsubscribe (sub : Uuid)
  | deliver (task : TaskId)
  | stop (task : TaskId)
  | hangUp (task : TaskId)
  | endOfStream (task : TaskId)
  | receive (sub : Uuid)
  | drop (sub : Uuid)
  deriving DecidableEq, Repr

def initial : PubSub := ⟨.empty, [], [], 0, []⟩

def call (s : PubSub) (sub : Uuid) : Option Call := s.calls.find? (·.sub = sub)

def enter (s : PubSub) (sub : Uuid) (stage : CallStage) : PubSub :=
  let set (c : Call) : Call := { c with stage := stage }
  { s with calls := updateWhere (·.sub == sub) set s.calls }

def withBroker (s : PubSub) (broker : Broker Nat) : PubSub := { s with broker := broker }

/-- The `Subscription` is in the hands of its owner. -/
def owned (s : PubSub) (sub : Uuid) : Bool :=
  s.calls.any (fun c => c.sub = sub ∧ c.stage = .returned) && !s.broker.dropped.contains sub

/-- The awaited call of a `subscribe` ends. An error drops the subscription it was making,
but not the registry entry. -/
def advance (s : PubSub) (c : Call) (ok : Bool) : Option PubSub :=
  match c.stage with
  | .opening false todo =>
      some (if ok then (s.withBroker (s.broker.connect c.task)).enter c.sub (.opening true todo)
      else (s.withBroker (s.broker.drop c.sub)).enter c.sub .failed)
  | .opening true (channel :: todo) =>
      some (if ok then
        (s.withBroker (s.broker.listen c.task channel)).enter c.sub (.opening true todo)
      else (s.withBroker ((s.broker.close c.task).drop c.sub)).enter c.sub .failed)
  | .opening true [] => some ((s.withBroker (s.broker.start c.task)).enter c.sub .returned)
  | .returned | .failed => none

def others (s : PubSub) (a : Adding) : List Adding := s.adding.filter (·.task ≠ a.task)

/-- The awaited call of an `add_subscription` ends. -/
def advanceAdd (s : PubSub) (a : Adding) (ok : Bool) : PubSub :=
  let go (phase : AddPhase) (broker : Broker Nat) : PubSub :=
    { s with broker := broker, adding := { a with phase := phase } :: s.others a }
  match a.phase, ok with
  | .connecting, true => go .subscribing (s.broker.connect a.task)
  | .connecting, false => { s with adding := s.others a }
  | .subscribing, true => go .inserting (s.broker.listen a.task a.channel)
  | .subscribing, false => { s with broker := s.broker.close a.task, adding := s.others a }
  | .inserting, _ =>
      { s with broker := s.broker.finishAdd a.channel a.task.sub a.task.number, adding := s.others a }

def step (s : PubSub) : Action → Option PubSub
  | .publish channel data =>
      let message : Message Nat := ⟨channel, data, s.published.length⟩
      some { s with broker := s.broker.publish message, published := s.published ++ [message] }
  | .subscribe sub channels =>
      if (s.call sub).isSome then none
      else some { s with
        broker := s.broker.register sub s.next
        calls := s.calls ++ [⟨sub, channels, s.next, .opening false channels⟩]
        next := s.next + 1 }
  | .advance sub ok => (s.call sub).bind fun c => s.advance c ok
  | .addSubscription channel sub =>
      match s.broker.checkAdd channel sub with
      | .error _ => some s
      | .ok _ => some { s with
          adding := ⟨⟨sub, some channel, s.next⟩, channel, .connecting⟩ :: s.adding
          next := s.next + 1 }
  | .advanceAdd task ok => (s.adding.find? (·.task = task)).map fun a => s.advanceAdd a ok
  | .removeSubscription channel sub =>
      match s.broker.removeSubscription channel sub with
      | .error _ => some s
      | .ok broker => some (s.withBroker broker)
  | .unsubscribe sub =>
      -- the registry entry is held while one of its topics is being added; that its shard is
      -- locked with it takes steps of other subscriptions away, and is left out here
      if s.calls.any (fun c => c.sub = sub ∧ c.stage.isOpening) || s.adding.any (·.task.sub = sub) then
        none
      else some (s.withBroker (s.broker.unsubscribe sub))
  | .deliver task => (s.broker.deliver task).map s.withBroker
  | .stop task => (s.broker.stop task).map s.withBroker
  | .hangUp task => some (s.withBroker (s.broker.hangUp task))
  | .endOfStream task => (s.broker.endOfStream task).map s.withBroker
  | .receive sub =>
      if s.owned sub then (s.broker.receive sub).map fun received => s.withBroker received.2
      else none
  | .drop sub => if s.owned sub then some (s.withBroker (s.broker.drop sub)) else none

/-- The ends of an awaited call of `subscribe`. -/
inductive Advances (s : PubSub) (c : Call) : Bool → PubSub → Prop where
  | connected (todo) : c.stage = .opening false todo →
      Advances s c true ((s.withBroker (s.broker.connect c.task)).enter c.sub (.opening true todo))
  | unconnected (todo) : c.stage = .opening false todo →
      Advances s c false ((s.withBroker (s.broker.drop c.sub)).enter c.sub .failed)
  | listening (channel todo) : c.stage = .opening true (channel :: todo) →
      Advances s c true
        ((s.withBroker (s.broker.listen c.task channel)).enter c.sub (.opening true todo))
  | unsubscribed (channel todo) : c.stage = .opening true (channel :: todo) →
      Advances s c false ((s.withBroker ((s.broker.close c.task).drop c.sub)).enter c.sub .failed)
  | spawned (ok) : c.stage = .opening true [] →
      Advances s c ok ((s.withBroker (s.broker.start c.task)).enter c.sub .returned)

/-- The ends of an awaited call of `add_subscription`. -/
inductive Adds (s : PubSub) (a : Adding) : PubSub → Prop where
  | connected : a.phase = .connecting →
      Adds s a { s with
        broker := s.broker.connect a.task
        adding := { a with phase := .subscribing } :: s.others a }
  | unconnected : a.phase = .connecting → Adds s a { s with adding := s.others a }
  | listening : a.phase = .subscribing →
      Adds s a { s with
        broker := s.broker.listen a.task a.channel
        adding := { a with phase := .inserting } :: s.others a }
  | unsubscribed : a.phase = .subscribing →
      Adds s a { s with broker := s.broker.close a.task, adding := s.others a }
  | inserted : a.phase = .inserting →
      Adds s a { s with
        broker := s.broker.finishAdd a.channel a.task.sub a.task.number
        adding := s.others a }

abbrev Action.turn : Broker.Turn → Action
  | .deliver task => .deliver task
  | .stop task => .stop task
  | .hangUp task => .hangUp task
  | .endOfStream task => .endOfStream task
  | .receive sub => .receive sub
  | .drop sub => .drop sub

/-- The effects of the actions of the broker. -/
inductive Moves (s : PubSub) : Action → PubSub → Prop where
  | unadded (channel sub) : Moves s (.addSubscription channel sub) s
  | unremoved (channel sub) : Moves s (.removeSubscription channel sub) s
  | publish (channel data) : Moves s (.publish channel data) { s with
      broker := s.broker.publish ⟨channel, data, s.published.length⟩
      published := s.published ++ [⟨channel, data, s.published.length⟩] }
  | subscribe (sub channels) : s.call sub = none → Moves s (.subscribe sub channels) { s with
      broker := s.broker.register sub s.next
      calls := s.calls ++ [⟨sub, channels, s.next, .opening false channels⟩]
      next := s.next + 1 }
  | advance (c ok t) : s.call c.sub = some c → Advances s c ok t → Moves s (.advance c.sub ok) t
  | addSubscription (channel sub) : s.broker.checkAdd channel sub = .ok () →
      Moves s (.addSubscription channel sub) { s with
        adding := ⟨⟨sub, some channel, s.next⟩, channel, .connecting⟩ :: s.adding
        next := s.next + 1 }
  | advanceAdd (a ok t) : a ∈ s.adding → Adds s a t → Moves s (.advanceAdd a.task ok) t
  | removeSubscription (channel sub broker) :
      s.broker.removeSubscription channel sub = .ok broker →
      Moves s (.removeSubscription channel sub) (s.withBroker broker)
  | unsubscribe (sub) : (∀ c ∈ s.calls, c.sub = sub → c.stage.isOpening = false) →
      (∀ a ∈ s.adding, a.task.sub ≠ sub) →
      Moves s (.unsubscribe sub) (s.withBroker (s.broker.unsubscribe sub))
  | turn (a broker) : s.broker.Turns .turn a broker → Moves s a (s.withBroker broker)

section Inversion
variable {s t : PubSub}

theorem call_mem (h : s.call sub = some c) : c ∈ s.calls ∧ c.sub = sub :=
  ⟨List.mem_of_find?_eq_some h, by simpa using List.find?_some h⟩

theorem call_fresh (absent : s.call sub = none) : ∀ c ∈ s.calls, c.sub ≠ sub := by
  intro c member same
  exact absurd (List.find?_eq_none.mp absent c member) (by simp [same])

theorem advance_advances (h : s.advance c ok = some t) : Advances s c ok t := by
  unfold advance at h
  split at h
  · rename_i todo stage
    cases h
    cases ok with
    | true => exact .connected todo stage
    | false => exact .unconnected todo stage
  · rename_i channel todo stage
    cases h
    cases ok with
    | true => exact .listening channel todo stage
    | false => exact .unsubscribed channel todo stage
  · rename_i stage
    cases h
    exact .spawned ok stage
  all_goals contradiction

theorem advanceAdd_adds (s : PubSub) (a : Adding) (ok : Bool) : Adds s a (s.advanceAdd a ok) := by
  unfold advanceAdd
  split
  · rename_i phase
    exact .connected phase
  · rename_i phase
    exact .unconnected phase
  · rename_i phase
    exact .listening phase
  · rename_i phase
    exact .unsubscribed phase
  · rename_i phase
    exact .inserted phase

theorem step_moves (h : s.step a = some t) : Moves s a t := by
  cases a with
  | publish channel data =>
    cases h
    exact .publish channel data
  | subscribe sub channels =>
    simp only [step] at h
    split at h
    · contradiction
    · rename_i absent
      cases h
      exact .subscribe sub channels (by simpa using absent)
  | advance sub ok =>
    obtain ⟨c, found, advanced⟩ := Option.bind_eq_some_iff.mp h
    obtain ⟨-, rfl⟩ := call_mem found
    exact .advance c ok t found (advance_advances advanced)
  | addSubscription channel sub =>
    simp only [step] at h
    split at h
    · cases h
      exact .unadded channel sub
    · rename_i checked
      cases h
      exact .addSubscription channel sub checked
  | advanceAdd task ok =>
    obtain ⟨a, found, rfl⟩ := Option.map_eq_some_iff.mp h
    have same : a.task = task := by simpa using List.find?_some found
    exact same ▸ .advanceAdd a ok _ (List.mem_of_find?_eq_some found) (advanceAdd_adds s a ok)
  | removeSubscription channel sub =>
    simp only [step] at h
    split at h
    · cases h
      exact .unremoved channel sub
    · rename_i broker removed
      cases h
      exact .removeSubscription channel sub broker removed
  | unsubscribe sub =>
    simp only [step] at h
    split at h
    · contradiction
    · rename_i idle
      cases h
      simp only [Bool.or_eq_true, List.any_eq_true, decide_eq_true_eq, not_or, not_exists,
        not_and, Bool.not_eq_true] at idle
      exact .unsubscribe sub idle.1 idle.2
  | deliver task =>
    obtain ⟨broker, delivered, rfl⟩ := Option.map_eq_some_iff.mp h
    exact .turn _ broker (.deliver task broker delivered)
  | stop task =>
    obtain ⟨broker, stopped, rfl⟩ := Option.map_eq_some_iff.mp h
    exact .turn _ broker (.stop task broker stopped)
  | hangUp task =>
    cases h
    exact .turn _ _ (.hangUp task)
  | endOfStream task =>
    obtain ⟨broker, ended, rfl⟩ := Option.map_eq_some_iff.mp h
    exact .turn _ broker (.endOfStream task broker ended)
  | receive sub =>
    simp only [step] at h
    split at h
    · obtain ⟨⟨message, broker⟩, received, rfl⟩ := Option.map_eq_some_iff.mp h
      exact .turn _ broker (.receive sub message broker received)
    · contradiction
  | drop sub =>
    simp only [step] at h
    split at h
    · cases h
      exact .turn _ _ (.drop sub)
    · contradiction

end Inversion

/-- A topic is added under this task number. -/
def addition (number : Nat) : List Action :=
  .addSubscription "news" 0 :: List.replicate 3 (.advanceAdd ⟨0, some "news", number⟩ true)

/-- A client subscribes to its own channel and to a topic. -/
def arrival : List Action :=
  .subscribe 0 ["inbox"] :: List.replicate 3 (.advance 0 true) ++ addition 1
end PubSub
end Propeller
