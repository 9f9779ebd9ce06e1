import PaymentProcessing.Propeller.TopicControls
import PaymentProcessing.Propeller.PubSub

/-! `subscribe` enters its subscription into the registry before it connects, and returns an
error without taking it out again. -/
namespace Propeller
open Relational Transition

/-- The commands of a call: `get_async_pubsub`, then a `SUBSCRIBE` for each channel. One of them
fails, after those before it have gone well. -/
def FailsAt (channels : List String) (outcomes : List Bool) : Prop :=
  ∃ k ≤ channels.length, outcomes = List.replicate k true ++ [false]

def CallStage.awaiting : CallStage → Awaiting
  | .opening false todo => .commands (todo.length + 1)
  | .opening true todo => .commands todo.length
  | .returned => .commands 0
  | .failed => .failed

namespace CallStage

theorem awaiting_failed {stage : CallStage} : stage.awaiting = .failed ↔ stage = .failed := by
  cases stage with
  | opening connected todo => cases connected <;> simp [awaiting]
  | returned => simp [awaiting]
  | failed => simp [awaiting]

theorem awaiting_commands {stage : CallStage} (waiting : stage.awaiting = .commands (n + 1)) :
    (∃ todo, stage = .opening false todo ∧ todo.length = n) ∨
      ∃ channel todo, stage = .opening true (channel :: todo) ∧ todo.length = n := by
  cases stage with
  | returned | failed => simp [awaiting] at waiting
  | opening connected todo =>
    cases connected with
    | false => exact Or.inl ⟨todo, rfl, by simpa [awaiting] using waiting⟩
    | true =>
      cases todo with
      | nil => simp [awaiting] at waiting
      | cons channel todo => exact Or.inr ⟨channel, todo, rfl, by simpa [awaiting] using waiting⟩

end CallStage

/-! What is awaited in a table of calls, each with its subscription and its stage. -/
section Table
variable {α : Type} {key : α → Uuid} {stage : α → CallStage} {rows : List α} {row : α}

/-- A call that is not there awaits nothing. -/
def awaitingIn (key : α → Uuid) (stage : α → CallStage) (rows : List α) (sub : Uuid) : Awaiting :=
  ((rows.find? (key · = sub)).map fun row => (stage row).awaiting).getD (.commands 0)

theorem awaitingIn_found (found : rows.find? (key · = sub) = some row) :
    awaitingIn key stage rows sub = (stage row).awaiting := by
  rw [awaitingIn, found]
  rfl

theorem awaitingIn_update {set : α → α} (found : rows.find? (key · = sub) = some row)
    (kept : ∀ row, key (set row) = key row) :
    awaitingIn key stage (updateWhere (key · == sub) set rows) sub = (stage (set row)).awaiting := by
  apply awaitingIn_found
  rw [find?_updateWhere kept, found, Option.map_some]

theorem awaitingIn_append (absent : rows.find? (key · = sub) = none) (same : key row = sub) :
    awaitingIn key stage (rows ++ [row]) sub = (stage row).awaiting := by
  apply awaitingIn_found
  simp [List.find?_append, absent, same]

theorem awaitingIn_failed : awaitingIn key stage rows sub = .failed ↔
    ∃ row, rows.find? (key · = sub) = some row ∧ stage row = .failed := by
  cases found : rows.find? (key · = sub) with
  | none => simp [awaitingIn, found]
  | some row =>
    rw [awaitingIn_found found, CallStage.awaiting_failed]
    simp

theorem awaitingIn_commands (waiting : awaitingIn key stage rows sub = .commands (n + 1)) :
    ∃ row, rows.find? (key · = sub) = some row ∧
      ((∃ todo, stage row = .opening false todo ∧ todo.length = n) ∨
        ∃ channel todo, stage row = .opening true (channel :: todo) ∧ todo.length = n) := by
  cases found : rows.find? (key · = sub) with
  | none => simp [awaitingIn, found] at waiting
  | some row =>
    rw [awaitingIn_found found] at waiting
    exact ⟨row, rfl, CallStage.awaiting_commands waiting⟩

end Table

namespace PubSub
variable {s t u : PubSub}

def awaiting (sub : Uuid) (s : PubSub) : Awaiting := awaitingIn Call.sub Call.stage s.calls sub

/-- The stage that a call enters is what it then awaits. -/
theorem awaiting_enter (found : s.call c.sub = some c) (same : u.calls = s.calls) (stage : CallStage) :
    (u.enter c.sub stage).awaiting c.sub = stage.awaiting := by
  rw [awaiting, enter, same]
  exact awaitingIn_update found fun _ => rfl

theorem Advances.step (advances : Advances s c ok t) (found : s.call c.sub = some c) :
    s.step (.advance c.sub ok) = some t := by
  rw [PubSub.step, found, Option.bind_some]
  cases advances with
  | connected _ stage | unconnected _ stage => simp [advance, stage]
  | listening _ _ stage | unsubscribed _ _ stage => simp [advance, stage]
  | spawned _ stage => simp [advance, stage]

theorem advance_inTurn (sub : Uuid) :
    InTurn (fun s ok => PubSub.step s (.advance sub ok)) (awaiting sub) where
  well := by
    intro s n waiting
    obtain ⟨c, found, opening⟩ := awaitingIn_commands waiting
    obtain ⟨-, rfl⟩ := call_mem found
    rcases opening with ⟨todo, stage, rfl⟩ | ⟨channel, todo, stage, rfl⟩
    · exact ⟨_, (Advances.connected todo stage).step found, awaiting_enter found rfl _⟩
    · exact ⟨_, (Advances.listening channel todo stage).step found, awaiting_enter found rfl _⟩
  badly := by
    intro s n waiting
    obtain ⟨c, found, opening⟩ := awaitingIn_commands waiting
    obtain ⟨-, rfl⟩ := call_mem found
    rcases opening with ⟨todo, stage, rfl⟩ | ⟨channel, todo, stage, rfl⟩
    · exact ⟨_, (Advances.unconnected todo stage).step found, awaiting_enter found rfl _⟩
    · exact ⟨_, (Advances.unsubscribed channel todo stage).step found, awaiting_enter found rfl _⟩
  after := by
    intro s t ok waiting stepped
    obtain ⟨c, found, advanced⟩ := Option.bind_eq_some_iff.mp stepped
    obtain ⟨-, rfl⟩ := call_mem found
    rw [awaiting, awaitingIn_found found] at waiting
    cases advance_advances advanced with
    | connected todo stage | unconnected todo stage => simp [stage, CallStage.awaiting] at waiting
    | listening channel todo stage | unsubscribed channel todo stage =>
      simp [stage, CallStage.awaiting] at waiting
    | spawned ok stage => exact awaiting_enter found rfl .returned
  ended := by
    intro s ok failed
    obtain ⟨c, found, stage⟩ := awaitingIn_failed.mp failed
    rw [step, show s.call sub = some c from found, Option.bind_some, advance, stage]

theorem advance_subscriptions (stepped : s.step (.advance sub ok) = some t) :
    t.broker.subscriptions = s.broker.subscriptions := by
  obtain ⟨c, found, advanced⟩ := Option.bind_eq_some_iff.mp stepped
  cases advance_advances advanced <;> rfl

/-- A call of `subscribe` on its own, up to the outcomes of its commands. -/
def subscribeCall (sub : Uuid) (channels : List String) (outcomes : List Bool) : List Action :=
  .subscribe sub channels :: outcomes.map (.advance sub)

/-- The registry after the entry is made and the call awaits its connection. -/
def subscribing (s : PubSub) (sub : Uuid) (channels : List String) : PubSub :=
  { s with
    broker := s.broker.register sub s.next
    calls := s.calls ++ [⟨sub, channels, s.next, .opening false channels⟩]
    next := s.next + 1 }

theorem run_subscribeCall : run step s (subscribeCall sub channels outcomes) = some t ↔
    s.call sub = none ∧ run (fun s ok => PubSub.step s (.advance sub ok)) (s.subscribing sub channels)
      outcomes = some t := by
  simp only [subscribeCall, run_cons_iff, run_map]
  constructor
  · rintro ⟨u, stepped, reached⟩
    simp only [step] at stepped
    split at stepped
    · contradiction
    · rename_i absent
      cases stepped
      exact ⟨by simpa using absent, reached⟩
  · rintro ⟨absent, reached⟩
    exact ⟨_, by simp only [step, absent, Option.isSome_none]; rfl, reached⟩

theorem subscribing_awaits (channels : List String) (absent : s.call sub = none) :
    (s.subscribing sub channels).awaiting sub = .commands (channels.length + 1) :=
  awaitingIn_append absent rfl

/-- Whatever becomes of its commands, the call leaves the entry that it made. -/
theorem subscribeCall_registers (h : run step s (subscribeCall sub channels outcomes) = some t) :
    t.broker.subscriptions = s.broker.subscriptions ++ [⟨sub, s.next, []⟩] := by
  obtain ⟨-, reached⟩ := run_subscribeCall.mp h
  refine invariant (I := fun t => t.broker.subscriptions = s.broker.subscriptions ++ [⟨sub, s.next, []⟩])
    ?_ rfl reached
  intro u ok v before stepped
  exact (advance_subscriptions stepped).trans before

/-- The call has returned an error. -/
def Failed (sub : Uuid) (s : PubSub) : Prop := ∃ c, s.call sub = some c ∧ c.stage = .failed

theorem failed_awaiting : s.Failed sub ↔ s.awaiting sub = .failed := awaitingIn_failed.symm

/-- A call that returns an error leaves the registry as it was. -/
def AtomicOnError (s : PubSub) (sub : Uuid) (channels : List String) (outcomes : List Bool) : Prop :=
  ∀ t, run step s (subscribeCall sub channels outcomes) = some t → t.Failed sub →
    t.broker.subscriptions = s.broker.subscriptions

theorem atomicOnError_iff (s : PubSub) (sub : Uuid) (channels : List String) (outcomes : List Bool) :
    s.AtomicOnError sub channels outcomes ↔ ¬ (s.call sub = none ∧ FailsAt channels outcomes) := by
  constructor
  · rintro atomic ⟨absent, k, few, same⟩
    obtain ⟨t, reached, failed⟩ := ((advance_inTurn sub).fails_iff
      (subscribing_awaits channels absent)).mpr ⟨k, Nat.lt_succ_of_le few, same⟩
    have h := run_subscribeCall.mpr ⟨absent, reached⟩
    have unchanged := atomic t h (failed_awaiting.mpr failed)
    rw [subscribeCall_registers h] at unchanged
    simp at unchanged
  · intro goes t h failed
    obtain ⟨absent, reached⟩ := run_subscribeCall.mp h
    obtain ⟨k, few, same⟩ := ((advance_inTurn sub).fails_iff (subscribing_awaits channels absent)).mp
      ⟨t, reached, failed_awaiting.mp failed⟩
    exact absurd ⟨absent, k, Nat.le_of_lt_succ few, same⟩ goes

end PubSub

/-- The call of `subscribe` has not succeeded. -/
def Phase.pending : Phase → Bool
  | .opening .. | .failed => true
  | _ => false

theorem Phase.stage_opening {phase : Phase} (stage : phase.stage = .opening connected todo) :
    ∃ number, phase = .opening number connected todo := by
  cases phase with
  | opening number connected' todo' =>
    cases stage
    exact ⟨number, rfl⟩
  | _ => cases stage

theorem Phase.stage_failed {phase : Phase} : phase.stage = .failed ↔ phase = .failed := by
  cases phase <;> simp [Phase.stage]

namespace Service
variable {config : ClientConfig} {json : AttributesJson} {s t u : Service}

def awaiting (sub : Uuid) (s : Service) : Awaiting :=
  awaitingIn Connection.sub (·.phase.stage) s.connections sub

theorem connection_entered (found : s.connection c.sub = some c) (same : u.connections = s.connections)
    (phase : Phase) : (u.enter c.sub phase).connection c.sub = some { c with phase := phase } := by
  rw [connection_enter, show u.connection c.sub = some c by rw [connection, same]; exact found]
  simp

theorem awaiting_enter (found : s.connection c.sub = some c) (same : u.connections = s.connections)
    (phase : Phase) : (u.enter c.sub phase).awaiting c.sub = phase.stage.awaiting := by
  rw [awaiting, enter, same]
  exact awaitingIn_update found fun _ => rfl

theorem step_advance (found : s.connection c.sub = some c) (ok : Bool) :
    step config json s (.advance c.sub ok) = s.advance config json c ok := by
  simp only [step, found, Option.bind_some]

theorem awaiting_commands (waiting : s.awaiting sub = .commands (n + 1)) :
    ∃ c number, s.connection c.sub = some c ∧ c.sub = sub ∧
      ((∃ todo, c.phase = .opening number false todo ∧ todo.length = n) ∨
        ∃ channel todo, c.phase = .opening number true (channel :: todo) ∧ todo.length = n) := by
  obtain ⟨c, found, opening⟩ := awaitingIn_commands waiting
  obtain ⟨-, rfl⟩ := connection_mem found
  rcases opening with ⟨todo, stage, left⟩ | ⟨channel, todo, stage, left⟩
  · obtain ⟨number, phase⟩ := Phase.stage_opening stage
    exact ⟨c, number, found, rfl, Or.inl ⟨todo, phase, left⟩⟩
  · obtain ⟨number, phase⟩ := Phase.stage_opening stage
    exact ⟨c, number, found, rfl, Or.inr ⟨channel, todo, phase, left⟩⟩

theorem advance_inTurn (config : ClientConfig) (json : AttributesJson) (sub : Uuid) :
    InTurn (fun s ok => step config json s (.advance sub ok)) (awaiting sub) where
  well := by
    intro s n waiting
    obtain ⟨c, number, found, rfl, ⟨todo, phase, rfl⟩ | ⟨channel, todo, phase, rfl⟩⟩ :=
      awaiting_commands waiting
    · refine ⟨_, (step_advance found true).trans (by simp only [advance, phase, if_true]; rfl), ?_⟩
      exact awaiting_enter found rfl _
    · refine ⟨_, (step_advance found true).trans (by simp only [advance, phase, if_true]; rfl), ?_⟩
      exact awaiting_enter found rfl _
  badly := by
    intro s n waiting
    obtain ⟨c, number, found, rfl, ⟨todo, phase, rfl⟩ | ⟨channel, todo, phase, rfl⟩⟩ :=
      awaiting_commands waiting
    · refine ⟨_, (step_advance found false).trans (by simp [advance, phase]; rfl), ?_⟩
      exact awaiting_enter found rfl _
    · refine ⟨_, (step_advance found false).trans (by simp [advance, phase]; rfl), ?_⟩
      exact awaiting_enter found rfl _
  after := by
    intro s t ok waiting stepped
    obtain ⟨c, found, advanced⟩ := Option.bind_eq_some_iff.mp stepped
    obtain ⟨-, rfl⟩ := connection_mem found
    rw [awaiting, awaitingIn_found found] at waiting
    cases advance_advances advanced with
    | connected number todo phase | unconnected number todo phase =>
      simp [phase, Phase.stage, CallStage.awaiting] at waiting
    | listening number channel todo phase | unsubscribed number channel todo phase =>
      simp [phase, Phase.stage, CallStage.awaiting] at waiting
    | registering | plain | stored | deleted | left => exact awaiting_enter found rfl _
  ended := by
    intro s ok failed
    obtain ⟨c, found, stage⟩ := awaitingIn_failed.mp failed
    rw [step, show s.connection sub = some c from found, Option.bind_some, advance,
      Phase.stage_failed.mp stage]

/-- A call of `subscribe_client` on its own, up to the outcomes of its commands. -/
def subscribeCall (sub : Uuid) (tenantId clientId : String) (device : Option Device)
    (outcomes : List Bool) : List Action :=
  .connect sub tenantId clientId device :: outcomes.map (.advance sub)

/-- The service after the entry is made and the call awaits its connection. -/
def connecting (s : Service) (sub : Uuid) (tenantId clientId : String) (device : Option Device)
    (channels : List String) : Service :=
  { s with
    broker := s.broker.register sub s.next
    connections := s.connections ++ [⟨sub, tenantId, clientId, device, .opening s.next false channels⟩]
    next := s.next + 1 }

section Call
variable {sub : Uuid} {tenantId clientId : String} {device : Option Device} {channels : List String}
  {outcomes : List Bool}

theorem run_passed (passed : clientChannels config tenantId clientId device = .ok channels) :
    run (step config json) s (subscribeCall sub tenantId clientId device outcomes) = some t ↔
      s.connection sub = none ∧ run (fun s ok => step config json s (.advance sub ok))
        (s.connecting sub tenantId clientId device channels) outcomes = some t := by
  simp only [subscribeCall, run_cons_iff, run_map]
  constructor
  · rintro ⟨u, stepped, reached⟩
    simp only [step, passed] at stepped
    split at stepped
    · contradiction
    · rename_i absent
      cases stepped
      exact ⟨by simpa using absent, reached⟩
  · rintro ⟨absent, reached⟩
    exact ⟨_, by simp only [step, absent, passed, Option.isSome_none]; rfl, reached⟩

/-- A call that its checks refuse has no commands to await. -/
theorem run_refused (refused : clientChannels config tenantId clientId device = .error e)
    (h : run (step config json) s (subscribeCall sub tenantId clientId device outcomes) = some t) :
    t = s := by
  obtain ⟨u, stepped, reached⟩ := run_cons_iff.mp h
  simp only [step, refused] at stepped
  split at stepped
  · contradiction
  · rename_i absent
    cases stepped
    cases outcomes with
    | nil => exact (Option.some.inj reached).symm
    | cons ok rest =>
      obtain ⟨u, advanced, -⟩ := run_cons_iff.mp reached
      obtain ⟨c, found, -⟩ := Option.bind_eq_some_iff.mp advanced
      simp [found] at absent

theorem connecting_awaits (absent : s.connection sub = none) :
    (s.connecting sub tenantId clientId device channels).awaiting sub =
      .commands (channels.length + 1) :=
  awaitingIn_append absent rfl

end Call

/-- All that a pending call has done to the state it began in is the entry it made. -/
structure Entered (origin s : Service) (sub : Uuid) : Prop where
  registry : s.broker.subscriptions = origin.broker.subscriptions ++ [⟨sub, origin.next, []⟩]
  devices : s.devices = origin.devices
  gauge : s.gauge = origin.gauge

theorem advance_entered (stepped : step config json s (.advance sub ok) = some t)
    (before : ∀ c, s.connection sub = some c → c.phase.pending = true → Entered u s sub) :
    ∀ c, t.connection sub = some c → c.phase.pending = true → Entered u t sub := by
  intro c' found' pending
  obtain ⟨c, found, advanced⟩ := Option.bind_eq_some_iff.mp stepped
  obtain ⟨-, rfl⟩ := connection_mem found
  cases advance_advances advanced with
  | connected number todo phase | unconnected number todo phase =>
    have entered := before c found (by rw [phase]; rfl)
    exact ⟨entered.registry, entered.devices, entered.gauge⟩
  | listening number channel todo phase | unsubscribed number channel todo phase =>
    have entered := before c found (by rw [phase]; rfl)
    exact ⟨entered.registry, entered.devices, entered.gauge⟩
  | registering | plain | stored | deleted | left =>
    cases (connection_entered found rfl _).symm.trans found'
    cases pending

/-- `subscribe_client` returns an error: its checks refuse the call, or `subscribe` has failed. -/
def Errs (config : ClientConfig) (sub : Uuid) (tenantId clientId : String) (device : Option Device)
    (s : Service) : Prop :=
  (∃ e, clientChannels config tenantId clientId device = .error e) ∨
    ∃ c, s.connection sub = some c ∧ c.phase = .failed

theorem failed_awaiting (s : Service) (sub : Uuid) :
    (∃ c, s.connection sub = some c ∧ c.phase = .failed) ↔ s.awaiting sub = .failed := by
  rw [awaiting, awaitingIn_failed]
  simp only [Phase.stage_failed]
  rfl

/-- A failed call leaves its entry, and nothing else. -/
theorem subscribeCall_entered
    (h : run (step config json) s (subscribeCall sub tenantId clientId device outcomes) = some t)
    (passed : clientChannels config tenantId clientId device = .ok channels)
    (failed : ∃ c, t.connection sub = some c ∧ c.phase = .failed) : Entered s t sub := by
  obtain ⟨absent, reached⟩ := (run_passed passed).mp h
  obtain ⟨c, found, phase⟩ := failed
  refine invariant (I := fun t => ∀ c, t.connection sub = some c → c.phase.pending = true →
    Entered s t sub) ?_ ?_ reached c found (by rw [phase]; rfl)
  · intro u ok v before stepped
    exact advance_entered stepped before
  · intro c found pending
    exact ⟨rfl, rfl, rfl⟩

/-- A call that returns an error leaves the registry, the devices and the gauge as they were. -/
def AtomicOnError (config : ClientConfig) (json : AttributesJson) (s : Service) (sub : Uuid)
    (tenantId clientId : String) (device : Option Device) (outcomes : List Bool) : Prop :=
  ∀ t, run (step config json) s (subscribeCall sub tenantId clientId device outcomes) = some t →
    Errs config sub tenantId clientId device t →
    t.broker.subscriptions = s.broker.subscriptions ∧ t.devices = s.devices ∧ t.gauge = s.gauge

theorem atomicOnError_iff (config : ClientConfig) (json : AttributesJson) (s : Service) (sub : Uuid)
    (tenantId clientId : String) (device : Option Device) (outcomes : List Bool) :
    AtomicOnError config json s sub tenantId clientId device outcomes ↔
      ¬ (s.connection sub = none ∧ ∃ channels,
        clientChannels config tenantId clientId device = .ok channels ∧ FailsAt channels outcomes) := by
  constructor
  · rintro atomic ⟨absent, channels, passed, k, few, same⟩
    obtain ⟨t, reached, awaits⟩ := ((advance_inTurn config json sub).fails_iff
      (connecting_awaits absent)).mpr ⟨k, Nat.lt_succ_of_le few, same⟩
    have failed := (failed_awaiting t sub).mpr awaits
    have h := (run_passed passed).mpr ⟨absent, reached⟩
    have unchanged := (atomic t h (Or.inr failed)).1
    rw [(subscribeCall_entered h passed failed).registry] at unchanged
    simp at unchanged
  · intro goes t h errs
    cases checked : clientChannels config tenantId clientId device with
    | error e =>
      cases run_refused checked h
      exact ⟨rfl, rfl, rfl⟩
    | ok channels =>
      obtain ⟨absent, reached⟩ := (run_passed checked).mp h
      rcases errs with ⟨e, refused⟩ | failed
      · cases checked.symm.trans refused
      · obtain ⟨k, few, same⟩ := ((advance_inTurn config json sub).fails_iff
          (connecting_awaits absent)).mp ⟨t, reached, (failed_awaiting t sub).mp failed⟩
        exact absurd ⟨absent, channels, checked, k, Nat.le_of_lt_succ few, same⟩ goes

/-- In every run, what a failed call has left in the registry stays there. -/
theorem run_failed_registered (h : run (step config json) initial schedule = some s)
    (member : c ∈ s.connections) (failed : c.phase = .failed) : c.sub ∈ s.registrations := by
  have accounted : s.Accounted :=
    invariant (I := Accounted) (fun before stepped => (step_moves stepped).accounted before)
      initial_accounted h
  exact accounted.registered c member (by rw [failed]; nofun)

end Service

/-- When `subscribe`, and `subscribe_client` over it, are atomic on error: they are unless a
command fails, since no failure takes the entry out again. -/
theorem subscribe_atomic_iff (config : ClientConfig) (json : AttributesJson) :
    (∀ (s : PubSub) sub channels outcomes, s.AtomicOnError sub channels outcomes ↔
      ¬ (s.call sub = none ∧ FailsAt channels outcomes)) ∧
    ∀ (s : Service) sub tenantId clientId device outcomes,
      Service.AtomicOnError config json s sub tenantId clientId device outcomes ↔
        ¬ (s.connection sub = none ∧ ∃ channels,
          clientChannels config tenantId clientId device = .ok channels ∧ FailsAt channels outcomes) :=
  ⟨PubSub.atomicOnError_iff, Service.atomicOnError_iff config json⟩

/-- Redis cannot be reached for the first client. -/
theorem unreachable_subscribed : ¬ PubSub.AtomicOnError .initial 0 ["tenant:acme:client:alice"] [false] ∧
    ¬ Service.AtomicOnError AppConfig.shipped.client plainJson .initial 0 "acme" "alice" none [false] := by
  constructor
  · intro atomic
    exact absurd (atomic _ rfl ⟨_, rfl, rfl⟩) (by decide)
  · intro atomic
    exact absurd (atomic _ rfl (Or.inr ⟨_, rfl, rfl⟩)).1 (by decide)

end Propeller
