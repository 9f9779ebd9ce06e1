import PaymentProcessing.Backend.Provenance

/-! The WebSocket endpoint of the payment API. One broadcast channel carries what webhook handlers
send and what the forwarder of `payments.confirmed` relays; every connected client reads it. -/
namespace PaymentBackend

/-- `ws_stream` of one client: the user it connected as, its place in the channel and what was
sent to its socket. -/
structure WsClient where
  userId : String
  next : Nat
  received : List String
  ended : Bool
  deriving DecidableEq, Repr

/-- `broadcast::channel(1024)` -/
def broadcastCapacity : Nat := 1024

/-- One turn of the loop of `ws_stream`: the receiver has fallen behind, or it has a message. -/
def WsClient.turn (channel : List String) (sent : Bool) (c : WsClient) : Option WsClient :=
  if c.ended then none
  else if broadcastCapacity < channel.length - c.next then some { c with ended := true }
  else
    match channel[c.next]? with
    | none => none
    | some message =>
      if sent then some { c with next := c.next + 1, received := c.received ++ [message] }
      else some { c with ended := true }

structure Realtime where
  services : Services
  /-- Payloads that webhook handlers have enqueued and not yet sent. -/
  waiting : List String
  /-- How many messages of `payments.confirmed` the forwarder has seen or missed. -/
  forwarded : Nat
  /-- Everything sent into `ws_tx`. -/
  channel : List String
  clients : List WsClient

namespace Realtime

inductive Action where
  | service (action : PaymentBackend.Action)
  /-- `ws_tx.send(payload)` of a webhook handler -/
  | send (payload : String)
  | forward
  /-- Redis keeps no message for a subscriber that is away. -/
  | miss
  | connect (userId : String)
  /-- `rx.recv()` and `socket.send` of one client -/
  | receive (client : Nat) (sent : Bool)

def initial : Realtime := ⟨.initial, [], 0, [], []⟩

section Step
variable (env : Externals) (gateways : List PaymentGateway)

/-- The message that this step puts into the channel. -/
def enters (s : Realtime) : Action → Option String
  | .send payload => some payload
  | .forward => s.services.store.confirmed[s.forwarded]?
  | _ => none

def step (s : Realtime) : Action → Option Realtime
  | .service a => (s.services.step env gateways a).map fun t =>
      { s with
        services := t
        waiting := s.waiting ++ t.store.broadcast.drop s.services.store.broadcast.length }
  | .send payload =>
      if payload ∈ s.waiting then
        some { s with waiting := s.waiting.erase payload, channel := s.channel ++ [payload] }
      else none
  | .forward =>
      (s.services.store.confirmed[s.forwarded]?).map fun payload =>
        { s with forwarded := s.forwarded + 1, channel := s.channel ++ [payload] }
  | .miss => some { s with forwarded := s.forwarded + 1 }
  | .connect userId =>
      some { s with clients := s.clients ++ [⟨userId, s.channel.length, [], false⟩] }
  | .receive client sent =>
      match s.clients[client]? with
      | none => none
      | some c =>
          (c.turn s.channel sent).map fun after => { s with clients := s.clients.set client after }

end Step

/-- The message is about an order of this user. -/
def Owns (env : Externals) (db : Database) (userId message : String) : Prop :=
  ∃ event ∈ env.fromJson message, ∃ o ∈ db.orders, o.id = event.orderId ∧ o.userId = userId

/-- What each client has received is about orders of its user. -/
def Scoped (env : Externals) (s : Realtime) : Prop :=
  ∀ c ∈ s.clients, ∀ message ∈ c.received, Owns env s.services.store.db c.userId message

/-- A message that enters the channel is about an order of every user who is connected. -/
def ScopedStep (env : Externals) (s : Realtime) (a : Action) : Prop :=
  ∀ message ∈ s.enters a, ∀ c ∈ s.clients, c.ended = false →
    Owns env s.services.store.db c.userId message

instance (env : Externals) (db : Database) (userId message : String) :
    Decidable (Owns env db userId message) := by
  unfold Owns
  infer_instance

instance (env : Externals) (s : Realtime) : Decidable (s.Scoped env) := by
  unfold Scoped
  infer_instance

instance (env : Externals) (s : Realtime) : DecidablePred (s.ScopedStep env) := fun _ => by
  unfold ScopedStep
  infer_instance

section Runs
variable {env : Externals} {gateways : List PaymentGateway} {s t : Realtime}
  {messages : List String}

theorem Owns.grows {db db' : Database} (owns : Owns env db userId message)
    (grows : Database.Grows db db') : Owns env db' userId message := by
  obtain ⟨event, decoded, o, member, named, user⟩ := owns
  rcases grows.orders o member with kept | paid
  · exact ⟨event, decoded, o, kept, named, user⟩
  · exact ⟨event, decoded, Database.setPaid o, paid, named, user⟩

/-- What a client has received and what the channel still holds for it is about its own orders. -/
structure Served (env : Externals) (db : Database) (channel : List String) (c : WsClient) :
    Prop where
  received : ∀ message ∈ c.received, Owns env db c.userId message
  coming : c.ended = false → ∀ message ∈ channel.drop c.next, Owns env db c.userId message

theorem Served.grows {db db' : Database} {c : WsClient} (served : Served env db messages c)
    (grows : Database.Grows db db') : Served env db' messages c :=
  ⟨fun message got => (served.received message got).grows grows,
    fun open_ message ahead => (served.coming open_ message ahead).grows grows⟩

theorem Served.send {db : Database} {c : WsClient} (served : Served env db messages c)
    (owns : c.ended = false → Owns env db c.userId payload) :
    Served env db (messages ++ [payload]) c := by
  refine ⟨served.received, fun open_ message ahead => ?_⟩
  rw [List.drop_append] at ahead
  rcases List.mem_append.mp ahead with before | last
  · exact served.coming open_ message before
  · obtain rfl := List.mem_singleton.mp (List.mem_of_mem_drop last)
    exact owns open_

theorem Served.turn {db : Database} {c d : WsClient} (served : Served env db messages c)
    (turned : c.turn messages sent = some d) : Served env db messages d := by
  unfold WsClient.turn at turned
  split at turned
  · contradiction
  · rename_i running
    have open_ : c.ended = false := by simpa using running
    split at turned
    · cases turned
      exact ⟨served.received, fun ended => by contradiction⟩
    · split at turned
      · contradiction
      · rename_i message found
        have rest := List.drop_eq_getElem?_toList_append (l := messages) (i := c.next)
        split at turned
        · cases turned
          rw [found, Option.toList_some, List.singleton_append] at rest
          have own := served.coming open_ message (rest ▸ List.mem_cons_self)
          refine ⟨fun other got => ?_, fun _ other ahead => ?_⟩
          · rcases List.mem_append.mp got with before | now
            · exact served.received other before
            · exact List.mem_singleton.mp now ▸ own
          · exact served.coming open_ other (rest ▸ List.mem_cons_of_mem message ahead)
        · cases turned
          exact ⟨served.received, fun ended => by contradiction⟩

theorem step_served (served : ∀ c ∈ s.clients, Served env s.services.store.db s.channel c)
    (owned : ScopedStep env s a) (stepped : s.step env gateways a = some t) :
    ∀ c ∈ t.clients, Served env t.services.store.db t.channel c := by
  cases a with
  | service action =>
    obtain ⟨u, moved, rfl⟩ := Option.map_eq_some_iff.mp stepped
    intro c member
    exact (served c member).grows (Services.step_moves env gateways moved).extends.db
  | send payload =>
    simp only [step] at stepped
    split at stepped
    · cases stepped
      intro c member
      exact (served c member).send fun open_ => owned payload rfl c member open_
    · contradiction
  | forward =>
    obtain ⟨payload, next, rfl⟩ := Option.map_eq_some_iff.mp stepped
    intro c member
    exact (served c member).send fun open_ => owned payload next c member open_
  | miss =>
    cases stepped
    exact served
  | connect userId =>
    cases stepped
    intro c member
    rcases List.mem_append.mp member with old | new
    · exact served c old
    · rw [List.mem_singleton.mp new]
      exact ⟨by simp, by simp⟩
  | receive client sent =>
    simp only [step] at stepped
    split at stepped
    · contradiction
    · rename_i c found
      obtain ⟨d, turned, rfl⟩ := Option.map_eq_some_iff.mp stepped
      intro e member
      rcases List.mem_or_eq_of_mem_set member with old | rfl
      · exact served e old
      · exact (served c (List.mem_of_getElem? found)).turn turned

/-- In every run in which each message finds only owners of its order connected, each client
has received only messages about its own orders. -/
theorem run_scoped (env : Externals) (gateways : List PaymentGateway) (schedule : List Action)
    (s : Realtime) (meets : Transition.Meets (step env gateways) (ScopedStep env) initial schedule)
    (h : Transition.run (step env gateways) initial schedule = some s) : s.Scoped env := by
  have served : ∀ c ∈ s.clients, Served env s.services.store.db s.channel c :=
    Transition.invariant_of_meets step_served (by simp [initial]) meets h
  exact fun c member => (served c member).received

end Runs

namespace Sample

def env : Externals := PaymentBackend.Sample.env [PaymentBackend.Sample.event]

/-- A client connects as this user, and the webhook of the order of `u1` is received. -/
def heard (userId : String) : List Action :=
  PaymentBackend.Sample.orders.map .service ++
    [.connect userId, .service (.receiveWebhook "Razorpay" PaymentBackend.Sample.event),
      .send (env.toJson PaymentBackend.Sample.event), .receive 0 true]

end Sample

/-- Only the owner is connected, and receives the message. -/
theorem owner_scoped : ∃ s, Transition.run (step Sample.env configuredGateways) initial
      (Sample.heard "u1") = some s ∧ s.Scoped Sample.env ∧
    s.clients.map WsClient.received = [[Sample.env.toJson PaymentBackend.Sample.event]] := by
  have meets : Transition.Meets (step Sample.env configuredGateways) (ScopedStep Sample.env)
      initial (Sample.heard "u1") := by decide +kernel
  have arrives : ∃ s ∈ Transition.run (step Sample.env configuredGateways) initial
      (Sample.heard "u1"), s.clients.map WsClient.received =
        [[Sample.env.toJson PaymentBackend.Sample.event]] := by decide +kernel
  obtain ⟨s, ran, received⟩ := arrives
  exact ⟨s, ran, run_scoped _ _ _ s meets ran, received⟩

/-- `user_id` is passed to `ws_stream` and not looked at there: another user hears of the order. -/
theorem other_hears : ¬ ∀ (env : Externals) (gateways : List PaymentGateway)
    (schedule : List Action) (s : Realtime),
    Transition.run (step env gateways) initial schedule = some s → s.Scoped env := by
  intro claim
  have leaked : ∃ s ∈ Transition.run (step Sample.env configuredGateways) initial
      (Sample.heard "u2"), ¬ s.Scoped Sample.env := by decide +kernel
  obtain ⟨s, ran, leaks⟩ := leaked
  exact leaks (claim _ _ _ s ran)

end Realtime
end PaymentBackend
