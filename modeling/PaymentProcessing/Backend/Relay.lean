import PaymentProcessing.Backend.Confirmations
import PaymentProcessing.Backend.Realtime

/-! What a client of the WebSocket endpoint gets to see of the channel: all that is sent into it
from its connection on, in that order, unless the client falls behind or its socket fails. -/
namespace PaymentBackend
open Transition

theorem Executes.broadcast (h : Executes env s handling t answer) : t.broadcast = s.broadcast := by
  cases h <;> rfl

theorem Settles.broadcast (h : Settles s reconciling t next) : t.broadcast = s.broadcast := by
  cases h <;> rfl

theorem ApiEffect.broadcast (h : ApiEffect s t) : t.broadcast = s.broadcast := by
  cases h <;> rfl

/-- What was broadcast is never taken back. -/
theorem Services.Moves.broadcast {s t : Services} (h : Services.Moves env s a t) :
    s.store.broadcast <+: t.store.broadcast := by
  cases h with
  | webhook => exact List.prefix_append _ _
  | request a u api effect => exact effect.broadcast ▸ List.prefix_refl _
  | statement v entry handling u answer current executed =>
    rw [proceed_store]
    exact executed.broadcast ▸ List.prefix_refl _
  | failed v applied entry handling u current outcome =>
    rcases outcome with ⟨rfl, -⟩ | ⟨-, answer, executed⟩
    · exact List.prefix_refl _
    · exact executed.broadcast ▸ List.prefix_refl _
  | reconcile v reconciling u next current settled =>
    exact settled.broadcast ▸ List.prefix_refl _
  | abandoned v applied reconciling u current outcome =>
    rcases outcome with rfl | ⟨-, next, settled⟩
    · exact List.prefix_refl _
    · exact settled.broadcast ▸ List.prefix_refl _
  | take => simp
  | _ => exact List.prefix_refl _

namespace Realtime
variable {env : Externals} {gateways : List PaymentGateway} {s t : Realtime} {c d : WsClient}
  {messages : List String}

/-- What was sent since the client joined is what it received and what is still ahead of it. -/
structure Following (channel : List String) (joined : Nat) (c : WsClient) : Prop where
  since : joined ≤ c.next
  place : c.next ≤ channel.length
  received : channel.drop joined = c.received ++ channel.drop c.next

theorem following_joined (userId : String) (messages : List String) :
    Following messages messages.length ⟨userId, messages.length, [], false⟩ :=
  ⟨Nat.le_refl _, Nat.le_refl _, rfl⟩

theorem Following.send (following : Following messages joined c) (payload : String) :
    Following (messages ++ [payload]) joined c := by
  have place := following.place
  refine ⟨following.since, ?_, ?_⟩
  · rw [List.length_append]
    omega
  · rw [List.drop_append_of_le_length (following.since.trans place),
      List.drop_append_of_le_length place, following.received, List.append_assoc]

/-- A turn that sends takes the next message; any other turn is the last. -/
theorem turn_cases (turned : c.turn messages sent = some d) :
    d = { c with ended := true } ∨
      ∃ message, messages.drop c.next = message :: messages.drop (c.next + 1) ∧
        d = { c with next := c.next + 1, received := c.received ++ [message] } := by
  unfold WsClient.turn at turned
  split at turned
  · contradiction
  · split at turned
    · cases turned
      exact Or.inl rfl
    · split at turned
      · contradiction
      · rename_i message found
        split at turned
        · cases turned
          refine Or.inr ⟨message, ?_, rfl⟩
          rw [List.drop_eq_getElem?_toList_append, found]
          rfl
        · cases turned
          exact Or.inl rfl

theorem Following.turn (following : Following messages joined c)
    (turned : c.turn messages sent = some d) : Following messages joined d := by
  rcases turn_cases turned with rfl | ⟨message, next, rfl⟩
  · exact ⟨following.since, following.place, following.received⟩
  · refine ⟨Nat.le_succ_of_le following.since, ?_, ?_⟩
    · have ahead := congrArg List.length next
      rw [List.length_drop, List.length_cons] at ahead
      change c.next + 1 ≤ messages.length
      omega
    · rw [following.received, next]
      simp

/-- The client with this number is one that joined then. -/
def Follows (s : Realtime) (client joined : Nat) (userId : String) : Prop :=
  ∃ c, s.clients[client]? = some c ∧ c.userId = userId ∧ Following s.channel joined c

theorem connect_follows (h : s.step env gateways (.connect userId) = some t) :
    t.Follows s.clients.length s.channel.length userId := by
  cases h
  exact ⟨_, by simp, rfl, following_joined userId s.channel⟩

theorem Follows.send (follows : s.Follows client joined userId)
    (channel : t.channel = s.channel ++ [payload]) (clients : t.clients = s.clients) :
    t.Follows client joined userId := by
  obtain ⟨c, found, user, following⟩ := follows
  exact ⟨c, clients ▸ found, user, channel ▸ following.send payload⟩

theorem step_follows (follows : s.Follows client joined userId)
    (h : s.step env gateways a = some t) : t.Follows client joined userId := by
  cases a with
  | service action =>
    obtain ⟨u, -, rfl⟩ := Option.map_eq_some_iff.mp h
    exact follows
  | send payload =>
    simp only [step] at h
    split at h
    · cases h
      exact follows.send rfl rfl
    · contradiction
  | forward =>
    obtain ⟨payload, -, rfl⟩ := Option.map_eq_some_iff.mp h
    exact follows.send rfl rfl
  | miss =>
    cases h
    exact follows
  | connect other =>
    cases h
    obtain ⟨c, found, user, following⟩ := follows
    have present := (List.getElem?_eq_some_iff.mp found).1
    exact ⟨c, by rwa [List.getElem?_append_left present], user, following⟩
  | receive other sent =>
    simp only [step] at h
    split at h
    · contradiction
    · rename_i d taken
      obtain ⟨e, turned, rfl⟩ := Option.map_eq_some_iff.mp h
      obtain ⟨c, found, user, following⟩ := follows
      by_cases own : other = client
      · subst own
        cases taken.symm.trans found
        have present := (List.getElem?_eq_some_iff.mp found).1
        refine ⟨e, by simp [present], ?_, following.turn turned⟩
        rcases turn_cases turned with rfl | ⟨message, -, rfl⟩
        · exact user
        · exact user
      · exact ⟨c, by rwa [List.getElem?_set_ne own], user, following⟩

/-- No message is in the channel more often than webhooks sent it and the forwarder saw it. -/
def Sourced (s : Realtime) : Prop := ∀ message,
  s.channel.count message + s.waiting.count message ≤
    s.services.store.broadcast.count message + (s.services.store.confirmed.take s.forwarded).count message

theorem count_take_le_append (xs ys : List String) (n : Nat) (message : String) :
    (xs.take n).count message ≤ ((xs ++ ys).take n).count message := by
  rw [List.take_append, List.count_append]
  exact Nat.le_add_right _ _

theorem count_take_succ (xs : List String) (n : Nat) (message : String) :
    (xs.take (n + 1)).count message = (xs.take n).count message + xs[n]?.toList.count message := by
  rw [List.take_add_one, List.count_append]

theorem step_sourced (sourced : s.Sourced) (h : s.step env gateways a = some t) : t.Sourced := by
  intro message
  have before := sourced message
  cases a with
  | service action =>
    obtain ⟨u, moved, rfl⟩ := Option.map_eq_some_iff.mp h
    have moves := Services.step_moves env gateways moved
    obtain ⟨more, broadcast⟩ := moves.broadcast
    have seen : (s.services.store.confirmed.take s.forwarded).count message ≤
        (u.store.confirmed.take s.forwarded).count message := by
      rcases moves.confirmed with same | ⟨-, payload, -, -, -, -, same⟩
      · rw [same]
      · rw [same]
        exact count_take_le_append _ _ _ _
    change s.channel.count message +
      (s.waiting ++ u.store.broadcast.drop s.services.store.broadcast.length).count message ≤
      u.store.broadcast.count message + (u.store.confirmed.take s.forwarded).count message
    rw [← broadcast, List.drop_left, List.count_append, List.count_append]
    omega
  | send payload =>
    simp only [step] at h
    split at h
    · rename_i member
      cases h
      have waiting := (List.perm_cons_erase member).count_eq message
      change (s.channel ++ [payload]).count message + (s.waiting.erase payload).count message ≤ _
      rw [List.count_append]
      rw [waiting, List.count_cons] at before
      rw [List.count_singleton]
      dsimp only
      omega
    · contradiction
  | forward =>
    obtain ⟨payload, next, rfl⟩ := Option.map_eq_some_iff.mp h
    change (s.channel ++ [payload]).count message + s.waiting.count message ≤
      s.services.store.broadcast.count message +
        (s.services.store.confirmed.take (s.forwarded + 1)).count message
    rw [count_take_succ, next, Option.toList_some, List.count_append]
    omega
  | miss =>
    cases h
    change s.channel.count message + s.waiting.count message ≤
      s.services.store.broadcast.count message +
        (s.services.store.confirmed.take (s.forwarded + 1)).count message
    rw [count_take_succ]
    omega
  | connect userId =>
    cases h
    exact before
  | receive client sent =>
    simp only [step] at h
    split at h
    · contradiction
    · obtain ⟨d, -, rfl⟩ := Option.map_eq_some_iff.mp h
      exact before

theorem run_sourced (h : run (step env gateways) initial schedule = some s) : s.Sourced :=
  invariant step_sourced (fun _ => by simp [initial]) h

/-- A client that is not too far behind gets all that is ahead of it by its own turns. -/
theorem catches_up (n : Nat) (found : s.clients[client]? = some c) (open_ : c.ended = false)
    (backlog : s.channel.length - c.next = n) (near : n ≤ broadcastCapacity) :
    ∃ u d, run (step env gateways) s (List.replicate n (.receive client true)) = some u ∧
      u.clients[client]? = some d ∧ d.received = c.received ++ s.channel.drop c.next := by
  induction n generalizing s c with
  | zero =>
    refine ⟨s, c, rfl, found, ?_⟩
    rw [List.drop_eq_nil_of_le (Nat.le_of_sub_eq_zero backlog), List.append_nil]
  | succ n ih =>
    have ahead : c.next < s.channel.length := by omega
    have fits : ¬ broadcastCapacity < s.channel.length - c.next := by omega
    have present := (List.getElem?_eq_some_iff.mp found).1
    let after : WsClient :=
      { c with next := c.next + 1, received := c.received ++ [s.channel[c.next]] }
    have turned : c.turn s.channel true = some after := by
      simp [WsClient.turn, open_, fits, ahead, after]
    have stepped : s.step env gateways (.receive client true) =
        some { s with clients := s.clients.set client after } := by
      simp [step, found, turned]
    have shorter : s.channel.length - (c.next + 1) = n := by omega
    obtain ⟨u, d, reached, found', received⟩ :=
      ih (s := { s with clients := s.clients.set client after }) (c := after) (by simp [present])
        open_ shorter (Nat.le_of_succ_le near)
    refine ⟨u, d, run_cons_iff.mpr ⟨_, stepped, reached⟩, found', ?_⟩
    rw [received, List.drop_eq_getElem_cons ahead]
    simp [after]

/-- In every run, a client that connects has received the messages sent into the channel since, each
once and in order, up to its place there, and none more often than webhooks and confirmations
carried it. The rest is ahead of it: unless it has ended or is more than 1024 messages behind, it
gets them by its own turns. -/
theorem run_follows (env : Externals) (gateways : List PaymentGateway) (past later : List Action)
    (userId : String) (s t : Realtime) (reached : run (step env gateways) initial past = some s)
    (h : run (step env gateways) s (.connect userId :: later) = some t) :
    ∃ c, t.clients[s.clients.length]? = some c ∧ c.userId = userId ∧
      t.channel.drop s.channel.length = c.received ++ t.channel.drop c.next ∧
      (∀ message, c.received.count message ≤ t.services.store.broadcast.count message +
        t.services.store.confirmed.count message) ∧
      (c.ended = false → t.channel.length - c.next ≤ broadcastCapacity →
        ∃ u d, run (step env gateways) t (List.replicate (t.channel.length - c.next)
            (.receive s.clients.length true)) = some u ∧
          u.clients[s.clients.length]? = some d ∧ d.received = t.channel.drop s.channel.length) := by
  have sourced : t.Sourced := run_sourced (run_append_iff.mpr ⟨s, reached, h⟩)
  obtain ⟨u, connected, h⟩ := run_cons_iff.mp h
  obtain ⟨c, found, user, following⟩ : t.Follows s.clients.length s.channel.length userId :=
    invariant (I := fun v => v.Follows s.clients.length s.channel.length userId)
      step_follows (connect_follows connected) h
  refine ⟨c, found, user, following.received, fun message => ?_, fun open_ near => ?_⟩
  · have inChannel : c.received.count message ≤ t.channel.count message := by
      have whole : (t.channel.drop s.channel.length).count message ≤ t.channel.count message :=
        (List.drop_sublist _ _).count_le message
      rw [following.received, List.count_append] at whole
      omega
    have confirmed : (t.services.store.confirmed.take t.forwarded).count message ≤
        t.services.store.confirmed.count message := (List.take_sublist _ _).count_le message
    have sent := sourced message
    omega
  · rw [following.received]
    exact catches_up _ found open_ rfl near

/-- A client connects after a first webhook and before a second one. -/
def Sample.joining : List Action :=
  PaymentBackend.Sample.orders.map .service ++
    [.service (.receiveWebhook "Razorpay" PaymentBackend.Sample.event),
      .send (Sample.env.toJson PaymentBackend.Sample.event)]

def Sample.joined : List Action :=
  [.service (.receiveWebhook "Razorpay" PaymentBackend.Sample.event),
    .send (Sample.env.toJson PaymentBackend.Sample.event), .receive 0 true]

theorem joining_follows : ∃ s t,
    run (step Sample.env configuredGateways) initial Sample.joining = some s ∧
    run (step Sample.env configuredGateways) s (.connect "u1" :: Sample.joined) = some t ∧
    ∃ c, t.clients[s.clients.length]? = some c ∧ c.userId = "u1" ∧
      t.channel.drop s.channel.length = c.received ++ t.channel.drop c.next := by
  have runs : ∃ s ∈ run (step Sample.env configuredGateways) initial Sample.joining,
      (run (step Sample.env configuredGateways) s (.connect "u1" :: Sample.joined)).isSome = true := by
    decide +kernel
  obtain ⟨s, reached, onward⟩ := runs
  obtain ⟨t, h⟩ := Option.isSome_iff_exists.mp onward
  obtain ⟨c, found, user, received, -⟩ := run_follows _ _ _ _ _ s t reached h
  exact ⟨s, t, reached, h, c, found, user, received⟩

end Realtime
end PaymentBackend
