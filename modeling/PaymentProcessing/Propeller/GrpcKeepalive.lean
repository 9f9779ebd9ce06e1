import PaymentProcessing.Timer
import PaymentProcessing.Propeller.Handlers

/-! The task of `GrpcPushHandler::channel` in time. A message waits in the stream until a turn
of the loop takes it, and a send waits for a slot of the response channel; what a tick compares
with the idle timeout is the time since the last message was taken. -/
namespace Propeller
open Transition

structure ChannelTask where
  /-- The service with all its handlers; one of them is this task. -/
  server : Server
  now : Nat
  keepaliveTick : Timer
  lastInboundAt : Nat
  /-- What `inbound.message()` will yield, with the times of arrival. -/
  inbound : List (Nat × Inbound)
  /-- Responses in the channel to the response stream. -/
  responses : Nat
  /-- The response stream has been dropped. -/
  hungUp : Bool
  /-- When the requests so far arrived; nothing reads it. -/
  arrived : List Nat

/-- `mpsc::channel(128)` -/
def responseSlots : Nat := 128

def Inbound.isRequest : Inbound → Bool
  | .request _ => true
  | .closed | .error => false

/-- When the requests among these arrived. -/
def requestTimes (inbound : List (Nat × Inbound)) : List Nat :=
  (inbound.filter (·.2.isRequest)).map Prod.fst

namespace ChannelTask

/-- Everything happens at a time. -/
inductive Action where
  /-- The client's stream delivers to the server. -/
  | arrive (now : Nat) (message : Inbound)
  /-- The response stream takes the next response. -/
  | respond (now : Nat)
  | hangUp (now : Nat)
  /-- An await of the task ends. -/
  | turn (now : Nat) (input : Input)
  /-- The rest of the server. -/
  | other (now : Nat) (action : Server.Action)
  deriving DecidableEq, Repr

def Action.time : Action → Nat
  | .arrive now _ | .respond now | .hangUp now | .turn now _ | .other now _ => now

/-- The task is spawned when its acknowledgement is in the channel. -/
def opened (server : Server) (tolerance start : Nat) (early : List (Nat × Inbound)) : ChannelTask where
  server := server
  now := start
  keepaliveTick := .start 1000000000 tolerance start
  lastInboundAt := start
  inbound := early
  responses := 1
  hungUp := false
  arrived := requestTimes early

section Step
variable (keepalive : KeepaliveConfig) (config : ClientConfig) (json : AttributesJson) (sub : Uuid)

/-- Whether an await can end now, and what it does to the clock of the task and its channels. -/
def awaited (s : ChannelTask) (now : Nat) : Input → Option ChannelTask
  | .message message =>
      match s.inbound with
      | [] => none
      | (_, next) :: rest =>
          if next = message then
            some { s with
              inbound := rest
              lastInboundAt := if message.isRequest then now else s.lastInboundAt }
          else none
  | .tick late =>
      (s.keepaliveTick.tick now).bind fun next =>
        if late = decide (now - s.lastInboundAt > nanos keepalive.grpcStreamIdleTimeoutSecs) then
          some { s with keepaliveTick := next }
        else none
  | .sent ok =>
      if s.hungUp then (if ok then none else some s)
      else if ok ∧ s.responses < responseSlots then some { s with responses := s.responses + 1 }
      else none
  | .call _ | .add _ _ | .event | .eventsClosed | .frame _ => some s

/-- Another part of the server. -/
def Elsewhere : Server.Action → Bool
  | .turn other _ => other ≠ sub
  | _ => true

def step (s : ChannelTask) (a : Action) : Option ChannelTask :=
  if a.time < s.now then none
  else
    let s := { s with now := a.time }
    match a with
    | .arrive now message =>
        some { s with
          inbound := s.inbound ++ [(now, message)]
          arrived := s.arrived ++ requestTimes [(now, message)] }
    | .respond _ => if s.responses = 0 then none else some { s with responses := s.responses - 1 }
    | .hangUp _ => some { s with hungUp := true }
    | .turn now input =>
        (s.awaited keepalive now input).bind fun t =>
          (t.server.step config json (.turn sub input)).map fun server => { t with server := server }
    | .other _ action =>
        if Elsewhere sub action then
          (s.server.step config json action).map fun server => { s with server := server }
        else none

/-- The task gives up with this action. -/
def Expires (s : ChannelTask) : Action → Prop
  | .turn now (.tick true) => ∃ t ∈ s.step keepalive config json sub (.turn now (.tick true)),
      ∃ h ∈ t.server.handler sub,
        h.stage = .sending (.deadlineExceeded "channel keepalive timeout") .leave .leave
  | _ => False

/-- When the task gives up, no request has arrived within the idle timeout. -/
def SoundStep (s : ChannelTask) (a : Action) : Prop :=
  s.Expires keepalive config json sub a →
    ∀ time ∈ s.arrived, time + nanos keepalive.grpcStreamIdleTimeoutSecs < a.time

/-- When the task gives up, every request that still waits has waited longer than the timeout. -/
def AttendedStep (s : ChannelTask) (a : Action) : Prop :=
  s.Expires keepalive config json sub a →
    ∀ time ∈ requestTimes s.inbound, time + nanos keepalive.grpcStreamIdleTimeoutSecs < a.time

end Step

section Runs
variable {keepalive : KeepaliveConfig} {config : ClientConfig} {json : AttributesJson} {sub : Uuid}
  {s t : ChannelTask}

/-- Every request that arrived was taken by now, or waits. -/
structure Accounted (s : ChannelTask) : Prop where
  taken : ∀ time ∈ s.arrived, time ≤ s.lastInboundAt ∨ time ∈ requestTimes s.inbound
  waits : ∀ time ∈ requestTimes s.inbound, time ∈ s.arrived ∧ time ≤ s.now
  last : s.lastInboundAt ≤ s.now

theorem Accounted.congr (h : s.Accounted) (later : s.now ≤ t.now)
    (inbound : t.inbound = s.inbound) (arrived : t.arrived = s.arrived)
    (last : t.lastInboundAt = s.lastInboundAt) : t.Accounted := by
  refine ⟨?_, ?_, ?_⟩
  · rw [arrived, inbound, last]
    exact h.taken
  · rw [arrived, inbound]
    exact fun time waiting => ⟨(h.waits time waiting).1, (h.waits time waiting).2.trans later⟩
  · rw [last]
    exact h.last.trans later

theorem mem_requestTimes {inbound : List (Nat × Inbound)} :
    time ∈ requestTimes inbound ↔ ∃ message, (time, message) ∈ inbound ∧ message.isRequest = true := by
  simp [requestTimes]

theorem Accounted.arrive (h : s.Accounted) (message : Inbound) :
    Accounted { s with
      inbound := s.inbound ++ [(s.now, message)]
      arrived := s.arrived ++ requestTimes [(s.now, message)] } := by
  have split : requestTimes (s.inbound ++ [(s.now, message)]) =
      requestTimes s.inbound ++ requestTimes [(s.now, message)] := by
    simp only [requestTimes, List.filter_append, List.map_append]
  refine ⟨?_, ?_, h.last⟩
  · intro time member
    rw [split]
    rcases List.mem_append.mp member with old | new
    · exact (h.taken time old).imp_right (List.mem_append_left _)
    · exact Or.inr (List.mem_append_right _ new)
  · intro time member
    rw [split] at member
    rcases List.mem_append.mp member with old | new
    · exact ⟨List.mem_append_left _ (h.waits time old).1, (h.waits time old).2⟩
    · obtain ⟨_, here, -⟩ := mem_requestTimes.mp new
      cases List.mem_singleton.mp here
      exact ⟨List.mem_append_right _ new, Nat.le_refl _⟩

/-- The loop takes the message that has waited longest. -/
theorem Accounted.take (h : s.Accounted) (first : s.inbound = (time, message) :: rest) :
    Accounted { s with
      inbound := rest
      lastInboundAt := if message.isRequest then s.now else s.lastInboundAt } := by
  have later : ∀ moment ∈ requestTimes rest, moment ∈ requestTimes s.inbound := by
    intro moment member
    obtain ⟨other, inside, request⟩ := mem_requestTimes.mp member
    exact mem_requestTimes.mpr ⟨other, first ▸ List.mem_cons_of_mem _ inside, request⟩
  have last : s.lastInboundAt ≤ if message.isRequest then s.now else s.lastInboundAt := by
    split
    · exact h.last
    · exact Nat.le_refl _
  refine ⟨fun moment member => ?_, fun moment member => h.waits moment (later moment member), ?_⟩
  · rcases h.taken moment member with taken | waiting
    · exact Or.inl (taken.trans last)
    · obtain ⟨other, inside, request⟩ := mem_requestTimes.mp waiting
      rcases List.mem_cons.mp (first ▸ inside) with same | behind
      · cases same
        simp only [request, if_true]
        exact Or.inl (h.waits _ waiting).2
      · exact Or.inr (mem_requestTimes.mpr ⟨other, behind, request⟩)
  · change (if message.isRequest then s.now else s.lastInboundAt) ≤ s.now
    split
    · exact Nat.le_refl _
    · exact h.last

theorem Accounted.awaited (h : s.Accounted) (done : s.awaited keepalive s.now input = some t) :
    t.Accounted := by
  cases input with
  | message message =>
    simp only [ChannelTask.awaited] at done
    split at done
    · contradiction
    · rename_i first
      split at done
      · rename_i same
        cases same
        cases done
        exact h.take first
      · contradiction
  | tick late =>
    obtain ⟨next, -, done⟩ := Option.bind_eq_some_iff.mp done
    split at done
    · cases done
      exact h.congr (Nat.le_refl _) rfl rfl rfl
    · contradiction
  | sent ok =>
    simp only [ChannelTask.awaited] at done
    split at done
    · split at done
      · contradiction
      · cases done
        exact h
    · split at done
      · cases done
        exact h.congr (Nat.le_refl _) rfl rfl rfl
      · contradiction
  | _ =>
    cases done
    exact h

theorem step_accounted (h : s.Accounted) (stepped : s.step keepalive config json sub a = some t) :
    t.Accounted := by
  unfold step at stepped
  split at stepped
  · contradiction
  · rename_i onward
    have now : ({ s with now := a.time } : ChannelTask).Accounted :=
      h.congr (Nat.not_lt.mp onward) rfl rfl rfl
    cases a with
    | arrive time message =>
      cases stepped
      exact now.arrive message
    | respond =>
      dsimp only at stepped
      split at stepped
      · contradiction
      · cases stepped
        exact now.congr (Nat.le_refl _) rfl rfl rfl
    | hangUp =>
      cases stepped
      exact now.congr (Nat.le_refl _) rfl rfl rfl
    | turn time input =>
      obtain ⟨u, done, stepped⟩ := Option.bind_eq_some_iff.mp stepped
      obtain ⟨server, -, rfl⟩ := Option.map_eq_some_iff.mp stepped
      exact (now.awaited done).congr (Nat.le_refl _) rfl rfl rfl
    | other time action =>
      dsimp only at stepped
      split at stepped
      · obtain ⟨server, -, rfl⟩ := Option.map_eq_some_iff.mp stepped
        exact now.congr (Nat.le_refl _) rfl rfl rfl
      · contradiction

/-- The last message was taken longer ago than the timeout. -/
theorem Expires.late (expires : s.Expires keepalive config json sub a) :
    s.lastInboundAt + nanos keepalive.grpcStreamIdleTimeoutSecs < a.time := by
  unfold Expires at expires
  split at expires
  · rename_i now
    obtain ⟨t, stepped, -⟩ := expires
    unfold step at stepped
    split at stepped
    · contradiction
    · obtain ⟨u, done, -⟩ := Option.bind_eq_some_iff.mp stepped
      obtain ⟨next, -, done⟩ := Option.bind_eq_some_iff.mp done
      split at done
      · rename_i verdict
        have beyond := of_decide_eq_true verdict.symm
        change nanos keepalive.grpcStreamIdleTimeoutSecs < now - s.lastInboundAt at beyond
        change s.lastInboundAt + nanos keepalive.grpcStreamIdleTimeoutSecs < now
        omega
      · contradiction
  · contradiction

theorem sound_iff_attended (h : s.Accounted) (a : Action) :
    s.SoundStep keepalive config json sub a ↔ s.AttendedStep keepalive config json sub a := by
  constructor
  · intro sound expires time waiting
    exact sound expires time (h.waits time waiting).1
  · intro attended expires time member
    have late := expires.late
    rcases h.taken time member with taken | waiting
    · omega
    · exact attended expires time waiting

theorem opened_accounted (server : Server) (tolerance : Nat)
    (before : ∀ entry ∈ early, entry.1 ≤ start) : (opened server tolerance start early).Accounted := by
  refine ⟨fun time member => Or.inr member, fun time member => ⟨member, ?_⟩, Nat.le_refl _⟩
  obtain ⟨message, inside, -⟩ := mem_requestTimes.mp member
  exact before _ inside

/-- In a run, a timeout always means that no request arrived within it exactly when the task
never gives up with a request waiting that arrived within it. -/
theorem run_sound_iff (keepalive : KeepaliveConfig) (config : ClientConfig) (json : AttributesJson)
    (sub : Uuid) (server : Server) (tolerance start : Nat) (early : List (Nat × Inbound))
    (schedule : List Action) (before : ∀ entry ∈ early, entry.1 ≤ start) :
    Meets (step keepalive config json sub) (SoundStep keepalive config json sub)
        (opened server tolerance start early) schedule ↔
      Meets (step keepalive config json sub) (AttendedStep keepalive config json sub)
        (opened server tolerance start early) schedule := by
  have initial := opened_accounted server tolerance before
  constructor
  · exact Meets.of_invariant (fun h _ stepped => step_accounted h stepped)
      (fun h sound => (sound_iff_attended h _).mp sound) initial
  · exact Meets.of_invariant (fun h _ stepped => step_accounted h stepped)
      (fun h attended => (sound_iff_attended h _).mpr attended) initial

end Runs

instance (keepalive : KeepaliveConfig) (config : ClientConfig) (json : AttributesJson) (sub : Uuid)
    (s : ChannelTask) : DecidablePred (s.Expires keepalive config json sub) := fun a => by
  apply Action.casesOn
    (motive := fun a => Decidable (s.Expires keepalive config json sub a)) a
  case turn =>
    intro now input
    apply Input.casesOn
      (motive := fun input => Decidable (s.Expires keepalive config json sub (.turn now input))) input
    case tick => rintro (_ | _) <;> (dsimp only [Expires]; infer_instance)
    all_goals intros; dsimp only [Expires]; infer_instance
  all_goals intros; dsimp only [Expires]; infer_instance

instance (keepalive : KeepaliveConfig) (config : ClientConfig) (json : AttributesJson) (sub : Uuid)
    (s : ChannelTask) : DecidablePred (s.SoundStep keepalive config json sub) := fun _ => by
  unfold SoundStep
  infer_instance

instance (keepalive : KeepaliveConfig) (config : ClientConfig) (json : AttributesJson) (sub : Uuid)
    (s : ChannelTask) : DecidablePred (s.AttendedStep keepalive config json sub) := fun _ => by
  unfold AttendedStep
  infer_instance

namespace Sample

/-- A client connects over gRPC, and the acknowledgement is in the channel. -/
def connected : List Server.Action :=
  .accept .grpc 0 "acme" "alice" none ::
    (List.replicate 3 (.turn 0 (.call true)) ++ [.turn 0 (.sent true)])

def request : Inbound := .request (some (.topicUnsubscriptionRequest "news"))

/-- The client does not read its responses. The last acknowledgement waits for a slot, and a
message that arrives after 20 seconds waits behind it. -/
def stalled : List Action :=
  List.replicate 128 (.arrive 0 request) ++
    (List.replicate 127 [.turn 0 (.message request), .turn 0 (.sent true)]).flatten ++
    [.turn 0 (.message request), .arrive 20000000000 (.request (some .channelEvent)),
      .respond 50000000000, .turn 50000000000 (.sent true), .turn 50000000000 (.tick true)]

/-- The client sends nothing. -/
def silent : List Action := [.turn 0 (.tick false), .turn 41000000000 (.tick true)]

end Sample

/-- The task gives up on a client that sends nothing. -/
theorem silent_sound : ∃ server, run (Server.step AppConfig.shipped.client plainJson) .initial
      Sample.connected = some server ∧
    (run (step AppConfig.shipped.keepalive AppConfig.shipped.client plainJson 0)
      (opened server 5000000 0 []) Sample.silent).isSome = true ∧
    Meets (step AppConfig.shipped.keepalive AppConfig.shipped.client plainJson 0)
      (SoundStep AppConfig.shipped.keepalive AppConfig.shipped.client plainJson 0)
      (opened server 5000000 0 []) Sample.silent := by
  have runs : ∃ server ∈ run (Server.step AppConfig.shipped.client plainJson) .initial
      Sample.connected, (run (step AppConfig.shipped.keepalive AppConfig.shipped.client plainJson 0)
        (opened server 5000000 0 []) Sample.silent).isSome = true ∧
      Meets (step AppConfig.shipped.keepalive AppConfig.shipped.client plainJson 0)
        (AttendedStep AppConfig.shipped.keepalive AppConfig.shipped.client plainJson 0)
        (opened server 5000000 0 []) Sample.silent := by decide +kernel
  obtain ⟨server, connected, ran, attended⟩ := runs
  exact ⟨server, connected, ran,
    (run_sound_iff _ _ _ _ server 5000000 0 [] Sample.silent (by simp)).mpr attended⟩

/-- A message arrives 30 seconds before the task gives up under the shipped timeout of 40. -/
theorem stalled_unsound : ¬ ∀ (config : AppConfig) (json : AttributesJson) (sub : Uuid)
    (opening : List Server.Action) (server : Server) (tolerance start : Nat)
    (early : List (Nat × Inbound)) (schedule : List Action),
    config.validate = .ok () →
    run (Server.step config.client json) .initial opening = some server →
    (∀ entry ∈ early, entry.1 ≤ start) →
    (run (step config.keepalive config.client json sub) (opened server tolerance start early)
      schedule).isSome = true →
    Meets (step config.keepalive config.client json sub)
      (SoundStep config.keepalive config.client json sub) (opened server tolerance start early)
      schedule := by
  intro claim
  have fails : ∃ server ∈ run (Server.step AppConfig.shipped.client plainJson) .initial
      Sample.connected, (run (step AppConfig.shipped.keepalive AppConfig.shipped.client plainJson 0)
        (opened server 5000000 0 []) Sample.stalled).isSome = true ∧
      ¬ Meets (step AppConfig.shipped.keepalive AppConfig.shipped.client plainJson 0)
        (SoundStep AppConfig.shipped.keepalive AppConfig.shipped.client plainJson 0)
        (opened server 5000000 0 []) Sample.stalled := by decide +kernel
  obtain ⟨server, connected, ran, unsound⟩ := fails
  exact unsound (claim AppConfig.shipped plainJson 0 _ server 5000000 0 [] _ rfl connected (by simp)
    ran)

end ChannelTask
end Propeller
