import PaymentProcessing.Watchdog
import PaymentProcessing.Propeller.GrpcKeepalive
import PaymentProcessing.Propeller.Keepalive
import PaymentProcessing.Propeller.Shards

/-! A client that has fallen silent is given up. The timers of both front ends are watchdogs: how
long a loop goes on without a sign of life depends on the timeout, the period of its tick and how
late a tick is taken. -/
namespace Propeller
open Transition

namespace Session
variable {config : KeepaliveConfig} {s t : Session} {turn : Turn}

/-- The pongs of the client as signs of life, checked at each tick of the ping interval. -/
def watchdog (s : Session) : Watchdog := ⟨s.pingInterval, s.lastPongAt⟩

/-- The loop takes no branch much later than the tick is due. -/
def Prompt (lateness : Nat) (s : Session) (turn : Turn) : Prop :=
  s.ended = none → turn.taken ≤ s.pingInterval.deadline + lateness

/-- The last pong was not longer ago than this. -/
def Heard (within : Nat) (s : Session) (turn : Turn) : Prop :=
  s.ended = none → turn.taken ≤ s.lastPongAt + within

instance (lateness : Nat) (s : Session) : DecidablePred (s.Prompt lateness) := fun _ => by
  unfold Prompt
  infer_instance

structure Watched (config : KeepaliveConfig) (s : Session) : Prop where
  alert : s.watchdog.Alert (nanos config.wsPongTimeoutSecs)
  period : s.pingInterval.period = nanos config.wsPingIntervalSecs
  past : s.lastPongAt ≤ s.free

theorem opened_watched (config : KeepaliveConfig) (tolerance : Nat) (order : start ≤ ready) :
    (opened config tolerance start ready).Watched config :=
  ⟨Watchdog.start_alert _ _ _ _, rfl, order⟩

/-- The loop goes on with a pong, and whatever else it does takes no notice of the watchdog. -/
theorem Watched.sign (watched : s.Watched config) (later : s.lastPongAt ≤ now)
    (timer : t.pingInterval = s.pingInterval) (last : t.lastPongAt = now) (free : now ≤ t.free) :
    t.Watched config := by
  have same : t.watchdog = { s.watchdog with last := now } := by rw [watchdog, timer, last]; rfl
  exact ⟨same ▸ watched.alert.sign later, timer ▸ watched.period, last ▸ free⟩

theorem Turns.watched (h : Turns config s turn t) (before : s.Watched config)
    (since : s.free ≤ turn.taken) (until_ : turn.taken ≤ turn.finished) (going : t.ended = none) :
    t.Watched config := by
  have past := before.past
  cases h with
  | ignored => exact ⟨before.alert, before.period, past.trans since⟩
  | pong => exact before.sign (past.trans since) rfl rfl (Nat.le_refl _)
  | pinged payload =>
    exact before.sign (past.trans (since.trans until_)) rfl rfl (Nat.le_refl _)
  | delivered event => exact ⟨before.alert, before.period, past.trans (since.trans until_)⟩
  | left u ending other => cases going
  | kept next branch ticked passes =>
    refine ⟨?_, (Timer.tick_period ticked).trans before.period, past.trans (since.trans until_)⟩
    exact Watchdog.alert_of_check (w := s.watchdog) ticked passes
  | expired next branch ticked late => cases going

/-- As long as the loop takes no branch later than `lateness` after its tick is due, it goes on
after a pong for the pong timeout, a ping interval and that lateness at most. -/
theorem run_silence_bounded (config : KeepaliveConfig) (tolerance lateness start ready : Nat)
    (turns : List Turn) (order : start ≤ ready)
    (prompt : Meets (step config) (Prompt lateness) (opened config tolerance start ready) turns) :
    Meets (step config)
      (Heard (nanos config.wsPongTimeoutSecs + nanos config.wsPingIntervalSecs + lateness))
      (opened config tolerance start ready) turns := by
  refine Meets.of_invariant (I := fun s => s.ended = none → s.Watched config) ?_ ?_
    (fun _ => opened_watched config tolerance order) prompt
  · intro s turn t before _ stepped going
    obtain ⟨running, since, until_, turned⟩ := step_turns stepped
    exact turned.watched (before running) since until_ going
  · intro s turn before prompt going
    have watched := before going
    have noticed := watched.alert.noticed (prompt going)
    rwa [show s.watchdog.timer.period = nanos config.wsPingIntervalSecs from watched.period] at noticed

/-- A browser answers its first ping and then falls silent. -/
def quiet : List Turn := greeting ++ [⟨30000000000, 30000000000, true, .tick⟩]

theorem quiet_bounded :
    (run (step AppConfig.shipped.keepalive) (opened AppConfig.shipped.keepalive 5000000 0 0)
      quiet).map ended = some (some .keepaliveTimeout) ∧
    Meets (step AppConfig.shipped.keepalive)
      (Heard (nanos AppConfig.shipped.keepalive.wsPongTimeoutSecs +
        nanos AppConfig.shipped.keepalive.wsPingIntervalSecs + 0))
      (opened AppConfig.shipped.keepalive 5000000 0 0) quiet :=
  ⟨by decide, run_silence_bounded _ _ _ 0 0 quiet (Nat.le_refl 0) (by decide)⟩

end Session

/-- The handler has left its loop for good. -/
def Stage.parting : Stage → Bool
  | .sending _ .leave .leave | .unsubscribing | .ended => true
  | _ => false

theorem Handler.Moves.parting {config : ClientConfig} {json : AttributesJson} {s t : Service}
    {h h' : Handler} (moves : h.Moves config json s input t h') (parted : h.stage.parting = true) :
    h'.stage.parting = true := by
  have waits (waiting : h.stage = .waiting) : h'.stage.parting = true := by
    rw [waiting] at parted
    cases parted
  cases moves with
  | called ok t c calling =>
    unfold Handler.called
    split
    · rename_i stage phase
      rw [stage] at parted
      cases parted
    · rfl
    · rfl
    · exact parted
  | sent ok output sent failed stage loops =>
    rw [stage] at parted
    unfold Stage.parting at parted
    split at parted
    · rename_i same
      cases same
      simp at loops
    · contradiction
    · contradiction
    · contradiction
  | sentLast | left => rfl
  | quit => rfl
  | idle _ waiting => exact waits waiting
  | talks _ _ _ _ waiting => exact waits waiting
  | refused _ _ _ _ waiting => exact waits waiting
  | requested _ _ _ _ _ waiting => exact waits waiting
  | withdrawn _ _ _ _ _ _ waiting => exact waits waiting
  | adding ok text topic task a t stage => exact parted
  | added ok text topic task a t result stage =>
    rw [stage] at parted
    cases parted

namespace Server
variable {config : ClientConfig} {json : AttributesJson} {s t : Server}

/-- The handler of this subscription has left its loop for good. -/
def Parted (sub : Uuid) (s : Server) : Prop := ∃ h, s.handler sub = some h ∧ h.stage.parting = true

theorem step_parted (parted : s.Parted sub) (h : s.step config json a = some t) : t.Parted sub := by
  obtain ⟨k, found, left⟩ := parted
  cases step_moves h with
  | refused => exact ⟨k, found, left⟩
  | background => exact ⟨k, found, left⟩
  | accepted =>
    refine ⟨k, ?_, left⟩
    rw [handler, List.find?_append, show s.handlers.find? (·.sub = sub) = some k from found]
    rfl
  | turn x input u x' present moves =>
    refine ⟨if k.sub == x.sub then x' else k, ?_, ?_⟩
    · rw [handler_turn moves.sub, found, Option.map_some]
    · split
      · rename_i own
        have same : x.sub = sub := by
          obtain ⟨-, named⟩ := handler_mem found
          exact (eq_of_beq own).symm.trans named
        cases found.symm.trans (same ▸ present)
        exact moves.parting left
      · exact left

end Server

namespace ChannelTask
variable {keepalive : KeepaliveConfig} {config : ClientConfig} {json : AttributesJson} {sub : Uuid}
  {s t : ChannelTask}

/-- The requests of the client as signs of life, checked at each tick. -/
def watchdog (s : ChannelTask) : Watchdog := ⟨s.keepaliveTick, s.lastInboundAt⟩

/-- The task is at the `select!` of its loop. -/
def AtLoop (sub : Uuid) (s : ChannelTask) : Prop :=
  ∃ h ∈ s.server.handler sub, h.stage = .waiting

instance (sub : Uuid) : DecidablePred (AtLoop sub) := fun _ => by
  unfold AtLoop
  infer_instance

/-- The loop takes no branch much later than the tick is due. -/
def Prompt (sub : Uuid) (lateness : Nat) (s : ChannelTask) : Action → Prop
  | .turn now _ => s.AtLoop sub → now ≤ s.keepaliveTick.deadline + lateness
  | _ => True

/-- The last request was not taken longer ago than this. -/
def Heard (sub : Uuid) (within : Nat) (s : ChannelTask) : Action → Prop
  | .turn now _ => s.AtLoop sub → now ≤ s.lastInboundAt + within
  | _ => True

structure Watched (keepalive : KeepaliveConfig) (sub : Uuid) (s : ChannelTask) : Prop where
  alert : s.watchdog.Alert (nanos keepalive.grpcStreamIdleTimeoutSecs) ∨ s.server.Parted sub
  period : s.keepaliveTick.period = 1000000000
  past : s.lastInboundAt ≤ s.now

theorem opened_watched (keepalive : KeepaliveConfig) (sub : Uuid) (server : Server)
    (tolerance start : Nat) (early : List (Nat × Inbound)) :
    (opened server tolerance start early).Watched keepalive sub :=
  ⟨Or.inl (Watchdog.start_alert _ _ _ _), rfl, Nat.le_refl _⟩

theorem Watched.congr (watched : s.Watched keepalive sub) (watchdog : t.watchdog = s.watchdog)
    (server : s.server.Parted sub → t.server.Parted sub) (later : s.now ≤ t.now) :
    t.Watched keepalive sub := by
  obtain ⟨timer, last⟩ := Watchdog.mk.inj watchdog
  exact ⟨watched.alert.imp (fun alert => watchdog ▸ alert) server, timer ▸ watched.period,
    last ▸ watched.past.trans later⟩

/-- A tick that finds the client in time is followed by another one; the other one is the last. -/
theorem ticked_watched (watched : s.Watched keepalive sub)
    (ticked : s.keepaliveTick.tick s.now = some next)
    (verdict : late = decide (s.now - s.lastInboundAt > nanos keepalive.grpcStreamIdleTimeoutSecs))
    {after : Server} (stepped : s.server.step config json (.turn sub (.tick late)) = some after) :
    Watched keepalive sub { s with keepaliveTick := next, server := after } := by
  refine ⟨?_, (Timer.tick_period ticked).trans watched.period, watched.past⟩
  cases late with
  | false =>
    have passes := of_decide_eq_false verdict.symm
    exact Or.inl (Watchdog.alert_of_check (w := s.watchdog) ticked (Nat.not_lt.mp passes))
  | true =>
    obtain ⟨h, found, goes⟩ := Option.bind_eq_some_iff.mp stepped
    obtain ⟨⟨u, h'⟩, moved, rfl⟩ := Option.map_eq_some_iff.mp goes
    obtain ⟨-, rfl⟩ := Server.handler_mem found
    refine Or.inr ⟨h', Server.handler_turned found (Handler.step_moves moved).sub, ?_⟩
    simp only [Handler.step] at moved
    split at moved
    · cases moved
      cases frontend : h.frontend <;> simp [Handler.ticked, frontend, Handler.enter, Stage.parting]
    · contradiction

/-- A message that the loop takes is a sign of life, unless it ends the stream. -/
theorem awaited_watched (watched : s.Watched keepalive sub)
    (done : s.awaited keepalive s.now input = some t)
    {after : Server} (stepped : t.server.step config json (.turn sub input) = some after) :
    Watched keepalive sub { t with server := after } := by
  cases input with
  | message message =>
    simp only [awaited] at done
    split at done
    · contradiction
    · split at done
      · cases done
        have goes (parted : s.server.Parted sub) : after.Parted sub := Server.step_parted parted stepped
        cases message with
        | request request =>
          refine ⟨?_, watched.period, Nat.le_refl _⟩
          exact watched.alert.imp (fun alert => alert.sign watched.past) goes
        | closed | error => exact watched.congr rfl goes (Nat.le_refl _)
      · contradiction
  | tick late =>
    obtain ⟨next, ticked, done⟩ := Option.bind_eq_some_iff.mp done
    split at done
    · rename_i verdict
      cases done
      exact ticked_watched watched ticked verdict stepped
    · contradiction
  | sent ok =>
    simp only [awaited] at done
    split at done
    · split at done
      · contradiction
      · cases done
        exact watched.congr rfl (fun parted => Server.step_parted parted stepped) (Nat.le_refl _)
    · split at done
      · cases done
        exact watched.congr rfl (fun parted => Server.step_parted parted stepped) (Nat.le_refl _)
      · contradiction
  | _ =>
    cases done
    exact watched.congr rfl (fun parted => Server.step_parted parted stepped) (Nat.le_refl _)

theorem step_watched (watched : s.Watched keepalive sub)
    (stepped : s.step keepalive config json sub a = some t) : t.Watched keepalive sub := by
  unfold step at stepped
  split at stepped
  · contradiction
  · rename_i onward
    have later : s.now ≤ a.time := Nat.not_lt.mp onward
    have now : ({ s with now := a.time } : ChannelTask).Watched keepalive sub :=
      watched.congr rfl id later
    cases a with
    | arrive time message =>
      cases stepped
      exact now.congr rfl id (Nat.le_refl _)
    | respond =>
      dsimp only at stepped
      split at stepped
      · contradiction
      · cases stepped
        exact now.congr rfl id (Nat.le_refl _)
    | hangUp =>
      cases stepped
      exact now.congr rfl id (Nat.le_refl _)
    | other time action =>
      dsimp only at stepped
      split at stepped
      · obtain ⟨server, moved, rfl⟩ := Option.map_eq_some_iff.mp stepped
        exact now.congr rfl (fun parted => Server.step_parted parted moved) (Nat.le_refl _)
      · contradiction
    | turn time input =>
      obtain ⟨u, done, stepped⟩ := Option.bind_eq_some_iff.mp stepped
      obtain ⟨server, moved, rfl⟩ := Option.map_eq_some_iff.mp stepped
      exact awaited_watched now done moved

/-- As long as the task takes no branch of its loop later than `lateness` after its tick is due, it
goes on after a request for the idle timeout, a second and that lateness at most. -/
theorem run_idle_bounded (keepalive : KeepaliveConfig) (config : ClientConfig) (json : AttributesJson)
    (sub : Uuid) (server : Server) (tolerance lateness start : Nat) (early : List (Nat × Inbound))
    (schedule : List Action)
    (prompt : Meets (step keepalive config json sub) (Prompt sub lateness)
      (opened server tolerance start early) schedule) :
    Meets (step keepalive config json sub)
      (Heard sub (nanos keepalive.grpcStreamIdleTimeoutSecs + 1000000000 + lateness))
      (opened server tolerance start early) schedule := by
  refine Meets.of_invariant (I := Watched keepalive sub) ?_ ?_
    (opened_watched keepalive sub server tolerance start early) prompt
  · exact fun watched _ stepped => step_watched watched stepped
  · intro s a watched prompt
    cases a with
    | turn now input =>
      intro looping
      obtain ⟨h, found, waiting⟩ := looping
      rcases watched.alert with alert | ⟨k, found', parted⟩
      · have noticed := alert.noticed (prompt ⟨h, found, waiting⟩)
        rwa [show s.watchdog.timer.period = 1000000000 from watched.period] at noticed
      · cases Option.mem_def.mp found ▸ found'
        rw [waiting] at parted
        cases parted
    | _ => trivial

instance (sub : Uuid) (lateness : Nat) (s : ChannelTask) : DecidablePred (s.Prompt sub lateness) := by
  intro a
  cases a <;> (dsimp only [Prompt]; infer_instance)

/-- The client sends nothing, and each tick is taken when it is due. -/
def Sample.unheard : List Action :=
  (List.range 41).map (fun n => .turn (n * 1000000000) (.tick false)) ++
    [.turn 41000000000 (.tick true)]

theorem unheard_bounded : ∃ server, run (Server.step AppConfig.shipped.client plainJson) .initial
      Sample.connected = some server ∧
    (run (step AppConfig.shipped.keepalive AppConfig.shipped.client plainJson 0)
      (opened server 5000000 0 []) Sample.unheard).isSome = true ∧
    Meets (step AppConfig.shipped.keepalive AppConfig.shipped.client plainJson 0)
      (Heard 0 (nanos AppConfig.shipped.keepalive.grpcStreamIdleTimeoutSecs + 1000000000 + 0))
      (opened server 5000000 0 []) Sample.unheard := by
  have runs : ∃ server ∈ run (Server.step AppConfig.shipped.client plainJson) .initial
      Sample.connected, (run (step AppConfig.shipped.keepalive AppConfig.shipped.client plainJson 0)
        (opened server 5000000 0 []) Sample.unheard).isSome = true ∧
      Meets (step AppConfig.shipped.keepalive AppConfig.shipped.client plainJson 0) (Prompt 0 0)
        (opened server 5000000 0 []) Sample.unheard := by decide +kernel
  obtain ⟨server, connected, ran, prompt⟩ := runs
  exact ⟨server, connected, ran,
    run_idle_bounded _ _ _ 0 server 5000000 0 0 [] Sample.unheard prompt⟩

end ChannelTask
end Propeller
