import PaymentProcessing.Propeller.Gateway

/-! `Metrics`. Each counter is moved where the code comes by; over a whole run it comes to what the
clients were handed and what they asked for. -/
namespace Propeller
open Relational Transition

/-- The counters of `Metrics` but for those that the service and the broker keep. -/
inductive Counter where
  | messagesDelivered
  | authSuccessTotal
  | authFailureTotal
  | legacyHeaderAuthTotal
  | topicSubscribeTotal
  | topicUnsubscribeTotal
  | topicUnsubscribeErrorTotal
  | wsPingSentTotal
  | wsPongReceivedTotal
  | wsKeepaliveTimeoutTotal
  | grpcKeepaliveTimeoutTotal
  deriving DecidableEq, Repr

abbrev Metrics := Counter → BitVec 64

/-- `fetch_add(1)` -/
def Metrics.fetchAdd (m : Metrics) (counter : Counter) : Metrics :=
  fun other => if other = counter then m other + 1 else m other

/-- The counters that a request to connect moves. -/
def authCounts : Except PropellerError (AuthContext × Bool) → List Counter
  | .ok (_, legacyMode) =>
      .authSuccessTotal :: if legacyMode then [.legacyHeaderAuthTotal] else []
  | .error _ => [.authFailureTotal]

namespace Handler

/-- The arms of `topic_unsubscribe` in `handle_client_request`. -/
def unsubscribeCounts (s : Service) (h : Handler) (topic : String) : List Counter :=
  match s.connection h.sub with
  | none => []
  | some c =>
    match scopedTopic c.tenantId topic with
    | .error _ => [.topicUnsubscribeErrorTotal]
    | .ok channel =>
      match s.broker.removeSubscription channel h.sub with
      | .error _ => [.topicUnsubscribeErrorTotal]
      | .ok _ => [.topicUnsubscribeTotal]

/-- The counters that a turn moves. -/
def counts (s : Service) (h : Handler) : Input → List Counter
  | .event => [.messagesDelivered]
  | .tick true =>
      match h.frontend with
      | .ws => [.wsKeepaliveTimeoutTotal]
      | .grpc => [.grpcKeepaliveTimeoutTotal]
  | .frame (.pong _) => [.wsPongReceivedTotal]
  | .sent true =>
      match h.stage with
      | .sending (.frame .ping) _ _ => [.wsPingSentTotal]
      | .sending (.frame (.pong _)) _ _ => [.wsPongReceivedTotal]
      | _ => []
  | .message (.request (some (.topicUnsubscriptionRequest topic))) => h.unsubscribeCounts s topic
  | .add ok text =>
      match h.stage with
      | .requesting _ task =>
        match (s.adding.find? (·.task = task)).bind fun a => a.result ok text with
        | some (.ok ()) => [.topicSubscribeTotal]
        | _ => []
      | _ => []
  | _ => []

end Handler

/-- The counters that a step of the server moves. -/
def Server.counts (s : Server) : Server.Action → List Counter
  | .turn sub input =>
      match s.handler sub with
      | some h => h.counts s.service input
      | none => []
  | _ => []

def Gateway.counts (crates : Crates) (config : AppConfig) (g : Gateway) :
    Gateway.Action → List Counter
  | .wsConnect clock headers =>
      authCounts (authenticateHttp crates clock config.auth headers config.client)
  | .channel clock metadata _ =>
      authCounts (authenticateGrpc crates clock config.auth metadata config.client)
  | .server a => g.server.counts a
  | _ => []

/-- The gateway with its counters, which nothing in it reads. -/
structure Monitored where
  gateway : Gateway
  metrics : Metrics

namespace Monitored

def initial : Monitored := ⟨.initial, fun _ => 0⟩

def step (crates : Crates) (config : AppConfig) (json : AttributesJson) (m : Monitored)
    (a : Gateway.Action) : Option Monitored :=
  (m.gateway.step crates config json a).map fun g =>
    ⟨g, (m.gateway.counts crates config a).foldl Metrics.fetchAdd m.metrics⟩

end Monitored

/-! ## What the counters stand for -/

/-- The counter of an output, as soon as its send begins. -/
def Output.counter : Output → Option Counter
  | .frame (.event _) | .response (.channelEvent ..) => some .messagesDelivered
  | .frame (.close ..) => some .wsKeepaliveTimeoutTotal
  | .deadlineExceeded _ => some .grpcKeepaliveTimeoutTotal
  | .response (.topicSubscriptionRequestAck _ status) =>
      if status.success then some .topicSubscribeTotal else none
  | .response (.topicUnsubscriptionRequestAck _ status) =>
      some (if status.success then .topicUnsubscribeTotal else .topicUnsubscribeErrorTotal)
  | _ => none

/-- The counter of an output whose send has worked. -/
def Output.sentCounter : Output × Bool → Option Counter
  | (.frame .ping, true) => some .wsPingSentTotal
  | (.frame (.pong _), true) => some .wsPongReceivedTotal
  | _ => none

/-- The counter of what a client sends. -/
def Input.counters : Input → List Counter
  | .frame (.pong _) => [.wsPongReceivedTotal]
  | _ => []

theorem Input.count_counters (input : Input) (other : counter ≠ .wsPongReceivedTotal) :
    input.counters.count counter = 0 := by
  unfold Input.counters
  split
  · exact List.count_eq_zero.mpr (by simpa using other)
  · rfl

/-- No output stands for a request to connect. -/
theorem Output.counter_ne (output : Output) : output.counter ≠ some .authSuccessTotal ∧
    output.counter ≠ some .authFailureTotal := by
  cases output with
  | frame frame => cases frame <;> simp [counter]
  | response response =>
    cases response with
    | topicSubscriptionRequestAck topic status | topicUnsubscriptionRequestAck topic status =>
      cases succeeded : status.success <;> simp [counter, succeeded]
    | _ => simp [counter]
  | deadlineExceeded => simp [counter]

/-- It takes a ping or its answer. -/
theorem Output.sentCounter_some {c : Counter} (h : sentCounter sent = some c) :
    c = .wsPingSentTotal ∨ c = .wsPongReceivedTotal := by
  unfold sentCounter at h
  split at h
  · exact Or.inl (Option.some.inj h).symm
  · exact Or.inr (Option.some.inj h).symm
  · contradiction

/-- Events are what is counted as delivered. -/
theorem Output.counter_delivered (output : Output) :
    output.counter = some .messagesDelivered ↔ output.event?.isSome = true := by
  cases output with
  | frame frame => cases frame <;> simp [counter, event?]
  | response response =>
    cases response with
    | topicSubscriptionRequestAck topic status | topicUnsubscriptionRequestAck topic status =>
      cases succeeded : status.success <;> simp [counter, event?, succeeded]
    | _ => simp [counter, event?]
  | deadlineExceeded => simp [counter, event?]

namespace Handler

/-- The outputs whose sends have begun. -/
def begun (h : Handler) : List Output := h.trace.sends.map Prod.fst ++ h.stage.output?.toList

/-- The counters that what the client was handed stands for. -/
def figures (h : Handler) : List Counter :=
  h.begun.filterMap Output.counter ++ h.trace.sends.filterMap Output.sentCounter

theorem count_sentCounter (sends : List (Output × Bool)) {c : Counter} (other : c ≠ .wsPingSentTotal)
    (other' : c ≠ .wsPongReceivedTotal) : (sends.filterMap Output.sentCounter).count c = 0 := by
  refine List.count_eq_zero.mpr fun listed => ?_
  obtain ⟨sent, -, stands⟩ := List.mem_filterMap.mp listed
  rcases Output.sentCounter_some stands with ping | pong
  · exact other ping
  · exact other' pong

theorem taken_eq (h : Handler) : h.taken = h.begun.filterMap Output.event? := by
  rw [taken, offered, begun, List.filterMap_append]
  congr 1
  cases h.stage.output? with
  | none => rfl
  | some output => cases given : output.event? <;> simp [given]

/-- Delivered is what was taken for the client. -/
theorem figures_delivered (h : Handler) : h.figures.count .messagesDelivered = h.taken.length := by
  rw [figures, List.count_append, count_sentCounter _ (by simp) (by simp), Nat.add_zero, taken_eq,
    List.count_filterMap, List.length_filterMap_eq_countP]
  exact List.countP_congr fun output _ => by rw [← Output.counter_delivered, beq_iff_eq]

/-- No output stands for a request to connect. -/
theorem figures_auth (h : Handler) : h.figures.count .authSuccessTotal = 0 ∧
    h.figures.count .authFailureTotal = 0 := by
  have silent {c : Counter} (never : ∀ output : Output, output.counter ≠ some c) :
      (h.begun.filterMap Output.counter).count c = 0 := by
    refine List.count_eq_zero.mpr fun listed => ?_
    obtain ⟨output, -, stands⟩ := List.mem_filterMap.mp listed
    exact never output stands
  rw [figures, List.count_append, List.count_append, count_sentCounter _ (by simp) (by simp),
    count_sentCounter _ (by simp) (by simp)]
  exact ⟨silent fun output => output.counter_ne.1, silent fun output => output.counter_ne.2⟩

variable {config : ClientConfig} {json : AttributesJson} {s t : Service} {h h' k : Handler}
  {next well badly : Next} {outs : List Output} {ends : List (Output × Bool)}

/-- In this step these sends begin and these have ended. -/
structure Shows (h : Handler) (outs : List Output) (ends : List (Output × Bool)) (h' : Handler) :
    Prop where
  begun : h'.begun = h.begun ++ outs
  sends : h'.trace.sends = h.trace.sends ++ ends

theorem Shows.still (begun : h'.begun = h.begun) (sends : h'.trace.sends = h.trace.sends) :
    Shows h [] [] h' :=
  ⟨begun.trans (List.append_nil _).symm, sends.trans (List.append_nil _).symm⟩

theorem Shows.refl (h : Handler) : Shows h [] [] h := .still rfl rfl

theorem begun_idle (idle : h.stage.output? = none) : h.begun = h.trace.sends.map Prod.fst := by
  rw [begun, idle, Option.toList_none, List.append_nil]

/-- A handler that was not in a send begins one. -/
theorem Shows.one (idle : h.stage.output? = none) (stage : h'.stage = .sending output well badly)
    (sends : h'.trace.sends = h.trace.sends) : Shows h [output] [] h' := by
  refine ⟨?_, sends.trans (List.append_nil _).symm⟩
  rw [begun_idle idle, Handler.begun, stage, sends]
  rfl

theorem leave_shows (idle : k.stage.output? = none) (stepped : k.leave config json s = some (t, h')) :
    Shows k [] [] h' := by
  obtain ⟨t, left, rest⟩ := Option.map_eq_some_iff.mp stepped
  cases rest
  exact .still ((begun_idle rfl).trans (begun_idle idle).symm) rfl

theorem proceed_sends (stepped : k.proceed config json s next = some (t, h')) :
    h'.begun = k.trace.sends.map Prod.fst ∧ h'.trace.sends = k.trace.sends := by
  cases next with
  | loop =>
    cases stepped
    exact ⟨begun_idle rfl, rfl⟩
  | leave =>
    obtain ⟨t, left, rest⟩ := Option.map_eq_some_iff.mp stepped
    cases rest
    exact ⟨begun_idle rfl, rfl⟩
  | quit =>
    obtain ⟨t, left, rest⟩ := Option.map_eq_some_iff.mp stepped
    cases rest
    exact ⟨begun_idle rfl, rfl⟩

theorem sent_shows (stage : h.stage = .sending output well badly)
    (stepped : h.sent config json s ok = some (t, h')) : Shows h [] [(output, ok)] h' := by
  simp only [Handler.sent, stage] at stepped
  split at stepped
  · contradiction
  · obtain ⟨begun, sends⟩ := proceed_sends stepped
    refine ⟨?_, sends⟩
    rw [begun, Handler.begun, stage, List.append_nil, List.map_append]
    rfl

/-- A turn moves the counters of the sends that it begins and ends, and of what it receives. -/
def Figured (s : Service) (h : Handler) (input : Input) (h' : Handler) : Prop :=
  ∃ outs ends, Shows h outs ends h' ∧
    outs.filterMap Output.counter ++ ends.filterMap Output.sentCounter ++ input.counters =
      h.counts s input

theorem idle_waiting (waiting : h.stage = .waiting) : h.stage.output? = none := by
  rw [waiting]
  rfl

theorem called_figured (calling : h.stage = .subscribing ∨ h.stage = .unsubscribing) (phase : Phase) :
    Figured s h (.call ok) (h.called phase) := by
  have idle : h.stage.output? = none := by
    rcases calling with stage | stage <;> rw [stage] <;> rfl
  unfold called
  split
  · exact ⟨[h.frontend.connectAck], [], .one idle rfl rfl, by cases h.frontend <;> rfl⟩
  · exact ⟨[], [], .still ((begun_idle rfl).trans (begun_idle idle).symm) rfl, rfl⟩
  · exact ⟨[], [], .still ((begun_idle rfl).trans (begun_idle idle).symm) rfl, rfl⟩
  · exact ⟨[], [], .refl h, rfl⟩

theorem sent_figured (stepped : h.sent config json s ok = some (t, h')) :
    Figured s h (.sent ok) h' := by
  cases stage : h.stage with
  | sending output well badly =>
    refine ⟨[], [(output, ok)], sent_shows stage stepped, ?_⟩
    cases ok with
    | false => simp [counts, Output.sentCounter, Input.counters]
    | true =>
      simp only [counts, stage, Input.counters]
      cases output with
      | frame frame => cases frame <;> rfl
      | response | deadlineExceeded => rfl
  | _ => simp [Handler.sent, stage] at stepped

theorem received_figured (waiting : h.stage = .waiting)
    (stepped : h.received config json s message = some (t, h')) :
    Figured s h (.frame message) h' := by
  cases message with
  | text | binary | pong =>
    cases stepped
    exact ⟨[], [], .refl h, rfl⟩
  | ping payload =>
    cases stepped
    exact ⟨[_], [], .one (idle_waiting waiting) rfl rfl, rfl⟩
  | close | closed | error => exact ⟨[], [], leave_shows (idle_waiting waiting) stepped, rfl⟩

theorem event_figured (waiting : h.stage = .waiting)
    (stepped : h.event config json s = some (t, h')) : Figured s h .event h' := by
  unfold Handler.event at stepped
  split at stepped
  · contradiction
  · obtain ⟨t, received, same⟩ := Option.map_eq_some_iff.mp stepped
    cases same
    refine ⟨[_], [], .one (idle_waiting waiting) rfl rfl, ?_⟩
    cases h.frontend <;> rfl

theorem ticked_figured (waiting : h.stage = .waiting) (late : Bool) :
    Figured s h (.tick late) (h.ticked late) := by
  unfold ticked
  split
  · rename_i ws
    exact ⟨[_], [], .one (idle_waiting waiting) rfl rfl, by simp only [counts, ws]; rfl⟩
  · exact ⟨[_], [], .one (idle_waiting waiting) rfl rfl, rfl⟩
  · rename_i grpc
    exact ⟨[_], [], .one (idle_waiting waiting) rfl rfl, by simp only [counts, grpc]; rfl⟩
  · exact ⟨[], [], .refl h, rfl⟩

/-- The counter of an acknowledgement. -/
def ackCounter : TopicRequest → Except PropellerError Unit → Option Counter
  | .subscribe _, .ok () => some .topicSubscribeTotal
  | .subscribe _, .error _ => none
  | .unsubscribe _, .ok () => some .topicUnsubscribeTotal
  | .unsubscribe _, .error _ => some .topicUnsubscribeErrorTotal

theorem reply_figured (idle : h.stage.output? = none) (redis : Bool)
    (counted : (ackCounter request result).toList ++ input.counters = h.counts s input) :
    Figured s h input (h.reply request redis result) := by
  refine ⟨[_], [], .one idle rfl rfl, ?_⟩
  rw [← counted]
  cases request <;> cases result <;> rfl

theorem topicSubscribe_figured (waiting : h.stage = .waiting)
    (stepped : h.topicSubscribe config json s topic = some (t, h')) :
    Figured s h (.message (.request (some (.topicSubscriptionRequest topic)))) h' := by
  obtain ⟨c, found, answered⟩ := Option.bind_eq_some_iff.mp stepped
  split at answered
  · cases answered
    exact reply_figured (idle_waiting waiting) true rfl
  · split at answered
    · cases answered
      exact reply_figured (idle_waiting waiting) true rfl
    · obtain ⟨t, started, same⟩ := Option.map_eq_some_iff.mp answered
      cases same
      exact ⟨[], [], .still ((begun_idle rfl).trans (begun_idle (idle_waiting waiting)).symm) rfl, rfl⟩

theorem topicUnsubscribe_figured (waiting : h.stage = .waiting)
    (stepped : h.topicUnsubscribe config json s topic = some (t, h')) :
    Figured s h (.message (.request (some (.topicUnsubscriptionRequest topic)))) h' := by
  obtain ⟨c, found, answered⟩ := Option.bind_eq_some_iff.mp stepped
  split at answered
  · rename_i e refused
    cases answered
    exact reply_figured (idle_waiting waiting) true
      (by simp only [counts, unsubscribeCounts, found, refused]; rfl)
  · rename_i channel named
    split at answered
    · rename_i e refused
      cases answered
      exact reply_figured (idle_waiting waiting) true
        (by simp only [counts, unsubscribeCounts, found, named, refused]; rfl)
    · rename_i broker removed
      obtain ⟨t, removes, same⟩ := Option.map_eq_some_iff.mp answered
      cases same
      exact reply_figured (idle_waiting waiting) true
        (by simp only [counts, unsubscribeCounts, found, named, removed]; rfl)

theorem handleClientRequest_figured (waiting : h.stage = .waiting)
    (stepped : h.handleClientRequest config json s message = some (t, h')) :
    Figured s h (.message message) h' := by
  unfold handleClientRequest at stepped
  split at stepped
  · exact topicSubscribe_figured waiting stepped
  · exact topicUnsubscribe_figured waiting stepped
  · cases stepped
    exact ⟨[], [], .refl h, rfl⟩
  · cases stepped
    exact ⟨[], [], .refl h, rfl⟩
  · cases stepped
    exact ⟨[], [], .refl h, rfl⟩
  · exact ⟨[], [], leave_shows (idle_waiting waiting) stepped, rfl⟩
  · exact ⟨[], [], leave_shows (idle_waiting waiting) stepped, rfl⟩

theorem added_figured (stepped : h.added config json s ok text = some (t, h')) :
    Figured s h (.add ok text) h' := by
  unfold Handler.added at stepped
  split at stepped
  · rename_i topic task stage
    have idle : h.stage.output? = none := by rw [stage]; rfl
    obtain ⟨a, found, goes⟩ := Option.bind_eq_some_iff.mp stepped
    obtain ⟨t, advanced, same⟩ := Option.map_eq_some_iff.mp goes
    cases ended : a.result ok text with
    | none =>
      simp only [ended] at same
      cases same
      refine ⟨[], [], .refl h, ?_⟩
      simp only [counts, stage, found, Option.bind_some, ended]
      rfl
    | some result =>
      simp only [ended] at same
      cases same
      refine reply_figured idle _ ?_
      simp only [counts, stage, found, Option.bind_some, ended]
      cases result <;> rfl
  · contradiction

theorem step_figured (stepped : h.step config json s input = some (t, h')) :
    Figured s h input h' := by
  cases input with
  | call ok =>
    simp only [Handler.step] at stepped
    split at stepped
    · rename_i calling
      obtain ⟨t, advanced, found⟩ := Option.bind_eq_some_iff.mp stepped
      obtain ⟨c, present, same⟩ := Option.map_eq_some_iff.mp found
      cases same
      exact called_figured calling c.phase
    · contradiction
  | add ok text => exact added_figured stepped
  | sent ok => exact sent_figured stepped
  | frame message =>
    simp only [Handler.step] at stepped
    split at stepped
    · rename_i ready
      exact received_figured ready.1 stepped
    · contradiction
  | message message =>
    simp only [Handler.step] at stepped
    split at stepped
    · rename_i ready
      exact handleClientRequest_figured ready.1 stepped
    · contradiction
  | event =>
    simp only [Handler.step] at stepped
    split at stepped
    · rename_i waiting
      exact event_figured waiting stepped
    · contradiction
  | eventsClosed =>
    simp only [Handler.step] at stepped
    split at stepped
    · rename_i waiting
      exact ⟨[], [], leave_shows (idle_waiting waiting) stepped, rfl⟩
    · contradiction
  | tick late =>
    simp only [Handler.step] at stepped
    split at stepped
    · rename_i waiting
      cases stepped
      exact ticked_figured waiting late
    · contradiction

/-- A turn moves each counter by what it adds to the figures of the handler and by what it
receives. -/
theorem step_counts (stepped : h.step config json s input = some (t, h')) (counter : Counter) :
    h'.figures.count counter + input.counters.count counter =
      h.figures.count counter + (h.counts s input).count counter := by
  obtain ⟨outs, ends, shows_, moved⟩ := step_figured stepped
  rw [← moved, figures, figures, shows_.begun, shows_.sends]
  simp only [List.filterMap_append, List.count_append]
  omega

end Handler

namespace Server
variable {config : ClientConfig} {json : AttributesJson} {s t : Server}

/-- The counters of what a client sends in this step. -/
def Action.counters : Action → List Counter
  | .turn _ input => input.counters
  | _ => []

/-- How often the outputs to the clients stand for this counter. -/
def figures (s : Server) (counter : Counter) : Nat :=
  (s.handlers.map fun k => k.figures.count counter).sum

theorem step_figures (coherent : s.Coherent) (h : s.step config json a = some t)
    (counter : Counter) : t.figures counter + a.counters.count counter =
      s.figures counter + (s.counts a).count counter := by
  cases a with
  | accept frontend sub tenantId clientId device =>
    obtain ⟨u, connected, rfl⟩ := Option.map_eq_some_iff.mp h
    split
    · rfl
    · simp only [figures, List.map_append, List.sum_append]
      rfl
  | turn sub input =>
    obtain ⟨k, found, goes⟩ := Option.bind_eq_some_iff.mp h
    obtain ⟨⟨u, k'⟩, moved, rfl⟩ := Option.map_eq_some_iff.mp goes
    obtain ⟨member, rfl⟩ := handler_mem found
    have replaced := sum_updateWhere (fun _ => k') coherent.distinct member
      fun k => k.figures.count counter
    have counted := Handler.step_counts moved counter
    simp only [counts, found, figures, Action.counters]
    omega
  | background b =>
    simp only [Server.step] at h
    split at h
    · obtain ⟨u, stepped, rfl⟩ := Option.map_eq_some_iff.mp h
      rfl
    · contradiction
  | drop sub =>
    obtain ⟨k, found, goes⟩ := Option.bind_eq_some_iff.mp h
    split at goes
    · obtain ⟨u, stepped, rfl⟩ := Option.map_eq_some_iff.mp goes
      rfl
    · contradiction

end Server

/-- The counters of what comes from outside in this step. -/
def Gateway.Action.counters (crates : Crates) (config : AppConfig) : Gateway.Action → List Counter
  | .wsConnect clock headers =>
      authCounts (authenticateHttp crates clock config.auth headers config.client)
  | .channel clock metadata _ =>
      authCounts (authenticateGrpc crates clock config.auth metadata config.client)
  | .server a => a.counters
  | _ => []

section Figures
variable {crates : Crates} {config : AppConfig} {json : AttributesJson} {g t : Gateway}

theorem Gateway.subscribe_figures (coherent : g.server.Coherent)
    (h : g.subscribe config json frontend sub entry = some t) (counter : Counter) :
    t.server.figures counter = g.server.figures counter := by
  cases entry with
  | none =>
    cases h
    rfl
  | some call =>
    obtain ⟨s, accepted, rfl⟩ := Option.map_eq_some_iff.mp h
    exact Server.step_figures coherent accepted counter

theorem Gateway.step_figures (coherent : g.server.Coherent) (h : g.step crates config json a = some t)
    (counter : Counter) :
    t.server.figures counter + (a.counters crates config).count counter =
      g.server.figures counter + (g.counts crates config a).count counter := by
  cases a with
  | wsConnect clock headers =>
    cases h
    rfl
  | upgraded upgrade sub =>
    obtain ⟨call, found, goes⟩ := Option.bind_eq_some_iff.mp h
    exact subscribe_figures (g := { g with upgrades := g.upgrades.eraseIdx upgrade }) coherent goes
      counter
  | channel clock metadata sub =>
    exact congrArg (· + _) (subscribe_figures coherent h counter)
  | send clock metadata rpc =>
    simp only [step] at h
    split at h <;> cases h <;> rfl
  | published call reply =>
    simp only [step] at h
    split at h
    · obtain ⟨s, published, rfl⟩ := Option.map_eq_some_iff.mp h
      exact Server.step_figures coherent published counter
    · contradiction
  | server a =>
    simp only [step] at h
    split at h
    · obtain ⟨s, stepped, rfl⟩ := Option.map_eq_some_iff.mp h
      exact Server.step_figures coherent stepped counter
    · contradiction

theorem foldl_fetchAdd (counters : List Counter) (m : Metrics) (counter : Counter) :
    counters.foldl Metrics.fetchAdd m counter =
      m counter + BitVec.ofNat 64 (counters.count counter) := by
  induction counters generalizing m with
  | nil => exact (BitVec.add_zero _).symm
  | cons first rest ih =>
    rw [List.foldl_cons, ih, List.count_cons, BitVec.ofNat_add, Metrics.fetchAdd]
    by_cases same : counter = first
    · subst same
      rw [if_pos rfl, if_pos (beq_self_eq_true _), BitVec.add_assoc, BitVec.add_comm 1]
      rfl
    · have other : ¬ (first == counter) = true := by simpa using fun hit => same hit.symm
      simp [same, other]

end Figures

namespace Monitored
variable {crates : Crates} {config : AppConfig} {json : AttributesJson}

/-- A counter has come to what it stands for in the outputs to the clients, and in what came from
outside. -/
def Exact (crates : Crates) (config : AppConfig) (schedule : List Gateway.Action) (m : Monitored) :
    Prop :=
  ∀ counter, m.metrics counter = BitVec.ofNat 64 (m.gateway.server.figures counter +
    (schedule.flatMap (Gateway.Action.counters crates config)).count counter)

theorem step_exact {m t : Monitored} (coherent : m.gateway.server.Coherent)
    (before : Exact crates config past m) (h : m.step crates config json a = some t) :
    Exact crates config (past ++ [a]) t := by
  obtain ⟨g, stepped, rfl⟩ := Option.map_eq_some_iff.mp h
  intro counter
  have moved := Gateway.step_figures coherent stepped counter
  change (m.gateway.counts crates config a).foldl Metrics.fetchAdd m.metrics counter = _
  rw [foldl_fetchAdd, before counter, ← BitVec.ofNat_add, List.flatMap_append, List.count_append]
  have single : [a].flatMap (Gateway.Action.counters crates config) =
      a.counters crates config := List.flatMap_singleton ..
  rw [single]
  refine congrArg (BitVec.ofNat 64) ?_
  dsimp only
  omega

theorem step_coherent {m t : Monitored} (coherent : m.gateway.server.Coherent)
    (h : m.step crates config json a = some t) : t.gateway.server.Coherent := by
  obtain ⟨g, stepped, rfl⟩ := Option.map_eq_some_iff.mp h
  rcases (Gateway.step_moves stepped).simulates with same | ⟨b, steps⟩
  · exact same ▸ coherent
  · exact (Server.step_moves steps).coherent coherent

theorem run_exact (h : run (step crates config json) initial schedule = some m) :
    Exact crates config schedule m :=
  (history_of_meets (I := fun past m => m.gateway.server.Coherent ∧ Exact crates config past m)
    (C := fun _ _ => True)
    (fun _ before _ stepped =>
      ⟨step_coherent before.1 stepped, step_exact before.1 before.2 stepped⟩)
    ⟨Server.initial_coherent, fun _ => rfl⟩ (Meets.of_forall (fun _ _ => trivial) initial) h).2

/-- Requests to connect. -/
def connects : Gateway.Action → Bool
  | .wsConnect .. | .channel .. => true
  | _ => false

theorem count_authCounts (answer : Except PropellerError (AuthContext × Bool)) :
    (authCounts answer).count .authSuccessTotal + (authCounts answer).count .authFailureTotal = 1 ∧
      (authCounts answer).count .messagesDelivered = 0 := by
  rcases answer with e | ⟨ctx, legacyMode⟩
  · exact ⟨rfl, rfl⟩
  · cases legacyMode <;> exact ⟨rfl, rfl⟩

/-- A request to connect is a success or a failure, and nothing from outside is a delivery. -/
theorem count_counters (crates : Crates) (config : AppConfig) (a : Gateway.Action) :
    (a.counters crates config).count .authSuccessTotal +
        (a.counters crates config).count .authFailureTotal = (if connects a then 1 else 0) ∧
      (a.counters crates config).count .messagesDelivered = 0 := by
  cases a with
  | wsConnect | channel => exact count_authCounts _
  | server a =>
    cases a with
    | turn sub input =>
      simp [Gateway.Action.counters, Server.Action.counters, connects, Input.count_counters input]
    | _ => exact ⟨rfl, rfl⟩
  | _ => exact ⟨rfl, rfl⟩

theorem count_schedule (crates : Crates) (config : AppConfig) (schedule : List Gateway.Action) :
    (schedule.flatMap (Gateway.Action.counters crates config)).count .authSuccessTotal +
        (schedule.flatMap (Gateway.Action.counters crates config)).count .authFailureTotal =
          schedule.countP connects ∧
      (schedule.flatMap (Gateway.Action.counters crates config)).count .messagesDelivered = 0 := by
  induction schedule with
  | nil => exact ⟨rfl, rfl⟩
  | cons a rest ih =>
    obtain ⟨one, none⟩ := count_counters crates config a
    simp only [List.flatMap_cons, List.count_append, List.countP_cons]
    omega

/-- In every run each counter comes to what it stands for, modulo 2^64: `messages_delivered` to the
events that the handlers have taken, whatever became of their sends, and the two counters of
authentications together to the requests to connect. -/
theorem run_figures (crates : Crates) (config : AppConfig) (json : AttributesJson)
    (schedule : List Gateway.Action) (m : Monitored)
    (h : run (step crates config json) initial schedule = some m) :
    Exact crates config schedule m ∧
    m.metrics .messagesDelivered =
      BitVec.ofNat 64 (m.gateway.server.handlers.map fun k => k.taken.length).sum ∧
    m.metrics .authSuccessTotal + m.metrics .authFailureTotal =
      BitVec.ofNat 64 (schedule.countP connects) := by
  have exact_ := run_exact h
  obtain ⟨requests, silent⟩ := count_schedule crates config schedule
  refine ⟨exact_, ?_, ?_⟩
  · rw [exact_ .messagesDelivered, silent, Server.figures, Nat.add_zero]
    simp only [Handler.figures_delivered]
  · have unseen (c : Counter) (never : ∀ k : Handler, k.figures.count c = 0) :
        m.gateway.server.figures c = 0 := by
      simp [Server.figures, never]
    rw [exact_ .authSuccessTotal, exact_ .authFailureTotal, ← BitVec.ofNat_add,
      unseen _ fun k => k.figures_auth.1, unseen _ fun k => k.figures_auth.2, Nat.zero_add,
      Nat.zero_add, requests]

theorem paid_figures : ∃ m, run (step sampleCrates sampleService plainJson) initial Gateway.paid =
    some m ∧ Exact sampleCrates sampleService Gateway.paid m ∧
    m.metrics .messagesDelivered =
      BitVec.ofNat 64 (m.gateway.server.handlers.map fun k => k.taken.length).sum ∧
    m.metrics .authSuccessTotal + m.metrics .authFailureTotal = BitVec.ofNat 64 1 := by
  obtain ⟨m, reached⟩ : ∃ m, run (step sampleCrates sampleService plainJson) initial Gateway.paid =
      some m := Option.isSome_iff_exists.mp (by decide +kernel)
  exact ⟨m, reached, run_figures sampleCrates sampleService plainJson Gateway.paid m reached⟩

end Monitored
end Propeller
