import PaymentProcessing.Propeller.Handlers
import PaymentProcessing.Propeller.Isolation
import PaymentProcessing.Propeller.Ordering
import PaymentProcessing.Propeller.Publishing

/-! What becomes of an event on its way from `send_event_to_topic` to a gRPC client. The call
takes the event apart and publishes its data on the scoped channel; the handler at the other
end has only these two to build a `ChannelEvent` from. -/
namespace Propeller
open Effect Transition Relational

/-- The service's request for one request of a topic call. -/
def Proto.SendEventToTopicRequest.send (tenantId : String) (req : Proto.SendEventToTopicRequest) :
    Send :=
  let (bytes, name) := extractEvent req.event
  .toTopic ⟨tenantId, req.topic, name, bytes⟩

/-- What Redis is to hand to the subscribers of the topic. -/
def Proto.SendEventToTopicRequest.message (tenantId : String) (req : Proto.SendEventToTopicRequest) :
    Message Send :=
  ⟨topicChannel tenantId req.topic, (req.send tenantId).event, req.send tenantId⟩

/-- The requests of a call that go to topics. -/
def SendRpc.topicRequests : SendRpc → List Proto.SendEventToTopicRequest
  | .topic req => [req]
  | .topics req => req.requests
  | .clientChannel _ | .clientDeviceChannel _ => []

/-- What Redis takes of publishes one after the other: none that it refuses, and nothing
after the first error. -/
def taken (config : ClientConfig) : List Send → List (Reply × String) → List (Message Send)
  | [], _ => []
  | send :: rest, answers =>
    match send.channel config with
    | .error _ => []
    | .ok channel =>
      let reply := (answers.headD (.ok, "")).1
      (if reply = .refused then [] else [⟨channel, send.event, send⟩]) ++
        if reply = .ok then taken config rest answers.tail else []

theorem mem_taken (member : m ∈ taken config sends answers) :
    m.origin ∈ sends ∧ m.origin.channel config = .ok m.channel := by
  induction sends generalizing answers with
  | nil => cases member
  | cons send rest ih =>
    rw [taken] at member
    split at member
    · cases member
    · rename_i channel checked
      rcases List.mem_append.mp member with first | later
      · split at first
        · cases first
        · rw [List.mem_singleton.mp first]
          exact ⟨List.mem_cons_self, checked⟩
      · split at later
        · exact (ih later).imp_left (List.mem_cons_of_mem send)
        · cases later

section Calls
variable {config : ClientConfig} {h : GrpcPushHandler} {clock : Option UInt64}
  {metadata : HeaderMap} {rpc : SendRpc}

/-- Publishes change nothing of the service but the broker and a metric. -/
theorem exec_sends (config : ClientConfig) (sends : List Send) (o : Outlet) : ∃ n,
    (exec (sends.forM (publishTo config)) o).2.service = { o.service with
      broker := (taken config sends o.answers).foldl Broker.publish o.service.broker
      messagesPublished := n } := by
  induction sends generalizing o with
  | nil => exact ⟨_, rfl⟩
  | cons send rest ih =>
    rw [exec_forM_cons, publishTo, exec_statement, taken]
    cases checked : send.channel config with
    | error e => exact ⟨_, rfl⟩
    | ok channel =>
      cases answered : (o.answers.headD (.ok, "")) with
      | mk reply text =>
        cases reply with
        | ok => exact ih _
        | lost => exact ⟨_, rfl⟩
        | refused => exact ⟨_, rfl⟩

/-- A topic call publishes its requests one after the other. -/
theorem send_topics (authorized : h.authorizePublisher clock metadata = .ok publisher)
    (asked : req ∈ rpc.topicRequests) (o : Outlet) :
    (exec (h.send clock metadata rpc) o).2 = (exec ((rpc.topicRequests.map
      (Proto.SendEventToTopicRequest.send publisher.tenantId)).forM (publishTo h.clientConfig)) o).2 := by
  cases rpc with
  | clientChannel | clientDeviceChannel => cases asked
  | topic req =>
    simp only [GrpcPushHandler.send, GrpcPushHandler.sendEventToTopic, authorized,
      exec_ofResult_ok_bind, exec_mapError, SendRpc.topicRequests, List.map_cons, List.map_nil,
      exec_forM_cons]
    change (exec (publishTo h.clientConfig (req.send publisher.tenantId)) o).2 = _
    cases exec (publishTo h.clientConfig (req.send publisher.tenantId)) o with
    | mk answer u => cases answer <;> rfl
  | topics req =>
    simp only [GrpcPushHandler.send, GrpcPushHandler.sendEventToTopics, authorized,
      exec_ofResult_ok_bind, exec_mapError, SendRpc.topicRequests, publishToTopics]
    simp only [List.forM_eq_forM, List.forM_map]
    rfl

end Calls

/-- A gRPC client of the tenant, told that it is subscribed to the topic, is about to be handed
the response for the message. -/
structure Receives (config : ClientConfig) (json : AttributesJson) (tenantId topic : String)
    (message : Message Send) (s : Server) (h : Handler) (response : Proto.ChannelResponse) :
    Prop where
  handler : s.handler h.sub = some h
  grpc : h.frontend = .grpc
  tenant : ∃ c, s.service.connection h.sub = some c ∧ c.tenantId = tenantId
  acknowledged : (.response (.topicSubscriptionRequestAck topic okStatus), true) ∈ h.trace.sends
  next : ∃ rest, s.service.broker.queues h.sub = message :: rest
  handed : ∃ t h' sent failed, h.step config json s.service .event = some (t, h') ∧
    h'.stage = .sending (.response response) sent failed

/-- All that a gRPC client gets of a message. -/
theorem receives_response (receives : Receives config json tenantId topic message s h response) :
    response = .channelEvent message.channel ⟨"", 0, message.data⟩ := by
  obtain ⟨rest, next⟩ := receives.next
  obtain ⟨t, h', sent, failed, stepped, stage⟩ := receives.handed
  simp only [Handler.step, Handler.event, next] at stepped
  split at stepped
  · obtain ⟨u, -, moved⟩ := Option.map_eq_some_iff.mp stepped
    cases moved
    simp only [Handler.enter, Frontend.event, receives.grpc, Stage.sending.injEq, Output.response.injEq]
      at stage
    exact stage.1.symm
  · contradiction

/-- Whoever is subscribed to the topic of the request receives its event as it was sent, in
any run that goes through the call. -/
def Faithful (h : GrpcPushHandler) (clock : Option UInt64) (metadata : HeaderMap)
    (json : AttributesJson) (rpc : SendRpc) (answers : List (Reply × String)) (tenantId : String)
    (req : Proto.SendEventToTopicRequest) : Prop :=
  ∀ past s later t receiver response,
    run (Server.step h.clientConfig json) .initial past = some s →
    run (Server.step h.clientConfig json)
      ⟨(exec (h.send clock metadata rpc) ⟨s.service, answers, []⟩).2.service, s.handlers⟩
      later = some t →
    Receives h.clientConfig json tenantId req.topic (req.message tenantId) t receiver response →
    ∀ event, req.event = some event → response = .channelEvent req.topic event

/-- A scoped name is longer than the topic. -/
theorem topicChannel_ne (tenantId topic : String) : topicChannel tenantId topic ≠ topic := by
  intro same
  have lengths := congrArg String.length same
  simp only [topicChannel, String.length_append] at lengths
  have positive : 0 < "tenant:".length := by decide
  omega

namespace Broker
variable {α : Type} {b : Broker α}

theorem lookup_publish (b : Broker α) (message : Message α) (task : TaskId) :
    (b.publish message).lookup task = (b.lookup task).map (offer message) := by
  simp only [Broker.lookup, Broker.publish, List.find?_map, Function.comp_def, offer_id]

theorem lookup_modify {f : Listener α → Listener α} (id : ∀ l, (f l).id = l.id)
    (found : b.lookup task = some l) : (b.modify task f).lookup task = some (f l) := by
  unfold Broker.lookup at found
  rw [Broker.lookup, Broker.modify, find?_updateWhere id, found, Option.map_some]

end Broker

/-- The task of connection 0 for the topic, when that is the second task of all. -/
def topicTask (tenantId topic : String) : TaskId := ⟨0, some (topicChannel tenantId topic), 1⟩

/-- A gRPC client waits in its loop, subscribed to the topic; these messages are in its queue
and on their way there. -/
structure Awaits (tenantId topic : String) (queue inbox : List (Message Send)) (s : Server) :
    Prop where
  handler : ∃ trace, s.handlers = [⟨0, .grpc, .waiting, trace⟩] ∧
    (.response (.topicSubscriptionRequestAck topic okStatus), true) ∈ trace.sends
  connection : s.service.connections = [⟨0, tenantId, "c", none, .subscribed⟩]
  listener : s.service.broker.lookup (topicTask tenantId topic) =
    some ⟨topicTask tenantId topic, [topicChannel tenantId topic], inbox, true, false, true⟩
  queue : s.service.broker.queues 0 = queue
  owned : s.service.broker.dropped = []

section Awaits
variable {tenantId topic : String} {s : Server} {queue inbox rest : List (Message Send)} {message : Message Send}

theorem Awaits.publish (awaits : Awaits tenantId topic queue inbox s) (message : Message Send)
    (n : BitVec 64) :
    Awaits tenantId topic queue (inbox ++ onChannel (topicChannel tenantId topic) [message])
      ⟨{ s.service with
          broker := s.service.broker.publish message
          messagesPublished := n }, s.handlers⟩ where
  handler := awaits.handler
  connection := awaits.connection
  listener := by
    rw [Broker.lookup_publish, awaits.listener]
    by_cases heard : message.channel = topicChannel tenantId topic
    · simp [Broker.offer, onChannel, heard]
    · simp [Broker.offer, onChannel, heard]
  queue := awaits.queue
  owned := awaits.owned

/-- The call, made while the client waits. -/
theorem Awaits.sends (config : ClientConfig) (awaits : Awaits tenantId topic queue inbox s)
    (sends : List Send) (answers : List (Reply × String)) :
    Awaits tenantId topic queue
      (inbox ++ onChannel (topicChannel tenantId topic) (taken config sends answers))
      ⟨(exec (sends.forM (publishTo config)) ⟨s.service, answers, []⟩).2.service, s.handlers⟩ := by
  obtain ⟨n, after⟩ := exec_sends config sends ⟨s.service, answers, []⟩
  rw [after]
  clear after
  generalize taken config sends answers = messages
  induction messages generalizing s inbox with
  | nil => exact ⟨awaits.handler, awaits.connection, by simpa using awaits.listener, awaits.queue, awaits.owned⟩
  | cons message rest ih =>
    have following := ih (awaits.publish message n)
    rw [List.append_assoc, ← onChannel_append] at following
    exact following

theorem Awaits.deliver (config : ClientConfig) (json : AttributesJson)
    (awaits : Awaits tenantId topic [] (message :: rest) s) : ∃ t,
    s.step config json (.background (.deliver (topicTask tenantId topic))) = some t ∧
      Awaits tenantId topic [message] rest t := by
  let b : Broker Send := { s.service.broker.modify (topicTask tenantId topic) fun l =>
      { l with inbox := l.inbox.tail } with
    queues := fun id => if id = 0 then s.service.broker.queues id ++ [message]
      else s.service.broker.queues id
    delivered := s.service.broker.delivered ++ [⟨topicTask tenantId topic, message⟩] }
  have delivered : s.service.broker.deliver (topicTask tenantId topic) = some b := by
    simp only [Broker.deliver, awaits.listener, awaits.owned]
    rfl
  refine ⟨⟨s.service.withBroker b, s.handlers⟩, ?_, awaits.handler, awaits.connection, ?_, ?_, awaits.owned⟩
  · simp only [Server.step, Action.background, if_true, Service.step, delivered, Option.map_some]
  · exact Broker.lookup_modify (f := fun l => { l with inbox := l.inbox.tail }) (fun _ => rfl)
      awaits.listener
  · simp only [Service.withBroker, b, if_true, awaits.queue, List.nil_append]

theorem Awaits.connected (awaits : Awaits tenantId topic queue inbox s) :
    s.service.connection 0 = some ⟨0, tenantId, "c", none, .subscribed⟩ := by
  rw [Service.connection, awaits.connection]
  rfl

/-- The handler takes the message. -/
theorem Awaits.step (config : ClientConfig) (json : AttributesJson)
    (awaits : Awaits tenantId topic [message] inbox s) (trace : Trace) :
    let t : Service := s.service.withBroker
      { s.service.broker with queues := fun id => if id = 0 then [] else s.service.broker.queues id }
    let output : Output := .response (.channelEvent message.channel ⟨"", 0, message.data⟩)
    Handler.step config json s.service ⟨0, .grpc, .waiting, trace⟩ .event =
      some (t, ⟨0, .grpc, .sending output .loop .leave, trace⟩) := by
  simp only [Handler.step, Handler.event, if_true, awaits.queue, Service.step, awaits.connected,
    Option.bind_some, Broker.receive, Option.map_some]
  rfl

/-- The handler takes the message and sends it to the client. -/
theorem Awaits.event (config : ClientConfig) (json : AttributesJson)
    (awaits : Awaits tenantId topic [message] inbox s) : ∃ t,
    run (Server.step config json) s [.turn 0 .event, .turn 0 (.sent true)] = some t ∧
      Awaits tenantId topic [] inbox t := by
  obtain ⟨trace, handlers, acknowledged⟩ := awaits.handler
  let output : Output := .response (.channelEvent message.channel ⟨"", 0, message.data⟩)
  let t : Service := s.service.withBroker
    { s.service.broker with queues := fun id => if id = 0 then [] else s.service.broker.queues id }
  let trace' : Trace := { trace with sends := trace.sends ++ [(output, true)] }
  have taken : s.step config json (.turn 0 .event) =
      some ⟨t, [⟨0, .grpc, .sending output .loop .leave, trace⟩]⟩ := by
    have moved := awaits.step config json trace
    simp only [Server.step, Server.handler, handlers]
    change (Handler.step config json s.service ⟨0, .grpc, .waiting, trace⟩ .event).map _ = _
    rw [moved]
    rfl
  have sent : Server.step config json ⟨t, [⟨0, .grpc, .sending output .loop .leave, trace⟩]⟩
      (.turn 0 (.sent true)) = some ⟨t, [⟨0, .grpc, .waiting, trace'⟩]⟩ := rfl
  refine ⟨_, run_cons_iff.mpr ⟨_, taken, run_cons_iff.mpr ⟨_, sent, rfl⟩⟩, ⟨trace', rfl, ?_⟩,
    awaits.connection, awaits.listener, rfl, awaits.owned⟩
  exact List.mem_append_left _ acknowledged

theorem Awaits.receives (config : ClientConfig) (json : AttributesJson)
    (awaits : Awaits tenantId topic [message] inbox s) : ∃ h,
    Receives config json tenantId topic message s h
      (.channelEvent message.channel ⟨"", 0, message.data⟩) := by
  obtain ⟨trace, handlers, acknowledged⟩ := awaits.handler
  refine ⟨⟨0, .grpc, .waiting, trace⟩, ?_, rfl, ⟨_, awaits.connected, rfl⟩, acknowledged,
    ⟨[], awaits.queue⟩, _, _, .loop, .leave, awaits.step config json trace, rfl⟩
  rw [Server.handler, handlers]
  rfl

/-- What is ahead of a message is handed out first. -/
theorem Awaits.drain (config : ClientConfig) (json : AttributesJson)
    (awaits : Awaits tenantId topic [] (inbox ++ rest) s) : ∃ schedule t,
    run (Server.step config json) s schedule = some t ∧ Awaits tenantId topic [] rest t := by
  induction inbox generalizing s with
  | nil => exact ⟨[], s, rfl, awaits⟩
  | cons message inbox ih =>
    obtain ⟨u, delivered, queued⟩ := awaits.deliver config json
    obtain ⟨v, handed, emptied⟩ := queued.event config json
    obtain ⟨schedule, t, later, reached⟩ := ih emptied
    exact ⟨_, t, run_cons_iff.mpr ⟨u, delivered, run_append_iff.mpr ⟨v, handed, later⟩⟩, reached⟩

end Awaits

/-- A client arrives and subscribes to the topic. -/
def joins (tenantId topic : String) : List Server.Action :=
  (.accept .grpc 0 tenantId "c" none :: List.replicate 3 (.turn 0 (.call true)) ++
    [.turn 0 (.sent true)]) ++
  (.turn 0 (.message (.request (some (.topicSubscriptionRequest topic)))) ::
    List.replicate 3 (.turn 0 (.add true "")) ++ [.turn 0 (.sent true)])

/-- The client has been told that it is connected. -/
def connectedServer (tenantId : String) : Server where
  service := {
    broker := {
      subscriptions := [⟨0, 0, []⟩]
      listeners := [⟨⟨0, none, 0⟩, [clientChannel tenantId "c"], [], true, false, true⟩]
      queues := fun _ => []
      dropped := []
      activeTopicListeners := 0
      delivered := [] }
    devices := []
    connections := [⟨0, tenantId, "c", none, .subscribed⟩]
    adding := []
    next := 1
    gauge := 1
    messagesPublished := 0 }
  handlers := [⟨0, .grpc, .waiting, true, 0, [], [(.response (.connectAck okStatus), true)]⟩]

/-- It has been told that it is subscribed to the topic. -/
def subscribedServer (tenantId topic : String) : Server where
  service := {
    broker := {
      subscriptions := [⟨0, 0, [(topicChannel tenantId topic, 1)]⟩]
      listeners := [⟨⟨0, none, 0⟩, [clientChannel tenantId "c"], [], true, false, true⟩,
        ⟨topicTask tenantId topic, [topicChannel tenantId topic], [], true, false, true⟩]
      queues := fun _ => []
      dropped := []
      activeTopicListeners := 1
      delivered := [] }
    devices := []
    connections := [⟨0, tenantId, "c", none, .subscribed⟩]
    adding := []
    next := 2
    gauge := 1
    messagesPublished := 0 }
  handlers := [⟨0, .grpc, .waiting, true, 0, [(.subscribe topic, true)],
    [(.response (.connectAck okStatus), true),
      (.response (.topicSubscriptionRequestAck topic okStatus), true)]⟩]

theorem subscribed_awaits (tenantId topic : String) :
    Awaits tenantId topic [] [] (subscribedServer tenantId topic) where
  handler := ⟨_, rfl, List.mem_cons_of_mem _ List.mem_cons_self⟩
  connection := rfl
  listener := by simp [subscribedServer, Broker.lookup, topicTask]
  queue := rfl
  owned := rfl

theorem scopedTopic_named (named : tenantId ≠ "") (topical : topic ≠ "") :
    scopedTopic tenantId topic = .ok (topicChannel tenantId topic) := by
  have present : tenantId.isEmpty = false := by simpa using named
  have present' : topic.isEmpty = false := by simpa using topical
  simp only [scopedTopic, present, present', refuse]
  rfl

/-- Such a client exists for each topic. -/
theorem exists_awaits (config : ClientConfig) (json : AttributesJson) (named : tenantId ≠ "")
    (topical : topic ≠ "") : ∃ s,
    run (Server.step config json) .initial (joins tenantId topic) = some s ∧
      Awaits tenantId topic [] [] s := by
  have channels : clientChannels config tenantId "c" none = .ok [clientChannel tenantId "c"] :=
    clientChannels_plain named (by decide)
  have checked := scopedTopic_named named topical
  have arrives : run (Server.step config json) .initial
      (.accept .grpc 0 tenantId "c" none :: List.replicate 3 (.turn 0 (.call true)) ++
        [.turn 0 (.sent true)]) = some (connectedServer tenantId) := by
    refine run_cons_iff.mpr ⟨⟨{ Service.initial with
        broker := Broker.empty.register 0 0
        connections := [⟨0, tenantId, "c", none, .opening 0 false [clientChannel tenantId "c"]⟩]
        next := 1 }, [⟨0, .grpc, .subscribing, false, 0, [], []⟩]⟩, ?_, ?_⟩
    · simp only [Server.step, Service.step, channels]
      rfl
    · obtain ⟨header, deviceHeader, supported, attributes⟩ := config
      cases supported <;> rfl
  refine ⟨subscribedServer tenantId topic, run_append_iff.mpr ⟨_, arrives, ?_⟩, subscribed_awaits _ _⟩
  simp [run, connectedServer, Server.step, Server.handler, Handler.step, Handler.handleClientRequest,
    Handler.topicSubscribe, Service.connection, checked, Broker.checkAdd, Service.step,
    Handler.enter, updateWhere, Handler.added, Adding.result, Service.advanceAdd, Handler.reply,
    Handler.sent, Handler.proceed, Broker.connect, Broker.listen, Broker.modify, Broker.finishAdd,
    Broker.shutdown, Broker.start, Broker.ActiveSubscription.topicTasks, subscribedServer, topicTask,
    TopicRequest.ack, Except.isOk, Except.toBool]

section Calls
variable {h : GrpcPushHandler} {clock : Option UInt64} {metadata : HeaderMap}
  {publisher : AuthContext}

/-- Each event that a topic call gets to Redis reaches a client in some run. -/
theorem exists_receives (json : AttributesJson) (rpc : SendRpc)
    (req : Proto.SendEventToTopicRequest) (answers : List (Reply × String))
    (authorized : h.authorizePublisher clock metadata = .ok publisher)
    (asked : req ∈ rpc.topicRequests)
    (sent : req.message publisher.tenantId ∈
      taken h.clientConfig (rpc.topicRequests.map (·.send publisher.tenantId)) answers) :
    ∃ past s later t receiver,
      run (Server.step h.clientConfig json) .initial past = some s ∧
      run (Server.step h.clientConfig json)
        ⟨(exec (h.send clock metadata rpc) ⟨s.service, answers, []⟩).2.service, s.handlers⟩
        later = some t ∧
      Receives h.clientConfig json publisher.tenantId req.topic (req.message publisher.tenantId) t
        receiver (.channelEvent (topicChannel publisher.tenantId req.topic)
          ⟨"", 0, (req.send publisher.tenantId).event⟩) := by
  obtain ⟨-, checked⟩ := mem_taken sent
  have named : publisher.tenantId ≠ "" ∧ req.topic ≠ "" := by
    simp only [Proto.SendEventToTopicRequest.message, Proto.SendEventToTopicRequest.send,
      Send.channel, publishToTopic, refuse_bind_ok] at checked
    exact ⟨by simpa using checked.1, by simpa using checked.2.1⟩
  obtain ⟨s, reached, awaits⟩ := exists_awaits h.clientConfig json named.1 named.2
  have called := awaits.sends h.clientConfig
    (rpc.topicRequests.map (·.send publisher.tenantId)) answers
  rw [← send_topics authorized asked] at called
  -- the call may send other messages to the topic before this one
  have heard : req.message publisher.tenantId ∈
      onChannel (topicChannel publisher.tenantId req.topic)
        (taken h.clientConfig (rpc.topicRequests.map (·.send publisher.tenantId)) answers) :=
    List.mem_filter.mpr ⟨sent, decide_eq_true rfl⟩
  obtain ⟨before, after, split⟩ := List.append_of_mem heard
  rw [split, List.nil_append] at called
  obtain ⟨schedule, t, drained, waiting⟩ := called.drain h.clientConfig json
  obtain ⟨u, delivered, queued⟩ := waiting.deliver h.clientConfig json
  obtain ⟨receiver, receives⟩ := queued.receives h.clientConfig json
  have later := run_append_iff.mpr ⟨t, drained, run_cons_iff.mpr ⟨u, delivered, run_nil⟩⟩
  exact ⟨_, s, _, u, receiver, reached, later, receives⟩

end Calls

/-- A topic call loses the name, the format and the topic of every event: what a subscribed
client is handed is never what was sent. -/
theorem topicEvent_never_faithful (h : GrpcPushHandler) (clock : Option UInt64)
    (metadata : HeaderMap) (json : AttributesJson) (rpc : SendRpc)
    (answers : List (Reply × String)) (req : Proto.SendEventToTopicRequest)
    (authorized : h.authorizePublisher clock metadata = .ok publisher)
    (asked : req ∈ rpc.topicRequests) (carried : req.event = some event)
    (sent : req.message publisher.tenantId ∈
      taken h.clientConfig (rpc.topicRequests.map (·.send publisher.tenantId)) answers) :
    ¬ Faithful h clock metadata json rpc answers publisher.tenantId req := by
  intro faithful
  obtain ⟨past, s, later, t, receiver, reached, after, receives⟩ :=
    exists_receives json rpc req answers authorized asked sent
  have equal := faithful past s later t receiver _ reached after receives event carried
  simp only [Proto.ChannelResponse.channelEvent.injEq] at equal
  exact topicChannel_ne _ _ equal.1

/-- The first request of the sample call. -/
def sampleRequest : Proto.SendEventToTopicRequest := ⟨"news", some ⟨"update", 0, [104, 105]⟩⟩

theorem sample_publisher : sampleHandler.authorizePublisher (some 1771000000) sampleHeaders =
    .ok sampleContext := by
  have enabled : authorizeApiKeyGrpc sampleAuth sampleHeaders = .ok () := by decide +kernel
  have admitted : authenticateGrpc sampleCrates (some 1771000000) sampleAuth sampleHeaders
      sampleClient = .ok (sampleContext, false) := by decide +kernel
  simp only [GrpcPushHandler.authorizePublisher, GrpcPushHandler.authClient, sampleHandler,
    enabled, admitted]
  rfl

theorem sample_not_faithful : ¬ Faithful sampleHandler (some 1771000000) sampleHeaders plainJson
    sampleTopics [] "tenant_1" sampleRequest :=
  topicEvent_never_faithful sampleHandler _ _ plainJson sampleTopics [] sampleRequest sample_publisher
    List.mem_cons_self rfl (by decide +kernel)

/-- The client is handed an event without name on `tenant:tenant_1:topic:news`. -/
theorem update_handed_nameless : ¬ ∀ (h : GrpcPushHandler) (clock : Option UInt64)
    (metadata : HeaderMap) (json : AttributesJson) (rpc : SendRpc)
    (answers : List (Reply × String)) (publisher : AuthContext)
    (req : Proto.SendEventToTopicRequest) (event : Proto.Event),
    h.authorizePublisher clock metadata = .ok publisher → req ∈ rpc.topicRequests →
    req.event = some event → event.data ≠ [] →
    req.message publisher.tenantId ∈
      taken h.clientConfig (rpc.topicRequests.map (·.send publisher.tenantId)) answers →
    Faithful h clock metadata json rpc answers publisher.tenantId req := by
  intro claim
  have sent : sampleRequest.message "tenant_1" ∈
      taken sampleClient (sampleTopics.topicRequests.map (·.send "tenant_1")) [] := by decide +kernel
  have faithful := claim sampleHandler (some 1771000000) sampleHeaders plainJson sampleTopics []
    sampleContext sampleRequest _ sample_publisher List.mem_cons_self rfl (by decide) sent
  obtain ⟨past, s, later, t, receiver, reached, after, receives⟩ :=
    exists_receives plainJson sampleTopics sampleRequest [] sample_publisher List.mem_cons_self sent
  have equal := faithful past s later t receiver _ reached after receives _ rfl
  exact absurd equal (by decide)

end Propeller
