import PaymentProcessing.Hashes
import PaymentProcessing.Transition
import PaymentProcessing.Propeller.Broker
import PaymentProcessing.Propeller.Channels
import PaymentProcessing.Propeller.Config
import PaymentProcessing.Propeller.Error

/-! `PushService` as its two front ends use it: any number of connections, each in its
own `subscribe_client`, topic requests and `unsubscribe_client`, interleaved at every
await with each other, with publishers and with the tasks of the broker. -/
namespace Propeller
open Relational Hashes

structure Device where
  id : String
  attributes : List (String × String)
  deriving DecidableEq, Repr

structure SendEventToClientRequest where
  tenantId : String
  clientId : String
  eventName : String
  event : List UInt8
  deriving DecidableEq, Repr

structure SendEventToClientDeviceRequest where
  tenantId : String
  clientId : String
  deviceId : String
  eventName : String
  event : List UInt8
  deriving DecidableEq, Repr

structure SendEventToTopicRequest where
  tenantId : String
  topic : String
  eventName : String
  event : List UInt8
  deriving DecidableEq, Repr

section Operations
variable (config : ClientConfig)

/-- The checks of `subscribe_client` and the channels it subscribes to. -/
def clientChannels (tenantId clientId : String) (device : Option Device) :
    Except PropellerError (List String) := do
  refuse tenantId.isEmpty (.invalidArgument "tenant id is required")
  refuse clientId.isEmpty (.invalidArgument "client id is required")
  match config.enableDeviceSupport, device with
  | true, some dev =>
      refuse dev.id.isEmpty (.invalidArgument "device id is required when device support is enabled")
      return [clientChannel tenantId clientId, deviceChannel tenantId clientId dev.id]
  | _, _ => return [clientChannel tenantId clientId]

/-- The checks of `publish_to_client` and its channel. -/
def publishToClient (req : SendEventToClientRequest) : Except PropellerError String := do
  refuse req.tenantId.isEmpty (.invalidArgument "tenant id is empty")
  refuse req.clientId.isEmpty (.invalidArgument "client id is empty")
  refuse req.event.isEmpty (.invalidArgument "event is empty")
  return clientChannel req.tenantId req.clientId

/-- The checks of `publish_to_client_device`, which do not look at the tenant. -/
def publishToClientDevice (req : SendEventToClientDeviceRequest) : Except PropellerError String := do
  refuse (!config.enableDeviceSupport) (.failedPrecondition "device support is disabled")
  refuse req.clientId.isEmpty (.invalidArgument "client id is empty")
  refuse req.deviceId.isEmpty (.invalidArgument "device id is empty")
  refuse req.event.isEmpty (.invalidArgument "event is empty")
  return deviceChannel req.tenantId req.clientId req.deviceId

def publishToTopic (req : SendEventToTopicRequest) : Except PropellerError String := do
  refuse req.tenantId.isEmpty (.invalidArgument "tenant id is empty")
  refuse req.topic.isEmpty (.invalidArgument "topic is empty")
  refuse req.event.isEmpty (.invalidArgument "event is empty")
  return topicChannel req.tenantId req.topic

/-- The checks that `topic_subscribe` and `topic_unsubscribe` share, and their channel. -/
def scopedTopic (tenantId topic : String) : Except PropellerError String := do
  refuse topic.isEmpty (.invalidArgument "topic is empty")
  refuse tenantId.isEmpty (.invalidArgument "tenant id is empty")
  return topicChannel tenantId topic

/-- One publish. `publish_to_topics` is `toTopic` for each request in turn, up to the
first error. -/
inductive Send where
  | toClient (req : SendEventToClientRequest)
  | toDevice (req : SendEventToClientDeviceRequest)
  | toTopic (req : SendEventToTopicRequest)
  deriving DecidableEq, Repr

def Send.channel : Send → Except PropellerError String
  | .toClient req => publishToClient req
  | .toDevice req => publishToClientDevice config req
  | .toTopic req => publishToTopic req

def Send.tenant : Send → String
  | .toClient req => req.tenantId
  | .toDevice req => req.tenantId
  | .toTopic req => req.tenantId

def Send.event : Send → List UInt8
  | .toClient req => req.event
  | .toDevice req => req.event
  | .toTopic req => req.event

end Operations

/-- The fields of the Redis hashes behind `RedisKV`. -/
abbrev HashField := Hashes.Entry String String String

/-- `serde_json` on the attributes of a device. -/
structure AttributesJson where
  encode : List (String × String) → String
  decode : String → Option (List (String × String))

/-- `serde_json` on devices without attributes. -/
def plainJson : AttributesJson := ⟨fun _ => "\x7b\x7d", fun _ => some []⟩

def deviceKey (tenantId clientId : String) : String := tenantId ++ ":" ++ clientId

/-- Where a front end stands with its subscription. -/
inductive Phase where
  /-- In `RedisPubSub::subscribe`: task number, whether connected, channels to go. -/
  | opening (number : Nat) (connected : Bool) (todo : List String)
  /-- In `subscribe_client`, at `kv.store`. -/
  | storing
  | subscribed
  /-- In `unsubscribe_client`, at `kv.delete`. -/
  | deleting
  /-- In `unsubscribe_client`, at `pubsub.unsubscribe`. -/
  | leaving
  | closed
  /-- `subscribe_client` returned an error. -/
  | failed
  /-- The handler returned between the two calls, when its acknowledgement failed. -/
  | abandoned
  deriving DecidableEq, Repr

structure Connection where
  sub : Uuid
  tenantId : String
  clientId : String
  device : Option Device
  phase : Phase
  deriving DecidableEq, Repr

/-- The device that `subscribe_client` and `unsubscribe_client` register. -/
def Connection.registered (config : ClientConfig) (c : Connection) : Option Device :=
  if config.enableDeviceSupport then c.device else none

inductive AddPhase where
  | connecting | subscribing | inserting
  deriving DecidableEq, Repr

/-- An `add_subscription` past its checks; it holds the registry entry until its end. -/
structure Adding where
  task : TaskId
  channel : String
  phase : AddPhase
  deriving DecidableEq, Repr

structure Service where
  broker : Broker Send
  devices : List HashField
  connections : List Connection
  adding : List Adding
  /-- Number of the next task. -/
  next : Nat
  /-- The metrics `connections` and `messages_published`. -/
  gauge : BitVec 64
  messagesPublished : BitVec 64

/-- What became of a `PUBLISH`: it can take effect and still be answered by an error. -/
inductive Reply where
  | ok | lost | refused
  deriving DecidableEq, Repr

inductive Action where
  | connect (sub : Uuid) (tenantId clientId : String) (device : Option Device)
  /-- The awaited call of a connection ends, well or with an error. -/
  | advance (sub : Uuid) (ok : Bool)
  | disconnect (sub : Uuid)
  | abandon (sub : Uuid)
  | topicSubscribe (sub : Uuid) (topic : String)
  | advanceAdd (task : TaskId) (ok : Bool)
  | topicUnsubscribe (sub : Uuid) (topic : String)
  | publish (send : Send) (reply : Reply)
  | deliver (task : TaskId)
  | stop (task : TaskId)
  | hangUp (task : TaskId)
  | endOfStream (task : TaskId)
  | receive (sub : Uuid)
  | drop (sub : Uuid)
  deriving DecidableEq, Repr

namespace Service

def initial : Service := ⟨.empty, [], [], [], 0, 0, 0⟩

def connection (s : Service) (sub : Uuid) : Option Connection := s.connections.find? (·.sub = sub)

def enter (s : Service) (sub : Uuid) (phase : Phase) : Service :=
  let set (c : Connection) : Connection := { c with phase := phase }
  { s with connections := updateWhere (·.sub == sub) set s.connections }

def withBroker (s : Service) (broker : Broker Send) : Service := { s with broker := broker }

section Step
variable (config : ClientConfig) (json : AttributesJson)

/-- `kv.store` of the device; an error is logged and ignored. -/
def stored (s : Service) (c : Connection) (ok : Bool) : List HashField :=
  match c.registered config with
  | some dev =>
      if ok then hset s.devices (deviceKey c.tenantId c.clientId) dev.id (json.encode dev.attributes)
      else s.devices
  | none => s.devices

/-- `kv.delete` of the device; an error is logged and ignored. -/
def deleted (s : Service) (c : Connection) (ok : Bool) : List HashField :=
  match c.registered config with
  | some dev => if ok then hdel s.devices (deviceKey c.tenantId c.clientId) dev.id else s.devices
  | none => s.devices

/-- The awaited call of `subscribe_client` or `unsubscribe_client` ends. -/
def advance (s : Service) (c : Connection) (ok : Bool) : Option Service :=
  match c.phase with
  | .opening number false todo =>
      some (if ok then
        (s.withBroker (s.broker.connect ⟨c.sub, none, number⟩)).enter c.sub (.opening number true todo)
      else s.enter c.sub .failed)
  | .opening number true (channel :: todo) =>
      some (if ok then
        (s.withBroker (s.broker.listen ⟨c.sub, none, number⟩ channel)).enter c.sub
          (.opening number true todo)
      else (s.withBroker (s.broker.close ⟨c.sub, none, number⟩)).enter c.sub .failed)
  | .opening number true [] =>
      let started := s.withBroker (s.broker.start ⟨c.sub, none, number⟩)
      some (if (c.registered config).isSome then started.enter c.sub .storing
        else { started.enter c.sub .subscribed with gauge := s.gauge + 1 })
  | .storing =>
      some { s.enter c.sub .subscribed with
        devices := s.stored config json c ok
        gauge := s.gauge + 1 }
  | .deleting => some { s.enter c.sub .leaving with devices := s.deleted config c ok }
  | .leaving =>
      -- the registry entry is held while one of its topics is being added; that its shard is
      -- locked with it only takes steps away, and is in `Server.lockedStep`
      if s.adding.any (·.task.sub = c.sub) then none
      else some { (s.withBroker (s.broker.unsubscribe c.sub)).enter c.sub .closed with
        gauge := s.gauge - 1 }
  | .subscribed | .closed | .failed | .abandoned => none

/-- The awaited call of an `add_subscription` ends. -/
def advanceAdd (s : Service) (a : Adding) (ok : Bool) : Service :=
  let others := s.adding.filter (·.task ≠ a.task)
  let go (phase : AddPhase) (broker : Broker Send) : Service :=
    { s with broker := broker, adding := { a with phase := phase } :: others }
  match a.phase, ok with
  | .connecting, true => go .subscribing (s.broker.connect a.task)
  | .connecting, false => { s with adding := others }
  | .subscribing, true => go .inserting (s.broker.listen a.task a.channel)
  | .subscribing, false => { s with broker := s.broker.close a.task, adding := others }
  | .inserting, _ =>
      { s with broker := s.broker.finishAdd a.channel a.task.sub a.task.number, adding := others }

def step (s : Service) : Action → Option Service
  | .connect sub tenantId clientId device =>
      if (s.connection sub).isSome then none
      else match clientChannels config tenantId clientId device with
        | .error _ => some s
        | .ok channels =>
            some { s with
              broker := s.broker.register sub s.next
              connections := s.connections ++
                [⟨sub, tenantId, clientId, device, .opening s.next false channels⟩]
              next := s.next + 1 }
  | .advance sub ok => (s.connection sub).bind fun c => s.advance config json c ok
  | .disconnect sub =>
      (s.connection sub).bind fun c =>
        if c.phase = .subscribed then
          some (s.enter sub (if (c.registered config).isSome then .deleting else .leaving))
        else none
  | .abandon sub =>
      (s.connection sub).bind fun c =>
        if c.phase = .subscribed then some (s.enter sub .abandoned) else none
  | .topicSubscribe sub topic =>
      (s.connection sub).bind fun c =>
        if c.phase = .subscribed then
          match scopedTopic c.tenantId topic with
          | .error _ => some s
          | .ok channel =>
            match s.broker.checkAdd channel sub with
            | .error _ => some s
            | .ok _ => some { s with
                adding := ⟨⟨sub, some channel, s.next⟩, channel, .connecting⟩ :: s.adding
                next := s.next + 1 }
        else none
  | .advanceAdd task ok => (s.adding.find? (·.task = task)).map fun a => s.advanceAdd a ok
  | .topicUnsubscribe sub topic =>
      (s.connection sub).bind fun c =>
        if c.phase = .subscribed then
          match scopedTopic c.tenantId topic with
          | .error _ => some s
          | .ok channel =>
            match s.broker.removeSubscription channel sub with
            | .error _ => some s
            | .ok broker => some (s.withBroker broker)
        else none
  | .publish send reply =>
      match send.channel config with
      | .error _ => some s
      | .ok channel => some { s with
          broker := if reply = .refused then s.broker else s.broker.publish ⟨channel, send.event, send⟩
          messagesPublished := if reply = .ok then s.messagesPublished + 1 else s.messagesPublished }
  | .deliver task => (s.broker.deliver task).map s.withBroker
  | .stop task => (s.broker.stop task).map s.withBroker
  | .hangUp task => some (s.withBroker (s.broker.hangUp task))
  | .endOfStream task => (s.broker.endOfStream task).map s.withBroker
  | .receive sub =>
      (s.connection sub).bind fun c =>
        if c.phase = .subscribed then (s.broker.receive sub).map fun received => s.withBroker received.2
        else none
  | .drop sub =>
      (s.connection sub).bind fun c =>
        if c.phase = .closed ∨ c.phase = .failed ∨ c.phase = .abandoned then
          some (s.withBroker (s.broker.drop sub))
        else none

end Step

/-- `get_active_devices`; unreadable attributes are answered as none. -/
def getActiveDevices (config : ClientConfig) (json : AttributesJson) (s : Service)
    (tenantId clientId : String) : Except PropellerError (List Device) := do
  refuse (!config.enableDeviceSupport) (.failedPrecondition "device support is disabled")
  refuse clientId.isEmpty (.invalidArgument "client id is empty")
  refuse tenantId.isEmpty (.invalidArgument "tenant id is empty")
  return (hgetall s.devices (deviceKey tenantId clientId)).map fun entry =>
    ⟨entry.1, (json.decode entry.2).getD []⟩

end Service
end Propeller
