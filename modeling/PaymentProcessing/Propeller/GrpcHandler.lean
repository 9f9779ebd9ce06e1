import PaymentProcessing.Effect
import PaymentProcessing.Propeller.Auth
import PaymentProcessing.Propeller.Push

/-! `GrpcPushHandler`: the unary calls. Each send call authorizes its publisher and then
publishes under the publisher's tenant, one message after the other. -/
namespace Propeller
open Effect

namespace Proto

structure Event where
  name : String
  formatType : Int
  data : List UInt8
  deriving DecidableEq, Repr

structure SendEventToClientChannelRequest where
  clientId : String
  event : Option Event
  deriving DecidableEq, Repr

structure SendEventToClientDeviceChannelRequest where
  clientId : String
  deviceId : String
  event : Option Event
  deriving DecidableEq, Repr

structure SendEventToTopicRequest where
  topic : String
  event : Option Event
  deriving DecidableEq, Repr

structure SendEventToTopicsRequest where
  requests : List SendEventToTopicRequest
  deriving DecidableEq, Repr

structure GetClientActiveDevicesRequest where
  clientId : String
  deriving DecidableEq, Repr

structure GetClientActiveDevicesResponse where
  isClientOnline : Bool
  devices : List Device
  deriving DecidableEq, Repr

end Proto

/-- The service as one request sees it, with the broker's answers to come and the
messages that were handed to `PubSub::publish`; nothing reads the latter. -/
structure Outlet where
  service : Service
  /-- Outcomes of the next publishes with the text of their error; well when none is left. -/
  answers : List (Reply × String)
  published : List (Message Send)

/-- `publish_to_client`, `publish_to_client_device` and `publish_to_topic` -/
def publishTo (config : ClientConfig) (send : Send) : Effect Outlet PropellerError Unit :=
  statement fun o =>
    match send.channel config with
    | .error e => (.error e, o)
    | .ok channel =>
      let message : Message Send := ⟨channel, send.event, send⟩
      let (reply, text) := o.answers.headD (.ok, "")
      let s := o.service
      let after : Service := { s with
        broker := if reply = .refused then s.broker else s.broker.publish message
        messagesPublished := if reply = .ok then s.messagesPublished + 1 else s.messagesPublished }
      (if reply = .ok then .ok () else .error (.broker text),
        ⟨after, o.answers.tail, o.published ++ [message]⟩)

def publishToTopics (config : ClientConfig) (requests : List SendEventToTopicRequest) :
    Effect Outlet PropellerError Unit :=
  requests.forM fun req => publishTo config (.toTopic req)

structure GrpcPushHandler where
  crates : Crates
  auth : AuthConfig
  clientConfig : ClientConfig

/-- `extract_event` -/
def extractEvent (event : Option Proto.Event) : List UInt8 × String :=
  match event with
  | some e => (e.data, e.name)
  | none => ([], "")

namespace GrpcPushHandler
variable (h : GrpcPushHandler) (clock : Option UInt64) (metadata : HeaderMap)

def authClient : Except Status (AuthContext × Bool) :=
  (authenticateGrpc h.crates clock h.auth metadata h.clientConfig).mapError Status.ofError

def authorizePublisher : Except Status AuthContext := do
  (authorizeApiKeyGrpc h.auth metadata).mapError Status.ofError
  let (ctx, _) ← h.authClient clock metadata
  return ctx

def sendEventToClientChannel (req : Proto.SendEventToClientChannelRequest) :
    Effect Outlet Status Unit := do
  let publisher ← ofResult (h.authorizePublisher clock metadata)
  let (bytes, name) := extractEvent req.event
  mapError Status.ofError
    (publishTo h.clientConfig (.toClient ⟨publisher.tenantId, req.clientId, name, bytes⟩))

def sendEventToClientDeviceChannel (req : Proto.SendEventToClientDeviceChannelRequest) :
    Effect Outlet Status Unit := do
  let publisher ← ofResult (h.authorizePublisher clock metadata)
  let (bytes, name) := extractEvent req.event
  mapError Status.ofError (publishTo h.clientConfig
    (.toDevice ⟨publisher.tenantId, req.clientId, req.deviceId, name, bytes⟩))

def sendEventToTopic (req : Proto.SendEventToTopicRequest) : Effect Outlet Status Unit := do
  let publisher ← ofResult (h.authorizePublisher clock metadata)
  let (bytes, name) := extractEvent req.event
  mapError Status.ofError
    (publishTo h.clientConfig (.toTopic ⟨publisher.tenantId, req.topic, name, bytes⟩))

def sendEventToTopics (req : Proto.SendEventToTopicsRequest) : Effect Outlet Status Unit := do
  let publisher ← ofResult (h.authorizePublisher clock metadata)
  let topicRequests : List SendEventToTopicRequest := req.requests.map fun r =>
    let (bytes, name) := extractEvent r.event
    ⟨publisher.tenantId, r.topic, name, bytes⟩
  mapError Status.ofError (publishToTopics h.clientConfig topicRequests)

/-- The rest of `get_client_active_devices` for a viewer that authenticated; `load` is the
outcome of `kv.load`. -/
def viewerDevices (config : ClientConfig) (json : AttributesJson) (s : Service)
    (load : Except String Unit) (viewer : AuthContext) (req : Proto.GetClientActiveDevicesRequest) :
    Except Status Proto.GetClientActiveDevicesResponse := do
  let clientId ←
    if req.clientId.isEmpty then .ok viewer.clientId
    else if req.clientId ≠ viewer.clientId then
      .error (Status.ofError (.permissionDenied "client id mismatch"))
    else .ok req.clientId
  let devices ← ((s.getActiveDevices config json viewer.tenantId clientId).bind fun found =>
    (load.mapError .internal).map fun _ => found).mapError Status.ofError
  return ⟨!devices.isEmpty, devices⟩

end GrpcPushHandler

/-- A request to one of the four send calls. -/
inductive SendRpc where
  | clientChannel (req : Proto.SendEventToClientChannelRequest)
  | clientDeviceChannel (req : Proto.SendEventToClientDeviceChannelRequest)
  | topic (req : Proto.SendEventToTopicRequest)
  | topics (req : Proto.SendEventToTopicsRequest)
  deriving DecidableEq, Repr

def GrpcPushHandler.send (h : GrpcPushHandler) (clock : Option UInt64) (metadata : HeaderMap) :
    SendRpc → Effect Outlet Status Unit
  | .clientChannel req => h.sendEventToClientChannel clock metadata req
  | .clientDeviceChannel req => h.sendEventToClientDeviceChannel clock metadata req
  | .topic req => h.sendEventToTopic clock metadata req
  | .topics req => h.sendEventToTopics clock metadata req

end Propeller
