import PaymentProcessing.Propeller.Isolation

/-! The guards on empty ids. The operations of the push service repeat them by hand before
they turn to the broker or to the device store; `publish_to_client_device` lacks the one on
the tenant. -/
namespace Propeller
open Relational Hashes Transition

/-- A channel, or a key of the device store, by the ids that it is built from. -/
inductive Address where
  | client (tenantId clientId : String)
  | device (tenantId clientId deviceId : String)
  | topic (tenantId topic : String)
  | entries (tenantId clientId : String)
  deriving DecidableEq, Repr

def Address.text : Address → String
  | .client tenantId clientId => clientChannel tenantId clientId
  | .device tenantId clientId deviceId => deviceChannel tenantId clientId deviceId
  | .topic tenantId name => topicChannel tenantId name
  | .entries tenantId clientId => deviceKey tenantId clientId

def Address.ids : Address → List String
  | .client tenantId clientId => [tenantId, clientId]
  | .device tenantId clientId deviceId => [tenantId, clientId, deviceId]
  | .topic tenantId name => [tenantId, name]
  | .entries tenantId clientId => [tenantId, clientId]

/-- No segment of the address is empty. -/
def Address.Named (address : Address) : Prop := ∀ id ∈ address.ids, id ≠ ""

/-- The operations of the push service that are given ids. -/
inductive Operation where
  | subscribeClient (tenantId clientId : String) (device : Option Device)
  | publish (send : Send)
  | topicSubscribe (tenantId topic : String)
  | topicUnsubscribe (tenantId topic : String)
  | getActiveDevices (tenantId clientId : String)
  deriving DecidableEq, Repr

/-- The checks of `get_active_devices` and the key that it loads. -/
def activeDevicesKey (config : ClientConfig) (tenantId clientId : String) :
    Except PropellerError String := do
  refuse (!config.enableDeviceSupport) (.failedPrecondition "device support is disabled")
  refuse clientId.isEmpty (.invalidArgument "client id is empty")
  refuse tenantId.isEmpty (.invalidArgument "tenant id is empty")
  return deviceKey tenantId clientId

theorem getActiveDevices_key (config : ClientConfig) (json : AttributesJson) (s : Service)
    (tenantId clientId : String) : s.getActiveDevices config json tenantId clientId =
      (activeDevicesKey config tenantId clientId).map fun key =>
        (hgetall s.devices key).map fun entry => ⟨entry.1, (json.decode entry.2).getD []⟩ := by
  unfold Service.getActiveDevices activeDevicesKey refuse
  cases !config.enableDeviceSupport <;> cases clientId.isEmpty <;> cases tenantId.isEmpty <;> rfl

namespace Operation

/-- The checks of the operation; the texts are what it then calls the broker or the device
store with. -/
def checks (config : ClientConfig) : Operation → Except PropellerError (List String)
  | .subscribeClient tenantId clientId device => clientChannels config tenantId clientId device
  | .publish send => (send.channel config).map fun channel => [channel]
  | .topicSubscribe tenantId topic | .topicUnsubscribe tenantId topic =>
      (scopedTopic tenantId topic).map fun channel => [channel]
  | .getActiveDevices tenantId clientId =>
      (activeDevicesKey config tenantId clientId).map fun key => [key]

/-- What the operation addresses; a device only with device support. -/
def addresses (config : ClientConfig) : Operation → List Address
  | .subscribeClient tenantId clientId device =>
      match config.enableDeviceSupport, device with
      | true, some dev => [.client tenantId clientId, .device tenantId clientId dev.id]
      | _, _ => [.client tenantId clientId]
  | .publish (.toClient req) => [.client req.tenantId req.clientId]
  | .publish (.toDevice req) => [.device req.tenantId req.clientId req.deviceId]
  | .publish (.toTopic req) => [.topic req.tenantId req.topic]
  | .topicSubscribe tenantId topic | .topicUnsubscribe tenantId topic => [.topic tenantId topic]
  | .getActiveDevices tenantId clientId => [.entries tenantId clientId]

/-- The event of a publish. -/
def event : Operation → Option (List UInt8)
  | .publish send => some send.event
  | _ => none

/-- No id that the operation addresses is empty, nor the event that it publishes. -/
def Complete (config : ClientConfig) (op : Operation) : Prop :=
  (∀ address ∈ op.addresses config, address.Named) ∧ op.event ≠ some []

/-- An empty id or event makes the operation fail in its checks. -/
def Guarded (config : ClientConfig) (op : Operation) : Prop :=
  ¬ op.Complete config → ∃ e, op.checks config = .error e

/-- A device publish that lacks its tenant and nothing else. -/
def Forgets (config : ClientConfig) : Operation → Prop
  | .publish (.toDevice req) => config.enableDeviceSupport = true ∧ req.tenantId = "" ∧
      req.clientId ≠ "" ∧ req.deviceId ≠ "" ∧ req.event ≠ []
  | _ => False

/-- The calls of the broker and the device store that the checks let through. -/
def uses (config : ClientConfig) (op : Operation) : List Address :=
  match op.checks config with
  | .error _ => []
  | .ok _ => op.addresses config

section Checks
variable {config : ClientConfig} {op : Operation} {texts : List String}

theorem plain_addresses (tenantId clientId : String)
    (plain : ∀ dev, config.enableDeviceSupport = true → device = some dev → False) :
    (Operation.subscribeClient tenantId clientId device).addresses config =
      [.client tenantId clientId] := by
  rw [addresses]
  exact plain

/-- What passes the checks is called as it is addressed, and lacks at most its tenant. -/
theorem checks_ok (passed : op.checks config = .ok texts) :
    texts = (op.addresses config).map Address.text ∧ (op.Complete config ∨ op.Forgets config) := by
  cases op with
  | subscribeClient tenantId clientId device =>
    simp only [checks, clientChannels, refuse_bind_ok, ← Bool.not_eq_true, String.isEmpty_iff]
      at passed
    obtain ⟨tenant, client, passed⟩ := passed
    split at passed
    · rename_i dev support
      simp only [refuse_bind_ok, ← Bool.not_eq_true, String.isEmpty_iff] at passed
      obtain ⟨named, ⟨⟩⟩ := passed
      simp [addresses, support, Address.text, Complete, event, Address.Named, Address.ids, tenant,
        client, named]
    · rename_i plain
      cases passed
      have only := plain_addresses tenantId clientId plain
      simp [only, Address.text, Complete, event, Address.Named, Address.ids, tenant, client]
  | publish send =>
    obtain ⟨channel, named, rfl⟩ := map_ok.mp passed
    cases send with
    | toClient req =>
      simp only [Send.channel, publishToClient, refuse_bind_ok, ← Bool.not_eq_true,
        String.isEmpty_iff, List.isEmpty_iff] at named
      obtain ⟨tenant, client, payload, ⟨⟩⟩ := named
      simp [addresses, Address.text, Complete, event, Send.event, Address.Named, Address.ids,
        tenant, client, payload]
    | toDevice req =>
      simp only [Send.channel, publishToClientDevice, refuse_bind_ok, ← Bool.not_eq_true,
        String.isEmpty_iff, List.isEmpty_iff] at named
      obtain ⟨support, client, device, payload, ⟨⟩⟩ := named
      have support : config.enableDeviceSupport = true := by simpa using support
      by_cases tenant : req.tenantId = ""
      · exact ⟨rfl, Or.inr ⟨support, tenant, client, device, payload⟩⟩
      · simp [addresses, Address.text, Complete, event, Send.event, Address.Named, Address.ids,
          tenant, client, device, payload]
    | toTopic req =>
      simp only [Send.channel, publishToTopic, refuse_bind_ok, ← Bool.not_eq_true,
        String.isEmpty_iff, List.isEmpty_iff] at named
      obtain ⟨tenant, topic, payload, ⟨⟩⟩ := named
      simp [addresses, Address.text, Complete, event, Send.event, Address.Named, Address.ids,
        tenant, topic, payload]
  | topicSubscribe tenantId topic | topicUnsubscribe tenantId topic =>
    obtain ⟨channel, named, rfl⟩ := map_ok.mp passed
    simp only [scopedTopic, refuse_bind_ok, ← Bool.not_eq_true, String.isEmpty_iff] at named
    obtain ⟨target, tenant, ⟨⟩⟩ := named
    simp [addresses, Address.text, Complete, event, Address.Named, Address.ids, tenant, target]
  | getActiveDevices tenantId clientId =>
    obtain ⟨key, named, rfl⟩ := map_ok.mp passed
    simp only [activeDevicesKey, refuse_bind_ok, ← Bool.not_eq_true, String.isEmpty_iff] at named
    obtain ⟨-, client, tenant, ⟨⟩⟩ := named
    simp [addresses, Address.text, Complete, event, Address.Named, Address.ids, tenant, client]

/-- The checks of a device publish let an empty tenant through. -/
theorem Forgets.passes (forgets : op.Forgets config) :
    ¬ op.Complete config ∧ ∃ texts, op.checks config = .ok texts := by
  cases op with
  | publish send =>
    cases send with
    | toDevice req =>
      obtain ⟨support, tenant, client, device, payload⟩ := forgets
      constructor
      · rintro ⟨named, -⟩
        exact named _ List.mem_cons_self req.tenantId List.mem_cons_self tenant
      · refine ⟨_, map_ok.mpr ⟨deviceChannel req.tenantId req.clientId req.deviceId, ?_, rfl⟩⟩
        simp [Send.channel, publishToClientDevice, refuse, support, client, device, payload, bind,
          Except.bind, pure, Except.pure]
    | toClient | toTopic => cases forgets
  | _ => cases forgets

/-- An operation is guarded unless it is such a publish. -/
theorem guarded_iff (config : ClientConfig) (op : Operation) :
    op.Guarded config ↔ ¬ op.Forgets config := by
  constructor
  · intro guarded forgets
    obtain ⟨incomplete, texts, passed⟩ := forgets.passes
    obtain ⟨e, failed⟩ := guarded incomplete
    cases passed.symm.trans failed
  · intro remembers incomplete
    cases checked : op.checks config with
    | error e => exact ⟨e, rfl⟩
    | ok texts =>
      rcases (checks_ok checked).2 with complete | forgets
      · exact absurd complete incomplete
      · exact absurd forgets remembers

theorem uses_named (remembers : ¬ op.Forgets config) : ∀ address ∈ op.uses config, address.Named := by
  intro address used
  unfold uses at used
  split at used
  · cases used
  · rename_i texts passed
    rcases (checks_ok passed).2 with complete | forgets
    · exact complete.1 address used
    · exact absurd forgets remembers

theorem Forgets.uses (forgets : op.Forgets config) : ∃ address ∈ op.uses config, ¬ address.Named := by
  obtain ⟨-, texts, passed⟩ := forgets.passes
  rw [Operation.uses, passed]
  cases op with
  | publish send =>
    cases send with
    | toDevice req =>
      refine ⟨_, List.mem_cons_self, fun named => ?_⟩
      exact named req.tenantId List.mem_cons_self forgets.2.1
    | toClient | toTopic => cases forgets
  | _ => cases forgets

end Checks
end Operation

/-- A step of the service, or a query for the devices of a client. -/
inductive Request where
  | act (action : Action)
  | activeDevices (tenantId clientId : String)
  deriving DecidableEq, Repr

/-- The operation that a request begins. -/
def Request.begins (s : Service) : Request → Option Operation
  | .act (.connect _ tenantId clientId device) => some (.subscribeClient tenantId clientId device)
  | .act (.topicSubscribe sub topic) =>
      (s.connection sub).map fun c => .topicSubscribe c.tenantId topic
  | .act (.topicUnsubscribe sub topic) =>
      (s.connection sub).map fun c => .topicUnsubscribe c.tenantId topic
  | .act (.publish send _) => some (.publish send)
  | .activeDevices tenantId clientId => some (.getActiveDevices tenantId clientId)
  | .act _ => none

/-- The key under which `subscribe_client` stores a device and `unsubscribe_client` deletes it. -/
def Connection.uses (config : ClientConfig) (c : Connection) : List Address :=
  match c.phase, c.registered config with
  | .storing, some _ | .deleting, some _ => [.entries c.tenantId c.clientId]
  | _, _ => []

/-- The calls of the broker and of the device store in a step, by what they name. -/
def Request.uses (config : ClientConfig) (s : Service) (r : Request) : List Address :=
  ((r.begins s).map (·.uses config)).getD [] ++
    match r with
    | .act (.advance sub _) => ((s.connection sub).map (·.uses config)).getD []
    | _ => []

def Request.Forgets (config : ClientConfig) : Request → Prop
  | .act (.publish send _) => (Operation.publish send).Forgets config
  | _ => False

namespace Service
variable {config : ClientConfig} {json : AttributesJson} {s t : Service} {r : Request}

def serve (config : ClientConfig) (json : AttributesJson) (s : Service) : Request → Option Service
  | .act action => step config json s action
  | .activeDevices _ _ => some s

/-- The step refuses what its operation is not to accept, and names no empty segment. -/
structure Careful (config : ClientConfig) (json : AttributesJson) (s : Service) (r : Request) :
    Prop where
  refuses : ∀ op, r.begins s = some op → ¬ op.Complete config →
    (∃ e, op.checks config = .error e) ∧ ∀ t, serve config json s r = some t → t = s
  named : ∀ address ∈ r.uses config s, address.Named

/-- Connections are of named tenants and clients. -/
def Introduced (s : Service) : Prop := ∀ c ∈ s.connections, c.tenantId ≠ "" ∧ c.clientId ≠ ""

theorem introduced_enter (before : s.Introduced) (same : t.connections = (s.enter sub phase).connections) :
    t.Introduced := by
  intro c member
  rw [same] at member
  obtain ⟨old, present, rfl⟩ := (mem_enter s sub phase c).mp member
  have kept := before old present
  split
  · exact kept
  · exact kept

theorem step_introduced (before : s.Introduced) (stepped : step config json s a = some t) :
    t.Introduced := by
  rcases (step_moves stepped).connections with same | ⟨sub, phase, same⟩ | ⟨c, channels, -, checked, grown⟩
  · intro c member
    exact before c (same ▸ member)
  · exact introduced_enter before same
  · intro d member
    rw [grown] at member
    rcases List.mem_append.mp member with old | new
    · exact before d old
    · rw [List.mem_singleton.mp new]
      exact clientChannels_named checked

theorem serve_introduced (before : s.Introduced) (served : serve config json s r = some t) :
    t.Introduced := by
  cases r with
  | act action => exact step_introduced before served
  | activeDevices =>
    cases served
    exact before

/-- An operation that its checks refuse leaves the service as it is. -/
theorem serve_refused (begins : r.begins s = some op) (refused : op.checks config = .error e)
    (served : serve config json s r = some t) : t = s := by
  cases r with
  | activeDevices =>
    cases served
    rfl
  | act action =>
    cases action with
    | connect sub tenantId clientId device =>
      cases begins
      have refused : clientChannels config tenantId clientId device = .error e := refused
      simp only [serve, step, refused] at served
      split at served
      · contradiction
      · cases served
        rfl
    | topicSubscribe sub topic | topicUnsubscribe sub topic =>
      obtain ⟨c, found, rfl⟩ := Option.map_eq_some_iff.mp begins
      have refused := map_error.mp refused
      simp only [serve, step, found, Option.bind_some, refused] at served
      split at served
      · cases served
        rfl
      · contradiction
    | publish send reply =>
      cases begins
      have refused := map_error.mp refused
      simp only [serve, step, refused] at served
      cases served
      rfl
    | _ => cases begins

theorem begins_remembers (begins : r.begins s = some op) (remembers : ¬ r.Forgets config) :
    ¬ op.Forgets config := by
  cases r with
  | activeDevices =>
    cases begins
    exact id
  | act action =>
    cases action with
    | connect =>
      cases begins
      exact id
    | topicSubscribe sub topic | topicUnsubscribe sub topic =>
      obtain ⟨c, found, rfl⟩ := Option.map_eq_some_iff.mp begins
      exact id
    | publish send reply =>
      cases begins
      exact remembers
    | _ => cases begins

theorem connection_uses (introduced : s.Introduced) (found : s.connection sub = some c) :
    ∀ address ∈ c.uses config, address.Named := by
  obtain ⟨tenant, client⟩ := introduced c (connection_mem found).1
  intro address used
  unfold Connection.uses at used
  split at used
  · cases List.mem_singleton.mp used
    simp [Address.Named, Address.ids, tenant, client]
  · cases List.mem_singleton.mp used
    simp [Address.Named, Address.ids, tenant, client]
  · cases used

/-- A step that forgets nothing is careful, where the connections have passed their checks. -/
theorem careful_of_introduced (introduced : s.Introduced) (remembers : ¬ r.Forgets config) :
    Careful config json s r := by
  constructor
  · intro op begins incomplete
    obtain ⟨e, refused⟩ :=
      (Operation.guarded_iff config op).mpr (begins_remembers begins remembers) incomplete
    exact ⟨⟨e, refused⟩, fun t => serve_refused begins refused⟩
  · intro address used
    rcases List.mem_append.mp used with begun | awaited
    · cases begins : r.begins s with
      | none => simp [begins] at begun
      | some op =>
        rw [begins] at begun
        exact Operation.uses_named (begins_remembers begins remembers) address begun
    · split at awaited
      · rename_i sub ok
        cases found : s.connection sub with
        | none => simp [found] at awaited
        | some c =>
          rw [found] at awaited
          exact connection_uses introduced found address awaited
      · cases awaited

theorem Careful.remembers (careful : Careful config json s r) : ¬ r.Forgets config := by
  intro forgets
  cases r with
  | activeDevices => cases forgets
  | act action =>
    cases action with
    | publish send reply =>
      obtain ⟨address, used, unnamed⟩ := Operation.Forgets.uses forgets
      exact unnamed (careful.named address (List.mem_append_left _ used))
    | _ => cases forgets

/-- Whatever is published, Redis connections are subscribed to named channels only: `SUBSCRIBE`
is for what an operation has called the broker with. -/
theorem run_listens (h : run (serve config json) initial schedule = some s)
    (member : l ∈ s.broker.listeners) (listens : channel ∈ l.channels) :
    ∃ address : Address, address.Named ∧ address.text = channel := by
  have sound : s.Sound config (fun _ => True) (fun _ _ _ => True) := by
    refine invariant (I := fun s => s.Sound config (fun _ => True) (fun _ _ _ => True)) ?_
      initial_sound h
    intro s r t before served
    cases r with
    | act action =>
      exact (step_moves served).sound before (by cases action <;> trivial)
    | activeDevices =>
      cases served
      exact before
  obtain ⟨c, -, -, heard⟩ := sound.broker.channels l member channel listens
  have passed : ∃ (op : Operation) (texts : List String), ¬ op.Forgets config ∧
      op.checks config = .ok texts ∧ channel ∈ texts := by
    unfold Connection.Hears at heard
    split at heard
    · obtain ⟨channels, checked, listed⟩ := heard
      exact ⟨.subscribeClient c.tenantId c.clientId c.device, channels, id, checked, listed⟩
    · obtain ⟨name, checked⟩ := heard
      exact ⟨.topicSubscribe c.tenantId name, [channel], id, map_ok.mpr ⟨channel, checked, rfl⟩,
        List.mem_cons_self⟩
  obtain ⟨op, texts, remembers, passed, listed⟩ := passed
  obtain ⟨same, complete | forgets⟩ := Operation.checks_ok passed
  · rw [same] at listed
    obtain ⟨address, addressed, text⟩ := List.mem_map.mp listed
    exact ⟨address, complete.1 address addressed, text⟩
  · exact absurd forgets remembers

/-- Along a run every step is careful exactly when none forgets. -/
theorem run_careful_iff (config : ClientConfig) (json : AttributesJson) (schedule : List Request) :
    Meets (serve config json) (Careful config json) initial schedule ↔
      Meets (serve config json) (fun _ r => ¬ r.Forgets config) initial schedule := by
  constructor
  · exact Meets.mono Careful.remembers
  · intro remembers
    refine remembers.of_invariant (I := Introduced) ?_ ?_ ?_
    · intro s r t before _ served
      exact serve_introduced before served
    · intro s r introduced
      exact careful_of_introduced introduced
    · intro c member
      cases member

/-- Which ids the guards see to. An operation with an empty id or event fails in its checks,
and no step of a run names an empty segment, exactly where no device is published to under
an empty tenant. -/
theorem guards_iff (config : ClientConfig) (json : AttributesJson) :
    (∀ op : Operation, op.Guarded config ↔ ¬ op.Forgets config) ∧
    ∀ schedule, Meets (serve config json) (Careful config json) initial schedule ↔
      Meets (serve config json) (fun _ r => ¬ r.Forgets config) initial schedule :=
  ⟨Operation.guarded_iff config, run_careful_iff config json⟩

/-- A device publish of a tenant whose name is empty. -/
def tenantless : Send := .toDevice ⟨"", "alice", "phone", "paid", [1]⟩

theorem tenantless_published :
    ¬ (Operation.publish tenantless).Guarded AppConfig.shipped.client ∧
    ¬ Meets (serve AppConfig.shipped.client plainJson) (Careful AppConfig.shipped.client plainJson)
      initial [.act (.publish tenantless .ok)] := by
  constructor
  · intro guarded
    obtain ⟨e, failed⟩ := guarded fun complete => complete.1 _ List.mem_cons_self "" List.mem_cons_self rfl
    cases failed
  · rintro ⟨careful, -⟩
    exact careful.named (.device "" "alice" "phone") List.mem_cons_self "" List.mem_cons_self rfl

end Service
end Propeller
