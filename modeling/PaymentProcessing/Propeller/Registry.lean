import PaymentProcessing.Propeller.Deliveries

/-! The device registry. A hash field stands for all connections of one device, and for
those of every pair of tenant and client with the same key text; it says who is connected
as long as no call writes or deletes a field that speaks for somebody else. -/
namespace Propeller
open Relational Hashes

/-- `subscribe_client` has returned and `unsubscribe_client` has not begun. -/
def Phase.live : Phase → Bool
  | .subscribed | .abandoned => true
  | _ => false

/-- Neither call is in progress. -/
def Phase.settled : Phase → Bool
  | .subscribed | .abandoned | .closed | .failed => true
  | _ => false

/-- From the call of `kv.store` to the end of the one of `kv.delete`. -/
def Phase.enlisted : Phase → Bool
  | .storing | .subscribed | .abandoned | .deleting => true
  | _ => false

/-- The connection stands for this device of this client of the tenant. -/
def Connection.Of (config : ClientConfig) (t c d : String) (k : Connection) : Prop :=
  k.tenantId = t ∧ k.clientId = c ∧ (k.registered config).map Device.id = some d

instance : Decidable (Connection.Of config t c d k) := inferInstanceAs (Decidable (_ ∧ _))

/-- The KV operation of a connection speaks for nobody else: a field that it stores for the
key text of `c` belongs to a connection of `c`, and no connection of `c` is live on a
device whose field it deletes. -/
def Connection.SpeaksFor (config : ClientConfig) (t c : String) (others : List Connection)
    (k : Connection) : Prop :=
  ∀ dev ∈ k.registered config, deviceKey k.tenantId k.clientId = deviceKey t c →
    (k.phase = .storing → ∃ other ∈ others, other.Of config t c dev.id ∧ other.phase.enlisted) ∧
    (k.phase = .deleting → ∀ other ∈ others, other.Of config t c dev.id → ¬ other.phase.live)

instance : Decidable (Connection.SpeaksFor config t c others k) :=
  inferInstanceAs (Decidable (∀ dev ∈ _, _ → _))

namespace Service

/-- The connection whose awaited call ends with this action, and whether it ends well. -/
def ending (s : Service) : Action → Option (Connection × Bool)
  | .advance sub ok => (s.connection sub).map fun k => (k, ok)
  | _ => none

/-- No KV operation fails. -/
def StoreWorks (s : Service) (a : Action) : Prop :=
  ∀ call ∈ s.ending a, call.1.phase = .storing ∨ call.1.phase = .deleting → call.2 = true

def SpeaksFor (config : ClientConfig) (t c : String) (s : Service) (a : Action) : Prop :=
  ∀ call ∈ s.ending a, call.1.SpeaksFor config t c s.connections

instance (s : Service) (a : Action) : Decidable (s.StoreWorks a) :=
  inferInstanceAs (Decidable (∀ call ∈ s.ending a, _ → _))

instance (s : Service) (a : Action) : Decidable (SpeaksFor config t c s a) :=
  inferInstanceAs (Decidable (∀ call ∈ s.ending a, _))

/-- No call for this client is in progress. -/
def Quiet (t c : String) (s : Service) : Prop :=
  ∀ k ∈ s.connections, k.tenantId = t → k.clientId = c → k.phase.settled

/-- `get_active_devices` answers with the devices of the live connections, each once. -/
def DevicesExact (config : ClientConfig) (json : AttributesJson) (t c : String) (s : Service) : Prop :=
  ∃ devices, s.getActiveDevices config json t c = .ok devices ∧ (devices.map Device.id).Nodup ∧
    ∀ d, d ∈ devices.map Device.id ↔ ∃ k ∈ s.connections, k.Of config t c d ∧ k.phase.live

structure Mirrors (config : ClientConfig) (t c : String) (s : Service) : Prop where
  distinct : Distinct Connection.sub s.connections
  hash : Unique s.devices
  live : ∀ d, ∀ k ∈ s.connections, k.Of config t c d → k.phase.live → Listed s.devices (deviceKey t c) d
  enlisted : ∀ d, Listed s.devices (deviceKey t c) d →
    ∃ k ∈ s.connections, k.Of config t c d ∧ k.phase.enlisted

variable {config : ClientConfig} {json : AttributesJson} {s s' : Service} {t c : String} {k : Connection}
  {phase : Phase}

theorem Mirrors.congr (h : s.Mirrors config t c) (devices : s'.devices = s.devices)
    (connections : s'.connections = s.connections) : s'.Mirrors config t c :=
  ⟨connections ▸ h.distinct, devices ▸ h.hash, devices ▸ connections ▸ h.live,
    devices ▸ connections ▸ h.enlisted⟩

/-- Either the connection itself, or another one. -/
theorem self_or_other {p : Connection → Prop} (distinct : Distinct Connection.sub s.connections)
    (found : s.connection sub = some k) (h : ∃ other ∈ s.connections, p other) :
    p k ∨ ∃ other ∈ s.connections, other.sub ≠ sub ∧ p other := by
  obtain ⟨member, same⟩ := connection_mem found
  obtain ⟨other, inside, holds⟩ := h
  by_cases mine : other.sub = sub
  · rw [distinct.unique inside member (mine.trans same.symm)] at holds
    exact Or.inl holds
  · exact Or.inr ⟨other, inside, mine, holds⟩

/-- A connection enters a phase while the hash changes. -/
theorem Mirrors.update (h : s.Mirrors config t c) (found : s.connection sub = some k)
    {fields : List HashField} (hash : Unique fields)
    (mine : ∀ d, k.Of config t c d → phase.live → Listed fields (deviceKey t c) d)
    (others : ∀ d, Listed s.devices (deviceKey t c) d →
      (∃ other ∈ s.connections, other.Of config t c d ∧ other.phase.live) →
        Listed fields (deviceKey t c) d)
    (accounted : ∀ d, Listed fields (deviceKey t c) d → (k.Of config t c d ∧ phase.enlisted) ∨
      ∃ other ∈ s.connections, other.sub ≠ sub ∧ other.Of config t c d ∧ other.phase.enlisted) :
    ({ s.enter sub phase with devices := fields } : Service).Mirrors config t c := by
  refine ⟨h.distinct.updateWhere fun _ => rfl, hash, ?_, ?_⟩
  · intro d x member named live
    rcases (mem_entered h.distinct found).mp member with rfl | ⟨present, -⟩
    · exact mine d named live
    · exact others d (h.live d x present named live) ⟨x, present, named, live⟩
  · intro d listed
    rcases accounted d listed with ⟨named, enlisted⟩ | ⟨other, present, different, named, enlisted⟩
    · exact ⟨_, (mem_entered h.distinct found).mpr (Or.inl rfl), named, enlisted⟩
    · exact ⟨other, (mem_entered h.distinct found).mpr (Or.inr ⟨present, different⟩), named,
        enlisted⟩

/-- Who accounts for a field, seen from one connection. -/
theorem Mirrors.account (h : s.Mirrors config t c) (found : s.connection sub = some k)
    (listed : Listed s.devices (deviceKey t c) d) : (k.Of config t c d ∧ k.phase.enlisted) ∨
      ∃ other ∈ s.connections, other.sub ≠ sub ∧ other.Of config t c d ∧ other.phase.enlisted :=
  self_or_other h.distinct found (h.enlisted d listed)

/-- A phase change without a KV operation: nobody becomes live, or ceases to be enlisted,
who stands for a device of `c`. -/
theorem Mirrors.enter (h : s.Mirrors config t c) (found : s.connection sub = some k)
    (live : phase.live → k.phase.live ∨ ∀ d, ¬ k.Of config t c d)
    (enlisted : k.phase.enlisted → phase.enlisted ∨ ∀ d, ¬ k.Of config t c d) :
    (s.enter sub phase).Mirrors config t c := by
  refine h.update found h.hash ?_ (fun d listed _ => listed) ?_
  · intro d named becomes
    cases live becomes with
    | inl already => exact h.live d k (connection_mem found).1 named already
    | inr foreign => exact absurd named (foreign d)
  · intro d listed
    rcases h.account found listed with ⟨named, before⟩ | other
    · cases enlisted before with
      | inl after => exact Or.inl ⟨named, after⟩
      | inr foreign => exact absurd named (foreign d)
    · exact Or.inr other

theorem foreign_of_unregistered (none : k.registered config = none) (d : String) :
    ¬ k.Of config t c d := by
  rintro ⟨-, -, named⟩
  simp [none] at named

theorem stored_of_none (none : k.registered config = none) :
    s.stored config json k ok = s.devices := by simp only [Service.stored, none]

theorem stored_of_some (registered : k.registered config = some dev) :
    s.stored config json k true =
      hset s.devices (deviceKey k.tenantId k.clientId) dev.id (json.encode dev.attributes) := by
  simp only [Service.stored, registered, if_true]

theorem deleted_of_none (none : k.registered config = none) :
    s.deleted config k ok = s.devices := by simp only [Service.deleted, none]

theorem deleted_of_some (registered : k.registered config = some dev) :
    s.deleted config k true = hdel s.devices (deviceKey k.tenantId k.clientId) dev.id := by
  simp only [Service.deleted, registered, if_true]

theorem Mirrors.stored (h : s.Mirrors config t c) (found : s.connection sub = some k)
    (phase : k.phase = .storing) (speaks : k.SpeaksFor config t c s.connections) :
    ({ s.enter sub .subscribed with devices := s.stored config json k true } :
      Service).Mirrors config t c := by
  cases registered : k.registered config with
  | none =>
    rw [stored_of_none registered]
    exact (h.enter found (fun _ => Or.inr (foreign_of_unregistered registered))
      fun _ => Or.inl rfl).congr rfl rfl
  | some dev =>
    rw [stored_of_some registered]
    refine h.update found h.hash.hset ?_ (fun d listed _ => listed_hset.mpr (Or.inr listed)) ?_
    · rintro d ⟨rfl, rfl, named⟩ -
      rw [registered, Option.map_some, Option.some.injEq] at named
      exact listed_hset.mpr (Or.inl ⟨rfl, named⟩)
    · intro d listed
      rcases listed_hset.mp listed with ⟨key, rfl⟩ | old
      · have owners := (speaks dev registered key).1 phase
        rcases self_or_other h.distinct found owners with ⟨named, -⟩ | other
        · exact Or.inl ⟨named, rfl⟩
        · exact Or.inr other
      · rcases h.account found old with ⟨named, -⟩ | other
        · exact Or.inl ⟨named, rfl⟩
        · exact Or.inr other

theorem Mirrors.deleted (h : s.Mirrors config t c) (found : s.connection sub = some k)
    (phase : k.phase = .deleting) (speaks : k.SpeaksFor config t c s.connections) :
    ({ s.enter sub .leaving with devices := s.deleted config k true } :
      Service).Mirrors config t c := by
  cases registered : k.registered config with
  | none =>
    rw [deleted_of_none registered]
    exact (h.enter found (by simp [Phase.live]) fun _ => Or.inr
      (foreign_of_unregistered registered)).congr rfl rfl
  | some dev =>
    rw [deleted_of_some registered]
    refine h.update found h.hash.hdel (by simp [Phase.live]) ?_ ?_
    · rintro d listed ⟨other, present, named, live⟩
      refine listed_hdel.mpr ⟨?_, listed⟩
      rintro ⟨key, rfl⟩
      exact (speaks dev registered key).2 phase other present named live
    · intro d listed
      obtain ⟨kept, old⟩ := listed_hdel.mp listed
      rcases h.account found old with ⟨⟨rfl, rfl, named⟩, -⟩ | other
      · rw [registered, Option.map_some, Option.some.injEq] at named
        exact absurd ⟨rfl, named⟩ kept
      · exact Or.inr other

theorem live_of_settled (settled : phase.settled) (enlisted : phase.enlisted) : phase.live := by
  cases phase <;> first | rfl | contradiction

theorem getActiveDevices_ok (json : AttributesJson) (s : Service)
    (enabled : config.enableDeviceSupport = true) (tenant : t ≠ "") (client : c ≠ "") :
    ∃ devices, s.getActiveDevices config json t c = .ok devices ∧
      devices.map Device.id = (hgetall s.devices (deviceKey t c)).map Prod.fst := by
  refine ⟨(hgetall s.devices (deviceKey t c)).map
    fun entry => ⟨entry.1, (json.decode entry.2).getD []⟩, ?_, ?_⟩
  · simp [getActiveDevices, refuse, enabled, tenant, client, bind, Except.bind, pure, Except.pure]
  · rw [List.map_map]
    rfl

theorem Mirrors.exact (h : s.Mirrors config t c) (enabled : config.enableDeviceSupport = true)
    (tenant : t ≠ "") (client : c ≠ "") (quiet : s.Quiet t c) : DevicesExact config json t c s := by
  obtain ⟨devices, answered, names⟩ := getActiveDevices_ok json s enabled tenant client
  refine ⟨devices, answered, ?_, fun d => ?_⟩
  · rw [names]
    exact h.hash.hgetall
  · rw [names, listed_hgetall]
    constructor
    · intro listed
      obtain ⟨k, member, named, enlisted⟩ := h.enlisted d listed
      exact ⟨k, member, named, live_of_settled (quiet k member named.1 named.2.1) enlisted⟩
    · rintro ⟨k, member, named, live⟩
      exact h.live d k member named live

def leaves (sub : Uuid) : List Action := [.disconnect sub, .advance sub true, .advance sub true]

end Service
end Propeller
