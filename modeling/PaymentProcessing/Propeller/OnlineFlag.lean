import PaymentProcessing.Propeller.GrpcHandler
import PaymentProcessing.Propeller.Isolation
import PaymentProcessing.Propeller.Jwt
import PaymentProcessing.Propeller.Registry

/-! `is_client_online`. The flag is whether the hash of the client has a field, so a connection
counts only if it came with a device and its field is still there. -/
namespace Propeller
open Relational Hashes

/-- `subscribe_client` has returned, and `unsubscribe_client` has not passed its `kv.delete`. -/
def Phase.present : Phase → Bool
  | .subscribed | .abandoned | .deleting => true
  | _ => false

/-- The KV operation of a connection keeps the fields under the key text of `c` true to the
connections of `c`: a field that it stores belongs to `c`, and nobody else of `c` is there on
the device whose field it deletes. -/
def Connection.Truthful (config : ClientConfig) (t c : String) (others : List Connection)
    (k : Connection) : Prop :=
  ∀ dev ∈ k.registered config, deviceKey k.tenantId k.clientId = deviceKey t c →
    (k.phase = .storing → (k.tenantId = t ∧ k.clientId = c) ∨
      ∃ other ∈ others, other.Of config t c dev.id ∧ other.phase.present) ∧
    (k.phase = .deleting → ∀ other ∈ others, other.sub ≠ k.sub →
      other.Of config t c dev.id → ¬ other.phase.present)

instance : Decidable (Connection.Truthful config t c others k) :=
  inferInstanceAs (Decidable (∀ dev ∈ _, _ → _))

namespace Service

def Truthful (config : ClientConfig) (t c : String) (s : Service) (a : Action) : Prop :=
  ∀ call ∈ s.ending a, call.1.Truthful config t c s.connections

instance (s : Service) (a : Action) : Decidable (Truthful config t c s a) :=
  inferInstanceAs (Decidable (∀ call ∈ s.ending a, _))

/-- The client has a subscribed connection. -/
def Subscribed (t c : String) (s : Service) : Prop :=
  ∃ k ∈ s.connections, (k.tenantId = t ∧ k.clientId = c) ∧ k.phase.present

/-- The client has a subscribed connection with a device. -/
def OnDevice (config : ClientConfig) (t c : String) (s : Service) : Prop :=
  ∃ d, ∃ k ∈ s.connections, k.Of config t c d ∧ k.phase.present

theorem OnDevice.subscribed {s : Service} (there : s.OnDevice config t c) : s.Subscribed t c := by
  obtain ⟨d, k, member, ⟨tenant, client, -⟩, present⟩ := there
  exact ⟨k, member, ⟨tenant, client⟩, present⟩

/-- The fields under the key text of `c` are the devices of its subscribed connections. -/
structure Shown (config : ClientConfig) (t c : String) (s : Service) : Prop where
  distinct : Distinct Connection.sub s.connections
  named : ∀ k ∈ s.connections, k.tenantId ≠ "" ∧ k.clientId ≠ ""
  fields : ∀ d, Listed s.devices (deviceKey t c) d ↔
    ∃ k ∈ s.connections, k.Of config t c d ∧ k.phase.present

variable {config : ClientConfig} {json : AttributesJson} {s s' : Service} {t c : String} {k : Connection}
  {phase : Phase}

theorem Shown.congr (h : s.Shown config t c) (devices : s'.devices = s.devices)
    (connections : s'.connections = s.connections) : s'.Shown config t c :=
  ⟨connections ▸ h.distinct, connections ▸ h.named, devices ▸ connections ▸ h.fields⟩

/-- Somebody else stands for the device. -/
def Elsewhere (config : ClientConfig) (t c : String) (s : Service) (sub : Uuid) (d : String) : Prop :=
  ∃ other ∈ s.connections, other.sub ≠ sub ∧ other.Of config t c d ∧ other.phase.present

theorem Shown.account (h : s.Shown config t c) (found : s.connection sub = some k) (d : String) :
    Listed s.devices (deviceKey t c) d ↔
      (k.Of config t c d ∧ k.phase.present) ∨ s.Elsewhere config t c sub d := by
  rw [h.fields]
  constructor
  · exact self_or_other h.distinct found
  · rintro (mine | ⟨other, member, -, theirs⟩)
    · exact ⟨k, (connection_mem found).1, mine⟩
    · exact ⟨other, member, theirs⟩

/-- A connection enters a phase while the hash changes. -/
theorem Shown.update (h : s.Shown config t c) (found : s.connection sub = some k)
    {fields : List HashField}
    (account : ∀ d, Listed fields (deviceKey t c) d ↔
      (k.Of config t c d ∧ phase.present) ∨ s.Elsewhere config t c sub d) :
    ({ s.enter sub phase with devices := fields } : Service).Shown config t c := by
  refine ⟨h.distinct.updateWhere fun _ => rfl, ?_, fun d => ?_⟩
  · intro x member
    rcases (mem_entered h.distinct found).mp member with rfl | ⟨old, -⟩
    · exact h.named k (connection_mem found).1
    · exact h.named x old
  · rw [account]
    constructor
    · rintro (⟨mine, present⟩ | ⟨other, member, different, theirs⟩)
      · exact ⟨_, (mem_entered h.distinct found).mpr (Or.inl rfl), mine, present⟩
      · exact ⟨other, (mem_entered h.distinct found).mpr (Or.inr ⟨member, different⟩), theirs⟩
    · rintro ⟨x, member, theirs⟩
      rcases (mem_entered h.distinct found).mp member with rfl | ⟨old, different⟩
      · exact Or.inl theirs
      · exact Or.inr ⟨x, old, different, theirs⟩

/-- A phase change without a KV operation. -/
theorem Shown.enter (h : s.Shown config t c) (found : s.connection sub = some k)
    (same : phase.present = k.phase.present ∨ ∀ d, ¬ k.Of config t c d) :
    (s.enter sub phase).Shown config t c := by
  refine h.update found fun d => ?_
  rw [h.account found]
  rcases same with same | foreign
  · rw [same]
  · simp [foreign d]

theorem Shown.stored (h : s.Shown config t c) (found : s.connection sub = some k)
    (phase : k.phase = .storing) (truthful : k.Truthful config t c s.connections) :
    ({ s.enter sub .subscribed with devices := s.stored config json k true } :
      Service).Shown config t c := by
  cases registered : k.registered config with
  | none =>
    rw [stored_of_none registered]
    exact (h.enter found (Or.inr (foreign_of_unregistered registered))).congr rfl rfl
  | some dev =>
    rw [stored_of_some registered]
    refine h.update found fun d => ?_
    rw [listed_hset, h.account found, phase]
    constructor
    · rintro (⟨key, rfl⟩ | ⟨-, absent⟩ | elsewhere)
      · rcases (truthful dev registered key).1 phase with ⟨tenant, client⟩ | owners
        · exact Or.inl ⟨⟨tenant, client, by rw [registered]; rfl⟩, rfl⟩
        · rcases self_or_other h.distinct found owners with ⟨-, absent⟩ | elsewhere
          · simp [phase, Phase.present] at absent
          · exact Or.inr elsewhere
      · contradiction
      · exact Or.inr elsewhere
    · rintro (⟨⟨rfl, rfl, named⟩, -⟩ | elsewhere)
      · rw [registered, Option.map_some, Option.some.injEq] at named
        exact Or.inl ⟨rfl, named⟩
      · exact Or.inr (Or.inr elsewhere)

theorem Shown.deleted (h : s.Shown config t c) (found : s.connection sub = some k)
    (phase : k.phase = .deleting) (truthful : k.Truthful config t c s.connections) :
    ({ s.enter sub .leaving with devices := s.deleted config k true } :
      Service).Shown config t c := by
  cases registered : k.registered config with
  | none =>
    rw [deleted_of_none registered]
    exact (h.enter found (Or.inr (foreign_of_unregistered registered))).congr rfl rfl
  | some dev =>
    rw [deleted_of_some registered]
    refine h.update found fun d => ?_
    rw [listed_hdel, h.account found]
    constructor
    · rintro ⟨kept, ⟨⟨rfl, rfl, named⟩, -⟩ | elsewhere⟩
      · rw [registered, Option.map_some, Option.some.injEq] at named
        exact absurd ⟨rfl, named⟩ kept
      · exact Or.inr elsewhere
    · rintro (⟨-, absent⟩ | elsewhere)
      · contradiction
      · refine ⟨?_, Or.inr elsewhere⟩
        rintro ⟨key, rfl⟩
        obtain ⟨other, member, different, theirs, present⟩ := elsewhere
        have alone := (truthful dev registered key).2 phase
        exact alone other member ((connection_mem found).2 ▸ different) theirs present

theorem Advances.shown (h : Advances config json s k ok s') (before : s.Shown config t c)
    (found : s.connection k.sub = some k)
    (works : k.phase = .storing ∨ k.phase = .deleting → ok = true)
    (truthful : k.Truthful config t c s.connections) : s'.Shown config t c := by
  have opening (phase : Phase) (absent : phase.present = false) (number connected todo)
      (was : k.phase = .opening number connected todo) : (s.enter k.sub phase).Shown config t c :=
    before.enter found (Or.inl (by rw [absent, was]; rfl))
  cases h with
  | connected number todo phase => exact (opening _ rfl _ _ _ phase).congr rfl rfl
  | listening number channel todo phase => exact (opening _ rfl _ _ _ phase).congr rfl rfl
  | unconnected number todo phase => exact opening _ rfl _ _ _ phase
  | unsubscribed number channel todo phase => exact (opening _ rfl _ _ _ phase).congr rfl rfl
  | registering number dev phase device => exact (opening _ rfl _ _ _ phase).congr rfl rfl
  | plain number phase device =>
    have entered : (s.enter k.sub .subscribed).Shown config t c :=
      before.enter found (Or.inr (foreign_of_unregistered device))
    exact entered.congr rfl rfl
  | stored phase =>
    cases works (Or.inl phase)
    exact (before.stored found phase truthful).congr rfl rfl
  | deleted phase =>
    cases works (Or.inr phase)
    exact (before.deleted found phase truthful).congr rfl rfl
  | left phase =>
    have entered : (s.enter k.sub .closed).Shown config t c :=
      before.enter found (Or.inl (by rw [phase]; rfl))
    exact entered.congr rfl rfl

theorem Moves.shown (h : Moves config json s a s') (before : s.Shown config t c)
    (works : s.StoreWorks a) (truthful : Truthful config t c s a) : s'.Shown config t c := by
  cases h with
  | refused => exact before
  | connect sub tenantId clientId device channels absent checked =>
    refine ⟨before.distinct.append (connection_fresh absent), ?_, fun d => ?_⟩
    · intro k member
      rcases List.mem_append.mp member with old | new
      · exact before.named k old
      · rw [List.mem_singleton.mp new]
        exact clientChannels_named checked
    · rw [before.fields]
      constructor
      · rintro ⟨k, old, theirs⟩
        exact ⟨k, List.mem_append_left _ old, theirs⟩
      · rintro ⟨k, member, theirs⟩
        rcases List.mem_append.mp member with old | new
        · exact ⟨k, old, theirs⟩
        · rw [List.mem_singleton.mp new] at theirs
          exact absurd theirs.2 (by simp [Phase.present])
  | advance sub k ok t found advanced =>
    obtain ⟨-, rfl⟩ := connection_mem found
    have call : (k, ok) ∈ s.ending (.advance k.sub ok) := by simp [ending, found]
    exact advanced.shown before found (works _ call) (truthful _ call)
  | disconnect sub k found phase =>
    cases registered : k.registered config with
    | none => exact before.enter found (Or.inr (foreign_of_unregistered registered))
    | some dev => exact before.enter found (Or.inl (by rw [phase]; rfl))
  | abandon sub k found phase => exact before.enter found (Or.inl (by rw [phase]; rfl))
  | topicSubscribe => exact before.congr rfl rfl
  | advanceAdd a ok member =>
    obtain ⟨devices, connections⟩ := advanceAdd_registry s a ok
    exact before.congr devices connections
  | topicUnsubscribe => exact before.congr rfl rfl
  | publish => exact before.congr rfl rfl
  | turn => exact before.congr rfl rfl

end Service

namespace GrpcPushHandler
open Service

section Answer
variable {config : ClientConfig} {json : AttributesJson} {s : Service} {viewer : AuthContext}
  {req : Proto.GetClientActiveDevicesRequest} {response : Proto.GetClientActiveDevicesResponse}

end Answer

namespace Sample

def handler : GrpcPushHandler := ⟨sampleCrates, AppConfig.shipped.auth, AppConfig.shipped.client⟩

/-- `alice` asks under the legacy header. -/
def metadata : HeaderMap := [("x-client-id", asBytes "alice")]

def viewer : AuthContext := ⟨"alice", "legacy", "alice", []⟩

/-- Awaited calls of a connection end well, as many as `subscribe_client` makes. -/
def subscribes (sub : Uuid) (device : Option Device) : List Action :=
  .connect sub "legacy" "alice" device ::
    List.replicate (if device.isSome then 5 else 3) (.advance sub true)

end Sample

end GrpcPushHandler
end Propeller
