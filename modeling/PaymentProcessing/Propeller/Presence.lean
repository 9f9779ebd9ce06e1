import PaymentProcessing.Propeller.GrpcHandler
import PaymentProcessing.Propeller.Isolation
import PaymentProcessing.Propeller.Registry

/-! Presence privacy. Who stored each field of the device hashes last is recorded beside
the run; a viewer sees devices of its own identity only, and a disconnect removes none of
another one, exactly as long as the identities in use have different key texts. -/
namespace Propeller
open Hashes Transition

/-- Who stored a field under a key last, as tenant and client. -/
abbrev Registrar := String → String → Option (String × String)

def Registrar.note (r : Registrar) (key field : String) (owner : Option (String × String)) :
    Registrar :=
  fun k f => if key = k ∧ field = f then owner else r k f

def Connection.key (c : Connection) : String := deviceKey c.tenantId c.clientId

def Connection.owner (c : Connection) : String × String := (c.tenantId, c.clientId)

namespace Service
variable {config : ClientConfig} {json : AttributesJson} {s s' : Service}
  {K : String → String → Prop}

/-- The registry after an awaited call of a connection: a store that worked notes its owner,
a deletion that worked takes the note away. -/
def registers (config : ClientConfig) (s : Service) (a : Action) (r : Registrar) : Registrar :=
  match s.ending a with
  | some (c, true) =>
      match c.phase, c.registered config with
      | .storing, some dev => r.note c.key dev.id (some c.owner)
      | .deleting, some dev => r.note c.key dev.id none
      | _, _ => r
  | _ => r

def registrar (config : ClientConfig) (json : AttributesJson) (schedule : List Action) :
    Registrar :=
  record (step config json) (registers config) initial (fun _ _ => none) schedule

/-- The connection that this step disconnects in the device store, with its device. -/
def removal (config : ClientConfig) (s : Service) (a : Action) : Option (Connection × Device) :=
  match s.ending a with
  | some (c, true) => if c.phase = .deleting then (c.registered config).map (c, ·) else none
  | _ => none

/-- Every connection of the schedule has one of these identities. -/
def Principals (K : String → String → Prop) (a : Action) : Prop :=
  Admits (fun _ => True) (fun tenantId clientId _ => K tenantId clientId) a

/-- Where identities in `K` connect and look: what is shown to a viewer was stored by a
connection of exactly its identity, and so was what a disconnect takes away. -/
structure PresencePrivate (config : ClientConfig) (json : AttributesJson)
    (K : String → String → Prop) : Prop where
  shown : ∀ schedule s, run (step config json) initial schedule = some s →
    (∀ a ∈ schedule, Principals K a) →
    ∀ (viewer : AuthContext) req load resp, K viewer.tenantId viewer.clientId →
      GrpcPushHandler.viewerDevices config json s load viewer req = .ok resp →
      ∀ device ∈ resp.devices,
        registrar config json schedule (deviceKey viewer.tenantId viewer.clientId) device.id =
          some (viewer.tenantId, viewer.clientId)
  removed : ∀ schedule s, run (step config json) initial schedule = some s →
    (∀ a ∈ schedule, Principals K a) →
    ∀ a c dev owner, s.removal config a = some (c, dev) →
      registrar config json schedule c.key dev.id = some owner → owner = c.owner

/-- Different identities have different key texts. -/
def KeysApart (K : String → String → Prop) : Prop :=
  ∀ t c t' c', K t c → K t' c' → t ≠ "" → c ≠ "" → t' ≠ "" → c' ≠ "" →
    deviceKey t c = deviceKey t' c' → t = t' ∧ c = c'

/-- What a step does to the device hashes and to the record of their owners. -/
inductive Registration (config : ClientConfig) (s : Service) (a : Action) (s' : Service) :
    Prop where
  | kept : (∀ r, s.registers config a r = r) → s'.devices = s.devices → Registration config s a s'
  | stored (c : Connection) (dev : Device) (value : String) : c ∈ s.connections →
      (∀ r, s.registers config a r = r.note c.key dev.id (some c.owner)) →
      s'.devices = hset s.devices c.key dev.id value → Registration config s a s'
  | deleted (c : Connection) (dev : Device) :
      (∀ r, s.registers config a r = r.note c.key dev.id none) →
      s'.devices = hdel s.devices c.key dev.id → Registration config s a s'

theorem registers_advance (found : s.connection sub = some c) (r : Registrar) :
    s.registers config (.advance sub ok) r =
      if ok then
        match c.phase, c.registered config with
        | .storing, some dev => r.note c.key dev.id (some c.owner)
        | .deleting, some dev => r.note c.key dev.id none
        | _, _ => r
      else r := by
  simp only [registers, ending, found, Option.map_some]
  cases ok with
  | true => rfl
  | false => rfl

theorem Advances.registration (h : Advances config json s c ok s')
    (found : s.connection c.sub = some c) :
    Registration config s (.advance c.sub ok) s' := by
  have member := (connection_mem found).1
  have idle (phase : c.phase ≠ .storing) (phase' : c.phase ≠ .deleting) :
      ∀ r, s.registers config (.advance c.sub ok) r = r := by
    intro r
    rw [registers_advance found]
    split
    · split
      · rename_i storing _
        exact absurd storing phase
      · rename_i deleting _
        exact absurd deleting phase'
      · rfl
    · rfl
  cases h with
  | connected number todo phase => exact .kept (idle (by simp [phase]) (by simp [phase])) rfl
  | listening number channel todo phase =>
    exact .kept (idle (by simp [phase]) (by simp [phase])) rfl
  | unconnected number todo phase => exact .kept (idle (by simp [phase]) (by simp [phase])) rfl
  | unsubscribed number channel todo phase =>
    exact .kept (idle (by simp [phase]) (by simp [phase])) rfl
  | registering number dev phase => exact .kept (idle (by simp [phase]) (by simp [phase])) rfl
  | plain number phase => exact .kept (idle (by simp [phase]) (by simp [phase])) rfl
  | left phase => exact .kept (idle (by simp [phase]) (by simp [phase])) rfl
  | stored phase =>
    cases device : c.registered config with
    | none =>
      refine .kept (fun r => ?_) (by simp [Service.stored, device])
      simp [registers_advance found, device]
    | some dev =>
      cases ok with
      | false =>
        refine .kept (fun r => ?_) (by simp [Service.stored, device])
        simp [registers_advance found]
      | true =>
        refine .stored c dev (json.encode dev.attributes) member (fun r => ?_) ?_
        · simp [registers_advance found, phase, device]
        · simp [Service.stored, device, Connection.key]
  | deleted phase =>
    cases device : c.registered config with
    | none =>
      refine .kept (fun r => ?_) (by simp [Service.deleted, device])
      simp [registers_advance found, device]
    | some dev =>
      cases ok with
      | false =>
        refine .kept (fun r => ?_) (by simp [Service.deleted, device])
        simp [registers_advance found]
      | true =>
        refine .deleted c dev (fun r => ?_) ?_
        · simp [registers_advance found, phase, device]
        · simp [Service.deleted, device, Connection.key]

theorem Moves.devices_kept (h : Moves config json s a s') (other : s.ending a = none) :
    s'.devices = s.devices := by
  cases h with
  | advance sub c ok t found => simp [ending, found] at other
  | advanceAdd a ok => exact (advanceAdd_registry s a ok).1
  | _ => rfl

theorem step_registration (h : step config json s a = some s') : Registration config s a s' := by
  cases a with
  | advance sub ok =>
    obtain ⟨c, found, advanced⟩ := Option.bind_eq_some_iff.mp h
    obtain ⟨-, rfl⟩ := connection_mem found
    exact (advance_advances advanced).registration found
  | _ => exact .kept (fun _ => rfl) ((step_moves h).devices_kept rfl)

/-- The owner of each field is on record, and is an identity with the key text. -/
structure Vouched (K : String → String → Prop) (r : Registrar) (s : Service) : Prop where
  recorded : ∀ key field, Listed s.devices key field → ∃ owner, r key field = some owner
  owners : ∀ key field t c, r key field = some (t, c) →
    K t c ∧ t ≠ "" ∧ c ≠ "" ∧ key = deviceKey t c
  connections : ∀ c ∈ s.connections, K c.tenantId c.clientId ∧ c.tenantId ≠ "" ∧ c.clientId ≠ ""

theorem Vouched.registers {r : Registrar} (h : Vouched K r s)
    (change : Registration config s a s') :
    (∀ key field, Listed s'.devices key field →
      ∃ owner, s.registers config a r key field = some owner) ∧
    ∀ key field t c, s.registers config a r key field = some (t, c) →
      K t c ∧ t ≠ "" ∧ c ≠ "" ∧ key = deviceKey t c := by
  cases change with
  | kept same devices =>
    rw [same, devices]
    exact ⟨h.recorded, h.owners⟩
  | stored k dev value member noted devices =>
    rw [noted, devices]
    constructor
    · intro key field listed
      by_cases hit : k.key = key ∧ dev.id = field
      · exact ⟨k.owner, if_pos hit⟩
      · obtain ⟨owner, recorded⟩ := h.recorded key field ((listed_hset.mp listed).resolve_left hit)
        exact ⟨owner, (if_neg hit).trans recorded⟩
    · intro key field t c owned
      simp only [Registrar.note] at owned
      split at owned
      · rename_i hit
        cases owned
        obtain ⟨known, tenant, client⟩ := h.connections k member
        exact ⟨known, tenant, client, hit.1.symm⟩
      · exact h.owners key field t c owned
  | deleted k dev noted devices =>
    rw [noted, devices]
    constructor
    · intro key field listed
      obtain ⟨other, old⟩ := listed_hdel.mp listed
      obtain ⟨owner, recorded⟩ := h.recorded key field old
      exact ⟨owner, (if_neg other).trans recorded⟩
    · intro key field t c owned
      simp only [Registrar.note] at owned
      split at owned
      · contradiction
      · exact h.owners key field t c owned

theorem Vouched.moves {r : Registrar} (h : Vouched K r s) (moves : Moves config json s a s')
    (principals : Principals K a) :
    ∀ c ∈ s'.connections, K c.tenantId c.clientId ∧ c.tenantId ≠ "" ∧ c.clientId ≠ "" := by
  intro c member
  rcases moves.connections with same | ⟨sub, phase, same⟩ | ⟨new, channels, rfl, checked, same⟩
  · exact h.connections c (same ▸ member)
  · obtain ⟨old, present, rfl⟩ := (mem_enter s sub phase c).mp (same ▸ member)
    have kept := h.connections old present
    split
    · exact kept
    · exact kept
  · rw [same] at member
    cases List.mem_append.mp member with
    | inl old => exact h.connections c old
    | inr last =>
      rw [List.mem_singleton.mp last]
      exact ⟨principals, clientChannels_named checked⟩

theorem run_vouched (h : run (step config json) initial schedule = some s)
    (principals : ∀ a ∈ schedule, Principals K a) :
    Vouched K (registrar config json schedule) s := by
  have start : Vouched K (registrar config json []) initial := by
    refine ⟨?_, ?_, ?_⟩ <;> simp [initial, Listed, registrar, record]
  have meets : Meets (step config json) (fun _ a => Principals K a) initial schedule :=
    .of_forall principals initial
  refine history_of_meets (I := fun past t => Vouched K (registrar config json past) t) ?_ start
    meets h
  intro past s a t reached before principal stepped
  have noted : registrar config json (past ++ [a]) =
      s.registers config a (registrar config json past) := record_append reached stepped
  obtain ⟨recorded, owners⟩ := before.registers (step_registration stepped)
  exact ⟨noted ▸ recorded, noted ▸ owners, before.moves (step_moves stepped) principal⟩

/-- A viewer is shown the fields under its own key text, whatever its request names. -/
theorem viewerDevices_listed {viewer : AuthContext}
    (shown : GrpcPushHandler.viewerDevices config json s load viewer req = .ok resp)
    (member : device ∈ resp.devices) :
    config.enableDeviceSupport = true ∧ viewer.tenantId ≠ "" ∧ viewer.clientId ≠ "" ∧
      Listed s.devices (deviceKey viewer.tenantId viewer.clientId) device.id := by
  let answer (clientId : String) : Except PropellerError (List Device) :=
    (s.getActiveDevices config json viewer.tenantId clientId).bind fun found =>
      (load.mapError .internal).map fun _ => found
  have answered (clientId : String)
      (h : ((answer clientId).mapError Status.ofError >>= fun devices =>
        pure ⟨!devices.isEmpty, devices⟩) = .ok resp) : answer clientId = .ok resp.devices := by
    obtain ⟨devices, ok, same⟩ := then_ok.mp h
    cases same
    exact mapError_ok.mp ok
  have own : answer viewer.clientId = .ok resp.devices := by
    unfold GrpcPushHandler.viewerDevices at shown
    split at shown
    · exact answered viewer.clientId shown
    · split at shown
      · contradiction
      · rename_i equal
        exact not_ne_iff.mp equal ▸ answered req.clientId shown
  obtain ⟨found, loaded, kept⟩ := then_ok.mp own
  obtain ⟨-, -, same⟩ := map_ok.mp kept
  simp only [getActiveDevices, refuse_bind_ok, ← Bool.not_eq_true,
    String.isEmpty_iff] at loaded
  obtain ⟨support, named, tenant, fields⟩ := loaded
  cases fields
  rw [← same] at member
  obtain ⟨entry, inside, rfl⟩ := List.mem_map.mp member
  exact ⟨by simpa using support, tenant, named,
    listed_hgetall.mp (List.mem_map.mpr ⟨entry, inside, rfl⟩)⟩

theorem mem_of_removal (removes : s.removal config a = some (c, dev)) :
    c ∈ s.connections ∧ config.enableDeviceSupport = true := by
  unfold removal at removes
  split at removes
  · rename_i k ended
    split at removes
    · obtain ⟨found, registered, same⟩ := Option.map_eq_some_iff.mp removes
      cases same
      refine ⟨?_, ?_⟩
      · cases a with
        | advance sub ok =>
          obtain ⟨k, present, same⟩ := Option.map_eq_some_iff.mp ended
          cases same
          exact (connection_mem present).1
        | _ => contradiction
      · unfold Connection.registered at registered
        split at registered
        · assumption
        · contradiction
    · contradiction
  · contradiction

/-- A device registered by a client whose devices are looked up by another one. -/
theorem lone_registers (json : AttributesJson) (support : config.enableDeviceSupport = true)
    (tenant : t ≠ "") (client : c ≠ "") :
    ∃ s, run (step config json) initial
        (.connect 0 t c (some ⟨"d", []⟩) :: List.replicate 5 (.advance 0 true)) = some s ∧
      s.devices = [⟨deviceKey t c, "d", json.encode []⟩] := by
  have checked := clientChannels_device support tenant client
    (show (⟨"d", []⟩ : Device).id ≠ "" by decide)
  have opened := lone_open json t c (some ⟨"d", []⟩) checked
  have listening := lone_listen config json ⟨0, t, c, some ⟨"d", []⟩, .storing⟩ rfl []
    [clientChannel t c, deviceChannel t c "d"]
  let started : Service := lone ⟨0, t, c, some ⟨"d", []⟩, .storing⟩
    [clientChannel t c, deviceChannel t c "d"] true
  have starts : step config json (lone ⟨0, t, c, some ⟨"d", []⟩, .opening 0 true []⟩
      [clientChannel t c, deviceChannel t c "d"] false) (.advance 0 true) = some started := by
    simp [step, connection, lone, advance, Connection.registered, support, withBroker, enter,
      Relational.updateWhere, Broker.start, Broker.modify, started]
  let registered : Service := { started.enter 0 .subscribed with
    devices := [⟨deviceKey t c, "d", json.encode []⟩]
    gauge := 1 }
  have stores : step config json started (.advance 0 true) = some registered := by
    simp [step, connection, lone, advance, Connection.registered, support, Service.stored, hset,
      started, enter, registered]
  refine ⟨registered, run_append_iff.mpr ⟨_, opened, run_append_iff.mpr ⟨_, listening, ?_⟩⟩, rfl⟩
  exact run_cons_iff.mpr ⟨_, starts, run_cons_iff.mpr ⟨_, stores, rfl⟩⟩

theorem PresencePrivate.keysApart (h : PresencePrivate config json K)
    (support : config.enableDeviceSupport = true) : KeysApart K := by
  intro t c t' c' known known' tenant client tenant' client' same
  obtain ⟨s, reached, devices⟩ := lone_registers json support tenant' client'
  have alone (K : String → String → Prop) (known : K t' c') :
      ∀ a ∈ Action.connect 0 t' c' (some ⟨"d", []⟩) :: List.replicate 5 (.advance 0 true),
        Principals K a := by
    intro a member
    rcases List.mem_cons.mp member with rfl | other
    · exact known
    · rw [List.eq_of_mem_replicate other]
      trivial
  obtain ⟨found, answered, names⟩ := getActiveDevices_ok json s support tenant client
  let viewer : AuthContext := ⟨"", t, c, []⟩
  have shown : GrpcPushHandler.viewerDevices config json s (.ok ()) viewer ⟨""⟩ =
      .ok ⟨!found.isEmpty, found⟩ := by
    simp [GrpcPushHandler.viewerDevices, viewer, answered, ok_mapError, Except.map, Except.bind,
      bind, pure, Except.pure]
  have listed : "d" ∈ found.map Device.id := by
    rw [names, same, listed_hgetall, devices]
    exact ⟨_, List.mem_singleton.mpr rfl, rfl, rfl⟩
  obtain ⟨device, member, name⟩ := List.mem_map.mp listed
  have owned :=
    h.shown _ s reached (alone K known') viewer ⟨""⟩ (.ok ()) _ known shown device member
  -- with only that client there, nobody else can have been recorded
  have only := run_vouched (K := fun x y => x = t' ∧ y = c') reached (alone _ ⟨rfl, rfl⟩)
  exact (only.owners _ _ t c owned).1

/-- Viewers are shown their own devices only, and a disconnect takes away its own only,
exactly when no two identities in use have the same key text. -/
theorem presence_private_iff (config : ClientConfig) (json : AttributesJson)
    (K : String → String → Prop) :
    PresencePrivate config json K ↔ (config.enableDeviceSupport = true → KeysApart K) := by
  constructor
  · exact PresencePrivate.keysApart
  · intro apart
    refine ⟨?_, ?_⟩
    · intro schedule s reached principals viewer req load resp known shown device member
      have vouched := run_vouched reached principals
      obtain ⟨support, tenant, client, listed⟩ := viewerDevices_listed shown member
      obtain ⟨⟨t, c⟩, owned⟩ := vouched.recorded _ _ listed
      obtain ⟨known', tenant', client', same⟩ := vouched.owners _ _ t c owned
      obtain ⟨rfl, rfl⟩ := apart support _ _ t c known known' tenant client tenant' client' same
      exact owned
    · rintro schedule s reached principals a k dev ⟨t, c⟩ removes owned
      have vouched := run_vouched reached principals
      obtain ⟨member, support⟩ := mem_of_removal removes
      obtain ⟨known, tenant, client⟩ := vouched.connections k member
      obtain ⟨known', tenant', client', same⟩ := vouched.owners _ _ t c owned
      obtain ⟨left, right⟩ := apart support _ _ t c known known' tenant client tenant' client' same
      exact Prod.ext left.symm right.symm

/-- The phone of `alice` of the tenant `acme:eu` connects. -/
def europeanPhone : List Action :=
  .connect 0 "acme:eu" "alice" (some ⟨"phone", []⟩) :: List.replicate 5 (.advance 0 true)

/-- The client `eu:alice` of `acme` is shown it. -/
theorem phone_shown_to_another : ¬ PresencePrivate AppConfig.shipped.client plainJson
    (fun t c => t = "acme:eu" ∧ c = "alice" ∨ t = "acme" ∧ c = "eu:alice") := by
  intro claim
  let viewer : AuthContext := ⟨"", "acme", "eu:alice", []⟩
  have seen : (run (step AppConfig.shipped.client plainJson) initial europeanPhone).map (fun s =>
      (GrpcPushHandler.viewerDevices AppConfig.shipped.client plainJson s (.ok ()) viewer
        ⟨"eu:alice"⟩).toOption) = some (some ⟨true, [⟨"phone", []⟩]⟩) := by
    decide +kernel
  obtain ⟨s, reached, answered⟩ := Option.map_eq_some_iff.mp seen
  have owner : registrar AppConfig.shipped.client plainJson europeanPhone
      (deviceKey "acme" "eu:alice") "phone" = some ("acme:eu", "alice") := by
    decide +kernel
  have principals : ∀ a ∈ europeanPhone,
      Principals (fun t c => t = "acme:eu" ∧ c = "alice" ∨ t = "acme" ∧ c = "eu:alice") a := by
    simp [europeanPhone, Principals, Admits]
  cases shown : GrpcPushHandler.viewerDevices AppConfig.shipped.client plainJson s (.ok ()) viewer
    ⟨"eu:alice"⟩ with
  | error status => simp [shown, Except.toOption] at answered
  | ok resp =>
    simp only [shown, Except.toOption, Option.some.injEq] at answered
    cases answered
    have claimed : _ = some ("acme", "eu:alice") :=
      claim.shown europeanPhone s reached principals viewer ⟨"eu:alice"⟩ (.ok ()) _
        (Or.inr ⟨rfl, rfl⟩) shown ⟨"phone", []⟩ List.mem_cons_self
    exact absurd (owner.symm.trans claimed) (by decide)

end Service
end Propeller
