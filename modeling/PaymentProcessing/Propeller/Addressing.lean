import PaymentProcessing.Propeller.Isolation

/-! Direct addressing inside one tenant. Client and device channels share their prefix, so
a client whose id continues another one with the device keyword hears the other's devices,
and conversely. -/
namespace Propeller

/-- The connection is one that the publish names. -/
def Send.Addresses : Send → Connection → Prop
  | .toClient req, c => c.clientId = req.clientId
  | .toDevice req, c => c.clientId = req.clientId ∧ c.device.map Device.id = some req.deviceId
  | .toTopic _, _ => True

/-- A publish for this tenant names a client of `K`, if it names one. -/
def Send.Names (t : String) (K : String → Prop) : Send → Prop
  | .toClient req => req.tenantId = t → K req.clientId
  | .toDevice req => req.tenantId = t → K req.clientId
  | .toTopic _ => True

theorem Admits.mono {P P' : Send → Prop} {Q Q' : String → String → Option Device → Prop}
    (sends : ∀ send, P send → P' send) (connects : ∀ t c d, Q t c d → Q' t c d)
    (h : Admits P Q a) : Admits P' Q' a := by
  cases a <;> first | trivial | exact sends _ h | exact connects _ _ _ h

variable {config : ClientConfig} {json : AttributesJson} {t : String} {K : String → Prop}

/-- No id of `K` continues another one with the device keyword. -/
def Apart (K : String → Prop) : Prop := ∀ x y, K x → K y → x ≠ "" → ¬ Continues "device" x y

theorem deviceChannel_cancel (same : deviceChannel t x d = deviceChannel t y e) :
    joined "device" x d = joined "device" y e := by
  rw [deviceChannel_joined, deviceChannel_joined] at same
  exact joined_cancel (tenant_cancel same)

theorem clientChannel_cancel (same : clientChannel t x = clientChannel t y) : x = y := by
  rw [clientChannel_joined, clientChannel_joined] at same
  exact joined_cancel (tenant_cancel same)

/-- A client channel that is a device channel is one of a continuing id. -/
theorem continues_of_deviceChannel (same : deviceChannel t x d = clientChannel t y) :
    Continues "device" x y := by
  rw [deviceChannel_joined, clientChannel_joined] at same
  rw [← joined_cancel (tenant_cancel same)]
  exact continues_joined "device" x d

/-- Two device channels that are one belong to one device, or to continuing ids. -/
theorem device_of_deviceChannel (same : deviceChannel t x d = deviceChannel t y e) :
    (x = y ∧ d = e) ∨ Continues "device" x y ∨ Continues "device" y x := by
  have texts := deviceChannel_cancel same
  by_cases equal : x = y
  · subst equal
    exact Or.inl ⟨rfl, joined_cancel texts⟩
  · exact Or.inr (joined_collision device_free device_free equal texts)

/-- A shared channel inside one tenant leads where it is addressed. -/
theorem Send.addresses_of_shared {send : Send} {c : Connection} (owner : c.tenantId = t)
    (tenant : send.tenant = t) (named : send.Names t K) (known : K c.clientId)
    (apart : config.enableDeviceSupport = true → Apart K)
    (publishes : send.channel config = .ok text) (heard : c.Hears config none text) :
    send.Addresses c := by
  obtain ⟨channels, checked, listed⟩ := heard
  obtain ⟨-, client, shape⟩ := mem_clientChannels checked listed
  rw [owner] at shape
  cases send with
  | toTopic req => trivial
  | toClient req =>
    cases tenant
    simp only [Send.channel, publishToClient, refuse_bind_ok] at publishes
    obtain ⟨-, -, -, same⟩ := publishes
    cases same
    rcases shape with same | ⟨support, dev, -, same⟩
    · exact (clientChannel_cancel same).symm
    · exact absurd (continues_of_deviceChannel same.symm)
        (apart support _ _ known (named rfl) client)
  | toDevice req =>
    cases tenant
    simp only [Send.channel, publishToClientDevice, refuse_bind_ok, ← Bool.not_eq_true,
      String.isEmpty_iff] at publishes
    obtain ⟨enabled, target, -, -, same⟩ := publishes
    have support : config.enableDeviceSupport = true := by simpa using enabled
    cases same
    rcases shape with same | ⟨-, dev, device, same⟩
    · exact absurd (continues_of_deviceChannel same) (apart support _ _ (named rfl) known target)
    · rcases device_of_deviceChannel same with ⟨equal, name⟩ | continues | continues
      · exact ⟨equal.symm, by rw [device, name, Option.map_some]⟩
      · exact absurd continues (apart support _ _ (named rfl) known target)
      · exact absurd continues (apart support _ _ known (named rfl) client)

namespace Service

/-- In every run whose clients of the tenant `t` are in `K`, what is published for the
tenant reaches, on the channels of `subscribe_client`, only the tenant's connections that
it names. -/
def Exact (config : ClientConfig) (json : AttributesJson) (t : String) (K : String → Prop) : Prop :=
  ∀ schedule s, Transition.run (step config json) initial schedule = some s →
    (∀ a ∈ schedule, Admits (Send.Names t K) (fun tenantId clientId _ => tenantId = t → K clientId) a) →
    ∀ d ∈ s.broker.delivered, d.task.topic = none → d.message.origin.tenant = t →
      ∀ c ∈ s.connections, c.sub = d.task.sub → c.tenantId = t → d.message.origin.Addresses c

theorem exact_of_apart (json : AttributesJson)
    (named : t ≠ "" → config.enableDeviceSupport = true → Apart K) :
    Exact config json t K := by
  intro schedule s reached admits d delivered base tenant c present receiver owner
  obtain ⟨published, names, known, heard⟩ := run_delivered reached admits delivered present receiver
  rw [base] at heard
  have nonempty : t ≠ "" := by
    obtain ⟨channels, checked, listed⟩ := heard
    exact owner ▸ (mem_clientChannels checked listed).1
  exact Send.addresses_of_shared owner tenant names (known owner) (named nonempty) published heard

/-- A device publish to an id reaches the devices of every id that continues it. -/
theorem not_exact (json : AttributesJson) (nonempty : t ≠ "")
    (support : config.enableDeviceSupport = true) (first : K x) (second : K y) (target : x ≠ "")
    (continues : Continues "device" x y) :
    ¬ Exact config json t K := by
  intro exact
  obtain ⟨rest, same⟩ := continues.joined_eq
  have text : deviceChannel t x (rest ++ "device" ++ ":" ++ "d") = deviceChannel t y "d" := by
    rw [deviceChannel_joined, deviceChannel_joined, same]
  have publishes : (Send.toDevice ⟨t, x, rest ++ "device" ++ ":" ++ "d", "", [0]⟩).channel config =
      .ok (deviceChannel t y "d") := by
    simp [Send.channel, publishToClientDevice, refuse, support, target, text, bind, Except.bind,
      pure, Except.pure]
  have subscribes :
      clientChannels config t y (some ⟨"d", []⟩) = .ok [clientChannel t y, deviceChannel t y "d"] :=
    clientChannels_device support nonempty continues.nonempty (by decide)
  obtain ⟨schedule, s, d, c, reached, admitted, delivered, present, receiver, base, origin, owner,
    client, -⟩ :=
    exists_delivery json subscribes publishes (List.mem_cons_of_mem _ List.mem_cons_self)
  have admits : ∀ a ∈ schedule,
      Admits (Send.Names t K) (fun tenantId clientId _ => tenantId = t → K clientId) a := by
    intro a inside
    refine (admitted a inside).mono ?_ ?_
    · rintro send rfl _
      exact first
    · rintro _ _ _ ⟨-, rfl, -⟩ _
      exact second
  have addressed :=
    exact schedule s reached admits d delivered base (by rw [origin]; rfl) c present receiver owner
  rw [origin] at addressed
  exact continues.ne (addressed.1.symm.trans client)

/-- Addressing is exact when no client id in use continues another, or without devices. -/
theorem exact_iff (config : ClientConfig) (json : AttributesJson) (t : String) (K : String → Prop) :
    Exact config json t K ↔ t = "" ∨ config.enableDeviceSupport = false ∨
      ∀ x y, K x → K y → x ≠ "" → ¬ Continues "device" x y := by
  constructor
  · intro exact
    by_cases nonempty : t = ""
    · exact Or.inl nonempty
    cases support : config.enableDeviceSupport with
    | false => exact Or.inr (Or.inl rfl)
    | true =>
      refine Or.inr (Or.inr ?_)
      intro x y first second target continues
      exact not_exact json nonempty support first second target continues exact
  · rintro (empty | unsupported | apart)
    · exact exact_of_apart json fun nonempty => absurd empty nonempty
    · exact exact_of_apart json fun _ support => by simp [unsupported] at support
    · exact exact_of_apart json fun _ _ => apart

/-- An event for the device `work` of `alice` reaches the client `alice:device:work`. -/
theorem shipped_not_exact : ¬ Exact AppConfig.shipped.client plainJson "acme" fun _ => True := by
  intro exact
  let schedule : List Action := [.connect 0 "acme" "alice:device:work" none, .advance 0 true,
    .advance 0 true, .advance 0 true,
    .publish (.toDevice ⟨"acme", "alice", "work", "paid", [1]⟩) .ok, .deliver ⟨0, none, 0⟩]
  obtain ⟨s, reached⟩ :
      ∃ s, Transition.run (step AppConfig.shipped.client plainJson) initial schedule = some s :=
    ⟨_, rfl⟩
  have admits : ∀ a ∈ schedule, Admits (Send.Names "acme" fun _ => True)
      (fun tenantId _ _ => tenantId = "acme" → True) a := by
    simp [schedule, Admits, Send.Names]
  have addressed := exact schedule s reached admits
    ⟨⟨0, none, 0⟩, _, _, .toDevice ⟨"acme", "alice", "work", "paid", [1]⟩⟩
    (by cases reached; exact List.mem_cons_self) rfl rfl
    ⟨0, "acme", "alice:device:work", none, .subscribed⟩
      (by cases reached; exact List.mem_cons_self) rfl rfl
  exact absurd addressed.1 (by decide)

end Service
end Propeller
