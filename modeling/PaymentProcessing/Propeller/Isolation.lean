import PaymentProcessing.Propeller.Deliveries

/-! When addresses are kept apart. Two tenants are isolated exactly when neither name
continues the other with a keyword that the longer one's channels can be read under;
inside a tenant, the same question arises for client names and the device keyword. -/
namespace Propeller

section Checks
variable {config : ClientConfig} {tenantId clientId channel : String} {device : Option Device}

/-- What `subscribe_client` subscribes to, and for whom. -/
theorem mem_clientChannels (checked : clientChannels config tenantId clientId device = .ok channels)
    (listed : channel ∈ channels) : tenantId ≠ "" ∧ clientId ≠ "" ∧
      (channel = clientChannel tenantId clientId ∨ config.enableDeviceSupport = true ∧
        ∃ dev, device = some dev ∧ channel = deviceChannel tenantId clientId dev.id) := by
  simp only [clientChannels, refuse_bind_ok, ← Bool.not_eq_true, String.isEmpty_iff] at checked
  obtain ⟨tenant, client, checked⟩ := checked
  refine ⟨tenant, client, ?_⟩
  split at checked
  · rename_i dev support
    simp only [refuse_bind_ok] at checked
    obtain ⟨-, checked⟩ := checked
    cases checked
    simp only [List.mem_cons, List.not_mem_nil, or_false] at listed
    rcases listed with rfl | rfl
    · exact Or.inl rfl
    · exact Or.inr ⟨support, dev, rfl, rfl⟩
  · cases checked
    exact Or.inl (List.mem_singleton.mp listed)

theorem clientChannels_named
    (checked : clientChannels config tenantId clientId device = .ok channels) :
    tenantId ≠ "" ∧ clientId ≠ "" := by
  simp only [clientChannels, refuse_bind_ok, ← Bool.not_eq_true, String.isEmpty_iff] at checked
  exact ⟨checked.1, checked.2.1⟩

theorem clientChannels_plain (tenant : tenantId ≠ "") (client : clientId ≠ "") :
    clientChannels config tenantId clientId none = .ok [clientChannel tenantId clientId] := by
  simp [clientChannels, refuse, tenant, client, bind, Except.bind, pure, Except.pure]

theorem clientChannels_device {dev : Device} (support : config.enableDeviceSupport = true)
    (tenant : tenantId ≠ "") (client : clientId ≠ "") (named : dev.id ≠ "") :
    clientChannels config tenantId clientId (some dev) =
      .ok [clientChannel tenantId clientId, deviceChannel tenantId clientId dev.id] := by
  simp [clientChannels, refuse, tenant, client, named, support, bind, Except.bind, pure,
    Except.pure]

theorem scopedTopic_ok (h : scopedTopic tenantId topic = .ok channel) :
    tenantId ≠ "" ∧ channel = topicChannel tenantId topic := by
  simp only [scopedTopic, refuse_bind_ok, ← Bool.not_eq_true, String.isEmpty_iff] at h
  obtain ⟨-, tenant, same⟩ := h
  cases same
  exact ⟨tenant, rfl⟩

end Checks

/-! ## Tenants -/

/-- The keywords under which channels of this tenant are published or subscribed. An
empty tenant passes the checks of `publish_to_client_device` only. -/
def Usable (config : ClientConfig) (tenantId keyword : String) : Prop :=
  keyword = "client" ∧ (tenantId ≠ "" ∨ config.enableDeviceSupport = true) ∨
    keyword = "topic" ∧ tenantId ≠ ""

/-- Channels of the tenant `b` are channels of `a` as well. -/
def Overlap (config : ClientConfig) (a b : String) : Prop :=
  (a ≠ "" ∨ config.enableDeviceSupport = true) ∧ Continues "client" a b ∨ a ≠ "" ∧ Continues "topic" a b

instance (config : ClientConfig) (a b : String) : Decidable (Overlap config a b) :=
  inferInstanceAs (Decidable (_ ∨ _))

variable {config : ClientConfig} {json : AttributesJson} {a b : String}

theorem Usable.overlap (usable : Usable config a keyword) (h : Continues keyword a b) :
    Overlap config a b := by
  rcases usable with ⟨rfl, named⟩ | ⟨rfl, named⟩
  · exact Or.inl ⟨named, h⟩
  · exact Or.inr ⟨named, h⟩

theorem Overlap.colon_mem (h : Overlap config a b) : ':' ∈ b.toList := by
  rcases h with ⟨-, continues⟩ | ⟨-, continues⟩
  · exact continues.colon_mem
  · exact continues.colon_mem

theorem Usable.free (usable : Usable config a keyword) : ':' ∉ keyword.toList := by
  rcases usable with ⟨rfl, -⟩ | ⟨rfl, -⟩
  · exact client_free
  · exact topic_free

theorem Connection.Hears.shape {c : Connection} (h : c.Hears config topic text) :
    ∃ keyword x, Usable config c.tenantId keyword ∧
      text = "tenant:" ++ joined keyword c.tenantId x := by
  cases topic with
  | none =>
    obtain ⟨channels, checked, listed⟩ := h
    obtain ⟨tenant, -, rfl | ⟨-, dev, -, rfl⟩⟩ := mem_clientChannels checked listed
    · exact ⟨"client", _, Or.inl ⟨rfl, Or.inl tenant⟩, clientChannel_joined _ _⟩
    · exact ⟨"client", _, Or.inl ⟨rfl, Or.inl tenant⟩, deviceChannel_joined _ _ _⟩
  | some name =>
    obtain ⟨topic, named⟩ := h
    obtain ⟨tenant, rfl⟩ := scopedTopic_ok named
    exact ⟨"topic", _, Or.inr ⟨rfl, tenant⟩, topicChannel_joined _ _⟩

theorem Send.shape {send : Send} (h : send.channel config = .ok text) :
    ∃ keyword x, Usable config send.tenant keyword ∧
      text = "tenant:" ++ joined keyword send.tenant x := by
  cases send with
  | toClient req =>
    simp only [Send.channel, publishToClient, refuse_bind_ok, ← Bool.not_eq_true,
      String.isEmpty_iff] at h
    obtain ⟨tenant, -, -, same⟩ := h
    cases same
    exact ⟨"client", _, Or.inl ⟨rfl, Or.inl tenant⟩, clientChannel_joined _ _⟩
  | toDevice req =>
    simp only [Send.channel, publishToClientDevice, refuse_bind_ok, Bool.not_eq_false'] at h
    obtain ⟨support, -, -, -, same⟩ := h
    cases same
    exact ⟨"client", _, Or.inl ⟨rfl, Or.inr support⟩, deviceChannel_joined _ _ _⟩
  | toTopic req =>
    simp only [Send.channel, publishToTopic, refuse_bind_ok, ← Bool.not_eq_true,
      String.isEmpty_iff] at h
    obtain ⟨tenant, -, -, same⟩ := h
    cases same
    exact ⟨"topic", _, Or.inr ⟨rfl, tenant⟩, topicChannel_joined _ _⟩

namespace Service

/-- In no run is an event published for `a` delivered to a connection of `b`. -/
def Isolated (config : ClientConfig) (json : AttributesJson) (a b : String) : Prop :=
  ∀ schedule s, Transition.run (step config json) initial schedule = some s →
    ∀ d ∈ s.broker.delivered, ∀ c ∈ s.connections, c.sub = d.task.sub →
      d.message.origin.tenant = a → c.tenantId ≠ b

/-- A publish of `a` on a channel of a client of `b` breaks the isolation. -/
theorem not_isolated {send : Send} (json : AttributesJson)
    (subscribes : clientChannels config b clientId device = .ok channels)
    (publishes : send.channel config = .ok channel) (listed : channel ∈ channels)
    (tenant : send.tenant = a) : ¬ Isolated config json a b := by
  intro isolated
  obtain ⟨schedule, s, d, c, reached, -, delivered, present, receiver, -, origin, owner, -⟩ :=
    exists_delivery json subscribes publishes listed
  exact isolated schedule s reached d delivered c present receiver (origin ▸ tenant) owner

/-- A client, device or topic name of the shorter tenant can spell out the rest of the longer
one, with the name of one of its clients. -/
theorem not_isolated_of_overlap (json : AttributesJson) (overlap : Overlap config a b) :
    ¬ Isolated config json a b := by
  rcases overlap with ⟨named | support, continues⟩ | ⟨named, continues⟩
  · obtain ⟨rest, same⟩ := continues.joined_eq
    have text : clientChannel a (rest ++ "client" ++ ":" ++ "x") = clientChannel b "x" := by
      rw [clientChannel_joined, clientChannel_joined, same]
    have publishes : (Send.toClient ⟨a, rest ++ "client" ++ ":" ++ "x", "", [0]⟩).channel config =
        .ok (clientChannel b "x") := by
      simp [Send.channel, publishToClient, refuse, named, text, bind, Except.bind, pure,
        Except.pure]
    exact Service.not_isolated json
      (clientChannels_plain continues.nonempty (by decide)) publishes List.mem_cons_self rfl
  · obtain ⟨rest, same⟩ := continues.joined_eq
    have text : deviceChannel a (rest ++ "client" ++ ":" ++ "x") "d" = deviceChannel b "x" "d" := by
      rw [deviceChannel_joined, deviceChannel_joined, ← same]
      simp only [joined, String.append_assoc]
    have publishes :
        (Send.toDevice ⟨a, rest ++ "client" ++ ":" ++ "x", "d", "", [0]⟩).channel config =
        .ok (deviceChannel b "x" "d") := by
      simp [Send.channel, publishToClientDevice, refuse, support, text, bind, Except.bind, pure,
        Except.pure]
    have subscribes : clientChannels config b "x" (some ⟨"d", []⟩) =
        .ok [clientChannel b "x", deviceChannel b "x" "d"] :=
      clientChannels_device support continues.nonempty (by decide) (by decide)
    exact Service.not_isolated json subscribes publishes
      (List.mem_cons_of_mem _ List.mem_cons_self) rfl
  · obtain ⟨rest, same⟩ := continues.joined_eq
    have text : topicChannel a (rest ++ "client" ++ ":" ++ "x") = clientChannel b "x" := by
      rw [topicChannel_joined, clientChannel_joined, same]
    have publishes : (Send.toTopic ⟨a, rest ++ "client" ++ ":" ++ "x", "", [0]⟩).channel config =
        .ok (clientChannel b "x") := by
      simp [Send.channel, publishToTopic, refuse, named, text, bind, Except.bind, pure, Except.pure]
    exact Service.not_isolated json
      (clientChannels_plain continues.nonempty (by decide)) publishes List.mem_cons_self rfl

/-- A delivered message has the shape of a channel of its sender and of its receiver. -/
theorem isolated_of_apart (json : AttributesJson) (different : a ≠ b) (forth : ¬ Overlap config a b)
    (back : ¬ Overlap config b a) : Isolated config json a b := by
  rintro schedule s reached d delivered c present receiver rfl rfl
  have admits : ∀ action ∈ schedule, Admits (fun _ => True) (fun _ _ _ => True) action := by
    intro action _
    cases action <;> trivial
  obtain ⟨published, -, -, heard⟩ := run_delivered reached admits delivered present receiver
  obtain ⟨keyword, x, usable, sent⟩ := Send.shape published
  obtain ⟨keyword', y, usable', listened⟩ := heard.shape
  have same := tenant_cancel (sent.symm.trans listened)
  cases joined_collision usable.free usable'.free different same with
  | inl continues => exact forth (usable.overlap continues)
  | inr continues => exact back (usable'.overlap continues)

/-- A check that refuses colons in tenant ids would be enough. -/
theorem isolated_of_plain (json : AttributesJson) (different : a ≠ b) (plain : ':' ∉ a.toList)
    (plain' : ':' ∉ b.toList) : Isolated config json a b :=
  isolated_of_apart json different (fun overlap => plain' overlap.colon_mem) fun overlap =>
    plain overlap.colon_mem

/-- Two tenants are isolated from each other exactly when neither id continues the other. -/
theorem isolated_iff (different : a ≠ b) : (Isolated config json a b ∧ Isolated config json b a) ↔
    ¬ Overlap config a b ∧ ¬ Overlap config b a := by
  constructor
  · rintro ⟨forth, back⟩
    exact ⟨fun overlap => not_isolated_of_overlap json overlap forth,
      fun overlap => not_isolated_of_overlap json overlap back⟩
  · rintro ⟨forth, back⟩
    exact ⟨isolated_of_apart json different forth back,
      isolated_of_apart json different.symm back forth⟩

theorem acme_globex_isolated : "acme" ≠ "globex" ∧
    Isolated AppConfig.shipped.client plainJson "acme" "globex" ∧
    Isolated AppConfig.shipped.client plainJson "globex" "acme" :=
  ⟨by decide, (isolated_iff (by decide)).mpr (by decide)⟩

/-- An event for the client `eu:client:alice` of `acme` reaches `alice` of `acme:client:eu`. -/
theorem acme_not_isolated : "acme" ≠ "acme:client:eu" ∧
    ¬ Isolated AppConfig.shipped.client plainJson "acme" "acme:client:eu" := by
  refine ⟨by decide, ?_⟩
  intro isolated
  let schedule : List Action := [.connect 0 "acme:client:eu" "alice" none, .advance 0 true,
    .advance 0 true, .advance 0 true,
    .publish (.toClient ⟨"acme", "eu:client:alice", "paid", [1]⟩) .ok, .deliver ⟨0, none, 0⟩]
  obtain ⟨s, reached⟩ :
      ∃ s, Transition.run (step AppConfig.shipped.client plainJson) initial schedule = some s :=
    ⟨_, rfl⟩
  exact isolated schedule s reached
    ⟨⟨0, none, 0⟩, _, _, .toClient ⟨"acme", "eu:client:alice", "paid", [1]⟩⟩
    (by cases reached; exact List.mem_cons_self) ⟨0, "acme:client:eu", "alice", none, .subscribed⟩
    (by cases reached; exact List.mem_cons_self) rfl rfl rfl

end Service
end Propeller
