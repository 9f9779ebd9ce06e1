import PaymentProcessing.Propeller.Gateway
import PaymentProcessing.Propeller.Tokens

/-! Who can reach whom. With auth on, whatever a client is handed was sent by a publisher with a
key, and both of them have shown who they are; and what a configuration file leaves out does not
open the service. -/
namespace Propeller
open Relational Transition

/-- The client header holds this identity of the tenant. -/
def Stated (client : ClientConfig) (headers : HeaderMap) (tenantId : String) (ctx : AuthContext) :
    Prop :=
  ∃ value, headers.get client.header = some value ∧ toStr value = some value ∧
    textOf value ≠ "" ∧ ctx = ⟨textOf value, tenantId, textOf value, []⟩

/-- The identity that the headers of a request stand for at this time: a token proves it, or where
there is none the configured client header states it, under the legacy tenant. -/
inductive Vouches (crates : Crates) (clock : Option UInt64) (auth : AuthConfig) (client : ClientConfig)
    (headers : HeaderMap) (ctx : AuthContext) : Prop where
  | token (value parts) : headers.get "authorization" = some value →
      Bears value (Parts.text parts) → parts.Dotless → Proves crates clock auth parts ctx →
      Vouches crates clock auth client headers ctx
  | legacy : auth.legacyHeaderMode = true → extractHttpBearer headers = none →
      Stated client headers auth.legacyTenant ctx → Vouches crates clock auth client headers ctx

section Credentials
variable {crates : Crates} {clock : Option UInt64} {auth : AuthConfig} {client : ClientConfig}
  {headers : HeaderMap}

theorem stated_of_legacyContext {found : Option (List UInt8)}
    (own : ∀ value, found = some value → headers.get client.header = some value)
    (h : legacyContext (textOf ((found.bind toStr).getD [])) tenantId = .ok ctx) :
    Stated client headers tenantId ctx := by
  obtain ⟨rfl, named⟩ := legacyContext_ok h
  cases found with
  | none => exact absurd rfl named
  | some value =>
    rw [Option.bind_some] at named ⊢
    cases read : toStr value with
    | none =>
      rw [read] at named
      exact absurd rfl named
    | some text =>
      rw [read] at named
      obtain rfl := toStr_eq read
      exact ⟨text, own text rfl, read, named, rfl⟩

theorem HeaderMap.get_of_metadata (found : headers.metadata name = some value) :
    headers.get name = some value := by
  unfold metadata at found
  split at found
  · contradiction
  · exact found

theorem vouches_of_authenticate {legacy : Except PropellerError AuthContext}
    (enabled : auth.enabled = true)
    (own : ∀ ctx, legacy = .ok ctx → Stated client headers auth.legacyTenant ctx)
    (h : authenticate crates clock auth (extractHttpBearer headers) legacy missing = .ok (ctx, flag)) :
    Vouches crates clock auth client headers ctx := by
  rcases authenticate_origin enabled h with ⟨token, bearer, decoded⟩ | ⟨absent, -, made⟩
  · obtain ⟨value, found, read⟩ := Option.bind_eq_some_iff.mp bearer
    obtain ⟨text, readable, extracted⟩ := Option.bind_eq_some_iff.mp read
    obtain ⟨parts, rfl, free, proves⟩ := decodeJwt_proves decoded
    exact .token value parts found (bears_of_extractBearer (toStr_eq readable ▸ extracted)) free proves
  · refine .legacy ?_ absent (own ctx made)
    by_contra off
    simp [authenticate, enabled, absent, off] at h

theorem vouches_http (enabled : auth.enabled = true)
    (h : authenticateHttp crates clock auth headers client = .ok (ctx, flag)) :
    Vouches crates clock auth client headers ctx :=
  vouches_of_authenticate enabled
    (fun _ made => stated_of_legacyContext (fun _ found => found) made) h

theorem vouches_grpc (enabled : auth.enabled = true)
    (h : authenticateGrpc crates clock auth headers client = .ok (ctx, flag)) :
    Vouches crates clock auth client headers ctx := by
  unfold authenticateGrpc at h
  rw [extractGrpcBearer_eq] at h
  exact vouches_of_authenticate enabled
    (fun _ made => stated_of_legacyContext (fun _ => HeaderMap.get_of_metadata) made) h

/-- Whatever call a WebSocket request leads to is made for the client it authenticates. -/
theorem vouches_wsConnect (enabled : auth.enabled = true)
    (h : wsConnect crates clock auth client headers = some call) : ∃ ctx,
    Vouches crates clock auth client headers ctx ∧ call.tenantId = ctx.tenantId ∧
      call.clientId = ctx.clientId := by
  unfold wsConnect at h
  split at h
  · rename_i ctx legacyMode admitted
    cases h
    exact ⟨ctx, vouches_http enabled admitted, rfl, rfl⟩
  · contradiction

theorem vouches_grpcEntry (enabled : auth.enabled = true)
    (h : grpcEntry crates clock auth client headers = some call) : ∃ ctx,
    Vouches crates clock auth client headers ctx ∧ call.tenantId = ctx.tenantId ∧
      call.clientId = ctx.clientId := by
  unfold grpcEntry channelCall at h
  cases admitted : GrpcPushHandler.authClient ⟨crates, auth, client⟩ clock headers with
  | error e => simp [admitted, bind, Except.bind, Except.toOption] at h
  | ok answer =>
    cases read : extractDevice client headers with
    | error e => simp [admitted, read, bind, Except.bind, Except.toOption] at h
    | ok device =>
      simp only [admitted, read, bind, Except.bind, Except.toOption, pure, Except.pure,
        Option.some.injEq] at h
      exact ⟨answer.1, vouches_grpc enabled (authClient_ok admitted), h ▸ rfl, h ▸ rfl⟩

end Credentials

namespace Service
variable {config : ClientConfig} {json : AttributesJson} {s t : Service} {kind : Message Send → Prop}

/-- Every message that the broker's tasks hold or have delivered is of this kind. -/
def Carries (kind : Message Send → Prop) (s : Service) : Prop :=
  s.broker.Sound (fun _ _ => True) kind

theorem Advances.carries (h : Advances config json s c ok t) (before : s.Carries kind) :
    t.Carries kind := by
  cases h with
  | connected => exact Broker.Sound.connect before
  | listening => exact Broker.Sound.listen before trivial
  | unsubscribed => exact Broker.Sound.close before
  | registering | plain => exact Broker.Sound.start before
  | left => exact Broker.Sound.unsubscribe before
  | unconnected | stored | deleted => exact before

theorem advanceAdd_carries (before : s.Carries kind) : (s.advanceAdd a ok).Carries kind := by
  unfold advanceAdd
  split
  · exact Broker.Sound.connect before
  · exact before
  · exact Broker.Sound.listen before trivial
  · exact Broker.Sound.close before
  · exact Broker.Sound.finishAdd before

/-- It is enough that the publishes are. -/
theorem step_carries (h : s.step config json a = some t) (before : s.Carries kind)
    (new : ∀ send reply channel, a = .publish send reply → send.channel config = .ok channel →
      kind ⟨channel, send.event, send⟩) : t.Carries kind := by
  have moves := step_moves h
  cases moves with
  | refused | disconnect | abandon | topicSubscribe => exact before
  | connect => exact before.congr (List.Subset.refl _) rfl
  | advance sub c ok t found advanced => exact advanced.carries before
  | advanceAdd a ok member => exact advanceAdd_carries before
  | topicUnsubscribe sub c topic channel broker found phase named removed =>
    exact Broker.Sound.removeSubscription before removed
  | publish send reply channel checked =>
    change (if _ then _ else _ : Broker Send).Sound _ _
    split
    · exact before
    · exact Broker.Sound.publish before (new send reply channel rfl checked)
  | turn a broker turns => exact turns.sound before

end Service

namespace Gateway

/-- The action is a request to connect, with these headers. -/
def Action.Asks (clock : Option UInt64) (headers : HeaderMap) (a : Action) : Prop :=
  a = .wsConnect clock headers ∨ ∃ sub, a = .channel clock headers sub

/-- One of these requests was to connect as this client, whom its headers stand for. -/
def Joined (crates : Crates) (config : AppConfig) (requests : List Action)
    (tenantId clientId : String) : Prop :=
  ∃ a ∈ requests, ∃ clock headers ctx, a.Asks clock headers ∧
    Vouches crates clock config.auth config.client headers ctx ∧ tenantId = ctx.tenantId ∧
      clientId = ctx.clientId

/-- One of these requests was to send this, by a publisher with a key and an identity. -/
def Requested (crates : Crates) (config : AppConfig) (requests : List Action)
    (publisher : AuthContext) (send : Send) : Prop :=
  ∃ clock metadata rpc, Action.send clock metadata rpc ∈ requests ∧
    CarriesKey config.auth metadata ∧
      Vouches crates clock config.auth config.client metadata publisher ∧ send ∈ rpc.sends publisher

/-- Connections and sends go back to these requests, and messages say what was sent. -/
structure Vetted (crates : Crates) (config : AppConfig) (requests : List Action) (g : Gateway) :
    Prop where
  sound : g.server.service.Sound config.client
    (fun send => ∃ publisher, Requested crates config requests publisher send)
    (fun tenantId clientId _ => Joined crates config requests tenantId clientId)
  carries : g.server.service.Carries fun m => m.data = m.origin.event
  upgrades : ∀ call ∈ g.upgrades, Joined crates config requests call.tenantId call.clientId
  calls : ∀ call ∈ g.calls, ∀ send ∈ call, ∃ publisher,
    Requested crates config requests publisher send

section Vetted
variable {crates : Crates} {config : AppConfig} {json : AttributesJson} {requests : List Action}
  {g t : Gateway}

theorem initial_vetted : Vetted crates config requests initial :=
  ⟨Service.initial_sound, Broker.empty_sound, nofun, nofun⟩

/-- A step of the service, if what it publishes was requested and whom it connects has joined. -/
theorem Vetted.served {s : Server} {upgrades : List SubscribeCall} {calls : List (List Send)}
    (before : Vetted crates config requests g)
    (stepped : g.server.service.step config.client json b = some s.service)
    (admits : Admits (fun send => ∃ publisher, Requested crates config requests publisher send)
      (fun tenantId clientId _ => Joined crates config requests tenantId clientId) b)
    (pending : ∀ call ∈ upgrades, Joined crates config requests call.tenantId call.clientId)
    (sends : ∀ call ∈ calls, ∀ send ∈ call, ∃ publisher,
      Requested crates config requests publisher send) :
    Vetted crates config requests ⟨s, upgrades, calls⟩ :=
  ⟨(Service.step_moves stepped).sound before.sound admits,
    Service.step_carries stepped before.carries (fun _ _ _ _ _ => rfl), pending, sends⟩

theorem authorizePublisher_vouches {clock : Option UInt64} (enabled : config.auth.enabled = true)
    (authorized : (handler crates config).authorizePublisher clock metadata = .ok publisher) :
    CarriesKey config.auth metadata ∧
      Vouches crates clock config.auth config.client metadata publisher := by
  obtain ⟨key, legacy, identity⟩ :=
    authorizePublisher_ok (h := handler crates config) enabled authorized
  exact ⟨key, vouches_grpc enabled identity⟩

theorem step_vetted (enabled : config.auth.enabled = true) (before : Vetted crates config requests g)
    (asked : a ∈ requests) (h : g.step crates config json a = some t) :
    Vetted crates config requests t := by
  have moves := step_moves h
  cases moves with
  | answered => exact before
  | upgrading clock headers call admitted =>
    refine ⟨before.sound, before.carries, ?_, before.calls⟩
    intro other member
    rcases List.mem_append.mp member with old | new
    · exact before.upgrades other old
    · obtain ⟨ctx, vouched, tenant, client⟩ := vouches_wsConnect enabled admitted
      rw [List.mem_singleton.mp new]
      exact ⟨_, asked, clock, headers, ctx, Or.inl rfl, vouched, tenant, client⟩
  | turnedAway upgrade sub =>
    exact ⟨before.sound, before.carries,
      fun call member => before.upgrades call (List.mem_of_mem_eraseIdx member), before.calls⟩
  | upgraded upgrade sub call s found accepted =>
    exact before.served (Server.step_accept accepted) (before.upgrades call (List.mem_of_getElem? found))
      (fun call member => before.upgrades call (List.mem_of_mem_eraseIdx member)) before.calls
  | opened clock metadata sub call s entered accepted =>
    obtain ⟨ctx, vouched, tenant, client⟩ := vouches_grpcEntry enabled entered
    exact before.served (Server.step_accept accepted)
      ⟨_, asked, clock, metadata, ctx, Or.inr ⟨sub, rfl⟩, vouched, tenant, client⟩ before.upgrades
      before.calls
  | sending clock metadata rpc publisher authorized =>
    obtain ⟨key, vouched⟩ := authorizePublisher_vouches enabled authorized
    refine ⟨before.sound, before.carries, before.upgrades, ?_⟩
    intro call member send inside
    rcases List.mem_append.mp member with old | new
    · exact before.calls call old send inside
    · rw [List.mem_singleton.mp new] at inside
      exact ⟨publisher, clock, metadata, rpc, asked, key, vouched, inside⟩
  | published call reply send rest todo s next fewer published =>
    have listed := before.calls _ (List.mem_of_getElem? next)
    refine before.served (Server.step_publish published) (listed send List.mem_cons_self)
      before.upgrades ?_
    intro other member later inside
    rcases List.mem_or_eq_of_mem_set member with old | rfl
    · exact before.calls other old later inside
    · exact listed later (List.mem_cons_of_mem send (fewer inside))
  | server a s internal stepped =>
    rcases Server.step_internal stepped internal with same | ⟨b, serves, admits⟩
    · exact ⟨same ▸ before.sound, same ▸ before.carries, before.upgrades, before.calls⟩
    · exact before.served serves (admits _ _) before.upgrades before.calls

theorem run_vetted (enabled : config.auth.enabled = true)
    (h : run (step crates config json) initial schedule = some g) :
    Vetted crates config schedule g :=
  invariant_of_meets (C := fun _ a => a ∈ schedule)
    (fun before asked stepped => step_vetted enabled before asked stepped) initial_vetted
    (Meets.of_forall (fun _ member => member) initial) h

end Vetted

/-- What a handler has taken was delivered for its subscription. -/
theorem delivered_of_taken {s : Server} (supplied : s.Supplied) (member : k ∈ s.handlers)
    (given : e ∈ k.taken) :
    ∃ d ∈ s.service.broker.delivered, d.task.sub = k.sub ∧ d.message.topicEvent = e := by
  have listed : e ∈ (s.service.broker.enqueued k.sub).map Message.topicEvent := by
    rw [supplied.handed k member]
    exact List.mem_append_left _ given
  obtain ⟨message, queued, same⟩ := List.mem_map.mp listed
  obtain ⟨d, own, rfl⟩ := List.mem_map.mp queued
  obtain ⟨delivered, sub⟩ := List.mem_filter.mp own
  exact ⟨d, delivered, of_decide_eq_true sub, same⟩

/-- A publish reaches a channel of its own tenant, or of one whose name it is mixed up with. -/
theorem tenant_of_hears {config : ClientConfig} {send : Send} {c : Connection}
    (published : send.channel config = .ok channel) (heard : c.Hears config topic channel) :
    send.tenant = c.tenantId ∨ Overlap config send.tenant c.tenantId ∨
      Overlap config c.tenantId send.tenant := by
  obtain ⟨keyword, x, usable, sent⟩ := Send.shape published
  obtain ⟨keyword', y, usable', listened⟩ := heard.shape
  by_cases same : send.tenant = c.tenantId
  · exact Or.inl same
  · have equal := tenant_cancel (sent.symm.trans listened)
    rcases joined_collision usable.free usable'.free same equal with continues | continues
    · exact Or.inr (Or.inl (usable.overlap continues))
    · exact Or.inr (Or.inr (usable'.overlap continues))

/-- An event is the client's to have: its headers stood for it when it connected, the channel is one
that it hears, and a publisher with a key and an identity asked for these bytes to be sent there. The
two are of one tenant, or the name of one tenant continues that of the other. -/
structure Authentic (crates : Crates) (config : AppConfig) (requests : List Action) (c : Connection)
    (e : TopicEvent) : Prop where
  joined : Joined crates config requests c.tenantId c.clientId
  heard : ∃ topic, c.Hears config.client topic e.topic
  sent : ∃ publisher send, Requested crates config requests publisher send ∧
    send.channel config.client = .ok e.topic ∧ send.event = e.event ∧
    (publisher.tenantId = c.tenantId ∨ Overlap config.client publisher.tenantId c.tenantId ∨
      Overlap config.client c.tenantId publisher.tenantId)

/-- With auth on, in every run, every event that a handler takes for its client is the client's. -/
theorem run_authentic (crates : Crates) (config : AppConfig) (json : AttributesJson)
    (schedule : List Action) (g : Gateway) (enabled : config.auth.enabled = true)
    (h : run (step crates config json) initial schedule = some g) :
    ∀ k ∈ g.server.handlers, ∀ e ∈ k.taken, ∃ c ∈ g.server.service.connections, c.sub = k.sub ∧
      Authentic crates config schedule c e := by
  intro k member e given
  obtain ⟨calls, reached⟩ := run_server h
  have vetted := run_vetted enabled h
  obtain ⟨d, delivered, own, rfl⟩ := delivered_of_taken (Server.run_supplied reached) member given
  obtain ⟨⟨c, present, sub, heard⟩, published, publisher, requested⟩ :=
    vetted.sound.broker.delivered d delivered
  have tenant : d.message.origin.tenant = publisher.tenantId := by
    obtain ⟨-, -, rpc, -, -, -, inside⟩ := requested
    exact SendRpc.sends_tenant inside
  refine ⟨c, present, sub.trans own, vetted.sound.admitted c present, ⟨d.task.topic, heard⟩,
    publisher, d.message.origin, requested, published, ?_, ?_⟩
  · exact (vetted.carries.delivered d delivered).2.symm
  · rw [← tenant]
    exact tenant_of_hears published heard

set_option maxRecDepth 8000 in
theorem paid_authentic : ∃ g k, run (step sampleCrates sampleService plainJson) initial paid = some g ∧
    k ∈ g.server.handlers ∧ ∃ e ∈ k.taken, ∃ c ∈ g.server.service.connections, c.sub = k.sub ∧
      Authentic sampleCrates sampleService paid c e := by
  have events : (run (step sampleCrates sampleService plainJson) initial paid).map
      (fun g => g.server.handlers.map Handler.taken) =
        some [[⟨clientChannel "tenant_1" "user_1", [1]⟩]] := by
    decide +kernel
  obtain ⟨g, reached, taken⟩ := Option.map_eq_some_iff.mp events
  obtain ⟨k, only, told⟩ := List.map_eq_singleton_iff.mp taken
  have member : k ∈ g.server.handlers := by simp [only]
  have given : ⟨clientChannel "tenant_1" "user_1", [1]⟩ ∈ k.taken := by simp [told]
  exact ⟨g, k, reached, member, _, given, run_authentic _ _ _ _ g rfl reached k member _ given⟩

section Loaded
variable {crates : Crates} {config : AppConfig} {requests : List Action} {raw : AppConfigRaw}

theorem enabled_of_load (loaded : AppConfig.load (.ok raw) = .ok config)
    (said : raw.auth.enabled ≠ some false) : config.auth.enabled = true := by
  obtain ⟨_, ⟨⟩, auth, -⟩ := AppConfig.load_ok loaded
  rw [auth]
  change raw.auth.enabled.getD true = true
  cases stated : raw.auth.enabled with
  | none => rfl
  | some b =>
    cases b with
    | true => rfl
    | false => exact absurd stated said

theorem not_requested_of_keyless (keyless : config.auth.apiKeys = []) :
    ¬ Requested crates config requests publisher send := by
  rintro ⟨clock, metadata, rpc, -, ⟨value, -, known⟩, -⟩
  rw [keyless] at known
  cases known

end Loaded

/-- One of these requests was to connect as this client, with a token for it that is signed with a
secret that is not empty. -/
def Proven (crates : Crates) (config : AppConfig) (requests : List Action) (c : Connection) : Prop :=
  ∃ a ∈ requests, ∃ clock headers value parts ctx secret, a.Asks clock headers ∧
    headers.get "authorization" = some value ∧ Bears value (Parts.text parts) ∧
    Proves crates clock config.auth parts ctx ∧ config.auth.jwt.hmacSecret = some secret ∧
    secret ≠ "" ∧ c.tenantId = ctx.tenantId ∧ c.clientId = ctx.clientId

/-- A file that loads and does not switch auth off: if it lists no key of a publisher, no client is
ever handed an event; and if it switches legacy mode off, each client that ever connects has
proven with a token who it is. -/
theorem run_guarded (crates : Crates) (raw : AppConfigRaw) (config : AppConfig)
    (json : AttributesJson) (schedule : List Action) (g : Gateway)
    (loaded : AppConfig.load (.ok raw) = .ok config) (said : raw.auth.enabled ≠ some false)
    (h : run (step crates config json) initial schedule = some g) :
    (raw.auth.apiKeys.getD [] = [] → ∀ k ∈ g.server.handlers, k.taken = []) ∧
    (raw.auth.legacyHeaderMode = some false →
      ∀ c ∈ g.server.service.connections, Proven crates config schedule c) := by
  have enabled := enabled_of_load loaded said
  have vetted := run_vetted enabled h
  obtain ⟨_, ⟨⟩, auth, valid⟩ := AppConfig.load_ok loaded
  constructor
  · intro empty k member
    have keyless : config.auth.apiKeys = [] := (congrArg AuthConfig.apiKeys auth).trans empty
    obtain ⟨calls, reached⟩ := run_server h
    apply List.eq_nil_iff_forall_not_mem.mpr
    intro e given
    obtain ⟨d, delivered, -⟩ := delivered_of_taken (Server.run_supplied reached) member given
    obtain ⟨-, -, publisher, requested⟩ := vetted.sound.broker.delivered d delivered
    exact not_requested_of_keyless keyless requested
  · intro off c member
    obtain ⟨a, asked, clock, headers, ctx, asks, vouched, tenant, client⟩ :=
      vetted.sound.admitted c member
    cases vouched with
    | token value parts found bears free proves =>
      obtain ⟨secret, configured⟩ : ∃ secret, config.auth.jwt.hmacSecret = some secret := by
        obtain ⟨secret, -, -, -, configured, -⟩ := proves
        exact ⟨secret, configured⟩
      have signed : config.auth.jwt.hmacSecret.getD "" ≠ "" :=
        ((AuthConfig.validate_ok_iff _).mp
          (((AppConfig.validate_ok_iff config).mp valid).1 enabled)).2.2.2
      rw [configured] at signed
      exact ⟨a, asked, clock, headers, value, parts, ctx, secret, asks, found, bears, proves,
        configured, signed, tenant, client⟩
    | legacy mode =>
      rw [auth] at mode
      change raw.auth.legacyHeaderMode.getD true = true at mode
      rw [off] at mode
      cases mode

/-- The keys are left out, and auth is not mentioned. -/
def keyless : AppConfigRaw where
  grpc := sampleService.grpc
  keepalive := sampleService.keepalive
  client := sampleClient
  auth := ⟨none, some false, none, none, none, some sampleAuth.jwt⟩

set_option maxRecDepth 8000 in
/-- The client is let in; the publisher is not. -/
theorem keyless_guarded : ∃ config g, AppConfig.load (.ok keyless) = .ok config ∧
    run (step sampleCrates config plainJson) initial (paid.take 7) = some g ∧
    (∀ k ∈ g.server.handlers, k.taken = []) ∧
      ∀ c ∈ g.server.service.connections, Proven sampleCrates config (paid.take 7) c := by
  let config : AppConfig := { sampleService with auth := { sampleAuth with apiKeys := [] } }
  have loaded : AppConfig.load (.ok keyless) = .ok config := rfl
  obtain ⟨g, reached⟩ : ∃ g, run (step sampleCrates config plainJson) initial (paid.take 7) = some g :=
    Option.isSome_iff_exists.mp (by decide +kernel)
  have guarded := run_guarded _ _ _ _ _ g loaded (by decide) reached
  exact ⟨config, g, loaded, reached, guarded.1 rfl, guarded.2 rfl⟩

end Gateway
end Propeller
