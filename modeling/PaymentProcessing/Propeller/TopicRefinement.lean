import PaymentProcessing.Propeller.Isolation
import PaymentProcessing.Propeller.TopicSets

/-! Channels refine their sets. In every run of the server, whatever the other handlers and the
broker's tasks do, the requests of a channel are answered one by one by its own set. -/
namespace Propeller
open Relational

namespace Server
variable {config : ClientConfig} {json : AttributesJson} {s t : Server} {h h' : Handler}

/-- The topic request that an action brings to a channel. -/
def Action.request (sub : Uuid) : Action → Option TopicRequest
  | .turn other input => if other = sub then input.topicRequest else none
  | _ => none

/-- The topic requests that a channel has read, in order. -/
def requests (schedule : List Action) (sub : Uuid) : List TopicRequest :=
  schedule.filterMap (Action.request sub)

/-- Every handler is tracked, whatever the others do. -/
structure Tracks (past : List Action) (s : Server) : Prop where
  coherent : s.Coherent
  known : ∀ id ∈ s.service.registrations, ∃ c, s.service.connection id = some c
  adding : ∀ a ∈ s.service.adding, a.task.topic = some a.channel
  turns : ∀ sub, s.handler sub = none → requests past sub = []
  handlers : ∀ k ∈ s.handlers, ∃ c, s.service.connection k.sub = some c ∧
    Tracked s.service (requests past k.sub) c.tenantId k

theorem requests_append (past : List Action) (a : Action) (sub : Uuid) :
    requests (past ++ [a]) sub = requests past sub ++ (a.request sub).toList := by
  simp only [requests, List.filterMap_append]
  cases found : a.request sub <;> simp [found]

theorem requests_other (past : List Action) (sub : Uuid)
    (other : ∀ sub input, a ≠ Action.turn sub input) :
    requests (past ++ [a]) sub = requests past sub := by
  rw [requests_append]
  cases a with
  | turn sub input => exact absurd rfl (other sub input)
  | _ => exact List.append_nil _

/-- Steps of the service that are no handler's. -/
theorem Tracks.aside (tracks : s.Tracks past) (coherent : (⟨u, s.handlers⟩ : Server).Coherent)
    (stepped : s.service.step config json b = some u)
    (other : ∀ sub input, a ≠ Action.turn sub input) (reads : b.writes = none) :
    (⟨u, s.handlers⟩ : Server).Tracks (past ++ [a]) := by
  refine ⟨coherent, Service.step_known stepped tracks.known, Service.step_adding stepped tracks.adding,
    ?_, ?_⟩
  · intro sub missing
    rw [requests_other past sub other]
    exact tracks.turns sub missing
  · intro k member
    obtain ⟨c, found, tracked⟩ := tracks.handlers k member
    obtain ⟨c', found', tenant⟩ := Service.step_connection stepped found
    refine ⟨c', found', ?_⟩
    rw [requests_other past k.sub other, tenant]
    exact tracked.untouched fun K keyed => keyed.congr (Service.step_subscriptions stepped reads)

/-- The turn of a handler. -/
theorem Tracks.turn (tracks : s.Tracks past) (found : s.handler h.sub = some h)
    (moves : h.Moves config json s.service input u h')
    (coherent : (⟨u, updateWhere (·.sub == h.sub) (fun _ => h') s.handlers⟩ : Server).Coherent) :
    (⟨u, updateWhere (·.sub == h.sub) (fun _ => h') s.handlers⟩ : Server).Tracks
      (past ++ [.turn h.sub input]) := by
  have member := (handler_mem found).1
  obtain ⟨c, present, mine⟩ := tracks.handlers h member
  have registered (inside : h.stage.looping = true) : h.sub ∈ s.service.registrations := by
    obtain ⟨c', found', agrees⟩ := tracks.coherent.connection member
    obtain ⟨phase, -⟩ := agrees.subscribed inside
    obtain ⟨listed, named⟩ := Service.connection_mem found'
    exact named ▸ tracks.coherent.accounted.registered c' listed (by simp [phase])
  have tenant : ∀ c', s.service.connection h.sub = some c' → c'.tenantId = c.tenantId := by
    intro c' found'
    cases present.symm.trans found'
    rfl
  have next := mine.moves registered tenant tracks.adding moves
  have persists {sub c} (known : s.service.connection sub = some c) :
      ∃ c', u.connection sub = some c' ∧ c'.tenantId = c.tenantId := by
    rcases moves.service with rfl | ⟨b, -, stepped⟩
    · exact ⟨c, known, rfl⟩
    · exact Service.step_connection stepped known
  have request (sub : Uuid) : requests (past ++ [.turn h.sub input]) sub =
      requests past sub ++ (if h.sub = sub then input.topicRequest else none).toList :=
    requests_append past _ sub
  refine ⟨coherent, ?_, ?_, ?_, ?_⟩
  · rcases moves.service with rfl | ⟨b, -, stepped⟩
    · exact tracks.known
    · exact Service.step_known stepped tracks.known
  · rcases moves.service with rfl | ⟨b, -, stepped⟩
    · exact tracks.adding
    · exact Service.step_adding stepped tracks.adding
  · intro sub missing
    have absent := List.find?_eq_none.mp missing
    have different : h.sub ≠ sub := by
      have inside : h' ∈ updateWhere (·.sub == h.sub) (fun _ => h') s.handlers :=
        mem_updateWhere_of_hit member (by simp)
      simpa [moves.sub] using absent h' inside
    rw [request, if_neg different, Option.toList_none, List.append_nil]
    refine tracks.turns sub (List.find?_eq_none.mpr fun k inside => ?_)
    by_cases same : k.sub = h.sub
    · simpa [same] using different
    · exact absent k (mem_updateWhere_of_miss inside (by simpa using same))
  · intro k inside
    obtain ⟨old, listed, rfl⟩ := mem_updateWhere.mp inside
    split <;> rename_i hit
    · obtain ⟨c', found', same⟩ := persists present
      refine ⟨c', moves.sub.symm ▸ found', ?_⟩
      rw [moves.sub, request, if_pos rfl, same]
      exact next
    · have different : h.sub ≠ old.sub := fun same => hit (by simp [same])
      obtain ⟨d, known, tracked⟩ := tracks.handlers old listed
      obtain ⟨d', found', same⟩ := persists known
      refine ⟨d', found', ?_⟩
      rw [request, if_neg different, Option.toList_none, List.append_nil, same]
      refine tracked.untouched fun K keyed => ?_
      rcases moves.service with rfl | ⟨b, calls, stepped⟩
      · exact keyed
      · exact Service.step_keyed stepped (mine.others calls different) keyed

/-- A subscription without a connection has asked for nothing. -/
theorem Tracks.quiet (tracks : s.Tracks past) (absent : s.service.connection sub = none) :
    requests past sub = [] := by
  apply tracks.turns sub
  cases found : s.handler sub with
  | none => rfl
  | some k =>
    obtain ⟨inside, named⟩ := handler_mem found
    obtain ⟨c, known, -⟩ := tracks.handlers k inside
    rw [named, absent] at known
    contradiction

/-- The entry of a subscription without a connection is the one just made. -/
theorem Tracks.fresh (tracks : s.Tracks past) (absent : s.service.connection sub = none)
    (member : entry ∈ (s.service.broker.register sub number).subscriptions)
    (named : entry.id = sub) : entry = ⟨sub, number, []⟩ := by
  rcases List.mem_append.mp member with old | last
  · obtain ⟨c, known⟩ := tracks.known entry.id (List.mem_map_of_mem old)
    rw [named, absent] at known
    contradiction
  · exact List.mem_singleton.mp last

theorem Tracks.accepted (tracks : s.Tracks past)
    (stepped : s.service.step config json (.connect sub tenantId clientId device) = some u)
    (checked : clientChannels config tenantId clientId device = .ok channels)
    (coherent : (⟨u, s.handlers ++ [⟨sub, frontend, .subscribing, false, 0, [], []⟩]⟩ :
      Server).Coherent) :
    (⟨u, s.handlers ++ [⟨sub, frontend, .subscribing, false, 0, [], []⟩]⟩ : Server).Tracks
      (past ++ [.accept frontend sub tenantId clientId device]) := by
  have other (x : Uuid) := requests_other past x
    (a := .accept frontend sub tenantId clientId device) (by simp)
  have known := Service.step_known stepped tracks.known
  have adding := Service.step_adding stepped tracks.adding
  obtain ⟨absent, made⟩ := Service.step_connect stepped checked
  refine ⟨coherent, known, adding, ?_, ?_⟩
  · intro x missing
    rw [other]
    apply tracks.turns x
    rw [handler, List.find?_append, Option.or_eq_none_iff] at missing
    exact missing.1
  · intro k member
    cases List.mem_append.mp member with
    | inl old =>
      obtain ⟨c, found, tracked⟩ := tracks.handlers k old
      obtain ⟨c', found', tenant⟩ := Service.step_connection stepped found
      refine ⟨c', found', ?_⟩
      rw [other, tenant]
      refine tracked.untouched fun K keyed => Service.step_keyed stepped ?_ keyed
      intro same
      cases Option.some.inj same
      cases absent.symm.trans found
    | inr new =>
      rw [List.mem_singleton.mp new]
      refine ⟨⟨sub, tenantId, clientId, device, .opening s.service.next false channels⟩, ?_, ?_⟩
      · rw [made, Service.connection, List.find?_append, Option.or_eq_some_iff]
        exact Or.inr ⟨absent, by simp⟩
      · refine ⟨(clientChannels_named checked).1, ?_, rfl, ?_, ?_⟩
        · rw [other, tracks.quiet absent]
          rfl
        · intro entry listed named
          rw [made] at listed
          rw [tracks.fresh absent listed named]
          simp [Handler.set, TopicSet.after, TopicSet.empty]
        · intro topic task stage
          contradiction

theorem Moves.tracks (moves : Moves config json s a t) (tracks : s.Tracks past) :
    t.Tracks (past ++ [a]) := by
  have coherent := moves.coherent tracks.coherent
  cases moves with
  | refused a other =>
    refine ⟨coherent, tracks.known, tracks.adding, ?_, ?_⟩
    · intro sub missing
      rw [requests_other past sub other]
      exact tracks.turns sub missing
    · intro k member
      rw [requests_other past k.sub other]
      exact tracks.handlers k member
  | accepted frontend sub tenantId clientId device channels u stepped checked =>
    exact tracks.accepted stepped checked coherent
  | turn h input u h' found moved => exact tracks.turn found moved coherent
  | background a b u other stepped steady =>
    apply tracks.aside coherent stepped other
    rcases steady with background | ⟨sub, rfl⟩
    · cases b <;> first | rfl | contradiction
    · rfl

theorem Tracks.registered (tracks : s.Tracks past) (member : h ∈ s.handlers)
    (going : h.stage ≠ .ended) : h.sub ∈ s.service.registrations := by
  obtain ⟨c, found, agrees⟩ := tracks.coherent.connection member
  obtain ⟨listed, named⟩ := Service.connection_mem found
  apply named ▸ tracks.coherent.accounted.registered c listed
  intro closed
  rw [closed] at agrees
  exact going agrees.1

/-- A channel follows its set: each request it has read is answered once, in order and by its
name, as the set answers it, and the keys of its entry are the topics of the set. -/
structure Refines (s : Server) (schedule : List Action) (k : Handler) : Prop where
  requests : requests schedule k.sub = k.acks.map Prod.fst ++ k.stage.pending
  acks : k.acks = k.set.acks
  keys : k.stage ≠ .ended → ∃ c entry, s.service.connection k.sub = some c ∧
    entry ∈ s.service.broker.subscriptions ∧ entry.id = k.sub ∧
    ∀ key, key ∈ entry.topicControls.map Prod.fst ↔
      ∃ topic ∈ k.set.topics, key = topicChannel c.tenantId topic

theorem Tracks.refines (tracks : s.Tracks past) (member : k ∈ s.handlers) : s.Refines past k := by
  obtain ⟨c, found, tracked⟩ := tracks.handlers k member
  refine ⟨?_, tracked.acks, ?_⟩
  · rw [tracked.requests, tracked.acks, Handler.set, TopicSet.after_acks]
  · intro going
    obtain ⟨entry, inside, named⟩ := List.mem_map.mp (tracks.registered member going)
    exact ⟨c, entry, found, inside, named, tracked.keys entry inside named⟩

end Server
end Propeller
