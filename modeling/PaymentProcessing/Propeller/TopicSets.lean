import PaymentProcessing.Propeller.Coherence
import PaymentProcessing.Propeller.TopicControls
import Mathlib.Data.Finset.Basic

/-! Topic requests as requests to a set. Each channel has a set of topics, which grants or
refuses its requests; the handler of the channel answers as the set does and keeps the keys of
its registry entry equal to it. -/
namespace Propeller

/-- The topics of a channel, with the answers given so far. -/
structure TopicSet where
  topics : Finset String
  acks : List (TopicRequest × Bool)

namespace TopicSet

def empty : TopicSet := ⟨∅, []⟩

def granted (m : TopicSet) (request : TopicRequest) (topics : Finset String) : TopicSet :=
  ⟨topics, m.acks ++ [(request, true)]⟩

def refused (m : TopicSet) (request : TopicRequest) : TopicSet :=
  ⟨m.topics, m.acks ++ [(request, false)]⟩

/-- The answer to a request; `redis` says whether Redis does what it is asked for it. -/
def handle (m : TopicSet) (redis : Bool) : TopicRequest → TopicSet
  | .subscribe topic =>
      if topic ≠ "" ∧ topic ∉ m.topics ∧ redis = true then
        m.granted (.subscribe topic) (insert topic m.topics)
      else m.refused (.subscribe topic)
  | .unsubscribe topic =>
      if topic ≠ "" ∧ topic ∈ m.topics then
        m.granted (.unsubscribe topic) (m.topics.erase topic)
      else m.refused (.unsubscribe topic)

def after (history : List (TopicRequest × Bool)) : TopicSet :=
  history.foldl (fun m entry => m.handle entry.2 entry.1) empty

theorem after_append (history : List (TopicRequest × Bool)) (request : TopicRequest) (redis : Bool) :
    after (history ++ [(request, redis)]) = (after history).handle redis request := by
  rw [after, List.foldl_append]
  rfl

theorem unsubscribe_subset (m : TopicSet) (redis : Bool) (topic : String) :
    (m.handle redis (.unsubscribe topic)).topics ⊆ m.topics := by
  by_cases present : topic ≠ "" ∧ topic ∈ m.topics
  · rw [handle, if_pos present]
    exact Finset.erase_subset topic m.topics
  · rw [handle, if_neg present]
    exact Finset.Subset.refl m.topics

theorem handle_acks (m : TopicSet) (redis : Bool) (request : TopicRequest) :
    (m.handle redis request).acks.map Prod.fst = m.acks.map Prod.fst ++ [request] := by
  cases request with
  | subscribe | unsubscribe =>
    simp only [handle]
    split
    · simp [granted]
    · simp [refused]

/-- Every request is answered, in order. -/
theorem after_acks (history : List (TopicRequest × Bool)) :
    (after history).acks.map Prod.fst = history.map Prod.fst := by
  induction history using List.reverseRecOn with
  | nil => rfl
  | append_singleton history entry ih =>
    obtain ⟨request, redis⟩ := entry
    rw [after_append, handle_acks, ih, List.map_append]
    rfl

end TopicSet

/-- A topic acknowledgement, with its verdict. -/
def Output.ack : Output → Option (TopicRequest × Bool)
  | .response (.topicSubscriptionRequestAck topic status) => some (.subscribe topic, status.success)
  | .response (.topicUnsubscriptionRequestAck topic status) =>
      some (.unsubscribe topic, status.success)
  | _ => none

/-- The acknowledgement that is being sent. -/
def Stage.ack : Stage → Option (TopicRequest × Bool)
  | .sending output _ _ => output.ack
  | _ => none

/-- The request that is being handled. -/
def Stage.pending : Stage → List TopicRequest
  | .requesting topic _ => [.subscribe topic]
  | _ => []

namespace Handler
variable {h : Handler}

def acks (h : Handler) : List (TopicRequest × Bool) :=
  h.trace.sends.filterMap (fun sent => sent.1.ack) ++ h.stage.ack.toList

/-- The set of topics that the handler's requests have led to. -/
def set (h : Handler) : TopicSet := .after h.trace.handled

theorem reply_acks (h : Handler) (request : TopicRequest) (redis : Bool)
    (result : Except PropellerError Unit) (waiting : h.stage.ack = none) :
    (h.reply request redis result).acks = h.acks ++ [(request, result.isOk)] := by
  have answer : (h.reply request redis result).stage.ack = some (request, result.isOk) := by
    cases request with
    | subscribe | unsubscribe => cases result <;> rfl
  have sends : (h.reply request redis result).trace.sends = h.trace.sends := rfl
  simp [acks, answer, sends, waiting]

theorem reply_set (h : Handler) (request : TopicRequest) (redis : Bool)
    (result : Except PropellerError Unit) :
    (h.reply request redis result).set = h.set.handle redis request :=
  TopicSet.after_append h.trace.handled request redis

/-- A send that has ended keeps its acknowledgement on the list. -/
theorem logged_acks {h' : Handler} (stage : h.stage = .sending output next failed) (ok : Bool)
    (sends : h'.trace.sends = h.trace.sends ++ [(output, ok)]) (silent : h'.stage.ack = none) :
    h'.acks = h.acks := by
  have current : h.stage.ack = output.ack := by rw [stage]; rfl
  cases found : output.ack with
  | none => simp [acks, sends, silent, current, found]
  | some ack => simp [acks, sends, silent, current, found]

end Handler

/-- What holds of a handler of a tenant: its requests so far, its acknowledgements, the keys
of its subscription, and the subscribe that is under way. -/
structure Tracked (s : Service) (requests : List TopicRequest) (tenantId : String) (h : Handler) : Prop where
  tenant : tenantId ≠ ""
  requests : requests = h.trace.handled.map Prod.fst ++ h.stage.pending
  acks : h.acks = h.set.acks
  keys : s.Keyed h.sub fun key => ∃ topic ∈ h.set.topics, key = topicChannel tenantId topic
  pending : ∀ topic task, h.stage = .requesting topic task →
    task.sub = h.sub ∧ task.topic = some (topicChannel tenantId topic) ∧ topic ≠ "" ∧
      topic ∉ h.set.topics

section Tracked
variable {config : ClientConfig} {json : AttributesJson} {s t : Service} {h h' : Handler}
  {requests : List TopicRequest} {tenantId : String}

theorem scopedTopic_iff (tenant : tenantId ≠ "") (topic : String) :
    scopedTopic tenantId topic =
      if topic = "" then .error (.invalidArgument "topic is empty")
      else .ok (topicChannel tenantId topic) := by
  by_cases empty : topic = ""
  · simp [scopedTopic, refuse, empty, bind, Except.bind]
  · simp [scopedTopic, refuse, empty, tenant, bind, Except.bind, pure, Except.pure]

theorem Tracked.key_iff (tracked : Tracked s requests tenantId h) {entry : ActiveSubscription}
    (member : entry ∈ s.broker.subscriptions) (named : entry.id = h.sub) (topic : String) :
    entry.topicControls.any (·.1 = topicChannel tenantId topic) = true ↔ topic ∈ h.set.topics := by
  have keys := tracked.keys entry member named (topicChannel tenantId topic)
  rw [List.any_eq_true]
  simp only [decide_eq_true_eq]
  rw [List.mem_map] at keys
  refine keys.trans ⟨?_, fun inside => ⟨topic, inside, rfl⟩⟩
  rintro ⟨other, inside, same⟩
  exact topicChannel_cancel same ▸ inside

/-- The registry lets a topic be added exactly when the set lacks it. -/
theorem Tracked.checkAdd_iff (tracked : Tracked s requests tenantId h)
    (registered : h.sub ∈ s.registrations) (topic : String) :
    s.broker.checkAdd (topicChannel tenantId topic) h.sub = .ok () ↔ topic ∉ h.set.topics := by
  obtain ⟨some_, inside, id⟩ := List.mem_map.mp registered
  unfold Broker.checkAdd
  split
  · rename_i missing
    have found := List.find?_eq_none.mp missing some_ inside
    simp [id] at found
  · rename_i entry found
    have named : entry.id = h.sub := by simpa using List.find?_some found
    have key := tracked.key_iff (List.mem_of_find?_eq_some found) named topic
    split
    · rename_i listed
      simp [key.mp listed]
    · rename_i unlisted
      simp [mt key.mpr unlisted]

theorem Tracked.remove_iff (tracked : Tracked s requests tenantId h)
    (registered : h.sub ∈ s.registrations) (topic : String) :
    (∃ broker, s.broker.removeSubscription (topicChannel tenantId topic) h.sub = .ok broker) ↔
      topic ∈ h.set.topics := by
  obtain ⟨some_, inside, id⟩ := List.mem_map.mp registered
  unfold Broker.removeSubscription
  split
  · rename_i missing
    have found := List.find?_eq_none.mp missing some_ inside
    simp [id] at found
  · rename_i entry found
    have named : entry.id = h.sub := by simpa using List.find?_some found
    have key := tracked.key_iff (List.mem_of_find?_eq_some found) named topic
    split
    · rename_i listed
      simp [key.mp listed]
    · rename_i unlisted
      simp [mt key.mpr unlisted]

theorem Tracked.congr (tracked : Tracked s requests tenantId h) (sub : h'.sub = h.sub)
    (handled : h'.trace.handled = h.trace.handled) (acks : h'.acks = h.acks)
    (pending : h'.stage.pending = h.stage.pending)
    (under : ∀ topic task, h'.stage = .requesting topic task → h.stage = .requesting topic task)
    (keys : ∀ K, s.Keyed h.sub K → t.Keyed h.sub K) : Tracked t requests tenantId h' := by
  have set : h'.set = h.set := congrArg TopicSet.after handled
  refine ⟨tracked.tenant, ?_, ?_, ?_, ?_⟩
  · rw [handled, pending]
    exact tracked.requests
  · rw [acks, set]
    exact tracked.acks
  · rw [sub, set]
    exact keys _ tracked.keys
  · intro topic task stage
    rw [sub, set]
    exact tracked.pending topic task (under topic task stage)

theorem Tracked.reply (tracked : Tracked s requests tenantId h) (silent : h.stage.ack = none)
    (asked : more = h.trace.handled.map Prod.fst ++ [request])
    (answer : (h.set.handle redis request).acks = h.set.acks ++ [(request, result.isOk)])
    (keys : t.Keyed h.sub fun key =>
      ∃ topic ∈ (h.set.handle redis request).topics, key = topicChannel tenantId topic) :
    Tracked t more tenantId (h.reply request redis result) := by
  refine ⟨tracked.tenant, ?_, ?_, ?_, ?_⟩
  · rw [asked]
    simp [Handler.reply, Stage.pending]
  · rw [h.reply_acks request redis result silent, h.reply_set request redis result, answer,
      tracked.acks]
  · rw [h.reply_set request redis result]
    exact keys
  · intro topic task stage
    contradiction

/-- A refusal: the set refuses as well and stays as it is. -/
theorem Tracked.refuse (tracked : Tracked s requests tenantId h) (silent : h.stage.ack = none)
    (asked : more = h.trace.handled.map Prod.fst ++ [request])
    (refused : h.set.handle redis request = h.set.refused request)
    (keys : ∀ K, s.Keyed h.sub K → t.Keyed h.sub K) :
    Tracked t more tenantId (h.reply request redis (.error e)) := by
  refine tracked.reply silent asked ?_ ?_
  · rw [refused]
    rfl
  · rw [refused]
    exact keys _ tracked.keys

/-- The service refuses a request at once when the set does. -/
theorem Tracked.refused (tracked : Tracked s requests tenantId h)
    (registered : h.sub ∈ s.registrations) (refuses : s.Refuses h.sub tenantId e request) :
    h.set.handle true request = h.set.refused request := by
  cases request with
  | subscribe topic =>
    have absent : topic = "" ∨ topic ∈ h.set.topics := by
      rcases refuses with unnamed | ⟨channel, text, named, refused, -⟩
      · rw [scopedTopic_iff tracked.tenant] at unnamed
        split at unnamed
        · exact Or.inl ‹_›
        · contradiction
      · rw [scopedTopic_iff tracked.tenant] at named
        split at named
        · contradiction
        · cases named
          refine Or.inr (not_not.mp fun lacking => ?_)
          rw [(tracked.checkAdd_iff registered topic).mpr lacking] at refused
          contradiction
    unfold TopicSet.handle
    exact if_neg fun granted => absent.elim granted.1 granted.2.1
  | unsubscribe topic =>
    have absent : topic = "" ∨ topic ∉ h.set.topics := by
      rcases refuses with unnamed | ⟨channel, text, named, refused, -⟩
      · rw [scopedTopic_iff tracked.tenant] at unnamed
        split at unnamed
        · exact Or.inl ‹_›
        · contradiction
      · rw [scopedTopic_iff tracked.tenant] at named
        split at named
        · contradiction
        · cases named
          refine Or.inr fun present => ?_
          obtain ⟨broker, removed⟩ := (tracked.remove_iff registered topic).mpr present
          rw [removed] at refused
          contradiction
    unfold TopicSet.handle
    exact if_neg fun granted => absent.elim granted.1 (absurd granted.2)

theorem called_silent (calling : h.stage = .subscribing ∨ h.stage = .unsubscribing) (phase : Phase) :
    (h.called phase).stage.ack = none ∧ (h.called phase).stage.pending = [] := by
  have frontend : h.frontend.connectAck.ack = none := by cases h.frontend <;> rfl
  unfold Handler.called
  split
  · exact ⟨frontend, rfl⟩
  · exact ⟨rfl, rfl⟩
  · exact ⟨rfl, rfl⟩
  · rcases calling with stage | stage
    · exact ⟨by rw [stage]; rfl, by rw [stage]; rfl⟩
    · exact ⟨by rw [stage]; rfl, by rw [stage]; rfl⟩

theorem Tracked.called (tracked : Tracked s requests tenantId h)
    (calling : h.stage = .subscribing ∨ h.stage = .unsubscribing) (phase : Phase)
    (keys : ∀ K, s.Keyed h.sub K → t.Keyed h.sub K) :
    Tracked t requests tenantId (h.called phase) := by
  obtain ⟨silent, idle⟩ := called_silent calling phase
  have silent' : h.stage.ack = none ∧ h.stage.pending = [] := by
    rcases calling with stage | stage
    · exact ⟨by rw [stage]; rfl, by rw [stage]; rfl⟩
    · exact ⟨by rw [stage]; rfl, by rw [stage]; rfl⟩
  have kept : (h.called phase).sub = h.sub ∧ (h.called phase).trace.handled = h.trace.handled ∧
      (h.called phase).trace.sends = h.trace.sends := by
    unfold Handler.called
    split <;> exact ⟨rfl, rfl, rfl⟩
  refine tracked.congr kept.1 kept.2.1 ?_ (idle.trans silent'.2.symm) ?_ keys
  · rw [Handler.acks, Handler.acks, kept.2.2, silent, silent'.1]
  · intro topic task stage
    rw [stage] at idle
    contradiction

/-- Adding a topic: the set grants it exactly when Redis did its part. -/
theorem Tracked.added (tracked : Tracked s requests tenantId h)
    (stage : h.stage = .requesting topic task) (found : s.adding.find? (·.task = task) = some a)
    (named : a.task.topic = some a.channel) (result : a.result ok text = some outcome) :
    Tracked (s.advanceAdd a ok) requests tenantId
      (h.reply (.subscribe topic) outcome.isOk outcome) := by
  obtain ⟨sub, key, nonempty, absent⟩ := tracked.pending topic task stage
  have same : a.task = task := by simpa using List.find?_some found
  have channel : a.channel = topicChannel tenantId topic := by
    rw [same, key] at named
    exact (Option.some.inj named).symm
  have keyed := tracked.keys.advanceAdd a ok
  have silent : h.stage.ack = none := by rw [stage]; rfl
  have asked : requests = h.trace.handled.map Prod.fst ++ [.subscribe topic] := by
    have whole := tracked.requests
    rwa [stage] at whole
  have failing (phase : a.phase ≠ .inserting) (error : PropellerError) :
      Tracked (s.advanceAdd a ok) requests tenantId
        (h.reply (.subscribe topic) false (.error error)) := by
    refine tracked.refuse silent asked (if_neg (by simp)) fun K held => ?_
    have unchanged := held.advanceAdd a ok
    simpa [phase] using unchanged
  cases phase : a.phase with
  | inserting =>
    simp only [Adding.result, phase, Option.some.injEq] at result
    subst result
    have granted : h.set.handle true (.subscribe topic) =
        h.set.granted (.subscribe topic) (insert topic h.set.topics) :=
      if_pos ⟨nonempty, absent, rfl⟩
    refine tracked.reply silent asked ?_ ?_
    · change (h.set.handle true (.subscribe topic)).acks = _
      rw [granted]
      rfl
    · change (s.advanceAdd a ok).Keyed h.sub fun key =>
        ∃ other ∈ (h.set.handle true (.subscribe topic)).topics, key = topicChannel tenantId other
      rw [granted]
      have whole : (fun key => (∃ other ∈ h.set.topics, key = topicChannel tenantId other) ∨
          (a.task.sub = h.sub ∧ a.phase = .inserting ∧ key = a.channel)) =
          fun key => ∃ other ∈ insert topic h.set.topics, key = topicChannel tenantId other := by
        funext key
        simp [same, sub, phase, channel, or_comm]
      exact whole ▸ keyed
  | connecting | subscribing =>
    cases ok with
    | true => simp [Adding.result, phase] at result
    | false =>
      simp only [Adding.result, phase, Option.some.injEq] at result
      subst result
      exact failing (by simp [phase]) _

theorem Tracked.withdrawn (tracked : Tracked s requests tenantId h)
    (registered : h.sub ∈ s.registrations) (silent : h.stage.ack = none)
    (asked : more = h.trace.handled.map Prod.fst ++ [.unsubscribe topic])
    (named : scopedTopic tenantId topic = .ok channel)
    (removed : s.broker.removeSubscription channel h.sub = .ok broker) :
    Tracked (s.withBroker broker) more tenantId (h.reply (.unsubscribe topic) true (.ok ())) := by
  rw [scopedTopic_iff tracked.tenant] at named
  split at named
  · contradiction
  · rename_i nonempty
    cases named
    have present := (tracked.remove_iff registered topic).mp ⟨broker, removed⟩
    have granted : h.set.handle true (.unsubscribe topic) =
        h.set.granted (.unsubscribe topic) (h.set.topics.erase topic) := if_pos ⟨nonempty, present⟩
    refine tracked.reply silent asked ?_ ?_
    · rw [granted]
      rfl
    · rw [granted]
      have keyed := tracked.keys.removed removed
      have whole : (fun key => (∃ other ∈ h.set.topics, key = topicChannel tenantId other) ∧
          ¬(h.sub = h.sub ∧ key = topicChannel tenantId topic)) =
          fun key => ∃ other ∈ h.set.topics.erase topic, key = topicChannel tenantId other := by
        funext key
        refine propext ⟨?_, ?_⟩
        · rintro ⟨⟨other, inside, rfl⟩, different⟩
          refine ⟨other, Finset.mem_erase.mpr ⟨?_, inside⟩, rfl⟩
          rintro rfl
          exact different ⟨rfl, rfl⟩
        · rintro ⟨other, inside, rfl⟩
          obtain ⟨different, inside⟩ := Finset.mem_erase.mp inside
          exact ⟨⟨other, inside, rfl⟩, fun same => different (topicChannel_cancel same.2)⟩
      exact whole ▸ keyed

theorem Tracked.requested (tracked : Tracked s requests tenantId h)
    (registered : h.sub ∈ s.registrations) (waiting : h.stage = .waiting)
    (named : scopedTopic tenantId topic = .ok channel)
    (checked : s.broker.checkAdd channel h.sub = .ok ())
    (keys : ∀ K, s.Keyed h.sub K → t.Keyed h.sub K) (number : Nat) :
    Tracked t (requests ++ [.subscribe topic]) tenantId
      (h.enter (.requesting topic ⟨h.sub, some channel, number⟩)) := by
  rw [scopedTopic_iff tracked.tenant] at named
  split at named
  · contradiction
  · rename_i nonempty
    cases named
    have absent := (tracked.checkAdd_iff registered topic).mp checked
    refine ⟨tracked.tenant, ?_, ?_, keys _ tracked.keys, ?_⟩
    · have before := tracked.requests
      rw [waiting] at before
      rw [before]
      simp [Stage.pending, Handler.enter]
    · have before := tracked.acks
      rw [Handler.acks, waiting] at before
      exact before
    · rintro _ _ ⟨⟩
      exact ⟨rfl, rfl, nonempty, absent⟩

theorem Tracked.moves (tracked : Tracked s requests tenantId h)
    (registered : h.stage.looping = true → h.sub ∈ s.registrations)
    (tenant : ∀ c, s.connection h.sub = some c → c.tenantId = tenantId)
    (adding : ∀ a ∈ s.adding, a.task.topic = some a.channel)
    (moves : h.Moves config json s input t h') :
    Tracked t (requests ++ input.topicRequest.toList) tenantId h' := by
  have kept {a : Action} (stepped : s.step config json a = some t) (reads : a.writes = none) (K)
      (keyed : s.Keyed h.sub K) : t.Keyed h.sub K :=
    keyed.congr (Service.step_subscriptions stepped reads)
  have whole {request} (waiting : h.stage = .waiting) (asked : input.topicRequest = some request) :
      requests ++ input.topicRequest.toList = h.trace.handled.map Prod.fst ++ [request] := by
    rw [asked, tracked.requests, waiting]
    simp [Stage.pending]
  cases moves with
  | called ok _ c calling stepped found =>
    rw [show requests ++ (Input.call ok).topicRequest.toList = requests from List.append_nil _]
    exact tracked.called calling c.phase (kept stepped rfl)
  | sent ok output sent failed stage =>
    rw [show requests ++ (Input.sent ok).topicRequest.toList = requests from List.append_nil _]
    refine tracked.congr rfl rfl (Handler.logged_acks stage ok rfl rfl) (by rw [stage]; rfl) ?_
      fun _ keyed => keyed
    intro topic task entered
    contradiction
  | sentLast ok output sent failed _ stage following stepped =>
    rw [show requests ++ (Input.sent ok).topicRequest.toList = requests from List.append_nil _]
    refine tracked.congr rfl rfl (Handler.logged_acks stage ok rfl rfl) (by rw [stage]; rfl) ?_
      (kept stepped rfl)
    intro topic task entered
    contradiction
  | quit ok output sent failed _ stage following stepped =>
    rw [show requests ++ (Input.sent ok).topicRequest.toList = requests from List.append_nil _]
    refine tracked.congr rfl rfl (Handler.logged_acks stage ok rfl rfl) (by rw [stage]; rfl) ?_
      (kept stepped rfl)
    intro topic task entered
    contradiction
  | left input _ waiting other stepped =>
    rw [other, Option.toList_none, List.append_nil]
    refine tracked.congr rfl rfl ?_ (by rw [waiting]; rfl) ?_ (kept stepped rfl)
    · simp [Handler.acks, Handler.leaving, waiting, Stage.ack]
    · intro topic task entered
      contradiction
  | idle input waiting other =>
    rw [other, Option.toList_none, List.append_nil]
    exact tracked
  | talks input output sent _ waiting other loops unasked received =>
    rw [other, Option.toList_none, List.append_nil]
    have silent : output.ack = none := by
      unfold Output.ack
      split
      · exact absurd rfl (unasked (.subscribe _) _)
      · exact absurd rfl (unasked (.unsubscribe _) _)
      · rfl
    refine tracked.congr rfl rfl ?_ (by rw [waiting]; rfl) ?_ ?_
    · simp [Handler.acks, Handler.enter, waiting, Stage.ack, silent]
    · intro topic task entered
      contradiction
    · rcases received with rfl | stepped
      · exact fun _ keyed => keyed
      · exact kept stepped rfl
  | refused input request c e waiting asked found refuses =>
    cases tenant c found
    have refused := tracked.refused (registered (by rw [waiting]; rfl)) refuses
    exact tracked.refuse (by rw [waiting]; rfl) (whole waiting asked) refused fun _ keyed => keyed
  | requested input topic c channel _ waiting asked found named checked stepped =>
    cases tenant c found
    rw [asked]
    exact tracked.requested (registered (by rw [waiting]; rfl)) waiting named checked
      (kept stepped rfl) _
  | withdrawn input topic c channel broker _ waiting asked found named removed stepped =>
    cases tenant c found
    have same : t = s.withBroker broker := by
      obtain ⟨c', found', answered⟩ := Option.bind_eq_some_iff.mp stepped
      cases found.symm.trans found'
      split at answered
      · simp only [named, removed, Option.some.injEq] at answered
        exact answered.symm
      · contradiction
    subst same
    exact tracked.withdrawn (registered (by rw [waiting]; rfl)) (by rw [waiting]; rfl)
      (whole waiting asked) named removed
  | adding ok text topic task a _ stage found stepped result =>
    rw [show requests ++ (Input.add ok text).topicRequest.toList = requests from List.append_nil _]
    cases Service.advanceAdd_of_step found stepped
    have phase : a.phase ≠ .inserting := by
      intro inserting
      simp [Adding.result, inserting] at result
    refine tracked.congr rfl rfl rfl rfl (fun _ _ entered => entered) fun K keyed => ?_
    have unchanged := keyed.advanceAdd a ok
    simpa [phase] using unchanged
  | added ok text topic task a _ result stage found stepped finished =>
    rw [show requests ++ (Input.add ok text).topicRequest.toList = requests from List.append_nil _]
    cases Service.advanceAdd_of_step found stepped
    exact tracked.added stage found (adding a (List.mem_of_find?_eq_some found)) finished

/-- The tracks of a handler that is not concerned. -/
theorem Tracked.untouched (tracked : Tracked s requests tenantId h)
    (keys : ∀ K, s.Keyed h.sub K → t.Keyed h.sub K) : Tracked t requests tenantId h :=
  tracked.congr rfl rfl rfl rfl (fun _ _ stage => stage) keys

/-- The calls of one handler leave the entries of others alone. -/
theorem Tracked.others (tracked : Tracked s requests tenantId h) (calls : h.Calls a)
    (different : h.sub ≠ sub) : a.writes ≠ some sub := by
  cases calls with
  | advanceAdd topic task ok stage =>
    intro same
    exact different ((tracked.pending topic task stage).1.symm.trans (Option.some.inj same))
  | topicUnsubscribe => exact fun same => different (Option.some.inj same)
  | _ => simp [Action.writes]

/-- What a turn does to the handler's own set and to the number of topic listeners: it may gain
one topic with its listener. -/
theorem Tracked.own (tracked : Tracked s requests tenantId h)
    (registered : h.stage.looping = true → h.sub ∈ s.registrations)
    (tenant : ∀ c, s.connection h.sub = some c → c.tenantId = tenantId)
    (moves : h.Moves config json s input t h') :
    (t.broker.activeTopicListeners = s.broker.activeTopicListeners ∧
        h'.set.topics ⊆ h.set.topics) ∨
      ∃ topic ∉ h.set.topics, h'.trace.handled = h.trace.handled ++ [(.subscribe topic, true)] ∧
        h'.set.topics = insert topic h.set.topics ∧
        t.broker.activeTopicListeners = s.broker.activeTopicListeners + 1 := by
  have unchanged (handled : h'.trace.handled = h.trace.handled) : h'.set.topics ⊆ h.set.topics := by
    rw [Handler.set, handled]
    exact Finset.Subset.refl _
  have refusal {request redis e} (same : h' = h.reply request redis (.error e))
      (refused : h.set.handle redis request = h.set.refused request) :
      h'.set.topics ⊆ h.set.topics := by
    rw [same, h.reply_set, refused]
    exact Finset.Subset.refl _
  cases moves with
  | called ok _ c calling stepped =>
    refine Or.inl ⟨Service.step_listeners stepped rfl, unchanged ?_⟩
    unfold Handler.called
    split <;> rfl
  | sent | idle => exact Or.inl ⟨rfl, unchanged rfl⟩
  | sentLast ok output sent failed _ stage following stepped
  | quit ok output sent failed _ stage following stepped =>
    exact Or.inl ⟨Service.step_listeners stepped rfl, unchanged rfl⟩
  | left input _ waiting other stepped =>
    exact Or.inl ⟨Service.step_listeners stepped rfl, unchanged rfl⟩
  | talks input output sent _ waiting other loops unasked received =>
    refine Or.inl ⟨?_, unchanged rfl⟩
    rcases received with rfl | stepped
    · rfl
    · exact Service.step_listeners stepped rfl
  | refused input request c e waiting asked found refuses =>
    cases tenant c found
    exact Or.inl ⟨rfl, refusal rfl (tracked.refused (registered (by rw [waiting]; rfl)) refuses)⟩
  | requested input topic c channel _ waiting asked found named checked stepped =>
    exact Or.inl ⟨Service.step_listeners stepped rfl, unchanged rfl⟩
  | withdrawn input topic c channel broker _ waiting asked found named removed stepped =>
    refine Or.inl ⟨Service.step_listeners stepped rfl, ?_⟩
    rw [h.reply_set]
    exact TopicSet.unsubscribe_subset _ _ _
  | adding ok text topic task a _ stage found stepped result =>
    cases Service.advanceAdd_of_step found stepped
    refine Or.inl ⟨?_, unchanged rfl⟩
    rw [Service.advanceAdd_listeners, if_neg]
    intro inserting
    simp [Adding.result, inserting] at result
  | added ok text topic task a _ result stage found stepped finished =>
    cases Service.advanceAdd_of_step found stepped
    obtain ⟨-, -, nonempty, absent⟩ := tracked.pending topic task stage
    rw [Service.advanceAdd_listeners]
    cases result with
    | ok =>
      have phase : a.phase = .inserting := by
        unfold Adding.result at finished
        split at finished <;> first | assumption | simp at finished
      refine Or.inr ⟨topic, absent, rfl, ?_, if_pos phase⟩
      rw [h.reply_set]
      exact congrArg TopicSet.topics (if_pos ⟨nonempty, absent, rfl⟩)
    | error e =>
      have phase : a.phase ≠ .inserting := by
        intro inserting
        simp [Adding.result, inserting] at finished
      exact Or.inl ⟨if_neg phase, refusal rfl (if_neg fun granted => Bool.false_ne_true granted.2.2)⟩

end Tracked

end Propeller
