import Mathlib.Data.List.TakeWhile
import PaymentProcessing.Propeller.Fidelity

/-! `publish_to_topics` checks each request when its turn comes, so an invalid one stops the
batch after the broker has had the requests before it. -/
namespace Propeller
open Effect

/-- What `publish_to_topic` requires of a request. -/
def SendEventToTopicRequest.complete (req : SendEventToTopicRequest) : Bool :=
  !req.tenantId.isEmpty && !req.topic.isEmpty && !req.event.isEmpty

/-- The requests before the first invalid one. -/
def sound (requests : List SendEventToTopicRequest) : List SendEventToTopicRequest :=
  requests.takeWhile (·.complete)

theorem sound_append (requests : List SendEventToTopicRequest) :
    sound requests ++ requests.dropWhile (·.complete) = requests := List.takeWhile_append_dropWhile

theorem sound_complete (member : req ∈ sound requests) : req.complete = true :=
  List.mem_takeWhile_imp member

/-- Where the batch does not end, the next request is an invalid one. -/
theorem sound_stops (short : sound requests ≠ requests) :
    ∃ req rest, requests.dropWhile (·.complete) = req :: rest ∧ req.complete = false := by
  cases remaining : requests.dropWhile (·.complete) with
  | nil =>
    refine absurd ?_ short
    rw [sound, List.takeWhile_eq_self_iff]
    exact List.dropWhile_eq_nil_iff.mp remaining
  | cons req rest =>
    refine ⟨req, rest, rfl, ?_⟩
    have first := List.head?_dropWhile_not (fun r : SendEventToTopicRequest => r.complete) requests
    rw [remaining] at first
    exact first

section Checks
variable {req : SendEventToTopicRequest}

theorem publishToTopic_complete (complete : req.complete = true) :
    publishToTopic req = .ok (topicChannel req.tenantId req.topic) := by
  simp only [SendEventToTopicRequest.complete, Bool.and_eq_true, Bool.not_eq_true'] at complete
  obtain ⟨⟨tenant, topic⟩, event⟩ := complete
  simp only [publishToTopic, refuse_bind_ok]
  exact ⟨tenant, topic, event, rfl⟩

theorem publishToTopic_incomplete (incomplete : req.complete = false) :
    ∃ text, publishToTopic req = .error (.invalidArgument text) := by
  simp only [publishToTopic, refuse_bind_error]
  cases tenant : req.tenantId.isEmpty with
  | true => exact ⟨_, Or.inl ⟨rfl, rfl⟩⟩
  | false =>
    cases topic : req.topic.isEmpty with
    | true => exact ⟨_, Or.inr ⟨rfl, Or.inl ⟨rfl, rfl⟩⟩⟩
    | false =>
      have event : req.event.isEmpty = true := by
        simpa [SendEventToTopicRequest.complete, tenant, topic] using incomplete
      exact ⟨_, Or.inr ⟨rfl, Or.inr ⟨rfl, Or.inl ⟨event, rfl⟩⟩⟩⟩

end Checks

/-- The message of a request. -/
def SendEventToTopicRequest.message (req : SendEventToTopicRequest) : Message Send :=
  ⟨topicChannel req.tenantId req.topic, req.event, .toTopic req⟩

/-- The broker has taken a message and said so. -/
def Outlet.took (o : Outlet) (message : Message Send) : Outlet :=
  ⟨{ o.service with
      broker := o.service.broker.publish message
      messagesPublished := o.service.messagesPublished + 1 },
    o.answers.tail, o.published ++ [message]⟩

/-- The broker answers the next `n` publishes well. -/
def Outlet.Serves (o : Outlet) (n : Nat) : Prop := ∀ answer ∈ o.answers.take n, answer.1 = .ok

instance : Decidable (Outlet.Serves o n) := inferInstanceAs (Decidable (∀ _ ∈ _, _))

theorem Outlet.serves_succ {o : Outlet} (message : Message Send) :
    o.Serves (n + 1) ↔ (o.answers.headD (.ok, "")).1 = .ok ∧ (o.took message).Serves n := by
  unfold Outlet.Serves Outlet.took
  cases o.answers <;> simp

section Batch
variable {config : ClientConfig} {requests : List SendEventToTopicRequest} {o t : Outlet}

theorem exec_answered (complete : req.complete = true)
    (answered : (o.answers.headD (.ok, "")).1 = .ok) :
    exec (publishTo config (.toTopic req)) o = (.ok (), o.took req.message) := by
  have checked : Send.channel config (.toTopic req) = .ok (topicChannel req.tenantId req.topic) :=
    publishToTopic_complete complete
  simp only [publishTo, exec_statement, checked, answered]
  rfl

theorem exec_failed (config : ClientConfig) (complete : req.complete = true)
    (failed : (o.answers.headD (.ok, "")).1 ≠ .ok) :
    ∃ text t, exec (publishTo config (.toTopic req)) o = (.error (.broker text), t) := by
  have checked : Send.channel config (.toTopic req) = .ok (topicChannel req.tenantId req.topic) :=
    publishToTopic_complete complete
  simp only [publishTo, exec_statement, checked, failed]
  exact ⟨_, _, rfl⟩

theorem exec_incomplete (config : ClientConfig) (incomplete : req.complete = false) : ∃ text, ∀ o,
    exec (publishTo config (.toTopic req)) o = (.error (.invalidArgument text), o) := by
  obtain ⟨text, refused⟩ := publishToTopic_incomplete incomplete
  have checked : Send.channel config (.toTopic req) = .error (.invalidArgument text) := refused
  refine ⟨text, fun o => ?_⟩
  simp only [publishTo, exec_statement, checked]

/-- A batch goes on after requests that are well formed and well answered. -/
theorem exec_served (config : ClientConfig) (requests rest : List SendEventToTopicRequest)
    (o : Outlet) (complete : ∀ req ∈ requests, req.complete = true)
    (serves : o.Serves requests.length) :
    exec (publishToTopics config (requests ++ rest)) o =
      exec (publishToTopics config rest) (requests.foldl (fun u req => u.took req.message) o) := by
  induction requests generalizing o with
  | nil => rfl
  | cons req others ih =>
    obtain ⟨answered, after⟩ := (Outlet.serves_succ req.message).mp serves
    rw [publishToTopics, List.cons_append, exec_forM_cons,
      exec_answered (complete req List.mem_cons_self) answered]
    exact ih _ (fun r member => complete r (List.mem_cons_of_mem req member)) after

/-- A batch that the broker fails is not answered by `InvalidArgument`. -/
theorem exec_unserved (config : ClientConfig) (requests rest : List SendEventToTopicRequest)
    (o : Outlet) (complete : ∀ req ∈ requests, req.complete = true)
    (fails : ¬ o.Serves requests.length) :
    ∃ text, (exec (publishToTopics config (requests ++ rest)) o).1 = .error (.broker text) := by
  induction requests generalizing o with
  | nil =>
    refine absurd ?_ fails
    simp [Outlet.Serves]
  | cons req others ih =>
    rw [publishToTopics, List.cons_append, exec_forM_cons]
    by_cases answered : (o.answers.headD (.ok, "")).1 = .ok
    · rw [exec_answered (complete req List.mem_cons_self) answered]
      apply ih (o.took req.message) fun r member => complete r (List.mem_cons_of_mem req member)
      intro later
      exact fails ((Outlet.serves_succ req.message).mpr ⟨answered, later⟩)
    · obtain ⟨text, t, failed⟩ := exec_failed config (complete req List.mem_cons_self) answered
      rw [failed]
      exact ⟨text, rfl⟩

/-- What a batch leaves that is refused for an invalid request. -/
theorem exec_refused (config : ClientConfig) (stopped : sound requests ≠ requests)
    (serves : o.Serves (sound requests).length) :
    ∃ text, exec (publishToTopics config requests) o = (.error (.invalidArgument text),
      (sound requests).foldl (fun u req => u.took req.message) o) := by
  obtain ⟨req, rest, remaining, incomplete⟩ := sound_stops stopped
  obtain ⟨text, refused⟩ := exec_incomplete config incomplete
  have served := exec_served config (sound requests) (req :: rest) o
    (fun _ member => sound_complete member) serves
  rw [← remaining, sound_append, remaining] at served
  refine ⟨text, served.trans ?_⟩
  rw [publishToTopics, exec_forM_cons, refused]

theorem took_published (requests : List SendEventToTopicRequest) (o : Outlet) :
    (requests.foldl (fun u req => u.took req.message) o).published =
      o.published ++ requests.map (·.message) := by
  induction requests generalizing o with
  | nil => simp
  | cons req rest ih =>
    rw [List.foldl_cons, ih]
    simp [Outlet.took]

/-- A caller that corrects a refused batch and sends it again publishes its first requests
twice. -/
theorem resent_twice (config : ClientConfig) (stopped : sound requests ≠ requests)
    (serves : o.Serves (sound requests).length) (corrected : List SendEventToTopicRequest)
    (complete : ∀ req ∈ corrected, req.complete = true)
    (again : (exec (publishToTopics config requests) o).2.Serves
      (sound requests ++ corrected).length) :
    (exec (publishToTopics config (sound requests ++ corrected))
      (exec (publishToTopics config requests) o).2).2.published =
      o.published ++ (sound requests).map (·.message) ++
        ((sound requests).map (·.message) ++ corrected.map (·.message)) := by
  obtain ⟨text, refused⟩ := exec_refused config stopped serves
  rw [refused] at again ⊢
  have all : ∀ req ∈ sound requests ++ corrected, req.complete = true := by
    intro req member
    rcases List.mem_append.mp member with first | later
    · exact sound_complete first
    · exact complete req later
  have served := exec_served config _ [] _ all again
  rw [List.append_nil] at served
  rw [served]
  change Outlet.published (List.foldl _ _ _) = _
  rw [took_published, took_published, List.map_append]

/-- The request to publish that `send_event_to_topics` makes of one of its own. -/
def topicRequest (tenantId : String) (r : Proto.SendEventToTopicRequest) : SendEventToTopicRequest :=
  ⟨tenantId, r.topic, (extractEvent r.event).2, (extractEvent r.event).1⟩

/-- The call of an authorized publisher sends a batch of its own tenant and answers for it. -/
theorem sendEventToTopics_batch {h : GrpcPushHandler} {clock : Option UInt64} {metadata : HeaderMap}
    (authorized : h.authorizePublisher clock metadata = .ok publisher)
    (req : Proto.SendEventToTopicsRequest) (o : Outlet) :
    exec (h.sendEventToTopics clock metadata req) o =
      exec (mapError Status.ofError (publishToTopics h.clientConfig
        (req.requests.map (topicRequest publisher.tenantId)))) o := by
  simp only [GrpcPushHandler.sendEventToTopics, authorized, exec_ofResult_ok_bind]
  rfl

end Batch

/-- `publish_to_topics` has done nothing when it answers that an argument is invalid. -/
def AtomicOnInvalid (config : ClientConfig) (requests : List SendEventToTopicRequest)
    (o : Outlet) : Prop :=
  ∀ text t, exec (publishToTopics config requests) o = (.error (.invalidArgument text), t) →
    t.published = o.published ∧ t.service.messagesPublished = o.service.messagesPublished

/-- A batch is atomic on invalid input exactly when no request of it is invalid, or the first
is, or the broker fails one before the first invalid request is reached. -/
theorem publishToTopics_atomic_iff (config : ClientConfig) (requests : List SendEventToTopicRequest)
    (o : Outlet) : AtomicOnInvalid config requests o ↔
      sound requests = requests ∨ sound requests = [] ∨ ¬ o.Serves (sound requests).length := by
  constructor
  · intro atomic
    by_contra other
    simp only [not_or, not_not] at other
    obtain ⟨stopped, begun, serves⟩ := other
    obtain ⟨text, refused⟩ := exec_refused config stopped serves
    have unchanged := (atomic text _ refused).1
    rw [took_published] at unchanged
    exact begun (List.map_eq_nil_iff.mp (List.append_right_eq_self.mp unchanged))
  · intro condition text t refused
    by_cases serves : o.Serves (sound requests).length
    · by_cases stopped : sound requests = requests
      · have served := exec_served config (sound requests) [] o
          (fun _ member => sound_complete member) serves
        rw [List.append_nil, stopped, refused] at served
        cases served
      · rcases condition with whole | first | fails
        · exact absurd whole stopped
        · obtain ⟨_, expected⟩ := exec_refused config stopped serves
          rw [first, refused] at expected
          cases expected
          exact ⟨rfl, rfl⟩
        · exact absurd serves fails
    · obtain ⟨_, failed⟩ := exec_unserved config (sound requests) (requests.dropWhile (·.complete)) o
        (fun _ member => sound_complete member) serves
      rw [sound_append, refused] at failed
      cases failed

/-- A news item and then a request that names no topic. -/
def tornBatch : List SendEventToTopicRequest :=
  [⟨"tenant_1", "news", "update", [104, 105]⟩, ⟨"tenant_1", "", "update", [104, 105]⟩]

theorem tornBatch_published : ¬ AtomicOnInvalid sampleClient tornBatch ⟨.initial, [], []⟩ := by
  intro atomic
  have refused : exec (publishToTopics sampleClient tornBatch) ⟨.initial, [], []⟩ =
      (.error (.invalidArgument "topic is empty"),
        (exec (publishToTopics sampleClient tornBatch) ⟨.initial, [], []⟩).2) := rfl
  have unchanged := (atomic _ _ refused).2
  exact absurd unchanged (by decide +kernel)

end Propeller
