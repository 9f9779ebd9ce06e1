import PaymentProcessing.Propeller.Ordering

/-! The broker without the origins of its messages. No operation reads them, so brokers that
differ only there answer every call alike. -/
namespace Propeller
open Relational
variable {α β : Type}

def Message.erase (m : Message α) : Message Unit := ⟨m.channel, m.data, ()⟩

def Listener.erase (l : Listener α) : Listener Unit :=
  ⟨l.id, l.channels, l.inbox.map Message.erase, l.running, l.stopping, l.connected⟩

def Delivery.erase (d : Delivery α) : Delivery Unit := ⟨d.task, d.message.erase⟩

namespace Broker

/-- Whose receivers are gone is left out too. -/
def erase (b : Broker α) : Broker Unit where
  subscriptions := b.subscriptions
  listeners := b.listeners.map Listener.erase
  queues sub := (b.queues sub).map Message.erase
  dropped := []
  activeTopicListeners := b.activeTopicListeners
  delivered := b.delivered.map Delivery.erase

section Operations
variable (b : Broker α)

@[simp] theorem erase_id (l : Listener α) : l.erase.id = l.id := rfl

theorem offer_erase (message : Message α) (l : Listener α) :
    (offer message l).erase = offer message.erase l.erase := by
  have same : message.erase.channel = message.channel := rfl
  simp only [offer, Listener.erase, same]
  split
  · simp
  · rfl

theorem publish_erase (message : Message α) :
    (b.publish message).erase = b.erase.publish message.erase := by
  simp only [publish, erase, List.map_map]
  congr 1
  exact List.map_congr_left fun l _ => offer_erase message l

theorem update_erase (hit : TaskId → Bool) (set : Listener α → Listener α)
    (set' : Listener Unit → Listener Unit) (same : ∀ l, (set l).erase = set' l.erase) :
    (updateWhere (fun l => hit l.id) set b.listeners).map Listener.erase =
      updateWhere (fun l => hit l.id) set' (b.listeners.map Listener.erase) := by
  simp only [updateWhere, List.map_map]
  refine List.map_congr_left fun l _ => ?_
  cases told : hit l.id with
  | true => simp [told, same l]
  | false => simp [told]

theorem modify_erase (task : TaskId) (set : Listener α → Listener α)
    (set' : Listener Unit → Listener Unit) (same : ∀ l, (set l).erase = set' l.erase) :
    (b.modify task set).erase = b.erase.modify task set' := by
  simp only [modify, erase, update_erase b (· == task) set set' same]

theorem close_erase (task : TaskId) : (b.close task).erase = b.erase.close task := by
  simp only [close, erase, List.filter_map]
  rfl

theorem shutdown_erase (tasks : List TaskId) :
    (b.shutdown tasks).erase = b.erase.shutdown tasks := by
  have stopped := update_erase b (tasks.contains ·) (fun l => { l with stopping := true })
    (fun l => { l with stopping := true }) fun _ => rfl
  simp only [shutdown, erase]
  rw [stopped]

theorem register_erase (sub : Uuid) (number : Nat) :
    (b.register sub number).erase = b.erase.register sub number := rfl

theorem connect_erase (task : TaskId) : (b.connect task).erase = b.erase.connect task := by
  simp [connect, erase, Listener.erase]

theorem listen_erase (task : TaskId) (channel : String) :
    (b.listen task channel).erase = b.erase.listen task channel :=
  modify_erase b task _ _ fun _ => rfl

theorem start_erase (task : TaskId) : (b.start task).erase = b.erase.start task :=
  modify_erase b task _ _ fun _ => rfl

theorem hangUp_erase (task : TaskId) : (b.hangUp task).erase = b.erase.hangUp task :=
  modify_erase b task _ _ fun _ => rfl

theorem checkAdd_erase (channel : String) (sub : Uuid) :
    b.erase.checkAdd channel sub = b.checkAdd channel sub := rfl

theorem finishAdd_erase (channel : String) (sub : Uuid) (number : Nat) :
    (b.finishAdd channel sub number).erase = b.erase.finishAdd channel sub number := by
  have started := start_erase (b.shutdown ((b.subscriptions.filter (·.id = sub)).flatMap
    (ActiveSubscription.topicTasks · channel))) ⟨sub, some channel, number⟩
  rw [shutdown_erase] at started
  have listeners := congrArg Broker.listeners started
  simp only [finishAdd, erase] at listeners ⊢
  rw [listeners]
  rfl

theorem removeSubscription_erase (channel : String) (sub : Uuid) :
    b.erase.removeSubscription channel sub = (b.removeSubscription channel sub).map Broker.erase := by
  have same : b.erase.subscriptions = b.subscriptions := rfl
  simp only [removeSubscription, same]
  split
  · rfl
  · split
    · rename_i entry _ _
      have stopped := shutdown_erase b (ActiveSubscription.topicTasks entry channel)
      simp only [Except.map, ← stopped]
      rfl
    · rfl

theorem unsubscribe_erase (sub : Uuid) : (b.unsubscribe sub).erase = b.erase.unsubscribe sub := by
  have same : b.erase.subscriptions = b.subscriptions := rfl
  simp only [unsubscribe, same]
  split
  · rfl
  · rw [← shutdown_erase]
    rfl

theorem unsubscribe_dropped (sub : Uuid) : (b.unsubscribe sub).dropped = b.dropped := by
  unfold unsubscribe
  split <;> rfl

theorem finish_erase (task : TaskId) : (b.finish task).erase = b.erase.finish task := by
  have closed := congrArg Broker.listeners (close_erase b task)
  simp only [finish, erase] at closed ⊢
  rw [closed]
  rfl

theorem lookup_erase (task : TaskId) :
    b.erase.lookup task = (b.lookup task).map Listener.erase := by
  simp only [lookup, erase, List.find?_map]
  rfl

/-- A task whose receiver is gone returns where another one delivers. -/
theorem deliver_erase (task : TaskId) :
    (b.deliver task).map Broker.erase =
      if task.sub ∈ b.dropped then (b.erase.deliver task).map fun _ => b.erase.finish task
      else b.erase.deliver task := by
  have heard : b.erase.dropped = [] := rfl
  simp only [deliver, lookup_erase, heard, List.contains_nil]
  cases found : b.lookup task with
  | none => simp
  | some l =>
    obtain ⟨id, channels, inbox, running, stopping, connected⟩ := l
    cases inbox with
    | nil => simp [Listener.erase]
    | cons message rest =>
      cases running with
      | false => simp [Listener.erase]
      | true =>
        by_cases gone : task.sub ∈ b.dropped
        · simp [Listener.erase, gone, finish_erase]
        · have taken := modify_erase b task (fun l => { l with inbox := l.inbox.tail })
            (fun l => { l with inbox := l.inbox.tail }) fun l => by simp [Listener.erase]
          have queued (id : Uuid) :
              (if id = task.sub then b.queues id ++ [message] else b.queues id).map Message.erase =
                if id = task.sub then b.erase.queues id ++ [message.erase] else b.erase.queues id := by
            split <;> simp [erase]
          simp only [Option.map_some, Listener.erase, List.map_cons, List.contains_eq_mem, gone,
            decide_false, Bool.false_eq_true, if_false, ← taken, ← queued]
          simp [erase, Delivery.erase]

theorem stop_erase (task : TaskId) : (b.stop task).map Broker.erase = b.erase.stop task := by
  simp only [stop, lookup_erase]
  cases b.lookup task with
  | none => rfl
  | some l =>
    simp only [Option.map_some, Listener.erase]
    split
    · rw [Option.map_some, finish_erase]
    · rfl

theorem endOfStream_erase (task : TaskId) :
    (b.endOfStream task).map Broker.erase = b.erase.endOfStream task := by
  simp only [endOfStream, lookup_erase]
  cases b.lookup task with
  | none => rfl
  | some l =>
    simp only [Option.map_some, Listener.erase, List.isEmpty_map]
    split
    · rw [Option.map_some, finish_erase]
    · rfl

theorem receive_erase (sub : Uuid) :
    (b.receive sub).map (fun received => received.2.erase) =
      (b.erase.receive sub).map Prod.snd := by
  cases waiting : b.queues sub with
  | nil => simp [receive, erase, waiting]
  | cons message rest =>
    have queued (id : Uuid) : (if id = sub then rest else b.queues id).map Message.erase =
        if id = sub then rest.map Message.erase else b.erase.queues id := by
      split <;> rfl
    simp only [receive, waiting, erase, List.map_cons, Option.map_some, queued]

theorem deliver_dropped {b b' : Broker α} (h : b.deliver task = some b') : b'.dropped = b.dropped := by
  rcases deliver_cases h with ⟨-, l, finishes⟩ | ⟨l, message, rest, delivers⟩
  · exact finishes.dropped
  · exact delivers.dropped

theorem stop_dropped {b b' : Broker α} (h : b.stop task = some b') : b'.dropped = b.dropped := by
  obtain ⟨l, finishes, -⟩ := stop_finishes h
  exact finishes.dropped

theorem endOfStream_dropped {b b' : Broker α} (h : b.endOfStream task = some b') :
    b'.dropped = b.dropped := by
  obtain ⟨l, finishes⟩ := endOfStream_finishes h
  exact finishes.dropped

end Operations

theorem hears_erase (l : Listener α) (channel : String) : l.erase.hears channel = l.hears channel := rfl

/-- Tasks are alone on a channel in one broker if they are in the other, where each listener has a
task of its own. -/
theorem Alone.of_erase {b : Broker α} {b' : Broker β} (alone : b.Alone channel)
    (same : b'.erase = b.erase) (dropped : b.dropped ⊆ b'.dropped)
    (distinct : Distinct Listener.id b'.listeners) : b'.Alone channel := by
  have listeners : b'.listeners.map Listener.erase = b.listeners.map Listener.erase :=
    congrArg Broker.listeners same
  have counterpart (l : Listener β) (member : l ∈ b'.listeners) :
      ∃ x ∈ b.listeners, x.erase = l.erase :=
    List.mem_map.mp (listeners ▸ List.mem_map_of_mem member)
  intro l member l' member' other siblings owned hears
  obtain ⟨x, present, equal⟩ := counterpart l member
  obtain ⟨x', present', equal'⟩ := counterpart l' member'
  have id : x.id = l.id := congrArg Listener.id equal
  have id' : x'.id = l'.id := congrArg Listener.id equal'
  have different : x ≠ x' := by
    rintro rfl
    exact other (distinct.unique member member' (id.symm.trans id'))
  obtain ⟨deaf, none⟩ := alone x present x' present' different (by rw [id, id', siblings])
    (fun gone => owned (dropped (id ▸ gone))) (by rw [← hears_erase, equal, hears_erase, hears])
  refine ⟨by rw [← hears_erase, ← equal', hears_erase, deaf], fun m inside => ?_⟩
  have inbox : x'.inbox.map Message.erase = l'.inbox.map Message.erase :=
    congrArg Listener.inbox equal'
  obtain ⟨n, held, erased⟩ := List.mem_map.mp (inbox ▸ List.mem_map_of_mem inside)
  have channel_eq : n.channel = m.channel := congrArg Message.channel erased
  exact channel_eq ▸ none n held

end Broker
end Propeller
