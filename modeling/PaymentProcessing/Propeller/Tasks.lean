import PaymentProcessing.Propeller.Broker

/-! The life of listener tasks, whoever asks for them: a task is set up, from then on it
answers for its channels until it is told to stop, and at some time it returns. Tasks that
are told to stop answer for nothing, so only a task that ends unasked is missed. -/
namespace Propeller
open Relational

/-- A task on its way. -/
structure Setup where
  task : TaskId
  /-- The channels it is for. -/
  wanted : List String
  connected : Bool
  /-- The channels it has not subscribed to yet. -/
  todo : List String
  deriving DecidableEq, Repr

structure Tasks (α : Type) where
  setups : Setup → Prop
  /-- Which task answers for which channel. -/
  claims : TaskId → String → Prop
  listeners : List (Listener α)

namespace Tasks
variable {α : Type} {s t : Tasks α}

/-- A task that has not returned and listens to the channel. -/
def Live (s : Tasks α) (task : TaskId) (channel : String) : Prop :=
  ∃ l ∈ s.listeners, l.id = task ∧ l.running = true ∧ channel ∈ l.channels

def Listens (s : Tasks α) (task : TaskId) (channel : String) : Prop :=
  ∃ l ∈ s.listeners, l.id = task ∧ channel ∈ l.channels

def Connected (s : Tasks α) (task : TaskId) : Prop := ∃ l ∈ s.listeners, l.id = task

def Reserved (s : Tasks α) (task : TaskId) : Prop := ∃ x, s.setups x ∧ x.task = task

def NoneLost (s : Tasks α) : Prop := ∀ task channel, s.claims task channel → s.Live task channel

/-- A task on its way has a connection that listens to all it is done with. -/
def Wired (s : Tasks α) (x : Setup) : Prop :=
  (x.connected = true → s.Connected x.task) ∧
  ∀ channel ∈ x.wanted, channel ∈ x.todo ∨ s.Listens x.task channel

/-- Task numbers are used once: what is on its way neither runs nor answers for anything,
and what is told to stop answers for nothing. -/
structure Sane (next : Nat) (s : Tasks α) : Prop where
  wired : ∀ x, s.setups x → s.Wired x
  waiting : ∀ l ∈ s.listeners, s.Reserved l.id → l.running = false ∧ l.stopping = false
  unclaimed : ∀ task channel, s.Reserved task → ¬ s.claims task channel
  stopping : ∀ l ∈ s.listeners, l.stopping = true → ∀ channel, ¬ s.claims l.id channel
  reserved_lt : ∀ task, s.Reserved task → task.number < next
  claims_lt : ∀ task channel, s.claims task channel → task.number < next
  listeners_lt : ∀ l ∈ s.listeners, l.id.number < next

/-- The listeners around a step in which only these tasks end, start, are told to stop or
connect. -/
structure Follows (ended started told connects : TaskId → Prop)
    (before after : List (Listener α)) : Prop where
  kept : ∀ l ∈ before, ¬ ended l.id → ∃ l' ∈ after, l'.id = l.id ∧
    (l.running = true → l'.running = true) ∧ l.channels ⊆ l'.channels
  remaining : ∀ l' ∈ after, ¬ ended l'.id
  origin : ∀ l' ∈ after,
    (∃ l ∈ before, l.id = l'.id ∧ (l'.running = true → l.running = true ∨ started l.id) ∧
      (l'.stopping = true → l.stopping = true ∨ told l.id)) ∨
    connects l'.id ∧ l'.running = false ∧ l'.stopping = false

section Follows
variable {ended started told connects : TaskId → Prop} {before after last : List (Listener α)}

/-- Tasks are told to stop, and then others are started. -/
theorem Follows.trans
    (h : Follows (fun _ => False) (fun _ => False) told (fun _ => False) before after)
    (h' : Follows (fun _ => False) started (fun _ => False) (fun _ => False) after last) :
    Follows (fun _ => False) started told connects before last := by
  refine ⟨?_, fun _ _ => id, ?_⟩
  · intro l member stays
    obtain ⟨m, present, same, running, channels⟩ := h.kept l member stays
    obtain ⟨n, inside, same', running', channels'⟩ := h'.kept m present stays
    exact ⟨n, inside, same'.trans same, running' ∘ running, List.Subset.trans channels channels'⟩
  · intro n inside
    obtain ⟨m, present, same, running, stopping⟩ := (h'.origin n inside).resolve_right fun h => h.1
    obtain ⟨l, member, same', running', stopping'⟩ :=
      (h.origin m present).resolve_right fun h => h.1
    refine Or.inl ⟨l, member, same'.trans same, ?_, ?_⟩
    · intro runs
      rcases running runs with before | began
      · exact Or.inl ((running' before).resolve_right not_false)
      · exact Or.inr (same' ▸ began)
    · intro stops
      exact stopping' ((stopping stops).resolve_right not_false)

theorem Follows.told_mono {told' : TaskId → Prop}
    (h : Follows ended started told connects before after)
    (more : ∀ task, told task → told' task) : Follows ended started told' connects before after := by
  refine ⟨h.kept, h.remaining, fun l' member => ?_⟩
  rcases h.origin l' member with ⟨l, present, same, running, stopping⟩ | new
  · exact Or.inl ⟨l, present, same, running, fun stops => (stopping stops).imp_right (more _)⟩
  · exact Or.inr new

/-- Each listener is rewritten in place. -/
theorem Follows.map {f : Listener α → Listener α}
    (changes : ∀ l ∈ before, (f l).id = l.id ∧ (l.running = true → (f l).running = true) ∧
      l.channels ⊆ (f l).channels ∧ ((f l).running = true → l.running = true ∨ started l.id) ∧
      ((f l).stopping = true → l.stopping = true ∨ told l.id)) :
    Follows (fun _ => False) started told connects before (before.map f) := by
  refine ⟨?_, fun _ _ impossible => impossible, ?_⟩
  · intro l member _
    obtain ⟨id, running, channels, -, -⟩ := changes l member
    exact ⟨f l, List.mem_map_of_mem member, id, running, channels⟩
  · intro l' member
    obtain ⟨l, present, rfl⟩ := List.mem_map.mp member
    obtain ⟨id, -, -, running, stopping⟩ := changes l present
    exact Or.inl ⟨l, present, id.symm, running, stopping⟩

theorem Follows.same (before : List (Listener α)) :
    Follows (fun _ => False) started told connects before before := by
  refine ⟨fun l member _ => ⟨l, member, rfl, id, List.Subset.refl _⟩, fun _ _ => id, ?_⟩
  intro l member
  exact Or.inl ⟨l, member, rfl, Or.inl, Or.inl⟩

theorem Follows.live (h : Follows ended started told connects s.listeners t.listeners)
    (live : s.Live task channel) (stays : ¬ ended task) : t.Live task channel := by
  obtain ⟨l, member, rfl, running, listed⟩ := live
  obtain ⟨l', member', id, running', channels⟩ := h.kept l member stays
  exact ⟨l', member', id, running' running, channels listed⟩

theorem Follows.listens (h : Follows ended started told connects s.listeners t.listeners)
    (listens : s.Listens task channel) (stays : ¬ ended task) : t.Listens task channel := by
  obtain ⟨l, member, rfl, listed⟩ := listens
  obtain ⟨l', member', id, -, channels⟩ := h.kept l member stays
  exact ⟨l', member', id, channels listed⟩

theorem Follows.wired (h : Follows ended started told connects s.listeners t.listeners)
    (wired : s.Wired x) (stays : ¬ ended x.task) : t.Wired x := by
  constructor
  · intro connected
    obtain ⟨l, member, same⟩ := wired.1 connected
    obtain ⟨l', member', id, -⟩ := h.kept l member (same ▸ stays)
    exact ⟨l', member', id.trans same⟩
  · intro channel inside
    rcases wired.2 channel inside with left | listens
    · exact Or.inl left
    · exact Or.inr (h.listens listens stays)

end Follows

section Operations
variable {ended started told connects : TaskId → Prop} {b b' : Broker α}

theorem follows_close (b : Broker α) (task : TaskId) :
    Follows (· = task) started told connects b.listeners (b.close task).listeners := by
  refine ⟨?_, ?_, ?_⟩
  · intro l member stays
    exact ⟨l, List.mem_filter.mpr ⟨member, by simpa using stays⟩, rfl, id, List.Subset.refl _⟩
  · intro l member
    simpa using (List.mem_filter.mp member).2
  · intro l member
    exact Or.inl ⟨l, List.mem_of_mem_filter member, rfl, Or.inl, Or.inl⟩

theorem follows_connect (b : Broker α) (task : TaskId) :
    Follows (fun _ => False) started told (· = task) b.listeners (b.connect task).listeners := by
  refine ⟨?_, fun _ _ => id, ?_⟩
  · intro l member _
    exact ⟨l, List.mem_append_left _ member, rfl, id, List.Subset.refl _⟩
  · intro l member
    rcases List.mem_append.mp member with old | new
    · exact Or.inl ⟨l, old, rfl, Or.inl, Or.inl⟩
    · rw [List.mem_singleton.mp new]
      exact Or.inr ⟨rfl, rfl, rfl⟩

theorem follows_publish (b : Broker α) (message : Message α) :
    Follows (fun _ => False) started told connects b.listeners (b.publish message).listeners := by
  apply Follows.map
  intro l _
  unfold Broker.offer
  split
  · exact ⟨rfl, id, List.Subset.refl _, Or.inl, Or.inl⟩
  · exact ⟨rfl, id, List.Subset.refl _, Or.inl, Or.inl⟩

theorem follows_listen (b : Broker α) (task : TaskId) (channel : String) :
    Follows (fun _ => False) started told connects b.listeners
      (b.listen task channel).listeners := by
  apply Follows.map
  intro l _
  split
  · exact ⟨rfl, id, List.subset_append_left .., Or.inl, Or.inl⟩
  · exact ⟨rfl, id, List.Subset.refl _, Or.inl, Or.inl⟩

theorem follows_hangUp (b : Broker α) (task : TaskId) :
    Follows (fun _ => False) started told connects b.listeners (b.hangUp task).listeners := by
  apply Follows.map
  intro l _
  split
  · exact ⟨rfl, id, List.Subset.refl _, Or.inl, Or.inl⟩
  · exact ⟨rfl, id, List.Subset.refl _, Or.inl, Or.inl⟩

theorem follows_delivers (h : Broker.Delivers b task l message rest b') :
    Follows (fun _ => False) started told connects b.listeners b'.listeners := by
  rw [h.listeners]
  apply Follows.map
  intro l _
  unfold Broker.took
  split
  · exact ⟨rfl, id, List.Subset.refl _, Or.inl, Or.inl⟩
  · exact ⟨rfl, id, List.Subset.refl _, Or.inl, Or.inl⟩

theorem follows_start (b : Broker α) (task : TaskId) :
    Follows (fun _ => False) (· = task) told connects b.listeners (b.start task).listeners := by
  apply Follows.map
  intro l _
  split <;> rename_i hit
  · exact ⟨rfl, fun _ => rfl, List.Subset.refl _, fun _ => Or.inr (by simpa using hit), Or.inl⟩
  · exact ⟨rfl, id, List.Subset.refl _, Or.inl, Or.inl⟩

theorem follows_shutdown (b : Broker α) (tasks : List TaskId) :
    Follows (fun _ => False) started (· ∈ tasks) connects b.listeners
      (b.shutdown tasks).listeners := by
  apply Follows.map
  intro l _
  split <;> rename_i hit
  · exact ⟨rfl, id, List.Subset.refl _, Or.inl, fun _ => Or.inr (by simpa using hit)⟩
  · exact ⟨rfl, id, List.Subset.refl _, Or.inl, Or.inl⟩

end Operations

/-- What a step does to the tasks: it starts and settles tasks that were on their way, and
tells tasks to stop that answer for nothing afterwards. -/
structure Step (ended started told connects : TaskId → Prop) (s t : Tasks α) : Prop where
  listeners : Follows ended started told connects s.listeners t.listeners
  setups : ∀ x, t.setups x →
    (s.setups x ∧ ¬ ended x.task ∨ t.Wired x ∧ s.Reserved x.task) ∧
      ¬ started x.task ∧ ¬ told x.task
  claims : ∀ task channel, t.claims task channel →
    s.claims task channel ∨ s.Reserved task ∧ ¬ t.Reserved task
  told : ∀ task channel, told task → ¬ t.claims task channel
  connects : ∀ task, connects task → s.Reserved task

section Step
variable {ended started told connects : TaskId → Prop}

theorem Step.reserved (h : Step ended started told connects s t) (reserved : t.Reserved task) :
    s.Reserved task ∧ ¬ started task ∧ ¬ told task := by
  obtain ⟨x, present, rfl⟩ := reserved
  obtain ⟨origin, quiet⟩ := h.setups x present
  rcases origin with ⟨old, -⟩ | ⟨-, old⟩
  · exact ⟨⟨x, old, rfl⟩, quiet⟩
  · exact ⟨old, quiet⟩

theorem Sane.step (sane : s.Sane next) (h : Step ended started told connects s t) :
    t.Sane next := by
  constructor
  · intro x present
    rcases (h.setups x present).1 with ⟨old, stays⟩ | ⟨wired, -⟩
    · exact h.listeners.wired (sane.wired x old) stays
    · exact wired
  · intro l' member reserved
    obtain ⟨old, notStarted, notTold⟩ := h.reserved reserved
    rcases h.listeners.origin l' member with ⟨l, present, same, running, stopping⟩ | ⟨-, idle⟩
    · rw [← same] at old notStarted notTold
      obtain ⟨notRunning, notStopping⟩ := sane.waiting l present old
      constructor
      · by_contra up
        rcases running (by simpa using up) with before | began
        · exact absurd before (by simp [notRunning])
        · exact notStarted began
      · by_contra up
        rcases stopping (by simpa using up) with before | hinted
        · exact absurd before (by simp [notStopping])
        · exact notTold hinted
    · exact idle
  · intro task channel reserved claimed
    rcases h.claims task channel claimed with old | ⟨-, settled⟩
    · exact sane.unclaimed task channel (h.reserved reserved).1 old
    · exact settled reserved
  · intro l' member stops channel claimed
    rcases h.listeners.origin l' member with ⟨l, present, same, -, stopping⟩ | ⟨-, -, idle⟩
    · rw [← same] at claimed
      rcases stopping stops with before | hinted
      · rcases h.claims _ channel claimed with old | ⟨reserved, -⟩
        · exact sane.stopping l present before channel old
        · exact absurd before (by simp [(sane.waiting l present reserved).2])
      · exact h.told _ channel hinted claimed
    · exact absurd stops (by simp [idle])
  · intro task reserved
    exact sane.reserved_lt task (h.reserved reserved).1
  · intro task channel claimed
    rcases h.claims task channel claimed with old | ⟨reserved, -⟩
    · exact sane.claims_lt task channel old
    · exact sane.reserved_lt task reserved
  · intro l' member
    rcases h.listeners.origin l' member with ⟨l, present, same, -⟩ | ⟨new, -⟩
    · exact same ▸ sane.listeners_lt l present
    · exact sane.reserved_lt _ (h.connects _ new)

/-- Nothing is missed if the tasks that end were not answering for anything, and the new
ones are up. -/
theorem Step.noneLost (h : Step ended started told connects s t) (before : s.NoneLost)
    (claims : ∀ task channel, t.claims task channel →
      s.claims task channel ∧ ¬ ended task ∨ t.Live task channel) : t.NoneLost := by
  intro task channel claimed
  rcases claims task channel claimed with ⟨old, stays⟩ | live
  · exact h.listeners.live (before task channel old) stays
  · exact live

/-- A task that ended is missed where it is still to answer. -/
theorem Step.lost (h : Step ended started told connects s t) (over_ : ended task)
    (claimed : t.claims task channel) : ¬ t.NoneLost := by
  intro noneLost
  obtain ⟨l, member, rfl, -⟩ := noneLost task channel claimed
  exact h.listeners.remaining l member over_

/-- What was on its way is not up, unless the step started it. -/
theorem Step.not_live (h : Step ended (fun _ => False) told connects s t) (sane : s.Sane next)
    (reserved : s.Reserved task) : ¬ t.Live task channel := by
  rintro ⟨l', member, rfl, runs, -⟩
  rcases h.listeners.origin l' member with ⟨l, present, same, running, -⟩ | ⟨-, idle, -⟩
  · have before := (running runs).resolve_right not_false
    have idle := sane.waiting l present (same ▸ reserved)
    exact absurd before (by simp [idle.1])
  · exact absurd runs (by simp [idle])

end Step

/-- A step after which every claim is an old one of a task that goes on, or met. -/
def Smooth (s t : Tasks α) : Prop :=
  ∃ ended started told connects, Step ended started told connects s t ∧
    ∀ task channel, t.claims task channel →
      s.claims task channel ∧ ¬ ended task ∨ t.Live task channel

theorem Smooth.sane (h : Smooth s t) (sane : s.Sane next) : t.Sane next := by
  obtain ⟨_, _, _, _, step, -⟩ := h
  exact sane.step step

theorem Smooth.noneLost (h : Smooth s t) (before : s.NoneLost) : t.NoneLost := by
  obtain ⟨_, _, _, _, step, claims⟩ := h
  exact step.noneLost before claims

/-- Nothing starts, and what is told to stop is neither on its way nor claimed any more. -/
theorem Smooth.still {told : TaskId → Prop}
    (listeners : Follows (fun _ => False) (fun _ => False) told (fun _ => False) s.listeners
      t.listeners)
    (setups : ∀ x, t.setups x → s.setups x)
    (claims : ∀ task channel, t.claims task channel → s.claims task channel)
    (unclaimed : ∀ task, told task → ¬ s.Reserved task ∧ ∀ channel, ¬ t.claims task channel) :
    Smooth s t := by
  refine ⟨_, _, _, _, ⟨listeners, ?_, ?_, ?_, fun _ => False.elim⟩, ?_⟩
  · intro x present
    have old := setups x present
    exact ⟨Or.inl ⟨old, id⟩, id, fun hinted => (unclaimed _ hinted).1 ⟨x, old, rfl⟩⟩
  · intro task channel claimed
    exact Or.inl (claims task channel claimed)
  · intro task channel hinted
    exact (unclaimed task hinted).2 channel
  · intro task channel claimed
    exact Or.inl ⟨claims task channel claimed, id⟩

/-- A running task returns. -/
theorem Step.finish {b : Broker α} (sane : s.Sane next) (finishes : Broker.Finishes b task l b')
    (before : s.listeners = b.listeners) (after : t.listeners = b'.listeners)
    (setups : t.setups = s.setups) (claims : t.claims = s.claims) :
    Step (· = task) (fun _ => False) (fun _ => False) (fun _ => False) s t := by
  refine ⟨?_, ?_, ?_, fun _ _ => False.elim, fun _ => False.elim⟩
  · rw [before, after, finishes.state]
    exact follows_close b task
  · intro x present
    rw [setups] at present
    refine ⟨Or.inl ⟨present, ?_⟩, id, id⟩
    rintro rfl
    have reserved : s.Reserved l.id := ⟨x, present, finishes.id.symm⟩
    have idle := sane.waiting l (before ▸ finishes.member) reserved
    exact absurd finishes.running (by simp [idle.1])
  · intro task channel claimed
    exact Or.inl (claims ▸ claimed)

section Wiring
variable {b : Broker α} {x : Setup}

theorem Wired.connect (h : s.Wired x) (before : s.listeners = b.listeners)
    (after : t.listeners = (b.connect x.task).listeners) : t.Wired { x with connected := true } := by
  have listeners : Follows (fun _ => False) (fun _ => False) (fun _ => False) (· = x.task)
      s.listeners t.listeners := by
    rw [before, after]
    exact follows_connect b x.task
  refine ⟨fun _ => ⟨⟨x.task, [], [], false, false, true⟩, ?_, rfl⟩, ?_⟩
  · rw [after]
    exact List.mem_append_right _ (List.mem_singleton.mpr rfl)
  · exact (listeners.wired h id).2

theorem Wired.listen (h : s.Wired x) (connected : x.connected = true)
    (todo : x.todo = channel :: rest) (before : s.listeners = b.listeners)
    (after : t.listeners = (b.listen x.task channel).listeners) :
    t.Wired { x with todo := rest } := by
  have listeners : Follows (fun _ => False) (fun _ => False) (fun _ => False) (fun _ => False)
      s.listeners t.listeners := by
    rw [before, after]
    exact follows_listen b x.task channel
  refine ⟨(listeners.wired h id).1, ?_⟩
  intro other inside
  rcases h.2 other inside with left | listens
  · rw [todo] at left
    rcases List.mem_cons.mp left with rfl | later
    · obtain ⟨l, member, same⟩ := h.1 connected
      refine Or.inr ⟨{ l with channels := l.channels ++ [other] }, ?_, same,
        List.mem_append_right _ (List.mem_singleton.mpr rfl)⟩
      rw [after]
      exact mem_updateWhere_of_hit (before ▸ member) (by simpa using same)
    · exact Or.inl later
  · exact Or.inr (listeners.listens listens id)

theorem Wired.start (h : s.Wired x) (done : x.todo = []) (before : s.listeners = b.listeners)
    (after : t.listeners = (b.start x.task).listeners) (inside : channel ∈ x.wanted) :
    t.Live x.task channel := by
  rcases h.2 channel inside with left | ⟨l, member, same, listed⟩
  · rw [done] at left
    contradiction
  · refine ⟨{ l with running := true }, ?_, same, rfl, listed⟩
    rw [after]
    exact mem_updateWhere_of_hit (before ▸ member) (by simpa using same)

end Wiring

/-- A new task is reserved, with the next number. -/
theorem Sane.reserve (sane : s.Sane next) (x : Setup) (number : x.task.number = next)
    (fresh : x.connected = false ∧ x.todo = x.wanted)
    (setups : ∀ y, t.setups y → s.setups y ∨ y = x)
    (claims : ∀ task channel, t.claims task channel → s.claims task channel)
    (listeners : t.listeners = s.listeners) : t.Sane (next + 1) := by
  have origin {task} (reserved : t.Reserved task) : s.Reserved task ∨ task.number = next := by
    obtain ⟨y, present, rfl⟩ := reserved
    rcases setups y present with old | rfl
    · exact Or.inl ⟨y, old, rfl⟩
    · exact Or.inr number
  constructor
  · intro y present
    rcases setups y present with old | rfl
    · obtain ⟨connected, done⟩ := sane.wired y old
      simp only [Wired, Connected, Listens, listeners]
      exact ⟨connected, done⟩
    · exact ⟨by simp [fresh.1], fun channel inside => Or.inl (fresh.2 ▸ inside)⟩
  · intro l member reserved
    rw [listeners] at member
    rcases origin reserved with old | new
    · exact sane.waiting l member old
    · have below := sane.listeners_lt l member
      omega
  · intro task channel reserved claimed
    have old := claims task channel claimed
    rcases origin reserved with before | new
    · exact sane.unclaimed task channel before old
    · have below := sane.claims_lt task channel old
      omega
  · intro l member stops channel claimed
    exact sane.stopping l (listeners ▸ member) stops channel (claims _ channel claimed)
  · intro task reserved
    rcases origin reserved with old | new
    · have below := sane.reserved_lt task old
      omega
    · omega
  · intro task channel claimed
    have below := sane.claims_lt task channel (claims task channel claimed)
    omega
  · intro l member
    have below := sane.listeners_lt l (listeners ▸ member)
    omega

end Tasks
end Propeller
