import PaymentProcessing.Propeller.Deliveries

/-! What a connection holds at the service: its registration at the broker and its place in
the gauge. Both follow the phase of the connection, through every step of the service. -/
namespace Propeller
open Relational

/-- Actions that leave every connection in its phase. -/
def Action.steady : Action → Bool
  | .connect .. | .advance .. | .disconnect _ | .abandon _ => false
  | _ => true

theorem Service.step_steady {s t : Service} (stepped : s.step config json a = some t)
    (steady : a.steady = true) : t.connections = s.connections := by
  have moves := Service.step_moves stepped
  cases moves with
  | connect | advance | disconnect | abandon => contradiction
  | advanceAdd a ok => exact (advanceAdd_registry s a ok).2
  | _ => rfl

theorem Service.step_connect {s t : Service}
    (stepped : s.step config json (.connect sub tenantId clientId device) = some t)
    (checked : clientChannels config tenantId clientId device = .ok channels) :
    s.connection sub = none ∧
    t = { s with
      broker := s.broker.register sub s.next
      connections := s.connections ++
        [⟨sub, tenantId, clientId, device, .opening s.next false channels⟩]
      next := s.next + 1 } := by
  simp only [Service.step, checked] at stepped
  split at stepped
  · contradiction
  · rename_i absent
    cases stepped
    exact ⟨by simpa using absent, rfl⟩

/-- Counted in the gauge. -/
def Phase.counted : Phase → Bool
  | .subscribed | .deleting | .leaving | .abandoned => true
  | _ => false

def Service.registrations (s : Service) : List Uuid :=
  s.broker.subscriptions.map ActiveSubscription.id

namespace Service
variable {config : ClientConfig} {json : AttributesJson} {s t : Service} {c : Connection} {phase : Phase}

theorem advanceAdd_registrations (s : Service) (a : Adding) (ok : Bool) :
    (s.advanceAdd a ok).registrations = s.registrations ∧ (s.advanceAdd a ok).gauge = s.gauge := by
  unfold advanceAdd
  split
  · exact ⟨rfl, rfl⟩
  · exact ⟨rfl, rfl⟩
  · exact ⟨rfl, rfl⟩
  · exact ⟨rfl, rfl⟩
  · exact ⟨Broker.finishAdd_ids _ _ _ _, rfl⟩

/-- The gauge counts connections, and what is registered follows their phases. -/
structure Accounted (s : Service) : Prop where
  distinct : Distinct Connection.sub s.connections
  gauge : s.gauge = BitVec.ofNat 64 (s.connections.countP fun c => c.phase.counted)
  registered : ∀ c ∈ s.connections, c.phase ≠ .closed → c.sub ∈ s.registrations
  released : ∀ c ∈ s.connections, c.phase = .closed → c.sub ∉ s.registrations

theorem initial_accounted : initial.Accounted := by
  refine ⟨List.nodup_nil, rfl, ?_, ?_⟩ <;> simp [initial]

theorem Accounted.congr (h : s.Accounted) (connections : t.connections = s.connections)
    (gauge : t.gauge = s.gauge) (registrations : t.registrations = s.registrations) : t.Accounted :=
  ⟨connections ▸ h.distinct, by rw [gauge, connections, h.gauge],
    by rw [connections, registrations]; exact h.registered,
    by rw [connections, registrations]; exact h.released⟩

theorem count_enter (phase : Phase) (distinct : Distinct Connection.sub s.connections)
    (found : s.connection sub = some c) :
    ((s.enter sub phase).connections.countP
      fun c => c.phase.counted) + (if c.phase.counted then 1 else 0) =
      (s.connections.countP fun c => c.phase.counted) + if phase.counted then 1 else 0 := by
  obtain ⟨member, rfl⟩ := connection_mem found
  exact countP_updateWhere _ distinct member _

/-- One connection changes its phase, and the gauge with it. -/
theorem Accounted.enter (h : s.Accounted) (found : s.connection sub = some c)
    (connections : t.connections = (s.enter sub phase).connections)
    (gauge : t.gauge + (if c.phase.counted then 1 else 0) =
      s.gauge + if phase.counted then 1 else 0)
    (registered : phase ≠ .closed → sub ∈ t.registrations)
    (released : phase = .closed → sub ∉ t.registrations)
    (others : ∀ other, other ≠ sub → (other ∈ t.registrations ↔ other ∈ s.registrations)) :
    t.Accounted := by
  refine ⟨?_, ?_, ?_, ?_⟩
  · rw [connections]
    exact h.distinct.updateWhere fun _ => rfl
  · have counted := congrArg (BitVec.ofNat 64) (count_enter phase h.distinct found)
    rw [BitVec.ofNat_add, BitVec.ofNat_add, ← h.gauge, ← connections] at counted
    have lifted (b : Bool) :
        BitVec.ofNat 64 (if b = true then 1 else 0) = if b = true then (1 : BitVec 64) else 0 := by
      cases b <;> rfl
    rw [lifted, lifted, ← gauge] at counted
    exact ((BitVec.add_left_inj _).mp counted).symm
  · intro x member open_
    rw [connections] at member
    rcases (mem_entered h.distinct found).mp member with rfl | ⟨present, other⟩
    · obtain ⟨-, rfl⟩ := connection_mem found
      exact registered open_
    · exact (others x.sub other).mpr (h.registered x present open_)
  · intro x member closed
    rw [connections] at member
    rcases (mem_entered h.distinct found).mp member with rfl | ⟨present, other⟩
    · obtain ⟨-, rfl⟩ := connection_mem found
      exact released closed
    · exact fun inside => h.released x present closed ((others x.sub other).mp inside)

theorem Advances.accounted (h : Advances config json s c ok t) (before : s.Accounted)
    (found : s.connection c.sub = some c) : t.Accounted := by
  have member := (connection_mem found).1
  have kept (open_ : c.phase ≠ .closed) : c.sub ∈ s.registrations :=
    before.registered c member open_
  cases h with
  | connected number todo phase | listening number channel todo phase
  | unsubscribed number channel todo phase | registering number dev phase
  | unconnected number todo phase =>
    refine before.enter found rfl ?_ (fun _ => kept (by simp [phase])) (by simp) (fun _ _ => .rfl)
    simp [phase, Phase.counted, withBroker, Service.enter]
  | plain number phase =>
    refine before.enter found rfl ?_ (fun _ => kept (by simp [phase])) (by simp) (fun _ _ => .rfl)
    simp [phase, Phase.counted]
  | stored phase =>
    refine before.enter found rfl ?_ (fun _ => kept (by simp [phase])) (by simp) (fun _ _ => .rfl)
    simp [phase, Phase.counted]
  | deleted phase =>
    refine before.enter found rfl ?_ (fun _ => kept (by simp [phase])) (by simp) (fun _ _ => .rfl)
    simp [phase, Phase.counted, Service.enter]
  | left phase =>
    have emptied :
      ∀ other, other ∈ (s.broker.unsubscribe c.sub).subscriptions.map ActiveSubscription.id ↔
        other ≠ c.sub ∧ other ∈ s.registrations := by
      intro other
      simp only [Broker.unsubscribe_subscriptions, registrations, List.mem_map, List.mem_filter]
      constructor
      · rintro ⟨entry, ⟨inside, different⟩, rfl⟩
        exact ⟨by simpa using different, entry, inside, rfl⟩
      · rintro ⟨different, entry, inside, rfl⟩
        exact ⟨entry, ⟨inside, by simpa using different⟩, rfl⟩
    refine before.enter found rfl ?_ (fun open_ => absurd rfl open_) ?_ ?_
    · rw [phase]
      change s.gauge - 1 + 1 = s.gauge + 0
      rw [BitVec.sub_add_cancel]
      exact (BitVec.add_zero s.gauge).symm
    · intro _ inside
      exact ((emptied c.sub).mp inside).1 rfl
    · intro other different
      exact (emptied other).trans (and_iff_right different)

theorem Moves.accounted (h : Moves config json s a t) (before : s.Accounted) : t.Accounted := by
  cases h with
  | refused => exact before
  | connect sub tenantId clientId device channels absent checked =>
    have fresh := connection_fresh absent
    have more (other : Uuid) : other ∈ (s.broker.register sub s.next).subscriptions.map
        ActiveSubscription.id ↔ other ∈ s.registrations ∨ other = sub := by
      simp [Broker.register, registrations, List.map_append]
    refine ⟨before.distinct.append fresh, ?_, ?_, ?_⟩
    · rw [List.countP_append]
      exact before.gauge
    · intro c member open_
      refine (more c.sub).mpr ?_
      cases List.mem_append.mp member with
      | inl old => exact Or.inl (before.registered c old open_)
      | inr new => exact Or.inr (by rw [List.mem_singleton.mp new])
    · intro c member closed
      cases List.mem_append.mp member with
      | inl old =>
        intro inside
        rcases (more c.sub).mp inside with listed | same
        · exact before.released c old closed listed
        · exact fresh c old same
      | inr new =>
        rw [List.mem_singleton.mp new] at closed
        cases closed
  | advance sub c ok _ found advanced =>
    obtain ⟨-, rfl⟩ := connection_mem found
    exact advanced.accounted before found
  | disconnect sub c found phase =>
    have kept := before.registered c (connection_mem found).1 (by simp [phase])
    obtain ⟨-, rfl⟩ := connection_mem found
    refine before.enter found rfl ?_ (fun _ => kept) ?_ (fun _ _ => .rfl)
    · split <;> simp [phase, Phase.counted, Service.enter]
    · split <;> simp
  | abandon sub c found phase =>
    have kept := before.registered c (connection_mem found).1 (by simp [phase])
    obtain ⟨-, rfl⟩ := connection_mem found
    refine before.enter found rfl ?_ (fun _ => kept) (by simp) (fun _ _ => .rfl)
    simp [phase, Phase.counted, Service.enter]
  | topicSubscribe => exact before.congr rfl rfl rfl
  | advanceAdd a ok member =>
    obtain ⟨registrations, gauge⟩ := advanceAdd_registrations s a ok
    exact before.congr (advanceAdd_registry s a ok).2 gauge registrations
  | topicUnsubscribe sub c topic channel broker found phase named removed =>
    exact before.congr rfl rfl (Broker.removeSubscription_ids removed)
  | publish send reply channel checked =>
    refine before.congr rfl rfl ?_
    simp only [registrations]
    split
    · rfl
    · rfl
  | turn a broker turns =>
    refine before.congr rfl rfl ?_
    simp only [registrations, withBroker, turns.subscriptions]

end Service

end Propeller
