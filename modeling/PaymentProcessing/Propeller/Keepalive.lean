import PaymentProcessing.Propeller.WsHandler

/-! When a client that answers its pings is kept. A tick compares the pong timeout with the
time since the last pong, and a client that answers at once has sent that a whole ping
interval before. -/
namespace Propeller

/-- The socket works in this turn. -/
def Turn.Healthy (turn : Turn) : Prop :=
  turn.sent = true ∧ turn.branch ≠ .incoming .close ∧ turn.branch ≠ .incoming .closed ∧
    turn.branch ≠ .incoming .error ∧ turn.branch ≠ .event none

namespace Session
variable {config : KeepaliveConfig} {s t : Session} {turn : Turn}

/-- What a turn of the loop can do. -/
inductive Turns (config : KeepaliveConfig) (s : Session) (turn : Turn) : Session → Prop where
  | ignored : Turns config s turn { s with free := turn.taken }
  | pong : Turns config s turn
      { s.pongReceived turn.taken with free := turn.taken, unanswered := s.unanswered.tail }
  | pinged (payload : List UInt8) : Turns config s turn
      ((s.back turn.finished (.pong payload)).pongReceived turn.finished)
  | delivered (event : TopicEvent) : Turns config s turn (s.counted.back turn.finished (.event event))
  | left (u : Session) (ending : Ending) : ending ≠ .keepaliveTimeout → Turns config s turn (u.leave ending)
  | kept (next : Timer) : turn.branch = .tick → s.pingInterval.tick turn.taken = some next →
      turn.taken - s.lastPongAt ≤ nanos config.wsPongTimeoutSecs →
      Turns config s turn ((s.ticked next).pingSent turn.finished)
  | expired (next : Timer) : turn.branch = .tick → s.pingInterval.tick turn.taken = some next →
      nanos config.wsPongTimeoutSecs < turn.taken - s.lastPongAt →
      Turns config s turn ((s.ticked next).expire turn.sent)

theorem receive_turns (config : KeepaliveConfig) (s : Session) (turn : Turn) (message : Incoming) :
    Turns config s turn (s.receive turn message) := by
  cases message with
  | text | binary => exact .ignored
  | pong => exact .pong
  | ping payload =>
    simp only [receive]
    split
    · exact .pinged payload
    · exact .left s .sendFailed (by decide)
  | close | closed => exact .left s .disconnected (by decide)
  | error => exact .left s .receiveFailed (by decide)

theorem deliver_turns (config : KeepaliveConfig) (s : Session) (turn : Turn)
    (event : Option TopicEvent) :
    Turns config s turn (s.deliver turn event) := by
  cases event with
  | none => exact .left s .eventsClosed (by decide)
  | some event =>
    simp only [deliver]
    split
    · exact .delivered event
    · exact .left _ .sendFailed (by decide)

theorem ping_turns (branch : turn.branch = .tick)
    (ticked : s.pingInterval.tick turn.taken = some next) :
    Turns config s turn (s.ping config turn next) := by
  unfold ping
  split
  · rename_i late
    exact .expired next branch ticked late
  · rename_i early
    split
    · exact .kept next branch ticked (by omega)
    · exact .left _ .sendFailed (by decide)

theorem step_turns (h : step config s turn = some t) :
    s.ended = none ∧ s.free ≤ turn.taken ∧ turn.taken ≤ turn.finished ∧ Turns config s turn t := by
  unfold step at h
  split at h
  · contradiction
  · rename_i possible
    have open_ : s.ended = none := by
      cases ended : s.ended with
      | none => rfl
      | some => simp [ended] at possible
    refine ⟨open_, by omega, by omega, ?_⟩
    split at h
    · cases h
      exact receive_turns config s turn _
    · cases h
      exact deliver_turns config s turn _
    · rename_i branch
      obtain ⟨next, ticked, rfl⟩ := Option.map_eq_some_iff.mp h
      exact ping_turns branch ticked

/-- A turn of a run with a healthy socket in which pings are answered within the pong
timeout and ticks are taken at most `lateness` after they are due. -/
structure Fair (config : KeepaliveConfig) (lateness : Nat) (s : Session) (turn : Turn) : Prop where
  healthy : turn.Healthy
  answers : ∀ payload, turn.branch = .incoming (.pong payload) →
    ∀ sentAt ∈ s.unanswered.head?, turn.taken ≤ sentAt + nanos config.wsPongTimeoutSecs
  served : turn.branch = .tick → turn.taken ≤ s.pingInterval.deadline + lateness

theorem Fair.mono (h : Fair config early s turn) (later : early ≤ lateness) :
    Fair config lateness s turn := by
  refine ⟨h.healthy, h.answers, ?_⟩
  intro branch
  have served := h.served branch
  omega

theorem fair_event (event : TopicEvent) :
    Fair config lateness s ⟨now, finished, true, .event (some event)⟩ :=
  ⟨by simp [Turn.Healthy], by simp, by simp⟩

theorem fair_tick (served : now ≤ s.pingInterval.deadline + lateness) :
    Fair config lateness s ⟨now, now, true, .tick⟩ :=
  ⟨by simp [Turn.Healthy], by simp, fun _ => served⟩

theorem fair_pong
    (answers : ∀ sentAt ∈ s.unanswered.head?, now ≤ sentAt + nanos config.wsPongTimeoutSecs) :
    Fair config lateness s ⟨now, now, true, .incoming (.pong payload)⟩ :=
  ⟨by simp [Turn.Healthy], fun _ _ => answers, by simp⟩

/-- The next tick is due within a ping interval of the last turn, and of the last pong once
every ping is answered. -/
structure Paced (config : KeepaliveConfig) (s : Session) : Prop where
  period : s.pingInterval.period = nanos config.wsPingIntervalSecs
  next : s.pingInterval.deadline ≤ s.free + nanos config.wsPingIntervalSecs
  answered : s.unanswered = [] → s.pingInterval.deadline ≤ s.lastPongAt + nanos config.wsPingIntervalSecs

/-- A session that timed out left a ping unanswered. -/
structure Kept (config : KeepaliveConfig) (s : Session) : Prop where
  paced : s.ended = none → s.Paced config
  excused : s.ended = some .keepaliveTimeout → s.unanswered ≠ []

theorem Paced.kept (h : s.Paced config) (going : s.ended = none) : s.Kept config :=
  ⟨fun _ => h, fun closed => by simp [going] at closed⟩

theorem Turns.keeps (h : Turns config s turn t) (before : s.Paced config) (going : s.ended = none)
    (since : s.free ≤ turn.taken) (until_ : turn.taken ≤ turn.finished)
    (served : turn.branch = .tick → turn.taken ≤ s.pingInterval.deadline + lateness)
    (fits : nanos config.wsPingIntervalSecs + lateness ≤ nanos config.wsPongTimeoutSecs) :
    t.Kept config := by
  obtain ⟨period, next, answered⟩ := before
  cases h with
  | ignored =>
    refine Paced.kept ⟨period, ?_, answered⟩ going
    change s.pingInterval.deadline ≤ turn.taken + _
    omega
  | pong =>
    have due : s.pingInterval.deadline ≤ turn.taken + nanos config.wsPingIntervalSecs := by omega
    exact Paced.kept ⟨period, due, fun _ => due⟩ going
  | pinged payload =>
    have due : s.pingInterval.deadline ≤ turn.finished + nanos config.wsPingIntervalSecs := by omega
    exact Paced.kept ⟨period, due, fun _ => due⟩ going
  | delivered event =>
    refine Paced.kept ⟨period, ?_, answered⟩ going
    change s.pingInterval.deadline ≤ turn.finished + _
    omega
  | left u ending other =>
    constructor
    · intro closed
      simp [leave] at closed
    · intro closed
      exact absurd (Option.some.inj closed) other
  | kept interval branch ticked early =>
    have later := Timer.tick_deadline_le ticked
    rw [period] at later
    refine Paced.kept ⟨(Timer.tick_period ticked).trans period, ?_, fun empty => ?_⟩ going
    · change interval.deadline ≤ turn.finished + _
      omega
    · simp [pingSent] at empty
  | expired interval branch ticked late =>
    constructor
    · intro closed
      simp [expire, leave] at closed
    · -- the tick was due within an interval of the last pong, so it came within the timeout
      intro _ empty
      have due := answered empty
      have taken := served branch
      omega

/-- No fair run in which every ping is answered ends with a keepalive timeout. -/
def Sound (config : KeepaliveConfig) (tolerance lateness : Nat) : Prop :=
  ∀ start ready turns s, start ≤ ready →
    Transition.run (step config) (opened config tolerance start ready) turns = some s →
    Transition.Meets (step config) (Fair config lateness) (opened config tolerance start ready) turns →
    s.unanswered = [] → s.ended ≠ some .keepaliveTimeout

theorem opened_kept (config : KeepaliveConfig) (tolerance : Nat) (order : start ≤ ready) :
    (opened config tolerance start ready).Kept config := by
  refine Paced.kept ⟨rfl, ?_, fun _ => ?_⟩ rfl
  · change start ≤ ready + _
    omega
  · change start ≤ start + _
    omega

theorem sound_of_fits (tolerance : Nat)
    (fits : nanos config.wsPingIntervalSecs + lateness ≤ nanos config.wsPongTimeoutSecs) :
    Sound config tolerance lateness := by
  intro start ready turns s order h meets answered closed
  have kept : s.Kept config := by
    refine Transition.invariant_of_meets (I := Kept config) ?_
      (opened_kept config tolerance order) meets h
    intro _ _ _ before met stepped
    obtain ⟨going, since, until_, turned⟩ := step_turns stepped
    exact turned.keeps (before.paced going) going since until_ met.served fits
  exact kept.excused closed answered

theorem step_incoming (going : s.ended = none) (free : s.free ≤ now) (message : Incoming) :
    step config s ⟨now, now, true, .incoming message⟩ =
      some (s.receive ⟨now, now, true, .incoming message⟩ message) := by
  simp [step, going, free]

theorem step_event (going : s.ended = none) (free : s.free ≤ now) (order : now ≤ finished)
    (event : TopicEvent) :
    step config s ⟨now, finished, true, .event (some event)⟩ =
      some (s.counted.back finished (.event event)) := by
  simp [step, deliver, going, free, order]

theorem step_ping (going : s.ended = none) (free : s.free ≤ now)
    (ticked : s.pingInterval.tick now = some next)
    (early : now - s.lastPongAt ≤ nanos config.wsPongTimeoutSecs) :
    step config s ⟨now, now, true, .tick⟩ = some ((s.ticked next).pingSent now) := by
  have kept : ¬ nanos config.wsPongTimeoutSecs < now - s.lastPongAt := Nat.not_lt.mpr early
  simp [step, ping, going, free, ticked, kept]

theorem step_expire (going : s.ended = none) (free : s.free ≤ now)
    (due : s.pingInterval.deadline ≤ now)
    (late : nanos config.wsPongTimeoutSecs < now - s.lastPongAt) :
    ∃ t, step config s ⟨now, now, true, .tick⟩ = some t ∧ t.unanswered = s.unanswered ∧
      t.ended = some .keepaliveTimeout := by
  obtain ⟨next, ticked⟩ := Timer.tick_of_due due
  refine ⟨(s.ticked next).expire true, ?_, rfl, rfl⟩
  simp [step, ping, going, free, ticked, late]

/-- No open ping has waited beyond the timeout, and ticks are taken when they are due. -/
def Patient (config : KeepaliveConfig) (s : Session) (turn : Turn) : Prop :=
  Fair config 0 s turn ∧ ∀ sentAt ∈ s.unanswered, turn.taken ≤ sentAt + nanos config.wsPongTimeoutSecs

/-- The client is silent since time 0, and the pings it has not answered are later ones. -/
structure Silent (config : KeepaliveConfig) (due : Nat) (s : Session) : Prop where
  going : s.ended = none
  deadline : s.pingInterval.deadline = due
  period : s.pingInterval.period = nanos config.wsPingIntervalSecs
  free : s.free ≤ due
  last : s.lastPongAt = 0
  recent : ∀ sentAt ∈ s.unanswered, nanos config.wsPingIntervalSecs ≤ sentAt

/-- The first ping is answered at once. -/
def greeting : List Turn := [⟨0, 0, true, .tick⟩, ⟨0, 0, true, .incoming (.pong [])⟩]

theorem run_greeting (config : KeepaliveConfig) (tolerance : Nat) :
    ∃ s, Transition.run (step config) (opened config tolerance 0 0) greeting = some s ∧
      Transition.Meets (step config) (Patient config) (opened config tolerance 0 0) greeting ∧
      Silent config (nanos config.wsPingIntervalSecs) s ∧ s.unanswered = [] := by
  let s₀ := opened config tolerance 0 0
  let s₁ := (s₀.ticked
    { s₀.pingInterval with deadline := 0 + nanos config.wsPingIntervalSecs }).pingSent 0
  let s₂ := s₁.receive ⟨0, 0, true, .incoming (.pong [])⟩ (.pong [])
  have pinged : step config s₀ ⟨0, 0, true, .tick⟩ = some s₁ :=
    step_ping rfl (Nat.le_refl 0) (Timer.tick_deadline s₀.pingInterval) (Nat.zero_le _)
  have answered : step config s₁ ⟨0, 0, true, .incoming (.pong [])⟩ = some s₂ :=
    step_incoming rfl (Nat.le_refl 0) (.pong [])
  have first : Patient config s₀ ⟨0, 0, true, .tick⟩ :=
    ⟨fair_tick (Nat.zero_le _), fun _ _ => Nat.zero_le _⟩
  have second : Patient config s₁ ⟨0, 0, true, .incoming (.pong [])⟩ :=
    ⟨fair_pong fun _ _ => Nat.zero_le _, fun _ _ => Nat.zero_le _⟩
  refine ⟨s₂, ?_, .cons first pinged (.cons second answered trivial), ?_, rfl⟩
  · exact Transition.run_cons_iff.mpr ⟨s₁, pinged, Transition.run_cons_iff.mpr ⟨s₂, answered, rfl⟩⟩
  · exact ⟨rfl, Nat.zero_add _, rfl, Nat.zero_le _, rfl,
      fun _ member => absurd member List.not_mem_nil⟩

/-- An event becomes ready with the next tick and is chosen first; the tick after its send
comes too late. -/
theorem not_sound (tolerance : Nat)
    (late : nanos config.wsPongTimeoutSecs < nanos config.wsPingIntervalSecs + lateness) :
    ¬ Sound config tolerance lateness := by
  intro sound
  obtain ⟨s, greeted, patient, silent, empty⟩ := run_greeting config tolerance
  let event : TopicEvent := ⟨"orders", []⟩
  let busy := nanos config.wsPingIntervalSecs + lateness
  have delivered :
      step config s ⟨nanos config.wsPingIntervalSecs, busy, true, .event (some event)⟩ =
      some (s.counted.back busy (.event event)) :=
    step_event silent.going silent.free (Nat.le_add_right _ _) event
  have going : (s.counted.back busy (.event event)).ended = none := silent.going
  have deadline : (s.counted.back busy (.event event)).pingInterval.deadline =
      nanos config.wsPingIntervalSecs := silent.deadline
  have last : (s.counted.back busy (.event event)).lastPongAt = 0 := silent.last
  have elapsed :
      nanos config.wsPongTimeoutSecs < busy - (s.counted.back busy (.event event)).lastPongAt := by
    rw [last]
    exact late
  obtain ⟨t, expired, unanswered, ended⟩ :=
    step_expire going (Nat.le_refl busy) (deadline ▸ Nat.le_add_right _ _) elapsed
  have onTime : busy ≤ (s.counted.back busy (.event event)).pingInterval.deadline + lateness := by
    rw [deadline]
  let rest : List Turn :=
    [⟨nanos config.wsPingIntervalSecs, busy, true, .event (some event)⟩, ⟨busy, busy, true, .tick⟩]
  have tail : Transition.Meets (step config) (Fair config lateness) s rest :=
    .cons (fair_event event) delivered (.cons (fair_tick onTime) expired trivial)
  have closed : Transition.run (step config) s rest = some t :=
    Transition.run_cons_iff.mpr
      ⟨_, delivered, Transition.run_cons_iff.mpr ⟨t, expired, Transition.run_nil⟩⟩
  have reached := Transition.run_append_iff.mpr ⟨s, greeted, closed⟩
  have meets := (patient.mono fun met => met.1.mono (Nat.zero_le lateness)).append greeted tail
  exact sound 0 0 _ t (Nat.le_refl 0) reached meets (unanswered.trans empty) ended

/-- A healthy client that answers in time is kept exactly when a ping interval, with the
lateness of a tick, fits into the pong timeout. -/
theorem sound_iff (config : KeepaliveConfig) (tolerance lateness : Nat) :
    Sound config tolerance lateness ↔
    nanos config.wsPingIntervalSecs + lateness ≤ nanos config.wsPongTimeoutSecs := by
  constructor
  · intro sound
    by_contra late
    exact not_sound tolerance (Nat.not_le.mp late) sound
  · intro fits
    exact sound_of_fits tolerance fits

/-- With the shipped 30 and 10 seconds, a client that answers its first ping at once is
closed at the second one. -/
theorem shipped_not_sound :
    ¬ ∀ config : AppConfig, config.validate = .ok () → Sound config.keepalive 5000000 0 := by
  intro claim
  have interval : nanos AppConfig.shipped.keepalive.wsPongTimeoutSecs <
      nanos AppConfig.shipped.keepalive.wsPingIntervalSecs + 0 := by decide
  exact not_sound 5000000 interval (claim AppConfig.shipped rfl)

/-! A ping that is still open when the session closes is another matter: then no
configuration keeps every client whose pongs are all within the timeout. -/

theorem Silent.patient (h : Silent config due s)
    (open_ : due ≤ nanos config.wsPingIntervalSecs + nanos config.wsPongTimeoutSecs) :
    Patient config s ⟨due, due, true, .tick⟩ := by
  have onTime : due ≤ s.pingInterval.deadline + 0 := by rw [h.deadline, Nat.add_zero]
  refine ⟨fair_tick onTime, ?_⟩
  intro sentAt member
  have recent := h.recent sentAt member
  change due ≤ _
  omega

theorem Silent.tick (h : Silent config due s) (later : nanos config.wsPingIntervalSecs ≤ due)
    (early : due ≤ nanos config.wsPongTimeoutSecs) :
    ∃ t, step config s ⟨due, due, true, .tick⟩ = some t ∧
      Silent config (due + nanos config.wsPingIntervalSecs) t := by
  have ticked := Timer.tick_deadline s.pingInterval
  rw [h.deadline, h.period] at ticked
  have elapsed : due - s.lastPongAt ≤ nanos config.wsPongTimeoutSecs := by omega
  refine ⟨_, step_ping h.going h.free ticked elapsed, ⟨h.going, rfl, rfl, ?_, h.last, ?_⟩⟩
  · change due ≤ _
    omega
  · intro sentAt member
    cases List.mem_append.mp member with
    | inl old => exact h.recent sentAt old
    | inr new =>
      rw [List.mem_singleton.mp new]
      exact later

/-- The ticks of the ping interval, each taken when it is due. -/
def punctual (interval : Nat) : Nat → Nat → List Turn
  | _, 0 => []
  | due, n + 1 => ⟨due, due, true, .tick⟩ :: punctual interval (due + interval) n

theorem Silent.run (h : Silent config due s) (later : nanos config.wsPingIntervalSecs ≤ due)
    (early : due + n * nanos config.wsPingIntervalSecs ≤
      nanos config.wsPongTimeoutSecs + nanos config.wsPingIntervalSecs) :
    ∃ t, Transition.run (step config) s (punctual (nanos config.wsPingIntervalSecs) due n) =
      some t ∧
      Transition.Meets (step config) (Patient config) s
        (punctual (nanos config.wsPingIntervalSecs) due n) ∧
      Silent config (due + n * nanos config.wsPingIntervalSecs) t := by
  induction n generalizing due s with
  | zero =>
    rw [Nat.zero_mul, Nat.add_zero]
    exact ⟨s, rfl, trivial, h⟩
  | succ n ih =>
    rw [Nat.succ_mul] at early ⊢
    obtain ⟨u, stepped, silent⟩ := h.tick later (by omega)
    obtain ⟨t, ran, meets, rest⟩ := ih silent (by omega) (by omega)
    refine ⟨t, Transition.run_cons_iff.mpr ⟨u, stepped, ran⟩,
      .cons (h.patient (by omega)) stepped meets, ?_⟩
    rwa [Nat.add_assoc, Nat.add_comm (nanos _)] at rest

/-- Under every accepted configuration and with every tick on time, some client is closed
although none of its pings has waited beyond the timeout. -/
theorem patient_times_out (config : AppConfig) (accepted : config.validate = .ok ())
    (tolerance : Nat) :
    ∃ turns s, Transition.run (step config.keepalive)
      (opened config.keepalive tolerance 0 0) turns = some s ∧
      Transition.Meets (step config.keepalive) (Patient config.keepalive)
        (opened config.keepalive tolerance 0 0) turns ∧ s.ended = some .keepaliveTimeout := by
  obtain ⟨-, -, -, positive, -, -⟩ := (AppConfig.validate_ok_iff config).mp accepted
  have beats : 0 < nanos config.keepalive.wsPingIntervalSecs := nanos_pos positive
  let n := nanos config.keepalive.wsPongTimeoutSecs / nanos config.keepalive.wsPingIntervalSecs
  have within :
      n * nanos config.keepalive.wsPingIntervalSecs ≤ nanos config.keepalive.wsPongTimeoutSecs :=
    Nat.div_mul_le_self _ _
  have beyond : nanos config.keepalive.wsPongTimeoutSecs <
      n * nanos config.keepalive.wsPingIntervalSecs + nanos config.keepalive.wsPingIntervalSecs := by
    exact Nat.lt_div_mul_add beats
  -- the first ping is answered at once, the ones after it are open until the close
  obtain ⟨s, greeted, patient, silent, -⟩ := run_greeting config.keepalive tolerance
  obtain ⟨t, ticking, waiting, quiet⟩ := silent.run (Nat.le_refl _) (n := n) (by omega)
  let close := nanos config.keepalive.wsPingIntervalSecs + n * nanos config.keepalive.wsPingIntervalSecs
  have elapsed : nanos config.keepalive.wsPongTimeoutSecs < close - t.lastPongAt := by
    rw [quiet.last]
    omega
  obtain ⟨u, expired, -, ended⟩ :=
    step_expire quiet.going quiet.free (Nat.le_of_eq quiet.deadline) elapsed
  have last : Transition.Meets (step config.keepalive) (Patient config.keepalive) t
      [⟨close, close, true, .tick⟩] :=
    .cons (quiet.patient (by omega)) expired trivial
  have closed : Transition.run (step config.keepalive) t [⟨close, close, true, .tick⟩] = some u :=
    Transition.run_cons_iff.mpr ⟨u, expired, Transition.run_nil⟩
  refine ⟨_, u, ?_, patient.append greeted (waiting.append ticking last), ended⟩
  exact Transition.run_append_iff.mpr
    ⟨s, greeted, Transition.run_append_iff.mpr ⟨t, ticking, closed⟩⟩

end Session
end Propeller
