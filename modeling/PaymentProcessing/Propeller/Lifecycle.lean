import PaymentProcessing.Propeller.Coherence

/-! The lifecycle of connections. A handler gives back its registration and its place in the
gauge when it goes through `unsubscribe_client`, and then only once; the ways past that call
are named exactly. -/
namespace Propeller
open Relational Transition

/-- Still there after a successful `subscribe_client`. -/
def Handler.running (h : Handler) : Bool := h.trace.subscribed && decide (h.stage ≠ .ended)

/-- A running handler is counted, and so is one that has given up its connection. -/
theorem Handler.Agrees.running {h : Handler} (agrees : h.Agrees phase) (kept : phase ≠ .abandoned) :
    h.running = phase.counted := by
  cases phase with
  | abandoned => contradiction
  | subscribed =>
    obtain ⟨⟨looping, -⟩, subscribed, -⟩ := agrees
    have going : h.stage ≠ .ended := by
      intro ended
      simp [ended, Stage.looping] at looping
    simp [Handler.running, subscribed, going, Phase.counted]
  | _ =>
    obtain ⟨stage, subscribed, -⟩ := agrees
    simp [Handler.running, stage, subscribed, Phase.counted]

namespace Server
variable {config : ClientConfig} {json : AttributesJson} {s t : Server} {h h' : Handler}
  {u : Service}

/-- Every subscription of an ended handler was given back once, the gauge counts the running
handlers, and the broker keeps nothing for the ended ones. -/
structure Lifecycle (s : Server) : Prop where
  unsubscribed : ∀ h ∈ s.handlers, h.stage = .ended → h.trace.subscribed = true →
    h.trace.unsubscribes = 1
  gauge : s.service.gauge = BitVec.ofNat 64 (s.handlers.countP Handler.running)
  unregistered : ∀ h ∈ s.handlers, h.stage = .ended → h.sub ∉ s.service.registrations

/-- No connection was given up. -/
def Spared (s : Server) : Prop :=
  ∀ c ∈ s.service.connections, c.phase ≠ .failed ∧ c.phase ≠ .abandoned

theorem Coherent.handler_of (coherent : s.Coherent) (member : c ∈ s.service.connections) :
    ∃ h ∈ s.handlers, Paired h c := by
  obtain ⟨h, present, paired⟩ := forall₂_mem (R := flip Paired) coherent.paired.flip member
  exact ⟨h, present, paired⟩

theorem Coherent.lifecycle_iff (coherent : s.Coherent) : s.Lifecycle ↔ s.Spared := by
  constructor
  · intro lifecycle c member
    obtain ⟨h, present, same, agrees⟩ := coherent.handler_of member
    constructor
    · intro phase
      rw [phase] at agrees
      apply lifecycle.unregistered h present agrees.1
      rw [same]
      exact coherent.accounted.registered c member (by simp [phase])
    · intro phase
      rw [phase] at agrees
      have once := lifecycle.unsubscribed h present agrees.1 agrees.2.1
      rw [agrees.2.2] at once
      contradiction
  · intro spared
    have gone {h : Handler} (member : h ∈ s.handlers) (ended : h.stage = .ended) :
        ∃ c ∈ s.service.connections, c.sub = h.sub ∧ c.phase = .closed ∧
          h.trace.unsubscribes = 1 := by
      obtain ⟨c, present, same, agrees⟩ := forall₂_mem coherent.paired member
      refine ⟨c, present, same.symm, ?_⟩
      cases phase : c.phase with
      | closed =>
        rw [phase] at agrees
        exact ⟨rfl, agrees.2.2⟩
      | failed => exact absurd phase (spared c present).1
      | abandoned => exact absurd phase (spared c present).2
      | subscribed =>
        simp [phase, Handler.Agrees, Handler.Looping, ended, Stage.looping] at agrees
      | _ => simp [phase, Handler.Agrees, ended] at agrees
    refine ⟨?_, ?_, ?_⟩
    · intro h member ended _
      obtain ⟨c, present, same, closed, once⟩ := gone member ended
      exact once
    · rw [coherent.accounted.gauge]
      refine congrArg _ (forall₂_countP coherent.paired ?_).symm
      intro h c present paired
      exact paired.2.running (spared c present).2
    · intro h member ended
      obtain ⟨c, present, same, closed, once⟩ := gone member ended
      exact same ▸ coherent.accounted.released c present closed

/-- No acknowledgement of a connection fails, and no call of `subscribe` does. -/
def Uncut (s : Server) : Action → Prop
  | .turn sub (.sent false) =>
      ∀ h ∈ s.handler sub, h.stage ≠ .sending h.frontend.connectAck .loop .quit
  | .turn sub (.call false) => ∀ c ∈ s.service.connection sub, c.phase.connecting = false
  | _ => True

instance (s : Server) (a : Action) : Decidable (s.Uncut a) := by
  unfold Uncut
  split <;> infer_instance

theorem Coherent.spared_enter (coherent : s.Coherent) (spared : s.Spared)
    (found : s.service.connection sub = some c)
    (connections : u.connections = (s.service.enter sub phase).connections) :
    (⟨u, hs⟩ : Server).Spared ↔ phase ≠ .failed ∧ phase ≠ .abandoned := by
  simp only [Spared, connections, Service.mem_entered coherent.accounted.distinct found]
  constructor
  · intro all
    exact all _ (Or.inl rfl)
  · rintro kept d (rfl | ⟨inside, -⟩)
    · exact kept
    · exact spared d inside

/-- Inside the loop, only a failed acknowledgement gives the connection up. -/
theorem Coherent.uncut_looping (coherent : s.Coherent) (found : s.handler h.sub = some h)
    (inside : h.stage.looping = true)
    (other : input = .sent false → h.stage ≠ .sending h.frontend.connectAck .loop .quit) :
    s.Uncut (.turn h.sub input) := by
  obtain ⟨c, present, agrees⟩ := coherent.connection (handler_mem found).1
  obtain ⟨phase, -⟩ := agrees.subscribed inside
  unfold Uncut
  split
  · rename_i same
    cases same
    intro k member
    cases found.symm.trans member
    exact other rfl
  · rename_i same
    cases same
    intro d member
    cases present.symm.trans member
    rw [phase]
    rfl
  · trivial

theorem uncut_of_other (other : ∀ sub input, a ≠ Action.turn sub input) : s.Uncut a := by
  cases a with
  | turn sub input => exact absurd rfl (other sub input)
  | _ => trivial

theorem Coherent.turn_spared_iff (coherent : s.Coherent) (spared : s.Spared)
    (found : s.handler h.sub = some h) (moves : h.Moves config json s.service input u h') :
    (⟨u, hs⟩ : Server).Spared ↔ s.Uncut (.turn h.sub input) := by
  have member := (handler_mem found).1
  obtain ⟨c, present, agrees⟩ := coherent.connection member
  -- turns that keep every connection in its phase
  have steady (inside : h.stage.looping = true) (same : u.connections = s.service.connections)
      (other : input = .sent false → h.stage ≠ .sending h.frontend.connectAck .loop .quit) :
      (⟨u, hs⟩ : Server).Spared ↔ s.Uncut (.turn h.sub input) := by
    refine iff_of_true ?_ (coherent.uncut_looping found inside other)
    intro d listed
    exact spared d (same ▸ listed)
  have leaves (inside : h.stage.looping = true)
      (stepped : s.service.step config json (.disconnect h.sub) = some u)
      (other : input = .sent false → h.stage ≠ .sending h.frontend.connectAck .loop .quit) :
      (⟨u, hs⟩ : Server).Spared ↔ s.Uncut (.turn h.sub input) := by
    refine iff_of_true ?_ (coherent.uncut_looping found inside other)
    obtain ⟨c', found', entered⟩ := Option.bind_eq_some_iff.mp stepped
    split at entered
    · cases entered
      refine (coherent.spared_enter spared present rfl).mpr ?_
      split <;> simp
    · contradiction
  cases moves with
  | called ok t d calling stepped found' =>
    obtain ⟨c', present', advanced⟩ := Option.bind_eq_some_iff.mp stepped
    cases present.symm.trans present'
    obtain ⟨-, named⟩ := Service.connection_mem present
    obtain ⟨phase, connections, follows, failing⟩ := Service.advance_follows advanced
    rw [named] at connections
    rw [coherent.spared_enter spared present connections, and_iff_left follows.kept, Ne, failing]
    cases ok with
    | true => exact iff_of_true (by simp) trivial
    | false => simp [Uncut, present]
  | sent ok output sent failed stage following =>
    apply steady (by rw [stage]; rfl) rfl
    rintro ⟨⟩ quits
    cases stage.symm.trans quits
    contradiction
  | sentLast ok output sent failed t stage following stepped =>
    apply leaves (by rw [stage]; rfl) stepped
    rintro ⟨⟩ quits
    cases stage.symm.trans quits
    contradiction
  | quit ok output sent failed t stage following stepped =>
    obtain ⟨phase, -⟩ := agrees.subscribed (by rw [stage]; rfl)
    rw [phase] at agrees
    obtain ⟨loops, only⟩ := agrees.1.2 output sent failed stage
    obtain ⟨c', found', entered⟩ := Option.bind_eq_some_iff.mp stepped
    split at entered
    · cases entered
      refine iff_of_false ?_ ?_
      · intro kept
        exact ((coherent.spared_enter spared present rfl).mp kept).2 rfl
      · cases ok with
        | true => exact absurd following loops
        | false =>
          have failed : failed = .quit := following
          obtain ⟨rfl, rfl⟩ := only failed
          intro uncut
          exact uncut h found (failed ▸ stage)
    · contradiction
  | left input t waiting other stepped =>
    exact leaves (by rw [waiting]; rfl) stepped fun _ => by simp [waiting]
  | idle input waiting => exact steady (by rw [waiting]; rfl) rfl fun _ => by simp [waiting]
  | talks input output sent t waiting other loops unasked received =>
    refine steady (by rw [waiting]; rfl) ?_ fun _ => by simp [waiting]
    rcases received with rfl | stepped
    · rfl
    · exact Service.step_steady stepped rfl
  | refused input request c e waiting =>
    exact steady (by rw [waiting]; rfl) rfl fun _ => by simp [waiting]
  | requested input topic c channel t waiting asked found' named checked stepped =>
    exact steady (by rw [waiting]; rfl) (Service.step_steady stepped rfl) fun _ => by simp [waiting]
  | withdrawn input topic c channel broker t waiting asked found' named removed stepped =>
    exact steady (by rw [waiting]; rfl) (Service.step_steady stepped rfl) fun _ => by simp [waiting]
  | adding ok text topic task a t stage found' stepped =>
    exact steady (by rw [stage]; rfl) (Service.step_steady stepped rfl) fun _ => by simp [stage]
  | added ok text topic task a t result stage found' stepped =>
    exact steady (by rw [stage]; rfl) (Service.step_steady stepped rfl) fun _ => by simp [stage]

/-- A step gives no connection up exactly when it meets the condition. -/
theorem Moves.spared_iff (moves : Moves config json s a t) (coherent : s.Coherent)
    (spared : s.Spared) : t.Spared ↔ s.Uncut a := by
  cases moves with
  | refused a other => exact iff_of_true spared (uncut_of_other other)
  | accepted frontend sub tenantId clientId device channels u connected checked =>
    refine iff_of_true ?_ trivial
    intro c member
    rw [(Service.step_connect connected checked).2] at member
    cases List.mem_append.mp member with
    | inl old => exact spared c old
    | inr new =>
      rw [List.mem_singleton.mp new]
      exact ⟨by simp, by simp⟩
  | turn h input u h' found moved => exact coherent.turn_spared_iff spared found moved
  | background a b u other moved steady =>
    refine iff_of_true ?_ (uncut_of_other other)
    intro c member
    exact spared c (Service.step_steady moved (steady_of_background steady) ▸ member)

theorem Coherent.lowered (coherent : s.Coherent)
    (stepped : s.service.step config json a = some u) (lowered : u.gauge = s.service.gauge - 1) :
    ∃ h ∈ s.handlers, h.running = true := by
  have impossible (same : u.gauge = s.service.gauge) : False := by
    rw [same] at lowered
    bv_omega
  have moves := Service.step_moves stepped
  cases moves with
  | advance sub c ok _ found advanced =>
    have raised (same : u.gauge = s.service.gauge + 1) : False := by
      rw [same] at lowered
      bv_omega
    cases advanced with
    | left phase =>
      obtain ⟨h, present, -, agrees⟩ := coherent.handler_of (Service.connection_mem found).1
      rw [phase] at agrees
      refine ⟨h, present, ?_⟩
      rw [agrees.running (by simp)]
      rfl
    | plain => exact absurd rfl raised
    | stored => exact absurd rfl raised
    | _ => exact absurd rfl impossible
  | advanceAdd a ok => exact absurd (Service.advanceAdd_registrations _ a ok).2 impossible
  | _ => exact absurd rfl impossible

theorem Moves.lowered (moves : Moves config json s a t)
    (lowered : t.service.gauge = s.service.gauge - 1)
    (coherent : s.Coherent) : ∃ h ∈ s.handlers, h.running = true := by
  have impossible (same : t.service.gauge = s.service.gauge) : False := by
    rw [same] at lowered
    bv_omega
  cases moves with
  | refused => exact absurd rfl impossible
  | accepted frontend sub tenantId clientId device channels u connected =>
    exact coherent.lowered connected lowered
  | background a b u other moved => exact coherent.lowered moved lowered
  | turn h input u h' found moved =>
    rcases moved.service with rfl | ⟨b, -, stepped⟩
    · exact absurd rfl impossible
    · exact coherent.lowered stepped lowered

/-- The gauge is lowered only while it counts a running handler. -/
def NeverUnderflows (config : ClientConfig) (json : AttributesJson) (schedule : List Action) : Prop :=
  ∀ past a rest s t, schedule = past ++ a :: rest → run (step config json) initial past = some s →
    s.step config json a = some t → t.service.gauge = s.service.gauge - 1 →
      0 < s.handlers.countP Handler.running

/-- A run accounts for all its connections exactly when no acknowledgement of a connection
and no call of `subscribe` fails in it. -/
theorem run_lifecycle_iff (config : ClientConfig) (json : AttributesJson) (schedule : List Action)
    (s : Server) (h : run (step config json) initial schedule = some s) :
    (Throughout (step config json) Lifecycle initial schedule ∧
      NeverUnderflows config json schedule) ↔
      Meets (step config json) Uncut initial schedule := by
  have never : NeverUnderflows config json schedule := by
    intro past a rest u v _ reached stepped lowered
    obtain ⟨k, member, running⟩ := (step_moves stepped).lowered lowered (run_coherent reached)
    exact List.countP_pos_iff.mpr ⟨k, member, running⟩
  have exactly : Throughout (step config json) (fun u => u.Coherent ∧ u.Spared) initial schedule ↔
      Meets (step config json) Uncut initial schedule := by
    refine throughout_iff ?_ ⟨initial_coherent, by simp [Spared, initial, Service.initial]⟩ h
    rintro u a v ⟨coherent, spared⟩ stepped
    have moves := step_moves stepped
    rw [and_iff_right (moves.coherent coherent), moves.spared_iff coherent spared]
  rw [and_iff_left never, ← exactly]
  constructor
  · intro always past rest u split reached
    have coherent := run_coherent reached
    exact ⟨coherent, coherent.lifecycle_iff.mp (always past rest u split reached)⟩
  · intro always past rest u split reached
    obtain ⟨coherent, spared⟩ := always past rest u split reached
    exact coherent.lifecycle_iff.mpr spared

/-- A browser connects, is acknowledged and closes. -/
def visit (acknowledged : Bool) : List Action :=
  .accept .ws 0 "acme" "alice" none :: List.replicate 3 (.turn 0 (.call true)) ++
    [.turn 0 (.sent acknowledged)]

def departure : List Action := [.turn 0 (.frame .close), .turn 0 (.call true)]

theorem visit_accounted :
    Throughout (step AppConfig.shipped.client plainJson) Lifecycle initial
      (visit true ++ departure) ∧
      NeverUnderflows AppConfig.shipped.client plainJson (visit true ++ departure) := by
  obtain ⟨s, reached⟩ : ∃ s, run (step AppConfig.shipped.client plainJson) initial
      (visit true ++ departure) = some s := Option.isSome_iff_exists.mp (by decide +kernel)
  exact (run_lifecycle_iff _ _ _ s reached).mpr (by decide +kernel)

/-- The browser is gone before the acknowledgement is sent. -/
theorem visit_abandoned : ¬ ∀ schedule s,
    run (step AppConfig.shipped.client plainJson) initial schedule = some s →
      Throughout (step AppConfig.shipped.client plainJson) Lifecycle initial schedule := by
  intro claim
  have lost : (run (step AppConfig.shipped.client plainJson) initial (visit false)).map
      (fun s => s.handlers.map fun h => (h.stage, h.trace.subscribed, h.trace.unsubscribes)) =
        some [(.ended, true, 0)] := by
    decide +kernel
  obtain ⟨s, reached, handlers⟩ := Option.map_eq_some_iff.mp lost
  have lifecycle := claim _ s reached (visit false) [] s (List.append_nil _).symm reached
  obtain ⟨h, listed, fields⟩ := List.mem_map.mp (handlers ▸ List.mem_singleton.mpr rfl :
    (Stage.ended, true, 0) ∈ s.handlers.map fun h =>
      (h.stage, h.trace.subscribed, h.trace.unsubscribes))
  simp only [Prod.mk.injEq] at fields
  have once := lifecycle.unsubscribed h listed fields.1 fields.2.1
  rw [fields.2.2] at once
  contradiction

end Server
end Propeller
