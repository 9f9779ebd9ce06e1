import PaymentProcessing.Propeller.Accounts
import PaymentProcessing.Propeller.Handlers

/-! Where handlers stand and where their connections are. A handler calls the service and
waits for it, so its stage and the phase of its connection go together in every run. -/
namespace Propeller
open Relational

theorem steady_of_background {a : Action} (h : a.background = true ∨ ∃ sub, a = .drop sub) :
    a.steady = true := by
  rcases h with background | ⟨sub, rfl⟩
  · cases a <;> first | rfl | contradiction
  · rfl

/-- In the loop of the handler, or on the way into it. -/
def Stage.looping : Stage → Bool
  | .sending .. | .waiting | .requesting .. => true
  | _ => false

/-- Only the connect acknowledgement makes a handler return when its send fails. -/
def Handler.Looping (h : Handler) : Prop :=
  h.stage.looping = true ∧ ∀ output sent failed, h.stage = .sending output sent failed →
    sent ≠ .quit ∧ (failed = .quit → output = h.frontend.connectAck ∧ sent = .loop)

/-- Where a handler stands when its connection is in this phase. -/
def Handler.Agrees (h : Handler) : Phase → Prop
  | .opening .. | .storing =>
      h.stage = .subscribing ∧ h.trace.subscribed = false ∧ h.trace.unsubscribes = 0
  | .subscribed => h.Looping ∧ h.trace.subscribed = true ∧ h.trace.unsubscribes = 0
  | .deleting | .leaving =>
      h.stage = .unsubscribing ∧ h.trace.subscribed = true ∧ h.trace.unsubscribes = 1
  | .closed => h.stage = .ended ∧ h.trace.subscribed = true ∧ h.trace.unsubscribes = 1
  | .failed => h.stage = .ended ∧ h.trace.subscribed = false ∧ h.trace.unsubscribes = 0
  | .abandoned => h.stage = .ended ∧ h.trace.subscribed = true ∧ h.trace.unsubscribes = 0

/-- The phases that the end of an awaited call leads to. -/
inductive Phase.Follows : Phase → Phase → Prop where
  | opening (number connected todo connected' todo') :
      Follows (.opening number connected todo) (.opening number connected' todo')
  | failed (number connected todo) : Follows (.opening number connected todo) .failed
  | storing (number connected todo) : Follows (.opening number connected todo) .storing
  | subscribed (number connected todo) : Follows (.opening number connected todo) .subscribed
  | stored : Follows .storing .subscribed
  | deleted : Follows .deleting .leaving
  | left : Follows .leaving .closed

theorem Phase.Follows.kept {p q : Phase} (follows : p.Follows q) : q ≠ .abandoned := by
  cases follows <;> simp

/-- The call that `subscribe` is waiting for may fail. -/
def Phase.connecting : Phase → Bool
  | .opening _ false _ | .opening _ true (_ :: _) => true
  | _ => false

theorem Service.advance_follows {s t : Service} {c : Connection}
    (h : s.advance config json c ok = some t) :
    ∃ phase, t.connections = (s.enter c.sub phase).connections ∧ c.phase.Follows phase ∧
      (phase = .failed ↔ ok = false ∧ c.phase.connecting = true) := by
  unfold Service.advance at h
  split at h
  · rename_i number todo phase
    cases h
    cases ok with
    | true => exact ⟨_, rfl, phase ▸ .opening number false todo true todo, by simp⟩
    | false => exact ⟨_, rfl, phase ▸ .failed number false todo, by simp [phase, Phase.connecting]⟩
  · rename_i number channel todo phase
    cases h
    cases ok with
    | true => exact ⟨_, rfl, phase ▸ .opening number true _ true todo, by simp⟩
    | false => exact ⟨_, rfl, phase ▸ .failed number true _, by simp [phase, Phase.connecting]⟩
  · rename_i number phase
    cases h
    split
    · exact ⟨_, rfl, phase ▸ .storing number true [], by simp [phase, Phase.connecting]⟩
    · exact ⟨_, rfl, phase ▸ .subscribed number true [], by simp [phase, Phase.connecting]⟩
  · rename_i phase
    cases h
    exact ⟨_, rfl, phase ▸ .stored, by simp [phase, Phase.connecting]⟩
  · rename_i phase
    cases h
    exact ⟨_, rfl, phase ▸ .deleted, by simp [phase, Phase.connecting]⟩
  · rename_i phase
    split at h
    · contradiction
    · cases h
      exact ⟨_, rfl, phase ▸ .left, by simp [phase, Phase.connecting]⟩
  all_goals contradiction

theorem Handler.Agrees.called {h : Handler} (agrees : h.Agrees phase)
    (follows : phase.Follows phase') :
    (h.called phase').Agrees phase' := by
  cases follows with
  | opening | storing =>
    obtain ⟨stage, subscribed, unsubscribes⟩ := agrees
    simp [Handler.called, stage, Handler.Agrees, subscribed, unsubscribes]
  | failed =>
    obtain ⟨stage, subscribed, unsubscribes⟩ := agrees
    simp [Handler.called, stage, Handler.Agrees, Handler.enter, subscribed, unsubscribes]
  | subscribed | stored =>
    obtain ⟨stage, subscribed, unsubscribes⟩ := agrees
    simp [Handler.called, stage, Handler.Agrees, Handler.Looping, Stage.looping, unsubscribes]
  | deleted =>
    obtain ⟨stage, subscribed, unsubscribes⟩ := agrees
    simp [Handler.called, stage, Handler.Agrees, subscribed, unsubscribes]
  | left =>
    obtain ⟨stage, subscribed, unsubscribes⟩ := agrees
    simp [Handler.called, stage, Handler.Agrees, Handler.enter, subscribed, unsubscribes]

/-- A handler in its loop has a connection that is subscribed. -/
theorem Handler.Agrees.subscribed {h : Handler} (agrees : h.Agrees phase)
    (inside : h.stage.looping = true) :
    phase = .subscribed ∧ h.trace.subscribed = true ∧ h.trace.unsubscribes = 0 := by
  cases phase with
  | subscribed => exact ⟨rfl, agrees.2⟩
  | _ =>
    simp only [Handler.Agrees] at agrees
    simp [agrees.1, Stage.looping] at inside

/-- Turns inside the loop. -/
theorem Handler.Agrees.turn {h h' : Handler} (agrees : h.Agrees phase)
    (inside : h.stage.looping = true) (still : h'.Looping)
    (subscribed : h'.trace.subscribed = h.trace.subscribed)
    (unsubscribes : h'.trace.unsubscribes = h.trace.unsubscribes) : h'.Agrees phase := by
  obtain ⟨rfl, once, never⟩ := agrees.subscribed inside
  exact ⟨still, subscribed.trans once, unsubscribes.trans never⟩

/-- A handler and its connection. -/
def Paired (h : Handler) (c : Connection) : Prop := h.sub = c.sub ∧ h.Agrees c.phase

namespace Server
variable {config : ClientConfig} {json : AttributesJson} {s t : Server} {h h' : Handler}
  {u : Service}

/-- Every handler goes with a connection of the service, in the order of their arrival. -/
structure Coherent (s : Server) : Prop where
  accounted : s.service.Accounted
  paired : List.Forall₂ Paired s.handlers s.service.connections

theorem initial_coherent : initial.Coherent := ⟨Service.initial_accounted, .nil⟩

theorem Coherent.distinct (coherent : s.Coherent) : Distinct Handler.sub s.handlers := by
  unfold Distinct
  rw [forall₂_map_eq coherent.paired fun h c paired => paired.1]
  exact coherent.accounted.distinct

theorem Coherent.connection (coherent : s.Coherent) (member : h ∈ s.handlers) :
    ∃ c, s.service.connection h.sub = some c ∧ h.Agrees c.phase := by
  obtain ⟨c, present, same, agrees⟩ := forall₂_mem coherent.paired member
  refine ⟨c, ?_, agrees⟩
  cases found : s.service.connection h.sub with
  | none =>
    have missing := List.find?_eq_none.mp found c present
    simp [same] at missing
  | some d =>
    obtain ⟨inside, equal⟩ := Service.connection_mem found
    rw [coherent.accounted.distinct.unique inside present (equal.trans same)]

/-- The turn of a handler whose connection enters a phase. -/
theorem Coherent.turn (coherent : s.Coherent) (accounted : u.Accounted) (same : h'.sub = h.sub)
    (connections : u.connections = (s.service.enter h.sub phase).connections)
    (agrees : h'.Agrees phase) :
    (⟨u, updateWhere (·.sub == h.sub) (fun _ => h') s.handlers⟩ : Server).Coherent := by
  refine ⟨accounted, ?_⟩
  rw [connections]
  refine forall₂_updateWhere coherent.paired ?_ ?_
  · intro k c paired
    rw [paired.1]
  · intro k _ c _ paired hit
    have equal : k.sub = h.sub := by simpa using hit
    exact ⟨same.trans (equal.symm.trans paired.1), agrees⟩

/-- The turn of a handler whose connection stays in its phase. -/
theorem Coherent.stay (coherent : s.Coherent) (member : h ∈ s.handlers) (accounted : u.Accounted)
    (same : h'.sub = h.sub)
    (connections : u.connections = s.service.connections)
    (agrees : ∀ phase, h.Agrees phase → h'.Agrees phase) :
    (⟨u, updateWhere (·.sub == h.sub) (fun _ => h') s.handlers⟩ : Server).Coherent := by
  obtain ⟨c, found, agreed⟩ := coherent.connection member
  obtain ⟨present, named⟩ := Service.connection_mem found
  refine coherent.turn accounted same ?_ (agrees c.phase agreed)
  -- entering the phase that it has changes nothing
  rw [connections]
  refine ((List.map_congr_left ?_).trans (List.map_id _)).symm
  intro d inside
  split
  · rename_i hit
    have equal : d.sub = h.sub := by simpa using hit
    rw [coherent.accounted.distinct.unique inside present (equal.trans named.symm)]
    rfl
  · rfl

theorem Coherent.step_accounted (coherent : s.Coherent)
    (stepped : s.service.step config json a = some u) : u.Accounted :=
  (Service.step_moves stepped).accounted coherent.accounted

/-- A call of the service brings the handler to where its connection is. -/
theorem Coherent.called (coherent : s.Coherent) (member : h ∈ s.handlers)
    (stepped : s.service.step config json (.advance h.sub ok) = some u)
    (found : u.connection h.sub = some d) :
    (⟨u, updateWhere (·.sub == h.sub) (fun _ => h.called d.phase) s.handlers⟩ :
      Server).Coherent := by
  obtain ⟨c, present, agrees⟩ := coherent.connection member
  obtain ⟨c', found', advanced⟩ := Option.bind_eq_some_iff.mp stepped
  cases present.symm.trans found'
  obtain ⟨-, named⟩ := Service.connection_mem present
  obtain ⟨phase, connections, follows, -⟩ := Service.advance_follows advanced
  rw [named] at connections
  obtain ⟨inside, same⟩ := Service.connection_mem found
  rw [connections] at inside
  rcases (Service.mem_entered coherent.accounted.distinct present).mp inside with rfl | ⟨-, other⟩
  · have sub : (h.called phase).sub = h.sub := by
      unfold Handler.called
      split <;> rfl
    exact coherent.turn (coherent.step_accounted stepped) (h.called_sub phase) connections
      (agrees.called follows)
  · exact absurd same other

/-- Leaving the loop. -/
theorem Coherent.left (coherent : s.Coherent) (member : h ∈ s.handlers)
    (inside : h.stage.looping = true)
    (stepped : s.service.step config json (.disconnect h.sub) = some u)
    (same : h'.sub = h.sub) (stage : h'.stage = .unsubscribing)
    (subscribed : h'.trace.subscribed = h.trace.subscribed)
    (unsubscribes : h'.trace.unsubscribes = h.trace.unsubscribes + 1) :
    (⟨u, updateWhere (·.sub == h.sub) (fun _ => h') s.handlers⟩ : Server).Coherent := by
  obtain ⟨c, present, agrees⟩ := coherent.connection member
  obtain ⟨-, once, never⟩ := agrees.subscribed inside
  obtain ⟨c', found, entered⟩ := Option.bind_eq_some_iff.mp stepped
  split at entered
  · cases entered
    apply coherent.turn (coherent.step_accounted stepped) same rfl
    have standing :
        h'.stage = .unsubscribing ∧ h'.trace.subscribed = true ∧ h'.trace.unsubscribes = 1 :=
      ⟨stage, subscribed.trans once, by omega⟩
    split
    · exact standing
    · exact standing
  · contradiction

theorem Coherent.quit (coherent : s.Coherent) (member : h ∈ s.handlers)
    (inside : h.stage.looping = true)
    (stepped : s.service.step config json (.abandon h.sub) = some u)
    (same : h'.sub = h.sub) (stage : h'.stage = .ended)
    (subscribed : h'.trace.subscribed = h.trace.subscribed)
    (unsubscribes : h'.trace.unsubscribes = h.trace.unsubscribes) :
    (⟨u, updateWhere (·.sub == h.sub) (fun _ => h') s.handlers⟩ : Server).Coherent := by
  obtain ⟨c, present, agrees⟩ := coherent.connection member
  obtain ⟨-, once, never⟩ := agrees.subscribed inside
  obtain ⟨c', found, entered⟩ := Option.bind_eq_some_iff.mp stepped
  split at entered
  · cases entered
    exact coherent.turn (coherent.step_accounted stepped) same rfl
      ⟨stage, subscribed.trans once, unsubscribes.trans never⟩
  · contradiction

theorem Coherent.looping (coherent : s.Coherent) (member : h ∈ s.handlers)
    (inside : h.stage.looping = true) (stepped : s.service.step config json a = some u)
    (steady : a.steady = true) (same : h'.sub = h.sub) (still : h'.Looping)
    (subscribed : h'.trace.subscribed = h.trace.subscribed)
    (unsubscribes : h'.trace.unsubscribes = h.trace.unsubscribes) :
    (⟨u, updateWhere (·.sub == h.sub) (fun _ => h') s.handlers⟩ : Server).Coherent :=
  coherent.stay member (coherent.step_accounted stepped) same (Service.step_steady stepped steady)
    fun _ agrees => agrees.turn inside still subscribed unsubscribes

theorem Coherent.moves (coherent : s.Coherent) (member : h ∈ s.handlers)
    (moves : h.Moves config json s.service input u h') :
    (⟨u, updateWhere (·.sub == h.sub) (fun _ => h') s.handlers⟩ : Server).Coherent := by
  have unmoved {k : Handler} (inside : h.stage.looping = true) (same : k.sub = h.sub)
      (still : k.Looping) (subscribed : k.trace.subscribed = h.trace.subscribed)
      (unsubscribes : k.trace.unsubscribes = h.trace.unsubscribes) :
      (⟨s.service, updateWhere (·.sub == h.sub) (fun _ => k) s.handlers⟩ : Server).Coherent :=
    coherent.stay member coherent.accounted same rfl
      fun _ agrees => agrees.turn inside still subscribed unsubscribes
  have waits {k : Handler} (stage : k.stage = .waiting) : k.Looping :=
    ⟨by rw [stage]; rfl, by simp [stage]⟩
  have speaks {k : Handler} (output : Output) (sent failed : Next)
      (stage : k.stage = .sending output sent failed) (loops : sent ≠ .quit)
        (ends : failed ≠ .quit) :
      k.Looping := by
    refine ⟨by rw [stage]; rfl, ?_⟩
    rintro _ _ _ same
    cases stage.symm.trans same
    exact ⟨loops, fun quits => absurd quits ends⟩
  cases moves with
  | called ok t c calling stepped found => exact coherent.called member stepped found
  | sent ok output sent failed stage => exact unmoved (by rw [stage]; rfl) rfl (waits rfl) rfl rfl
  | sentLast ok output sent failed t stage following stepped =>
    exact coherent.left member (by rw [stage]; rfl) stepped rfl rfl rfl rfl
  | quit ok output sent failed t stage following stepped =>
    exact coherent.quit member (by rw [stage]; rfl) stepped rfl rfl rfl rfl
  | left input t waiting other stepped =>
    exact coherent.left member (by rw [waiting]; rfl) stepped rfl rfl rfl rfl
  | idle input waiting => exact unmoved (by rw [waiting]; rfl) rfl (waits waiting) rfl rfl
  | talks input output sent t waiting other loops unasked received =>
    have still := speaks (k := h.enter (.sending output sent .leave)) output sent .leave rfl loops
      (by simp)
    rcases received with rfl | stepped
    · exact unmoved (by rw [waiting]; rfl) rfl still rfl rfl
    · exact coherent.looping member (by rw [waiting]; rfl) stepped rfl rfl still rfl rfl
  | refused input request c e waiting =>
    exact unmoved (by rw [waiting]; rfl) rfl (speaks _ _ _ rfl (by simp) (by simp)) rfl rfl
  | requested input topic c channel t waiting asked found named checked stepped =>
    exact coherent.looping member (by rw [waiting]; rfl) stepped rfl rfl
      ⟨rfl, by simp [Handler.enter]⟩ rfl rfl
  | withdrawn input topic c channel broker t waiting asked found named removed stepped =>
    exact coherent.looping member (by rw [waiting]; rfl) stepped rfl rfl
      (speaks _ _ _ rfl (by simp) (by simp)) rfl rfl
  | adding ok text topic task a t stage found stepped =>
    exact coherent.looping member (by rw [stage]; rfl) stepped rfl rfl
      ⟨by rw [stage]; rfl, by simp [stage]⟩ rfl rfl
  | added ok text topic task a t result stage found stepped =>
    exact coherent.looping member (by rw [stage]; rfl) stepped rfl rfl
      (speaks _ _ _ rfl (by simp) (by simp)) rfl rfl

theorem Moves.coherent (moves : Moves config json s a t) (before : s.Coherent) : t.Coherent := by
  cases moves with
  | refused => exact before
  | accepted frontend sub tenantId clientId device channels u connected checked =>
    refine ⟨before.step_accounted connected, ?_⟩
    rw [(Service.step_connect connected checked).2]
    exact List.rel_append before.paired (.cons ⟨rfl, rfl, rfl, rfl⟩ .nil)
  | turn h input u h' found moved => exact before.moves (handler_mem found).1 moved
  | background a b u other moved steady =>
    refine ⟨before.step_accounted moved, ?_⟩
    rw [Service.step_steady moved (steady_of_background steady)]
    exact before.paired

theorem run_coherent (h : Transition.run (step config json) initial schedule = some s) :
    s.Coherent :=
  Transition.invariant
    (fun before stepped => (step_moves stepped).coherent before) initial_coherent h

end Server
end Propeller
