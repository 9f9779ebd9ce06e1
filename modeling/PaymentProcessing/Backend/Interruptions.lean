import PaymentProcessing.Backend.Settlements
import PaymentProcessing.Backend.Evidence
import PaymentProcessing.Backend.Refinement

/-! Reconciliation passes that end early. The update takes the payment out of the
`PENDING` rows that later passes look at, so the settlement that was to follow in the
next transaction is inserted by the pass that made the update or not at all. -/
namespace PaymentBackend
open Relational Transition

namespace Services
variable {env : Externals} {gateways : List PaymentGateway} {s t : Services} {v w : Nat}
  {paymentId : Uuid}

/-- The worker and the payment that its pass takes from `PENDING` to `SUCCESS`. -/
def moved (s : Services) : Action → Option (Nat × Uuid)
  | .reconcile w | .reconcileFailure w true =>
      match (s.workers w).reconciler with
      | some (.pay ((paymentId, _, _) :: _)) =>
          if ∃ p ∈ s.store.db.payments, p.id = paymentId ∧ p.status = .pending then
            some (w, paymentId)
          else none
      | _ => none
  | _ => none

/-- The pass of worker `v` is about to settle the payment. -/
def Settling (v : Nat) (paymentId : Uuid) (s : Services) : Prop :=
  ((s.workers v).reconciler.bind Reconciling.settling).map Prod.fst = some paymentId

instance (v : Nat) (paymentId : Uuid) (s : Services) : Decidable (Settling v paymentId s) :=
  inferInstanceAs (Decidable (_ = _))

/-- The payment has its settlements row, or the pass of this worker is about to insert it. -/
def SettledOr (v : Nat) (paymentId : Uuid) (s : Services) : Prop :=
  s.store.db.settlementCount paymentId = 1 ∨ Settling v paymentId s

/-- The pass of worker `v` does not end between the update of the payment and its
settlement, unless the row is there already. -/
def Uncut (v : Nat) (paymentId : Uuid) (s : Services) (a : Action) : Prop :=
  match a with
  | .crash worker | .reconcileFailure worker false =>
      worker = v → Settling v paymentId s → s.store.db.settlementCount paymentId = 1
  | .reconcileFailure _ true =>
      s.moved a = some (v, paymentId) → s.store.db.settlementCount paymentId = 1
  | _ => True

instance (v : Nat) (paymentId : Uuid) (s : Services) (a : Action) :
    Decidable (Uncut v paymentId s a) := by
  unfold Uncut
  split <;> infer_instance

theorem settling_iff : Settling v paymentId s ↔
    ∃ gateway pending, (s.workers v).reconciler = some (.settle paymentId gateway pending) := by
  constructor
  · intro h
    obtain ⟨entry, settling, rfl⟩ := Option.map_eq_some_iff.mp h
    obtain ⟨r, current, named⟩ := Option.bind_eq_some_iff.mp settling
    cases r with
    | pay => cases named
    | settle p gateway pending =>
      cases named
      exact ⟨gateway, pending, current⟩
  · rintro ⟨gateway, pending, current⟩
    simp only [Settling, current, Option.bind_some, Reconciling.settling, Option.map_some]

/-- A pass that crashes or fails is over. -/
theorem step_stops (h : step env gateways s a = some t)
    (stops : a = .crash v ∨ ∃ applied, a = .reconcileFailure v applied) :
    (t.workers v).reconciler = none := by
  rcases stops with rfl | ⟨applied, rfl⟩
  · simp only [step, Option.some.injEq] at h
    rw [← h]
    simp [setWorker, Worker.booted]
  · simp only [step] at h
    split at h
    · rw [← Option.some.inj h]
      exact (pass_setReconciler _ v none v).trans (if_pos rfl)
    · cases h

/-- A settlements row stays, and stays the only one. -/
theorem step_count (h : step env gateways s a = some t) (referenced : s.store.db.Referenced)
    (counted : s.store.db.settlementCount paymentId = 1) :
    t.store.db.settlementCount paymentId = 1 := by
  obtain ⟨r, member, named⟩ := referenced.count_eq_one.mp counted
  exact (step_referenced h referenced).count_eq_one.mpr
    ⟨r, (step_moves env gateways h).extends.db.settlements member, named⟩

/-- The insert that a pass is about to make gives the payment its row. -/
theorem step_settles (h : step env gateways s a = some t) (accountable : s.Accountable env)
    (current : (s.workers v).reconciler = some (.settle paymentId gateway pending))
    (acts : a = .reconcile v ∨ a = .reconcileFailure v true) :
    t.store.db.settlementCount paymentId = 1 := by
  obtain ⟨db, executed, r, member, named⟩ := accountable.settle current
  refine (step_referenced h accountable.referenced).count_eq_one.mpr ⟨r, ?_, named⟩
  have rows := settles_of_current env current acts
  rw [executed] at rows
  rw [step_settlements h, ← rows]
  exact member

theorem moved_pass (h : s.moved a = some (v, paymentId)) : ∃ orderId gateway pending,
    (s.workers v).reconciler = some (.pay ((paymentId, orderId, gateway) :: pending)) ∧
      (a = .reconcile v ∨ a = .reconcileFailure v true) := by
  unfold moved at h
  split at h
  case h_1 | h_2 =>
    split at h
    · rename_i current
      split at h
      · cases h
        exact ⟨_, _, _, current, by simp⟩
      · cases h
    · cases h
  case h_3 => cases h

/-- A pass that is cut off adds no row. -/
theorem step_cut (h : step env gateways s a = some t) (silent : s.settles env a = none) :
    t.store.db.settlementCount paymentId = s.store.db.settlementCount paymentId := by
  rw [Database.settlementCount, step_settlements h, silent, Option.toList_none, List.append_nil]
  rfl

/-- Where the row is there or about to come, a step keeps it so exactly when it does not
cut the pass off. -/
theorem step_settledOr (h : step env gateways s a = some t) (accountable : s.Accountable env)
    (before : SettledOr v paymentId s) : SettledOr v paymentId t ↔ Uncut v paymentId s a := by
  rcases before with counted | settling
  · refine ⟨fun _ => ?_, fun _ => Or.inl (step_count h accountable.referenced counted)⟩
    unfold Uncut
    split
    · exact fun _ _ => counted
    · exact fun _ _ => counted
    · exact fun _ => counted
    · trivial
  · obtain ⟨gateway, pending, current⟩ := settling_iff.mp settling
    have unmoved (b : Action) : s.moved b ≠ some (v, paymentId) := by
      intro moving
      obtain ⟨_, _, _, paying, -⟩ := moved_pass moving
      cases current.symm.trans paying
    cases (step_moves env gateways h).passStep v with
    | same kept =>
      refine ⟨fun _ => ?_, fun _ => Or.inr ?_⟩
      · have going (stops : a = .crash v ∨ ∃ applied, a = .reconcileFailure v applied) : False := by
          cases (step_stops h stops).symm.trans (kept.trans current)
        unfold Uncut
        split
        · rintro rfl
          exact (going (Or.inl rfl)).elim
        · rintro rfl
          exact (going (Or.inr ⟨false, rfl⟩)).elim
        · exact fun moving => absurd moving (unmoved _)
        · trivial
      · exact settling_iff.mpr ⟨gateway, pending, kept.trans current⟩
    | swept rows action =>
      subst action
      simp [step, current] at h
    | answered r next action =>
      subst action
      exact ⟨fun _ => trivial, fun _ => Or.inl (step_settles h accountable current (Or.inl rfl))⟩
    | stopped stops ended =>
      have left : SettledOr v paymentId t ↔ t.store.db.settlementCount paymentId = 1 := by
        refine or_iff_left fun going => ?_
        obtain ⟨_, _, position⟩ := settling_iff.mp going
        cases ended.symm.trans position
      rw [left]
      rcases stops with rfl | ⟨applied, rfl⟩
      · rw [step_cut h rfl]
        exact ⟨fun counted _ _ => counted, fun uncut => uncut rfl settling⟩
      · cases applied with
        | false =>
          rw [step_cut h rfl]
          exact ⟨fun counted _ _ => counted, fun uncut => uncut rfl settling⟩
        | true =>
          exact ⟨fun _ moving => absurd moving (unmoved _),
            fun _ => step_settles h accountable current (Or.inr rfl)⟩

/-- The update that moves a payment leaves its pass about to settle it, unless it fails. -/
theorem step_moved (h : step env gateways s a = some t) (accountable : s.Accountable env)
    (moving : s.moved a = some (v, paymentId)) (uncut : Uncut v paymentId s a) :
    SettledOr v paymentId t := by
  obtain ⟨orderId, gateway, pending, current, rfl | rfl⟩ := moved_pass moving
  · refine Or.inr (settling_iff.mpr ⟨gateway, pending, ?_⟩)
    rw [step_reconcile env gateways current rfl, Option.some.injEq] at h
    rw [← h]
    exact setReconciler_workers _ v _
  · exact Or.inl (step_count h accountable.referenced (uncut moving))

theorem run_sound_accountable (h : run (step env gateways) initial schedule = some t) :
    t.Sound env ∧ t.Accountable env :=
  ⟨run_sound h, run_accountable h⟩

/-- From the state after the update on, the row is there or about to come in every state
exactly when no step cuts the pass off. -/
theorem settledOr_throughout_iff (h : run (step env gateways) initial before = some s)
    (settled : SettledOr v paymentId s) (reached : run (step env gateways) s after = some t) :
    Throughout (step env gateways) (SettledOr v paymentId) s after ↔
      Meets (step env gateways) (Uncut v paymentId) s after := by
  have both := throughout_iff (C := Uncut v paymentId)
    (I := fun s => (s.Sound env ∧ s.Accountable env) ∧ SettledOr v paymentId s)
    (fun {s a t} before stepped => ?_) ⟨run_sound_accountable h, settled⟩ reached
  · rw [← both]
    constructor
    · intro always past rest u split arrived
      refine ⟨run_sound_accountable (run_append_iff.mpr ⟨s, h, arrived⟩), ?_⟩
      exact always past rest u split arrived
    · intro always past rest u split arrived
      exact (always past rest u split arrived).2
  · have moves := step_moves env gateways stepped
    have kept : t.Sound env ∧ t.Accountable env :=
      ⟨moves.sound before.1.1, step_accepted stepped before.1.2.accepted,
        step_referenced stepped before.1.2.referenced,
        moves.promoted before.1.1 before.1.2.promoted⟩
    rw [and_iff_right kept]
    exact step_settledOr stepped before.1.2 before.2

/-- When a pass completes, a payment that a pass of worker `v` has moved is settled, if no
pass of `v` was cut off between the update and the settlement; only a pass of `v` that
is still under way may yet have to settle it. -/
theorem run_completed_settled (v w : Nat) (paymentId : Uuid)
    (h : run (step env gateways) initial before = some s)
    (moving : s.moved a = some (v, paymentId))
    (meets : Meets (step env gateways) (Uncut v paymentId) s (a :: after))
    (reached : run (step env gateways) s (a :: after) = some r)
    (completing : (r.workers w).reconciler = some (.pay []))
    (stepped : step env gateways r (.reconcile w) = some t) :
    t.store.db.settlementCount paymentId = 1 ∨ v ≠ w ∧ Settling v paymentId t := by
  obtain ⟨u, first, rest⟩ := run_cons_iff.mp reached
  have arrived : run (step env gateways) initial (before ++ [a]) = some u :=
    run_append_iff.mpr ⟨s, h, run_cons_iff.mpr ⟨u, first, rfl⟩⟩
  have start := step_moved first (run_accountable h) moving meets.1
  have last : SettledOr v paymentId r :=
    (settledOr_throughout_iff arrived start rest).mpr (meets.2 u first) after [] r
      (List.append_nil _).symm rest
  have accountable := run_accountable (run_append_iff.mpr ⟨u, arrived, rest⟩)
  rcases (step_settledOr stepped accountable last).mpr trivial with counted | settling
  · exact Or.inl counted
  · refine Or.inr ⟨?_, settling⟩
    rintro rfl
    obtain ⟨_, _, position⟩ := settling_iff.mp settling
    rw [step_reconcile env gateways completing rfl, Option.some.injEq] at stepped
    rw [← stepped, setReconciler_workers] at position
    cases position

/-- A pass has listed payment 11. -/
def passStarted : List Action := Sample.initiated ++ [.sweep 0 [Sample.waitingRow]]

/-- The insert of the settlement takes effect and reports a failure; the next pass, which
finds nothing to do, completes. -/
theorem failedLate_settled : ∃ s r t,
    run (step (Sample.env []) [Sample.waiting]) initial passStarted = some s ∧
    run (step (Sample.env []) [Sample.waiting]) s
      [.reconcile 0, .reconcileFailure 0 true, .sweep 0 []] = some r ∧
    step (Sample.env []) [Sample.waiting] r (.reconcile 0) = some t ∧
    (t.store.db.settlementCount 11 = 1 ∨ 0 ≠ 0 ∧ Settling 0 11 t) := by
  have checked : (run (step (Sample.env []) [Sample.waiting]) initial passStarted).map (fun s =>
      (s.moved (.reconcile 0), decide (Meets (step (Sample.env []) [Sample.waiting])
        (Uncut 0 11) s [.reconcile 0, .reconcileFailure 0 true, .sweep 0 []]),
        (run (step (Sample.env []) [Sample.waiting]) s
          [.reconcile 0, .reconcileFailure 0 true, .sweep 0 []]).map fun r =>
            ((r.workers 0).reconciler,
              (step (Sample.env []) [Sample.waiting] r (.reconcile 0)).isSome))) =
      some (some (0, 11), true, some (some (.pay []), true)) := by decide +kernel
  obtain ⟨s, started, facts⟩ := Option.map_eq_some_iff.mp checked
  simp only [Prod.mk.injEq, decide_eq_true_eq] at facts
  obtain ⟨moving, meets, facts⟩ := facts
  obtain ⟨r, reached, facts⟩ := Option.map_eq_some_iff.mp facts
  simp only [Prod.mk.injEq] at facts
  obtain ⟨t, stepped⟩ := Option.isSome_iff_exists.mp facts.2
  exact ⟨s, r, t, started, reached, stepped,
    run_completed_settled 0 0 11 started moving meets reached facts.1 stepped⟩

/-- The worker crashes after the update; the pass it makes on its next start completes and
the payment stays without a settlement. -/
theorem crash_loses_settlement :
    ¬ ∀ before a after v w paymentId s r t,
      run (step (Sample.env []) [Sample.waiting]) initial before = some s →
      s.moved a = some (v, paymentId) →
      run (step (Sample.env []) [Sample.waiting]) s (a :: after) = some r →
      (r.workers w).reconciler = some (.pay []) →
      step (Sample.env []) [Sample.waiting] r (.reconcile w) = some t →
      t.store.db.settlementCount paymentId = 1 ∨ v ≠ w ∧ Settling v paymentId t := by
  intro claim
  have checked : (run (step (Sample.env []) [Sample.waiting]) initial passStarted).map (fun s =>
      (s.moved (.reconcile 0), (run (step (Sample.env []) [Sample.waiting]) s
          [.reconcile 0, .crash 0, .sweep 0 []]).map fun r =>
            ((r.workers 0).reconciler,
              (step (Sample.env []) [Sample.waiting] r (.reconcile 0)).map fun t =>
                t.store.db.settlementCount 11))) =
      some (some (0, 11), some (some (.pay []), some 0)) := by decide +kernel
  obtain ⟨s, started, facts⟩ := Option.map_eq_some_iff.mp checked
  simp only [Prod.mk.injEq] at facts
  obtain ⟨moving, facts⟩ := facts
  obtain ⟨r, reached, facts⟩ := Option.map_eq_some_iff.mp facts
  simp only [Prod.mk.injEq] at facts
  obtain ⟨t, stepped, none⟩ := Option.map_eq_some_iff.mp facts.2
  rcases claim passStarted (.reconcile 0) [.crash 0, .sweep 0 []] 0 0 11 s r t started moving
    reached facts.1 stepped with counted | ⟨different, -⟩
  · omega
  · exact different rfl

end Services
end PaymentBackend
