import PaymentProcessing.Backend.Serial

/-! How long a pending payment can wait for the sweep. A pass lists at most 100 payments, but the
oldest ones first, so payments that are created later cannot hold one back. -/
namespace PaymentBackend
open Relational Transition

/-- The query of a pass selects the payment, and it was created by then. -/
def PaymentRow.waits (cutoff : Nat) (row : PaymentRow) : Bool :=
  row.status = .pending ∧ row.createdAt ≤ cutoff

/-- How many payments created by then are pending. -/
def Database.waiting (cutoff : Nat) (db : Database) : Nat := db.payments.countP (·.waits cutoff)

/-- The action lets a pass of worker `w` go on, and creates no payment by then. -/
def Action.lets (w cutoff : Nat) : Action → Bool
  | .crash v | .reconcileFailure v _ => v ≠ w
  | .initiatePayment _ _ createdAt _ => cutoff < createdAt
  | _ => true

/-- The worker begins a pass with this action. -/
def Action.sweeps (w : Nat) (a : Action) : Bool := a.sweeper = some w

namespace Database
variable {db : Database} {rows : List PaymentRow}

/-- A pass leaves out a hundred less of the payments created by then. -/
theorem PendingRead.missing (read : db.PendingRead rows) (cutoff : Nat) :
    db.payments.countP (fun p => p.waits cutoff && p.id ∉ rows.map PaymentRow.id) ≤
      db.waiting cutoff - 100 := by
  have left := (pendingRead_iff.mp read).countP_missing cutoff
  rw [List.countP_filter, List.countP_filter] at left
  have listed (p : PaymentRow) (present : p ∈ db.payments) :
      p.id ∈ rows.map PaymentRow.id ↔ p ∈ rows := by
    refine ⟨fun named => ?_, fun member => List.mem_map_of_mem member⟩
    obtain ⟨r, member, same⟩ := List.mem_map.mp named
    rwa [← db.paymentsKey.unique (read.2.2.1 r member).1 present same]
  have missing : db.payments.countP (fun p => p.waits cutoff && p.id ∉ rows.map PaymentRow.id) =
      db.payments.countP fun p => decide (p.createdAt ≤ cutoff ∧ p ∉ rows) &&
        decide (p.status = .pending) := by
    refine List.countP_congr fun p present => ?_
    simp only [PaymentRow.waits, Bool.and_eq_true, decide_eq_true_eq, listed p present]
    tauto
  have waiting : db.waiting cutoff =
      db.payments.countP fun p => decide (p.createdAt ≤ cutoff) && decide (p.status = .pending) := by
    refine List.countP_congr fun p _ => ?_
    simp only [PaymentRow.waits, Bool.and_eq_true, decide_eq_true_eq, and_comm]
  rwa [missing, waiting]

end Database

/-- The row that a request adds was created by that request. -/
theorem initiatePayment_row (env : Externals) (gateways : List PaymentGateway)
    (paymentId rowId : Uuid) (createdAt : Nat) (req : InitiatePaymentRequest) (s : Store) :
    ∃ new, ((initiatePayment env gateways paymentId rowId createdAt req).exec s).2.db.payments =
      s.db.payments ++ new ∧ ∀ row ∈ new, row.createdAt = createdAt := by
  obtain ⟨sessions, asked | ⟨session, db, -, inserted, stored⟩⟩ :=
    initiatePayment_store env gateways paymentId rowId createdAt req s
  · exact ⟨[], by rw [asked, List.append_nil], by simp⟩
  · rw [stored]
    exact ⟨[_], (Database.insertPayment_ok inserted).2.2.1, by simp⟩

namespace Services
variable {env : Externals} {gateways : List PaymentGateway} {s t : Services} {w cutoff : Nat}

/-- Payments have been made `SUCCESS` in between, or were created by the action. -/
def Outgrows (a : Action) (db db' : Database) : Prop :=
  ∃ later new, Advanced Database.setSuccess db.payments later ∧ db'.payments = later ++ new ∧
    ∀ row ∈ new, ∃ paymentId rowId req, a = .initiatePayment paymentId rowId row.createdAt req

theorem outgrows_of_eq {db db' : Database} (same : db'.payments = db.payments) : Outgrows a db db' :=
  ⟨_, [], .refl _ _, by rw [same, List.append_nil], by simp⟩

theorem outgrows_markSuccess (db : Database) (p o : Uuid) : Outgrows a db (db.markSuccess p o) :=
  ⟨_, [], advanced_updateWhere _ _ _, by rw [Database.markSuccess_payments, List.append_nil], by simp⟩

theorem outgrows_executes (executed : Executes env s.store handling u answer) :
    Outgrows a s.store.db u.db := by
  rcases executed.payments with ⟨payload, event, -, updated⟩ | ⟨-, same⟩
  · rw [updated]
    exact outgrows_markSuccess _ _ _
  · exact outgrows_of_eq same

theorem outgrows_settles (settled : Settles s.store reconciling u next) :
    Outgrows a s.store.db u.db := by
  rcases settled.payments with ⟨p, o, gateway, pending, -, updated⟩ | ⟨-, same⟩
  · rw [updated]
    exact outgrows_markSuccess _ _ _
  · exact outgrows_of_eq same

theorem step_outgrows (h : step env gateways s a = some t) : Outgrows a s.store.db t.store.db := by
  cases step_moves env gateways h with
  | request a u api effect =>
    cases a with
    | initiatePayment paymentId rowId createdAt req =>
      obtain ⟨new, added, created⟩ :=
        initiatePayment_row env gateways paymentId rowId createdAt req s.store
      simp only [step, Option.some.injEq] at h
      refine ⟨_, new, .refl _ _, ?_, fun row member => ⟨paymentId, rowId, req, ?_⟩⟩
      · rw [← h]
        exact added
      · rw [created row member]
    | createOrder orderId req =>
      simp only [step, Option.some.injEq] at h
      refine outgrows_of_eq ?_
      rw [← h]
      exact createOrder_payments env orderId req s.store
    | elapse n | receiveWebhook gateway event =>
      cases h
      exact outgrows_of_eq rfl
    | _ => cases api
  | statement w entry handling u answer current executed =>
    rw [proceed_store]
    exact outgrows_executes executed
  | failed w applied entry handling u current outcome =>
    rcases outcome with ⟨rfl, -⟩ | ⟨-, answer, executed⟩
    · exact outgrows_of_eq rfl
    · exact outgrows_executes (a := .failure w applied) executed
  | reconcile w reconciling u next current settled => exact outgrows_settles settled
  | abandoned w applied reconciling u current outcome =>
    rcases outcome with rfl | ⟨-, next, settled⟩
    · exact outgrows_of_eq rfl
    · exact outgrows_settles (a := .reconcileFailure w applied) settled
  | take w lastId entry payload rest processor => exact outgrows_of_eq (by simp)
  | _ => exact outgrows_of_eq rfl

/-- The payments created by then that are pending and that no pass of worker `w` has before it. -/
def unlisted (w cutoff : Nat) (s : Services) : Nat :=
  s.store.db.payments.countP fun p =>
    p.waits cutoff && p.id ∉ remaining (s.workers w).reconciler

theorem unlisted_le_waiting (w cutoff : Nat) (s : Services) :
    s.unlisted w cutoff ≤ s.store.db.waiting cutoff := by
  refine List.countP_mono_left fun p _ => ?_
  simp only [Bool.and_eq_true]
  exact And.left

theorem unlisted_of_idle (idle : (s.workers w).reconciler = none) :
    s.unlisted w cutoff = s.store.db.waiting cutoff := by
  simp [unlisted, Database.waiting, idle, remaining]

/-- No step brings the count up that leaves the payments a pass still has before it pending. -/
theorem unlisted_le (h : step env gateways s a = some t) (lets : a.lets w cutoff = true)
    (kept : ∀ p ∈ t.store.db.payments, p.status = .pending →
      p.id ∈ remaining (s.workers w).reconciler → p.id ∈ remaining (t.workers w).reconciler) :
    t.unlisted w cutoff ≤ s.unlisted w cutoff := by
  obtain ⟨later, new, advanced, same, created⟩ := step_outgrows h
  have late : new.countP (fun p =>
      p.waits cutoff && p.id ∉ remaining (t.workers w).reconciler) = 0 := by
    refine List.countP_eq_zero.mpr fun p member => ?_
    obtain ⟨paymentId, rowId, req, rfl⟩ := created p member
    simp only [Action.lets, decide_eq_true_eq] at lets
    simp [PaymentRow.waits]
    omega
  rw [unlisted, same, List.countP_append, late, Nat.add_zero]
  refine forall₂_countP_le advanced ?_
  rintro x y member (rfl | rfl) counted
  · simp only [PaymentRow.waits, Bool.and_eq_true, decide_eq_true_eq] at counted ⊢
    exact ⟨counted.1, fun listed => counted.2
      (kept y (same ▸ List.mem_append_left _ member) counted.1.1 listed)⟩
  · simp [PaymentRow.waits, Database.setSuccess] at counted

/-- A pass begins where the worker is in none. -/
theorem step_sweep (h : step env gateways s (.sweep w rows) = some t) :
    (s.workers w).reconciler = none ∧ t.store = s.store ∧
      (t.workers w).reconciler = some (.pay (rows.map PaymentRow.selected)) := by
  simp only [step] at h
  split at h
  · rename_i possible
    cases h
    exact ⟨possible.2, rfl, setReconciler_workers s w _⟩
  · cases h

theorem step_unlisted (h : step env gateways s a = some t) (sound : s.Sound env)
    (accountable : s.Accountable env) (lets : a.lets w cutoff = true) :
    t.unlisted w cutoff ≤ s.unlisted w cutoff - if a.sweeps w then 100 else 0 := by
  have moves := step_moves env gateways h
  cases moves.passStep w with
  | same same =>
    have other : a.sweeps w = false := by
      cases a with
      | sweep v rows =>
        have differs : v ≠ w := by
          rintro rfl
          obtain ⟨idle, -, started⟩ := step_sweep h
          cases (same.symm.trans started).symm.trans idle
        simpa [Action.sweeps, Action.sweeper] using differs
      | _ => rfl
    rw [other]
    exact unlisted_le h lets fun p present pending listed => by rwa [same]
  | swept rows action read started =>
    subst action
    obtain ⟨idle, store, -⟩ := step_sweep h
    have ids : remaining (t.workers w).reconciler = rows.map PaymentRow.id := by
      rw [started, remaining, Reconciling.ids, List.map_map]
      rfl
    have began : (Action.sweep w rows).sweeps w = true := decide_eq_true rfl
    rw [unlisted, ids, store, unlisted_of_idle idle, if_pos began]
    exact read.missing cutoff
  | answered r next action current =>
    subst action
    obtain ⟨next, u, stepped, passed, -⟩ := pass_progress gateways sound accountable current
    cases stepped.symm.trans h
    refine unlisted_le h lets fun p present pending listed => ?_
    rw [current] at listed
    rcases passed.left p.id listed with later | done
    · rwa [passed.position]
    · obtain ⟨⟨q, member, named, success, -⟩, -⟩ := done
      cases t.store.db.paymentsKey.unique member present named
      cases pending.symm.trans success
  | stopped stops =>
    rcases stops with rfl | ⟨applied, rfl⟩
    · simp [Action.lets] at lets
    · simp [Action.lets] at lets

theorem run_unlisted (reached : run (step env gateways) initial past = some s)
    (h : run (step env gateways) s schedule = some t) (lets : ∀ a ∈ schedule, a.lets w cutoff = true) :
    t.unlisted w cutoff ≤ s.unlisted w cutoff - 100 * schedule.countP (·.sweeps w) := by
  induction schedule generalizing past s with
  | nil =>
    cases h
    exact Nat.le_refl _
  | cons a rest ih =>
    obtain ⟨u, stepped, h⟩ := run_cons_iff.mp h
    have arrived := run_append_iff.mpr ⟨s, reached, run_cons_iff.mpr ⟨u, stepped, run_nil⟩⟩
    have first := step_unlisted stepped (run_sound reached) (run_accountable reached)
      (lets a List.mem_cons_self)
    have later := ih arrived h fun b member => lets b (List.mem_cons_of_mem a member)
    rw [List.countP_cons]
    cases began : a.sweeps w with
    | true =>
      simp only [began, if_true] at first ⊢
      omega
    | false =>
      simp only [began, Bool.false_eq_true, if_false] at first ⊢
      omega

theorem run_extends (h : run (step env gateways) s schedule = some t) : s.store.Extends t.store :=
  Transition.invariant (I := fun u => s.store.Extends u.store)
    (fun before stepped => before.trans (step_moves env gateways stepped).extends) (.refl _) h

/-- Where a worker's passes are not cut off, a payment with at most a hundred pending ones created
by then for each pass it begins is `SUCCESS` once the last of them has ended, however many
payments are created later. -/
theorem run_drains (env : Externals) (gateways : List PaymentGateway) (w : Nat)
    (past schedule : List Action) (s t : Services) (p : PaymentRow)
    (reached : run (step env gateways) initial past = some s)
    (h : run (step env gateways) s schedule = some t)
    (lets : ∀ a ∈ schedule, a.lets w p.createdAt = true) (present : p ∈ s.store.db.payments)
    (pending : p.status = .pending)
    (few : s.store.db.waiting p.createdAt ≤ 100 * schedule.countP (·.sweeps w))
    (idle : (t.workers w).reconciler = none) : t.store.db.Succeeded p.id := by
  have bound := run_unlisted reached h lets
  have start := unlisted_le_waiting w p.createdAt s
  have none_waits : t.store.db.waiting p.createdAt = 0 := by
    rw [← unlisted_of_idle idle]
    omega
  rcases (run_extends h).db.payments p present with kept | paid
  · have waits : p.waits p.createdAt = true := by simp [PaymentRow.waits, pending]
    exact absurd waits (List.countP_eq_zero.mp none_waits p kept)
  · exact ⟨_, paid, rfl, rfl⟩

set_option maxRecDepth 8000 in
/-- The only payment of the table is drained by one pass. -/
theorem waitingRow_drained : ∃ s t,
    run (step (Sample.env []) [Sample.waiting]) initial Sample.initiated = some s ∧
    run (step (Sample.env []) [Sample.waiting]) s [.sweep 0 [Sample.waitingRow],
      .initiatePayment 12 13 1 ⟨1, .upi⟩, .reconcile 0, .reconcile 0, .reconcile 0] = some t ∧
    t.store.db.Succeeded Sample.waitingRow.id := by
  obtain ⟨s, reached⟩ := Option.isSome_iff_exists.mp
    (show (run (step (Sample.env []) [Sample.waiting]) initial Sample.initiated).isSome by decide)
  have facts : (run (step (Sample.env []) [Sample.waiting]) initial Sample.initiated).map (fun s =>
      (s.store.db.payments, (run (step (Sample.env []) [Sample.waiting]) s
        [.sweep 0 [Sample.waitingRow], .initiatePayment 12 13 1 ⟨1, .upi⟩, .reconcile 0,
          .reconcile 0, .reconcile 0]).map fun t => (t.workers 0).reconciler)) =
      some ([Sample.waitingRow], some none) := by decide
  rw [reached, Option.map_some, Option.some.injEq, Prod.mk.injEq] at facts
  obtain ⟨t, h, idle⟩ := Option.map_eq_some_iff.mp facts.2
  refine ⟨s, t, reached, h, run_drains _ _ 0 Sample.initiated _ s t Sample.waitingRow reached h
    (by decide) ?_ rfl ?_ idle⟩
  · rw [facts.1]
    exact List.mem_singleton_self _
  · rw [Database.waiting, facts.1]
    decide

end Services
end PaymentBackend
