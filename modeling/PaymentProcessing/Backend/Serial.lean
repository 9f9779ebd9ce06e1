import PaymentProcessing.Backend.Passes

/-! Any interleaving of reconciliation passes against a run in which each pass runs alone,
from the moment at which the interleaved one reads its list. The second run is always
ahead of the first, and what it has reconciled in advance is what the passes of the
first have still to do. -/
namespace PaymentBackend
open Relational Transition

/-- The worker that begins a pass. -/
def Action.sweeper : Action → Option Nat
  | .sweep w _ => some w
  | _ => none

/-- The actions of reconciliation passes. -/
def Action.passes : Action → Bool
  | .sweep _ _ | .reconcile _ | .reconcileFailure _ _ => true
  | _ => false

/-- Some pass has listed the payment. -/
def ListedBy (schedule : List Action) (paymentId : Uuid) : Prop :=
  ∃ a ∈ schedule, paymentId ∈ a.lists

theorem listedBy_append : ListedBy (first ++ second) p ↔ ListedBy first p ∨ ListedBy second p := by
  simp only [ListedBy, List.mem_append, or_and_right, exists_or]

/-- An action that lists nothing. -/
theorem listedBy_concat (quiet : a.lists = []) :
    ListedBy (schedule ++ [a]) p ↔ ListedBy schedule p := by
  rw [listedBy_append, or_iff_left]
  rintro ⟨b, member, lists⟩
  rw [List.mem_singleton.mp member, quiet] at lists
  cases lists

theorem Action.lists_eq_nil {a : Action} (other : a.passes = false) : a.lists = [] := by
  cases a with
  | sweep => cases other
  | _ => rfl

theorem listedBy_pass : ListedBy (.sweep w rows :: List.replicate n (.reconcile w)) p ↔
    p ∈ rows.map PaymentRow.id := by
  constructor
  · rintro ⟨a, member, lists⟩
    rcases List.mem_cons.mp member with rfl | later
    · exact lists
    · rw [List.eq_of_mem_replicate later] at lists
      cases lists
  · intro lists
    exact ⟨_, List.mem_cons_self, lists⟩

namespace Database
variable {db db' x y : Database}

/-- What `y` has beyond `db'`, `x` has too. -/
structure Alike (db' x y : Database) : Prop where
  payments : ∀ p, y.Succeeded p → db'.Succeeded p ∨ x.Succeeded p
  orders : ∀ o, y.Paid o → db'.Paid o ∨ x.Paid o
  settlements : y.settlements = db'.settlements

theorem Alike.of_eq (orders : y.orders = db'.orders) (payments : y.payments = db'.payments)
    (settlements : y.settlements = db'.settlements) : Alike db' x y :=
  ⟨fun _ h => Or.inl (by simpa only [Succeeded, payments] using h),
    fun _ h => Or.inl (by simpa only [Paid, orders] using h), settlements⟩

/-- The same work on both sides leaves the difference where it was. -/
theorem Within.alike {listed : Uuid → Prop} (within : Within listed db db') (left : db.Grows x)
    (right : db'.Grows y) (alike : Alike db' x y) : Within listed x y := by
  refine ⟨fun p success => ?_, fun o paid => ?_, fun r member => ?_⟩
  · rcases alike.payments p success with before | now
    · exact (within.payments p before).imp_left left.succeeded
    · exact Or.inl now
  · rcases alike.orders o paid with before | now
    · exact (within.orders o before).imp left.paid
        fun ⟨p, known, own⟩ => ⟨p, known, right.belongs own⟩
    · exact Or.inl now
  · rw [alike.settlements] at member
    exact (within.settlements r member).imp_left fun ⟨r', member', same⟩ =>
      ⟨r', left.settlements member', same⟩

end Database

theorem ApiEffect.alike {s t : Store} (h : ApiEffect s t) (x : Database) :
    Database.Alike s.db x t.db := by
  cases h with
  | answered => exact .of_eq rfl rfl rfl
  | order pending inserted =>
    obtain ⟨-, orders, payments, -, settlements⟩ := Database.insertOrder_ok inserted
    refine ⟨fun _ h => Or.inl (by simpa only [Database.Succeeded, payments] using h), ?_, settlements⟩
    rintro o ⟨row, member, named, paid⟩
    rw [show _ = _ from orders, List.mem_append, List.mem_singleton] at member
    rcases member with old | rfl
    · exact Or.inl ⟨row, old, named, paid⟩
    · cases pending.symm.trans paid
  | payment _ pending inserted =>
    obtain ⟨-, orders, payments, -, settlements⟩ := Database.insertPayment_ok inserted
    refine ⟨?_, fun _ h => Or.inl (by simpa only [Database.Paid, orders] using h), settlements⟩
    rintro p ⟨row, member, named, success⟩
    rw [show _ = _ from payments, List.mem_append, List.mem_singleton] at member
    rcases member with old | rfl
    · exact Or.inl ⟨row, old, named, success⟩
    · cases pending.symm.trans success

theorem Executes.orders {s t : Store} (h : Executes env s handling t answer)
    (other : ∀ payload event, handling ≠ .pay payload event) : t.db.orders = s.db.orders := by
  cases h with
  | recorded _ inserted | logged _ inserted => exact (Database.insertTransaction_ok inserted).1
  | paid => exact absurd rfl (other _ _)
  | _ => rfl

/-- A statement of `handle_event` executed on both sides. -/
theorem handling_alike (env : Externals) (handling : Handling) {s u : Store} (ahead : s.Ahead u) :
    Database.Alike u.db ((handling.next env).exec s).2.db ((handling.next env).exec u).2.db := by
  have left := executes_next env s handling
  have right := executes_next env u handling
  obtain ⟨db, ahead, rfl⟩ := ahead
  rcases right.payments with ⟨payload, event, rfl, updated⟩ | ⟨other, same⟩
  · rw [left.pays, updated]
    refine ⟨fun p success => ?_, fun o paid => ?_, rfl⟩
    · refine ((Database.markSuccess_succeeded _ _ _).mp success).imp_right fun ⟨named, row⟩ => ?_
      exact (Database.markSuccess_succeeded _ _ _).mpr
        (Or.inr ⟨named, (Database.exists_congr_of_map ahead.payment_ids _).mp row⟩)
    · refine ((Database.markSuccess_paid _ _ _).mp paid).imp_right fun ⟨named, row⟩ => ?_
      exact (Database.markSuccess_paid _ _ _).mpr
        (Or.inr ⟨named, (Database.exists_congr_of_map ahead.order_ids _).mp row⟩)
  · exact .of_eq (right.orders other) same right.settlements

namespace Services
variable {env : Externals} {gateways : List PaymentGateway} {s t u v : Services} {w : Nat}

/-- The state `u` of the run whose passes run alone is ahead of the interleaved one, in the
payments that its passes have listed; every payment that a pass of `s` has still to
reconcile is reconciled in it. -/
structure Behind (listed : Uuid → Prop) (s u : Services) : Prop where
  store : s.store.Ahead u.store
  processors : ∀ w, (u.workers w).processor = (s.workers w).processor
  idle : ∀ w, (u.workers w).reconciler = none
  ahead : ∀ w r, (s.workers w).reconciler = some r → ∀ p ∈ r.ids, u.store.db.Reconciled p
  within : Database.Within listed s.store.db u.store.db
  reconciled : ∀ p, listed p → u.store.db.Reconciled p

variable {listed : Uuid → Prop}

theorem Behind.congr {listed' : Uuid → Prop} (behind : Behind listed s u)
    (same : ∀ p, listed p ↔ listed' p) : Behind listed' s u :=
  ⟨behind.store, behind.processors, behind.idle, behind.ahead,
    behind.within.mono fun p known => (same p).mp known,
    fun p known => behind.reconciled p ((same p).mpr known)⟩

theorem initial_behind : Behind (ListedBy []) initial initial where
  store := ⟨.empty, .refl _, rfl⟩
  processors _ := rfl
  idle _ := rfl
  ahead w r current := by cases current
  within := .refl _ _
  reconciled := by
    rintro p ⟨a, member, -⟩
    cases member

/-- A statement of an interleaved pass does what the other run has behind it. -/
theorem reconcile_behind (behind : Behind listed s u) (sound : s.Sound env)
    (accountable : s.Accountable env) (h : step env gateways s (.reconcile w) = some t) :
    Behind listed t u := by
  have moves := step_moves env gateways h
  cases position : (s.workers w).reconciler with
  | none => simp [step, position] at h
  | some r =>
    obtain ⟨next, v, stepped, passed, -⟩ := pass_progress gateways sound accountable position
    cases stepped.symm.trans h
    have reconciled := behind.ahead w r position
    refine ⟨?_, fun x => ?_, behind.idle, fun x r' current p member => ?_,
      behind.within.alike passed.grows (.refl _) (.of_eq rfl rfl rfl), behind.reconciled⟩
    · cases moves with
      | request _ _ api => cases api
      | reconcile w reconciling x next' current settled =>
        cases position.symm.trans current
        exact settled.behind behind.store ((sound.workers w).pending _ current) reconciled
    · rw [passed.processors, behind.processors]
    · by_cases same : x = w
      · subst same
        have continues : next = some r' := passed.position.symm.trans current
        refine reconciled p (passed.fewer ?_)
        rw [continues]
        exact member
      · rw [passed.others x same] at current
        exact behind.ahead x r' current p member

theorem setProcessor_processor (s : Services) (w : Nat) (p : Processor) (x : Nat) :
    ((s.setProcessor w p).workers x).processor = if x = w then p else (s.workers x).processor := by
  by_cases same : x = w
  · subst same
    simp [setProcessor, setWorker]
  · simp [setProcessor, setWorker, same]

/-- The same position of `process_webhooks` on both sides. -/
theorem Behind.setProcessor (behind : Behind listed s u) (w : Nat) (p : Processor) :
    Behind listed (s.setProcessor w p) (u.setProcessor w p) where
  store := behind.store
  processors x := by rw [setProcessor_processor, setProcessor_processor, behind.processors]
  idle x := (pass_setProcessor u w p x).trans (behind.idle x)
  ahead x r current := behind.ahead x r ((pass_setProcessor s w p x).symm.trans current)
  within := behind.within
  reconciled := behind.reconciled

theorem Behind.noteSeen (behind : Behind listed s u) (payload : String) :
    Behind listed (s.noteSeen env payload) (u.noteSeen env payload) := by
  constructor
  · simpa only [noteSeen_store] using behind.store
  · simpa only [noteSeen_workers] using behind.processors
  · simpa only [noteSeen_workers] using behind.idle
  · simpa only [noteSeen_workers, noteSeen_store] using behind.ahead
  · simpa only [noteSeen_store] using behind.within
  · simpa only [noteSeen_store] using behind.reconciled

theorem Behind.proceed (behind : Behind listed s u) (w entry : Nat) (next : Option Handling) :
    Behind listed (s.proceed w entry next) (u.proceed w entry next) := by
  cases next with
  | none =>
    simp only [Services.proceed, finish, behind.processors]
    exact behind.setProcessor w _
  | some following =>
    simp only [Services.proceed, behind.processors]
    exact behind.setProcessor w _

/-- Work that is no reconciliation, done on both sides. -/
theorem Behind.withStore (behind : Behind listed s u) {x y : Store} (ahead : x.Ahead y)
    (left : s.store.db.Grows x.db) (right : u.store.db.Grows y.db)
    (alike : Database.Alike u.store.db x.db y.db) :
    Behind listed (s.withStore x) (u.withStore y) where
  store := ahead
  processors := behind.processors
  idle := behind.idle
  ahead w r current p member := right.reconciled (behind.ahead w r current p member)
  within := behind.within.alike left right alike
  reconciled p known := right.reconciled (behind.reconciled p known)

theorem handling_behind (behind : Behind listed s u) (handling : Handling) :
    Behind listed (s.withStore ((handling.next env).exec s.store).2)
      (u.withStore ((handling.next env).exec u.store).2) :=
  behind.withStore (relates_handling env handling _ _ behind.store).2
    (executes_next env s.store handling).grows (executes_next env u.store handling).grows
    (handling_alike env handling behind.store)

theorem api_behind (behind : Behind listed s u) {x : Effect Store ApiError α}
    (related : Effect.Relates Store.Ahead x) (effect : ∀ s, ApiEffect s (x.exec s).2) :
    Behind listed (s.withStore (x.exec s.store).2) (u.withStore (x.exec u.store).2) :=
  behind.withStore (related _ _ behind.store).2 (effect _).grows (effect _).grows
    ((effect _).alike _)

/-- What is no reconciliation goes the same way on both sides. -/
theorem step_behind (behind : Behind listed s u) (h : step env gateways s a = some t)
    (faultless : a.faultless = true) (other : a.passes = false) :
    ∃ v, step env gateways u a = some v ∧ Behind listed t v := by
  cases a with
  | elapse n =>
    cases h
    obtain ⟨db, ahead, equal⟩ := behind.store
    refine ⟨_, rfl, behind.withStore ⟨db, ahead, ?_⟩ (.refl _) (.refl _) (.of_eq rfl rfl rfl)⟩
    rw [equal]
  | createOrder orderId req =>
    cases h
    exact ⟨_, rfl, api_behind behind (relates_createOrder env orderId req)
      (createOrder_effect env orderId req)⟩
  | initiatePayment paymentId rowId createdAt req =>
    cases h
    exact ⟨_, rfl, api_behind behind (relates_initiatePayment env gateways _ _ _ _)
      (initiatePayment_effect env gateways _ _ _ _)⟩
  | receiveWebhook gateway event =>
    cases h
    refine ⟨_, rfl, behind.withStore (relates_receiveWebhook env gateway event _ _ behind.store).2
      (.refl _) (.refl _) (.of_eq rfl rfl rfl)⟩
  | read w =>
    obtain ⟨db, ahead, equal⟩ := behind.store
    simp only [step, behind.processors] at h ⊢
    split at h
    · rename_i waiting
      cases h
      rw [if_pos waiting]
      refine ⟨_, rfl, ?_⟩
      rw [equal]
      exact behind.setProcessor w _
    · cases h
  | take w =>
    cases position : (s.workers w).processor with
    | mk lastId batch current =>
      have position' := (behind.processors w).trans position
      cases batch with
      | nil => simp [step, position] at h
      | cons event rest =>
        cases current with
        | some call => simp [step, position] at h
        | none =>
          simp only [step, position, position', Option.some.injEq] at h ⊢
          subst h
          exact ⟨_, rfl, (behind.setProcessor w _).noteSeen event.2⟩
  | statement w =>
    cases position : (s.workers w).processor.current with
    | none => simp [step, position] at h
    | some call =>
      obtain ⟨entry, handling⟩ := call
      have position' : (u.workers w).processor.current = some (entry, handling) := by
        rw [behind.processors]
        exact position
      have left := step_statement gateways position (executes_next env s.store handling)
      have right := step_statement gateways position' (executes_next env u.store handling)
      cases left.symm.trans h
      rw [← (relates_handling env handling _ _ behind.store).1] at right
      exact ⟨_, right, (handling_behind behind handling).proceed w entry _⟩
  | failure _ _ | crash _ | reconcileFailure _ _ => cases faultless
  | sweep _ _ | reconcile _ => cases other

/-- While a pass is under way, nothing but that pass moves. -/
def Alone (s : Services) (a : Action) : Prop :=
  ∀ w, (s.workers w).reconciler ≠ none → a = .reconcile w

theorem alone_of_idle (idle : ∀ w, (s.workers w).reconciler = none) : Alone s a :=
  fun w busy => absurd (idle w) busy

/-- A pass that is the only one runs alone. -/
theorem alone_replicate (others : ∀ x ≠ w, (s.workers x).reconciler = none) (n : Nat) :
    Meets (step env gateways) Alone s (List.replicate n (.reconcile w)) := by
  induction n generalizing s with
  | zero => trivial
  | succ n ih =>
    refine ⟨fun x busy => ?_, fun t stepped => ih fun x other => ?_⟩
    · by_cases same : x = w
      · rw [same]
      · exact absurd (others x same) busy
    · cases (step_moves env gateways stepped).passStep x with
      | same kept => exact kept.trans (others x other)
      | swept _ action => cases action
      | answered r next action current => cases (others x other).symm.trans current
      | stopped action ended => exact ended

/-- The rows that a pass would read if it were not limited to 100. -/
def Unlimited (s : Services) (a : Action) : Prop :=
  match a with
  | .sweep _ rows => ∀ p ∈ s.store.db.payments, p.status = .pending → p ∈ rows
  | _ => True

/-- Where the interleaved run reads a list, the other one makes a whole pass. -/
theorem sweep_behind (behind : Behind (ListedBy serial) s u)
    (reached : run (step env gateways) initial serial = some u)
    (h : step env gateways s (.sweep w rows) = some t) : ∃ rows' n v,
      let pass := .sweep w rows' :: List.replicate n (.reconcile w)
      run (step env gateways) u pass = some v ∧ Meets (step env gateways) Alone u pass ∧
        Behind (ListedBy (serial ++ pass)) t v ∧ u.store.db.Grows v.store.db ∧
        (∀ r ∈ rows, v.store.db.Reconciled r.id) ∧ (Unlimited s (.sweep w rows) → rows' ⊆ rows) := by
  obtain ⟨db, ahead, equal⟩ := behind.store
  have same : u.store.db = db := by rw [equal]
  rw [← same] at ahead
  cases step_moves env gateways h with
  | request _ _ api => cases api
  | sweep w rows read =>
    obtain ⟨rows', read', wanted⟩ := ahead.pendingRead read
    let u₁ := u.setReconciler w (some (.pay (rows'.map PaymentRow.selected)))
    have started : step env gateways u (.sweep w rows') = some u₁ := by
      simp only [step, if_pos (show _ ∧ _ from ⟨read', behind.idle w⟩), u₁]
    have arrived := run_append_iff.mpr ⟨u, reached, run_cons_iff.mpr ⟨u₁, started, run_nil⟩⟩
    obtain ⟨v, passed, moves⟩ := run_pass arrived (setReconciler_workers u w _)
    have ids : (Reconciling.pay (rows'.map PaymentRow.selected)).ids = rows'.map PaymentRow.id := by
      rw [Reconciling.ids, List.map_map]
      rfl
    have done (p : Uuid) (member : p ∈ rows'.map PaymentRow.id) : v.store.db.Reconciled p :=
      (moves.left p (ids ▸ member)).resolve_left List.not_mem_nil
    have covered (r : PaymentRow) (member : r ∈ rows) : v.store.db.Reconciled r.id := by
      obtain ⟨present, status⟩ := read.2.2.1 r member
      rcases ahead.payments.mem_of present with kept | success
      · exact done r.id (List.mem_map_of_mem (wanted r member kept))
      · rcases behind.within.payments r.id ⟨_, success, rfl, rfl⟩ with before | known
        · cases status.symm.trans (before.status present rfl)
        · exact moves.grows.reconciled (behind.reconciled r.id known)
    have others (x) (other : x ≠ w) : (u₁.workers x).reconciler = none :=
      ((pass_setReconciler u w _ x).trans (if_neg other)).trans (behind.idle x)
    refine ⟨rows', _, v, run_cons_iff.mpr ⟨u₁, started, passed⟩,
      .cons (alone_of_idle behind.idle) started (alone_replicate others _), ?_,
      moves.grows, covered, ?_⟩
    · refine ⟨behind.store.trans moves.store, fun x => ?_, fun x => ?_, fun x r current p member => ?_,
        ?_, fun p known => ?_⟩
      · rw [moves.processors, setReconciler_processor, setReconciler_processor, behind.processors]
      · by_cases same : x = w
        · rw [same]
          exact moves.position
        · rw [moves.others x same]
          exact others x same
      · rw [pass_setReconciler] at current
        split at current
        · cases current
          rw [Reconciling.ids, List.map_map] at member
          obtain ⟨row, inside, rfl⟩ := List.mem_map.mp member
          exact covered row inside
        · exact moves.grows.reconciled (behind.ahead x r current p member)
      · refine (behind.within.mono fun p known => ?_).trans (moves.within.mono fun p member => ?_)
          moves.grows
        · exact listedBy_append.mpr (Or.inl known)
        · exact listedBy_append.mpr (Or.inr (listedBy_pass.mpr (ids ▸ member)))
      · rcases listedBy_append.mp known with old | new
        · exact moves.grows.reconciled (behind.reconciled p old)
        · exact done p (listedBy_pass.mp new)
    · intro unlimited r member
      obtain ⟨present, status⟩ := read'.2.2.1 r member
      obtain ⟨p, inside, rfl | rfl⟩ := ahead.payments.mem present
      · exact unlimited _ inside status
      · cases status

/-- A run of the same other work and of as many passes, by the same workers and in the same
order, each of which runs alone. -/
structure Serializes (env : Externals) (gateways : List PaymentGateway) (schedule serial : List Action)
    (u : Services) : Prop where
  reached : run (step env gateways) initial serial = some u
  alone : Meets (step env gateways) Alone initial serial
  idle : ∀ w, (u.workers w).reconciler = none
  work : serial.filter (! ·.passes) = schedule.filter (! ·.passes)
  sweeps : serial.filterMap Action.sweeper = schedule.filterMap Action.sweeper

theorem filter_pass (w : Nat) (rows : List PaymentRow) (n : Nat) :
    (Action.sweep w rows :: List.replicate n (.reconcile w)).filter (! ·.passes) = [] ∧
      (Action.sweep w rows :: List.replicate n (.reconcile w)).filterMap Action.sweeper = [w] := by
  have quiet : ∀ a ∈ List.replicate n (Action.reconcile w), a.passes = true ∧ a.sweeper = none := by
    intro a member
    rw [List.eq_of_mem_replicate member]
    exact ⟨rfl, rfl⟩
  refine ⟨List.filter_eq_nil_iff.mpr fun a member => ?_, ?_⟩
  · rcases List.mem_cons.mp member with rfl | later
    · simp [Action.passes]
    · simp [(quiet a later).1]
  · have rest : (List.replicate n (Action.reconcile w)).filterMap Action.sweeper = [] :=
      List.filterMap_eq_nil_iff.mpr fun a member => (quiet a member).2
    rw [List.filterMap_cons, rest]
    rfl

theorem Serializes.append {more : List Action} (serializes : Serializes env gateways past serial u)
    (ran : run (step env gateways) u more = some v) (alone : Meets (step env gateways) Alone u more)
    (idle : ∀ w, (v.workers w).reconciler = none)
    (work : more.filter (! ·.passes) = [a].filter (! ·.passes))
    (sweeps : more.filterMap Action.sweeper = [a].filterMap Action.sweeper) :
    Serializes env gateways (past ++ [a]) (serial ++ more) v where
  reached := run_append_iff.mpr ⟨u, serializes.reached, ran⟩
  alone := serializes.alone.append serializes.reached alone
  idle := idle
  work := by rw [List.filter_append, List.filter_append, serializes.work, work]
  sweeps := by rw [List.filterMap_append, List.filterMap_append, serializes.sweeps, sweeps]

/-- Every interleaving of passes has a run to compare it with. -/
theorem run_serializes (faultless : ∀ a ∈ schedule, a.faultless = true)
    (h : run (step env gateways) initial schedule = some t) : ∃ serial u,
      Serializes env gateways schedule serial u ∧ Behind (ListedBy serial) t u ∧
        (∀ p, ListedBy schedule p → u.store.db.Reconciled p) ∧
        (Meets (step env gateways) Unlimited initial schedule →
          ∀ p, ListedBy serial p → ListedBy schedule p) := by
  induction schedule using List.reverseRecOn generalizing t with
  | nil =>
    cases h
    refine ⟨[], initial, ⟨rfl, trivial, fun _ => rfl, rfl, rfl⟩, initial_behind, ?_, fun _ _ h => h⟩
    rintro p ⟨a, member, -⟩
    cases member
  | append_singleton past a ih =>
    obtain ⟨s, before, last⟩ := run_append_iff.mp h
    obtain ⟨t', stepped, done⟩ := run_cons_iff.mp last
    cases done
    obtain ⟨serial, u, serializes, behind, covered, fair⟩ :=
      ih (fun b member => faultless b (List.mem_append_left _ member)) before
    have calm := faultless a (List.mem_append_right _ List.mem_cons_self)
    by_cases other : a.passes = false
    · have quiet := Action.lists_eq_nil other
      obtain ⟨v, followed, after⟩ := step_behind behind stepped calm other
      refine ⟨serial ++ [a], v, serializes.append (run_cons_iff.mpr ⟨v, followed, rfl⟩)
        (.cons (alone_of_idle behind.idle) followed trivial) after.idle rfl rfl,
        after.congr fun p => (listedBy_concat quiet).symm, fun p known => ?_,
        fun unlimited p known => ?_⟩
      · have old := covered p ((listedBy_concat quiet).mp known)
        exact (step_moves env gateways followed).extends.db.reconciled old
      · have old := fair (unlimited.split before).1 p ((listedBy_concat quiet).mp known)
        exact (listedBy_concat quiet).mpr old
    · cases a with
      | sweep w rows =>
        obtain ⟨rows', n, v, ran, alone, after, grows, listed, fewer⟩ :=
          sweep_behind behind serializes.reached stepped
        obtain ⟨work, sweeps⟩ := filter_pass w rows' n
        refine ⟨_, v, serializes.append ran alone after.idle work sweeps, after, fun p known => ?_,
          fun unlimited p known => listedBy_append.mpr ?_⟩
        · rcases listedBy_append.mp known with old | new
          · exact grows.reconciled (covered p old)
          · obtain ⟨row, member, rfl⟩ := List.mem_map.mp (listedBy_pass (n := 0).mp new)
            exact listed row member
        · rcases listedBy_append.mp known with old | new
          · exact Or.inl (fair (unlimited.split before).1 p old)
          · obtain ⟨row, member, rfl⟩ := List.mem_map.mp (listedBy_pass.mp new)
            exact Or.inr ⟨_, List.mem_cons_self,
              List.mem_map_of_mem (fewer (unlimited.last before).2 member)⟩
      | reconcile w =>
        have state := run_accountable before
        refine ⟨serial, u, ?_, reconcile_behind behind (run_sound before) state stepped,
          fun p known => covered p ((listedBy_concat rfl).mp known), fun unlimited p known =>
            (listedBy_concat rfl).mpr (fair (unlimited.split before).1 p known)⟩
        have appended : Serializes env gateways (past ++ [.reconcile w]) (serial ++ []) u :=
          serializes.append rfl trivial behind.idle rfl rfl
        rwa [List.append_nil] at appended
      | reconcileFailure w applied => cases calm
      | _ => exact absurd rfl other

theorem run_covered (faultless : ∀ a ∈ schedule, a.faultless = true)
    (h : run (step env gateways) initial schedule = some t) : Covered schedule t := by
  refine history_of_meets (I := Covered) (C := fun _ a => a.faultless = true)
    (fun reached before calm stepped => ?_) ?_ (.of_forall faultless initial) h
  · exact step_covered stepped (run_sound reached) (run_accountable reached) calm before
  · rintro p ⟨a, member, -⟩
    cases member

/-- When no pass is under way, every payment listed so far is reconciled. -/
theorem Covered.reconciled (covered : Covered schedule t)
    (ended : ∀ w, (t.workers w).reconciler = none) (listed : ListedBy schedule p) :
    t.store.db.Reconciled p := by
  rcases covered p listed with done | ⟨w, r, current, -⟩
  · exact done
  · cases (ended w).symm.trans current

end Services

namespace Database
variable {db db' : Database} {p o : Uuid}

/-- The rows that reconciliation of the payment is about are the same in both databases. -/
structure SameOutcome (db db' : Database) (p : Uuid) : Prop where
  payment : db'.payments.filter (·.id = p) = db.payments.filter (·.id = p)
  order : ∀ o, db.Belongs p o → db'.orders.filter (·.id = o) = db.orders.filter (·.id = o)
  refs : db'.settlementRefs p = db.settlementRefs p

theorem Reconciled.count (reconciled : db.Reconciled p) (referenced : db.Referenced) :
    db.settlementCount p = 1 :=
  referenced.count_eq_one.mpr reconciled.2

/-- No payment has another order in a database that is ahead. -/
theorem Ahead.belongs (ahead : db.Ahead db') (own : db'.Belongs p o) : db.Belongs p o := by
  obtain ⟨row, member, named, own⟩ := own
  obtain ⟨before, present, rfl | rfl⟩ := ahead.payments.mem member
  · exact ⟨row, present, named, own⟩
  · exact ⟨before, present, named, own⟩

/-- What is reconciled is the same in any database ahead. -/
theorem Ahead.sameOutcome (ahead : db.Ahead db') (left : db.Referenced) (right : db'.Referenced)
    (here : db.Reconciled p) (there : db'.Reconciled p) : SameOutcome db db' p := by
  obtain ⟨row, member, named, success, order, paid, own, status⟩ := here.1
  refine ⟨ahead.payments.filter_eq _ (fun _ => rfl) fun x inside _ hit => ?_, fun o belongs =>
    ahead.orders.filter_eq _ (fun _ => rfl) fun x inside _ hit => ?_, ?_⟩
  · have same : x = row := db.paymentsKey.unique inside member (by simpa [named] using hit)
    rw [same, setSuccess, ← success]
  · obtain ⟨row', member', named', own'⟩ := belongs
    have first : row' = row := db.paymentsKey.unique member' member (named'.trans named.symm)
    have same : x = order := by
      refine db.ordersKey.unique inside paid ?_
      rw [own, ← first, own']
      exact of_decide_eq_true hit
    rw [same, setPaid, ← status]
  · rw [right.refs, left.refs, there.count right, here.count left]

/-- Where all that one database has beyond the other is reconciled in the other, the
two hold the same statuses and references. -/
theorem Ahead.same (ahead : db.Ahead db') {listed : Uuid → Prop} (within : Within listed db db')
    (left : db.Referenced) (right : db'.Referenced) (done : ∀ p, listed p → db.Reconciled p) :
    db'.payments = db.payments ∧ db'.orders = db.orders ∧
      ∀ p, db'.settlementRefs p = db.settlementRefs p := by
  refine ⟨?_, ?_, fun p => ?_⟩
  · have every := ahead.payments.filter_eq (fun _ => true) (fun _ => rfl) fun x inside moved _ => ?_
    · simpa only [List.filter_true] using every
    · have success : db.Succeeded x.id := by
        rcases within.payments x.id ⟨_, moved, rfl, rfl⟩ with before | known
        · exact before
        · obtain ⟨row, member, named, status, -⟩ := (done x.id known).1
          exact ⟨row, member, named, status⟩
      rw [setSuccess, ← success.status inside rfl]
  · have every := ahead.orders.filter_eq (fun _ => true) (fun _ => rfl) fun x inside moved _ => ?_
    · simpa only [List.filter_true] using every
    · have paid : db.Paid x.id := by
        rcases within.orders x.id ⟨_, moved, rfl, rfl⟩ with before | ⟨p, known, own⟩
        · exact before
        · obtain ⟨row, member, named, -, paid⟩ := (done p known).1
          obtain ⟨row', member', named', own'⟩ := ahead.belongs own
          rw [db.paymentsKey.unique member member' (named.trans named'.symm), own'] at paid
          exact paid
      obtain ⟨o, member, named, status⟩ := paid
      rw [setPaid, ← status, db.ordersKey.unique inside member named.symm]
  · have known : (∃ r ∈ db'.settlements, r.paymentId = p) ↔ ∃ r ∈ db.settlements, r.paymentId = p := by
      constructor
      · rintro ⟨r, member, rfl⟩
        rcases within.settlements r member with before | listed
        · exact before
        · exact (done r.paymentId listed).2
      · rintro ⟨r, member, rfl⟩
        exact ahead.settlements r member
    rw [← right.count_eq_one, ← left.count_eq_one] at known
    have fewer := left.count_le_one p
    have fewer' := right.count_le_one p
    rw [right.refs, left.refs, show db'.settlementCount p = db.settlementCount p by omega]

end Database

namespace Services
variable {env : Externals} {gateways : List PaymentGateway} {t : Services}

/-- Passes may run at the same time. Without failures no payment ever gets a second
settlements row, and once all passes have ended, the payments they had listed are
reconciled, with the outcome of passes that run one after another. Those may list fewer of
the other payments, unless no list had to be cut at its limit. -/
theorem run_passes_serialize (faultless : ∀ a ∈ schedule, a.faultless = true)
    (h : run (step env gateways) initial schedule = some t) :
    Throughout (step env gateways) (fun s => ∀ p, s.store.db.settlementCount p ≤ 1) initial
        schedule ∧
      ((∀ w, (t.workers w).reconciler = none) →
        (∀ p, ListedBy schedule p → t.store.db.Settled p ∧ t.store.db.settlementCount p = 1 ∧
          t.store.db.settlementRefs p = [settlementRef p]) ∧
        ∃ serial u, Serializes env gateways schedule serial u ∧
          (∀ p, ListedBy schedule p → Database.SameOutcome t.store.db u.store.db p) ∧
          (Meets (step env gateways) Unlimited initial schedule →
            u.store.db.payments = t.store.db.payments ∧ u.store.db.orders = t.store.db.orders ∧
              ∀ p, u.store.db.settlementRefs p = t.store.db.settlementRefs p)) := by
  have referenced := (run_accountable h).referenced
  refine ⟨fun past rest s split reached p => (run_accountable reached).referenced.count_le_one p,
    fun ended => ?_⟩
  have done (p) (listed : ListedBy schedule p) := (run_covered faultless h).reconciled ended listed
  refine ⟨fun p listed => ⟨(done p listed).1, (done p listed).count referenced, ?_⟩, ?_⟩
  · rw [referenced.refs, (done p listed).count referenced, List.replicate_one]
  · obtain ⟨serial, u, serializes, behind, covered, fair⟩ := run_serializes faultless h
    have referenced' := (run_accountable serializes.reached).referenced
    obtain ⟨db, ahead, equal⟩ := behind.store
    have same : u.store.db = db := by rw [equal]
    rw [← same] at ahead
    exact ⟨serial, u, serializes, fun p listed =>
      ahead.sameOutcome referenced referenced' (done p listed) (covered p listed), fun unlimited =>
      ahead.same behind.within referenced referenced' fun p known => done p (fair unlimited p known)⟩

/-- Workers that never begin a pass have none under way. -/
theorem run_unswept (unswept : ∀ a ∈ schedule, a.sweeper ≠ some w)
    (h : run (step env gateways) initial schedule = some t) : (t.workers w).reconciler = none := by
  refine invariant_of_meets (I := fun s => (s.workers w).reconciler = none)
    (C := fun _ a => a.sweeper ≠ some w) (fun {s a t} idle other stepped => ?_) rfl
    (.of_forall unswept initial) h
  cases (step_moves env gateways stepped).passStep w with
  | same kept => exact kept.trans idle
  | swept rows action => exact absurd (congrArg Action.sweeper action) other
  | answered r next action current => cases current.symm.trans idle
  | stopped action ended => exact ended

/-- Two workers read payment 11 as pending before either has touched it. -/
def racingPasses : List Action :=
  Sample.initiated ++ [.sweep 0 [Sample.waitingRow], .sweep 1 [Sample.waitingRow], .reconcile 1,
    .reconcile 0, .reconcile 0, .reconcile 1, .reconcile 1, .reconcile 0]

theorem racingPasses_serialize : ∃ t,
    run (step (Sample.env []) [Sample.waiting]) initial racingPasses = some t ∧
      t.store.db.Settled 11 ∧ t.store.db.settlementCount 11 = 1 ∧
      t.store.db.settlementRefs 11 = [settlementRef 11] := by
  have facts : (run (step (Sample.env []) [Sample.waiting]) initial racingPasses).map (fun t =>
      ((t.workers 0).reconciler, (t.workers 1).reconciler)) = some (none, none) := by decide +kernel
  obtain ⟨t, reached, facts⟩ := Option.map_eq_some_iff.mp facts
  simp only [Prod.mk.injEq] at facts
  have ended : ∀ w, (t.workers w).reconciler = none := by
    intro w
    by_cases first : w = 0
    · exact first ▸ facts.1
    · by_cases second : w = 1
      · exact second ▸ facts.2
      · refine run_unswept (fun a member begun => ?_) reached
        have two : ∀ a ∈ racingPasses, ∀ v ∈ a.sweeper, v = 0 ∨ v = 1 := by decide
        rcases two a member w begun with zero | one
        · exact first zero
        · exact second one
  have listed : ListedBy racingPasses 11 :=
    ⟨_, List.mem_append_right _ List.mem_cons_self, List.mem_cons_self⟩
  exact ⟨t, reached, ((run_passes_serialize (by decide) reached).2 ended).1 11 listed⟩

end Services
end PaymentBackend
