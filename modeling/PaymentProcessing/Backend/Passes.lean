import PaymentProcessing.Backend.Ahead
import PaymentProcessing.Backend.Refinement
import PaymentProcessing.Backend.Evidence

/-! Reconciliation passes of several workers over one database. A pass goes on from the
list it once read, whatever others have done to its payments since; a run of passes in
any interleaving is compared with one in which each pass runs alone, from the moment at
which the interleaved one reads its list. -/
namespace PaymentBackend
open Relational Transition

namespace Database
variable {db db' d : Database} {paymentId : Uuid}

/-- The payment is `SUCCESS`, its own order `PAID`, and it has a settlements row. -/
def Reconciled (db : Database) (paymentId : Uuid) : Prop :=
  db.Settled paymentId ∧ ∃ r ∈ db.settlements, r.paymentId = paymentId

theorem Grows.reconciled (grows : Grows db db') (h : db.Reconciled paymentId) :
    db'.Reconciled paymentId := by
  obtain ⟨settled, r, member, own⟩ := h
  exact ⟨grows.settled settled, r, grows.settlements member, own⟩

/-- What `db'` holds beyond `db` is about these payments. -/
structure Within (listed : Uuid → Prop) (db db' : Database) : Prop where
  payments : ∀ p, db'.Succeeded p → db.Succeeded p ∨ listed p
  orders : ∀ o, db'.Paid o → db.Paid o ∨ ∃ p, listed p ∧ db'.Belongs p o
  settlements : ∀ r ∈ db'.settlements,
    (∃ r' ∈ db.settlements, r'.paymentId = r.paymentId) ∨ listed r.paymentId

theorem Within.refl (listed : Uuid → Prop) (db : Database) : Within listed db db :=
  ⟨fun _ h => Or.inl h, fun _ h => Or.inl h, fun r member => Or.inl ⟨r, member, rfl⟩⟩

theorem Within.mono {listed listed' : Uuid → Prop} (within : Within listed db db')
    (more : ∀ p, listed p → listed' p) : Within listed' db db' :=
  ⟨fun p h => (within.payments p h).imp_right (more p),
    fun o h => (within.orders o h).imp_right fun ⟨p, known, own⟩ => ⟨p, more p known, own⟩,
    fun r member => (within.settlements r member).imp_right (more r.paymentId)⟩

theorem Within.trans {listed : Uuid → Prop} (first : Within listed db db')
    (second : Within listed db' d) (grows : db'.Grows d) : Within listed db d := by
  refine ⟨fun p success => ?_, fun o paid => ?_, fun r member => ?_⟩
  · exact (second.payments p success).elim (first.payments p) Or.inr
  · rcases second.orders o paid with before | known
    · exact (first.orders o before).imp_right fun ⟨p, known, own⟩ => ⟨p, known, grows.belongs own⟩
    · exact Or.inr known
  · rcases second.settlements r member with ⟨r', member', same⟩ | known
    · rw [← same]
      exact first.settlements r' member'
    · exact Or.inr known

theorem ahead_markSuccess (db : Database) (p o : Uuid) : db.Ahead (db.markSuccess p o) :=
  ⟨advanced_updateWhere _ _ _, advanced_updateWhere _ _ _, rfl, fun r member => ⟨r, member, rfl⟩⟩

theorem ahead_insertSettlement (h : db.insertSettlement row = .ok db') : db.Ahead db' := by
  obtain ⟨orders, payments, transactions, rows⟩ := insertSettlement_ok h
  refine ⟨orders ▸ .refl _ _, payments ▸ .refl _ _, transactions, fun r member => ⟨r, ?_, rfl⟩⟩
  rcases rows with rfl | rows
  · exact member
  · rw [rows]
    exact List.mem_append_left _ member

/-- The row of a payment that is ahead belongs to the same order. -/
theorem Ahead.listed (ahead : db.Ahead db') (listed : db.Listed entry) : db'.Listed entry := by
  obtain ⟨p, member, same⟩ := listed
  rcases ahead.payments.mem_of member with kept | success
  · exact ⟨p, kept, same⟩
  · exact ⟨setSuccess p, success, same⟩

/-- An update for a payment that the other side has reconciled. -/
theorem Ahead.markSuccess_behind (ahead : db.Ahead db') (listed : db.Listed (p, o, gateway))
    (reconciled : db'.Reconciled p) : (db.markSuccess p o).Ahead db' := by
  obtain ⟨row, member, named, success, order, paid, own, status⟩ := reconciled.1
  have belongs : row.orderId = o := by
    obtain ⟨q, inside, selected⟩ := ahead.listed listed
    simp only [PaymentRow.selected, Prod.mk.injEq] at selected
    rw [db'.paymentsKey.unique member inside (named.trans selected.1.symm), selected.2.1]
  refine ⟨ahead.orders.catch_up fun y inside hit => ?_, ahead.payments.catch_up fun y inside hit => ?_,
    ahead.transactions, ahead.settlements⟩
  · have same : y = order := db'.ordersKey.unique inside paid (by simpa [own, belongs] using hit)
    rw [same, setPaid, ← status]
  · have same : y = row := db'.paymentsKey.unique inside member (by simpa [named] using hit)
    rw [same, setSuccess, ← success]

/-- A settlement that the other side has made. -/
theorem Ahead.insertSettlement_behind (ahead : db.Ahead db') (reconciled : db'.Reconciled row.paymentId)
    (h : db.insertSettlement row = .ok d) : d.Ahead db' := by
  obtain ⟨orders, payments, transactions, rows⟩ := insertSettlement_ok h
  refine ⟨orders ▸ ahead.orders, payments ▸ ahead.payments, ahead.transactions.trans transactions.symm,
    fun r member => ?_⟩
  rcases rows with rfl | rows
  · exact ahead.settlements r member
  · rw [rows, List.mem_append, List.mem_singleton] at member
    rcases member with old | rfl
    · exact ahead.settlements r old
    · exact reconciled.2

theorem pendingRead_iff : db.PendingRead rows ↔
    TopRows PaymentRow.createdAt 100 (db.payments.filter (·.status = .pending)) rows := by
  constructor
  · rintro ⟨nodup, length, subset, sorted, least⟩
    refine ⟨nodup, by rw [length, List.countP_eq_length_filter], fun r member => ?_, sorted, ?_⟩
    · exact List.mem_filter.mpr ⟨(subset r member).1, by simpa using (subset r member).2⟩
    · intro p member missing
      obtain ⟨present, status⟩ := List.mem_filter.mp member
      exact least p present (by simpa using status) missing
  · rintro ⟨nodup, length, subset, sorted, least⟩
    refine ⟨nodup, by rw [length, List.countP_eq_length_filter], fun r member => ?_, sorted, ?_⟩
    · obtain ⟨present, status⟩ := List.mem_filter.mp (subset member)
      exact ⟨present, by simpa using status⟩
    · intro p present status missing
      exact least p (List.mem_filter.mpr ⟨present, by simpa using status⟩) missing

/-- A database that is ahead may answer a read with all those rows that are still pending
there. -/
theorem Ahead.pendingRead (ahead : db.Ahead db') (read : db.PendingRead rows) :
    ∃ rows', db'.PendingRead rows' ∧ ∀ r ∈ rows, r ∈ db'.payments → r ∈ rows' := by
  have top := pendingRead_iff.mp read
  have pool : (db'.payments.filter (·.status = .pending)) ⊆
      db.payments.filter (·.status = .pending) := by
    intro q member
    obtain ⟨present, status⟩ := List.mem_filter.mp member
    obtain ⟨p, inside, rfl | rfl⟩ := ahead.payments.mem present
    · exact List.mem_filter.mpr ⟨inside, status⟩
    · simp [setSuccess] at status
  have distinct : db'.payments.Nodup := db'.paymentsKey.of_map
  have kept (r : PaymentRow) : r ∈ rows.filter (· ∈ db'.payments) ↔ r ∈ rows ∧ r ∈ db'.payments := by
    rw [List.mem_filter, decide_eq_true_eq]
  have few : (rows.filter (· ∈ db'.payments)).length ≤ 100 := by
    have fits := top.length
    have shorter := List.length_filter_le (· ∈ db'.payments) rows
    omega
  have subset : rows.filter (· ∈ db'.payments) ⊆ db'.payments.filter (·.status = .pending) := by
    intro r member
    obtain ⟨inside, present⟩ := (kept r).mp member
    exact List.mem_filter.mpr ⟨present, (List.mem_filter.mp (top.subset inside)).2⟩
  have least : ∀ x ∈ db'.payments.filter (·.status = .pending),
      x ∉ rows.filter (· ∈ db'.payments) →
      ∀ r ∈ rows.filter (· ∈ db'.payments), r.createdAt ≤ x.createdAt := by
    intro x member missing r chosen
    have present := (List.mem_filter.mp member).1
    exact top.least x (pool member) (fun inside => missing ((kept x).mpr ⟨inside, present⟩)) r
      ((kept r).mp chosen).1
  obtain ⟨rows', top', wanted⟩ := exists_topRows PaymentRow.createdAt _ (distinct.filter _) few
    (top.nodup.filter _) subset (top.sorted.sublist List.filter_sublist) least
  exact ⟨rows', pendingRead_iff.mpr top', fun r member present => wanted ((kept r).mpr ⟨member, present⟩)⟩

end Database

/-- The payments that a pass has still to reconcile. -/
def Reconciling.ids : Reconciling → List Uuid
  | .pay pending => pending.map Prod.fst
  | .settle paymentId _ pending => paymentId :: pending.map Prod.fst

/-- The statements that a pass has still to execute, its return counted as one. -/
def Reconciling.statements : Reconciling → Nat
  | .pay pending => 2 * pending.length + 1
  | .settle _ _ pending => 2 * pending.length + 2

/-- The payments left to a pass that has moved on. -/
def remaining : Option Reconciling → List Uuid
  | some r => r.ids
  | none => []

theorem Store.Ahead.trans {s t u : Store} (first : s.Ahead t) (second : t.Ahead u) :
    s.Ahead u := by
  obtain ⟨db, ahead, rfl⟩ := first
  obtain ⟨db', ahead', rfl⟩ := second
  exact ⟨db', ahead.trans ahead', rfl⟩

section Settles
variable {s t u : Store} {r : Reconciling} {next : Option Reconciling}

theorem Settles.ahead (h : Settles s r t next) : s.Ahead t := by
  cases h with
  | finished | failed => exact ⟨s.db, .refl _, rfl⟩
  | paid => exact ⟨_, Database.ahead_markSuccess _ _ _, rfl⟩
  | settled inserted => exact ⟨_, Database.ahead_insertSettlement inserted, rfl⟩

/-- A statement of a pass whose payments have been reconciled on the other side. -/
theorem Settles.behind (h : Settles s r t next) (ahead : s.Ahead u)
    (listed : ∀ x ∈ r.pending, s.db.Listed x) (reconciled : ∀ p ∈ r.ids, u.db.Reconciled p) :
    t.Ahead u := by
  obtain ⟨db, ahead, rfl⟩ := ahead
  cases h with
  | finished | failed => exact ⟨db, ahead, rfl⟩
  | paid => exact ⟨db, ahead.markSuccess_behind (listed _ List.mem_cons_self)
      (reconciled _ List.mem_cons_self), rfl⟩
  | settled inserted =>
    exact ⟨db, ahead.insertSettlement_behind (reconciled _ List.mem_cons_self) inserted, rfl⟩

/-- A pass touches only what it has listed. -/
theorem Settles.within (h : Settles s r t next) (listed : ∀ x ∈ r.pending, s.db.Listed x) :
    Database.Within (· ∈ r.ids) s.db t.db := by
  cases h with
  | finished | failed => exact .refl _ _
  | paid =>
    refine ⟨fun p success => ?_, fun o paid => ?_, fun r member => Or.inl ⟨r, member, rfl⟩⟩
    · rcases (Database.markSuccess_succeeded _ _ _).mp success with before | ⟨rfl, -⟩
      · exact Or.inl before
      · exact Or.inr List.mem_cons_self
    · rcases (Database.markSuccess_paid _ _ _).mp paid with before | ⟨rfl, -⟩
      · exact Or.inl before
      · obtain ⟨row, member, selected⟩ := listed _ List.mem_cons_self
        simp only [PaymentRow.selected, Prod.mk.injEq] at selected
        have belongs : s.db.Belongs _ _ := ⟨row, member, selected.1, selected.2.1⟩
        exact Or.inr ⟨_, List.mem_cons_self, (Database.markSuccess_grows _ _ _).belongs belongs⟩
  | settled inserted =>
    obtain ⟨orders, payments, -, rows⟩ := Database.insertSettlement_ok inserted
    refine ⟨fun p success => Or.inl ?_, fun o paid => Or.inl ?_, fun r member => ?_⟩
    · simpa only [Database.Succeeded, payments] using success
    · simpa only [Database.Paid, orders] using paid
    · rcases rows with rfl | rows
      · exact Or.inl ⟨r, member, rfl⟩
      · rw [show _ = _ from rows, List.mem_append, List.mem_singleton] at member
        rcases member with old | rfl
        · exact Or.inl ⟨r, old, rfl⟩
        · exact Or.inr List.mem_cons_self

end Settles

/-- The payments that the action lists for a pass. -/
def Action.lists : Action → List Uuid
  | .sweep _ rows => rows.map PaymentRow.id
  | _ => []

namespace Services
variable {env : Externals} {gateways : List PaymentGateway} {s t u v : Services} {w : Nat}

/-- What statements of the pass of worker `w` have brought about, from one position of it
to another. -/
structure PassMoves (w : Nat) (r : Reconciling) (next : Option Reconciling) (u v : Services) :
    Prop where
  store : u.store.Ahead v.store
  grows : u.store.db.Grows v.store.db
  processors : ∀ x, (v.workers x).processor = (u.workers x).processor
  others : ∀ x ≠ w, (v.workers x).reconciler = (u.workers x).reconciler
  position : (v.workers w).reconciler = next
  left : ∀ p ∈ r.ids, p ∈ remaining next ∨ v.store.db.Reconciled p
  fewer : remaining next ⊆ r.ids
  within : Database.Within (· ∈ r.ids) u.store.db v.store.db

theorem PassMoves.trans (first : PassMoves w r (some mid) s u) (second : PassMoves w mid next u v) :
    PassMoves w r next s v where
  store := first.store.trans second.store
  grows := first.grows.trans second.grows
  processors x := (second.processors x).trans (first.processors x)
  others x other := (second.others x other).trans (first.others x other)
  position := second.position
  left p member := by
    rcases first.left p member with later | done
    · exact second.left p later
    · exact Or.inr (second.grows.reconciled done)
  fewer := fun p member => first.fewer (second.fewer member)
  within := first.within.trans (second.within.mono fun _ member => first.fewer member) second.grows

theorem setReconciler_processor (s : Services) (w : Nat) (r : Option Reconciling) (x : Nat) :
    ((s.setReconciler w r).workers x).processor = (s.workers x).processor := by
  by_cases same : x = w
  · subst same
    simp [setReconciler, setWorker]
  · simp [setReconciler, setWorker, same]

theorem passMoves_of_settles (settled : Settles s.store r x next)
    (listed : ∀ y ∈ r.pending, s.store.db.Listed y)
    (left : ∀ p ∈ r.ids, p ∈ remaining next ∨ x.db.Reconciled p) (fewer : remaining next ⊆ r.ids) :
    PassMoves w r next s ((s.withStore x).setReconciler w next) where
  store := settled.ahead
  grows := settled.grows
  processors := setReconciler_processor (s.withStore x) w next
  others y other := (pass_setReconciler (s.withStore x) w next y).trans (if_neg other)
  position := setReconciler_workers _ w next
  left := left
  fewer := fewer
  within := settled.within listed

/-- In a reachable state each statement of a pass is answered and takes it further. -/
theorem pass_progress (gateways : List PaymentGateway) (sound : s.Sound env)
    (accountable : s.Accountable env) (current : (s.workers w).reconciler = some r) : ∃ next t,
      step env gateways s (.reconcile w) = some t ∧ PassMoves w r next s t ∧
        next.elim 0 Reconciling.statements + 1 = r.statements := by
  have listed := (sound.workers w).pending r current
  cases r with
  | pay pending =>
    cases pending with
    | nil =>
      have settled : Settles s.store (.pay []) s.store none := .finished
      exact ⟨none, _, step_reconcile env gateways current rfl,
        passMoves_of_settles settled listed (by simp [Reconciling.ids]) (by simp [remaining]), rfl⟩
    | cons entry pending =>
      obtain ⟨paymentId, orderId, gateway⟩ := entry
      have settled : Settles s.store (.pay ((paymentId, orderId, gateway) :: pending))
          { s.store with db := s.store.db.markSuccess paymentId orderId }
          (some (.settle paymentId gateway pending)) := .paid
      exact ⟨_, _, step_reconcile env gateways current rfl,
        passMoves_of_settles settled listed (fun p member => Or.inl member) (fun p member => member), rfl⟩
  | settle paymentId gateway pending =>
    obtain ⟨db, executed, row⟩ := accountable.settle current
    have settled := settles_next env s.store (.settle paymentId gateway pending)
    rw [executed] at settled
    have promoted := (accountable.promoted w _ current).settled
    refine ⟨_, _, step_reconcile env gateways current executed,
      passMoves_of_settles settled listed (fun p member => ?_) (List.subset_cons_self _ _), rfl⟩
    rcases List.mem_cons.mp member with rfl | later
    · exact Or.inr ⟨settled.grows.settled promoted, row⟩
    · exact Or.inl later

/-- A pass left alone runs to its end. -/
theorem run_pass (reached : run (step env gateways) initial past = some u)
    (current : (u.workers w).reconciler = some r) : ∃ v,
      run (step env gateways) u (List.replicate r.statements (.reconcile w)) = some v ∧
        PassMoves w r none u v := by
  generalize size : r.statements = n
  induction n generalizing r u past with
  | zero => cases r <;> simp [Reconciling.statements] at size
  | succ n ih =>
    obtain ⟨next, t, stepped, moves, count⟩ :=
      pass_progress gateways (run_sound reached) (run_accountable reached) current
    have arrived := run_append_iff.mpr ⟨u, reached, run_cons_iff.mpr ⟨t, stepped, run_nil⟩⟩
    cases next with
    | none =>
      have last : n = 0 := by
        simp only [Option.elim_none] at count
        omega
      subst last
      exact ⟨t, run_cons_iff.mpr ⟨t, stepped, rfl⟩, moves⟩
    | some r' =>
      have fewer : r'.statements = n := by
        simp only [Option.elim_some] at count
        omega
      obtain ⟨v, rest, after⟩ := ih arrived moves.position fewer
      exact ⟨v, run_cons_iff.mpr ⟨t, stepped, rest⟩, moves.trans after⟩

/-- Each payment that a pass has listed is reconciled, or a pass has still to come to it. -/
def Covered (past : List Action) (s : Services) : Prop :=
  ∀ p, (∃ a ∈ past, p ∈ a.lists) → s.store.db.Reconciled p ∨
    ∃ w r, (s.workers w).reconciler = some r ∧ p ∈ r.ids

theorem step_covered (h : step env gateways s a = some t) (sound : s.Sound env)
    (accountable : s.Accountable env)
    (faultless : a.faultless = true) (before : Covered past s) : Covered (past ++ [a]) t := by
  have moves := step_moves env gateways h
  -- what a pass has before it stays before it or is done
  have kept (p : Uuid) (covered : s.store.db.Reconciled p ∨
      ∃ w r, (s.workers w).reconciler = some r ∧ p ∈ r.ids) :
      t.store.db.Reconciled p ∨ ∃ w r, (t.workers w).reconciler = some r ∧ p ∈ r.ids := by
    rcases covered with done | ⟨w, r, current, member⟩
    · exact Or.inl (moves.extends.db.reconciled done)
    · cases moves.passStep w with
      | same same => exact Or.inr ⟨w, r, same.trans current, member⟩
      | swept rows action =>
        subst action
        simp [step, current] at h
      | answered r' next action =>
        subst action
        obtain ⟨next, u, stepped, passed, -⟩ := pass_progress gateways sound accountable current
        cases stepped.symm.trans h
        rcases passed.left p member with later | done
        · cases next with
          | none => cases later
          | some r' => exact Or.inr ⟨w, r', passed.position, later⟩
        · exact Or.inl done
      | stopped stops =>
        rcases stops with rfl | ⟨applied, rfl⟩
        · cases faultless
        · cases faultless
  rintro p ⟨b, member, lists⟩
  rw [List.mem_append, List.mem_singleton] at member
  rcases member with old | rfl
  · exact kept p (before p ⟨b, old, lists⟩)
  · cases b with
    | sweep w rows =>
      cases moves with
      | sweep w rows pending =>
        refine Or.inr ⟨w, .pay (rows.map PaymentRow.selected), ?_, ?_⟩
        · exact setReconciler_workers s w _
        · rw [Reconciling.ids, List.map_map]
          exact lists
      | request _ _ api => cases api
    | _ => cases lists

end Services
end PaymentBackend
