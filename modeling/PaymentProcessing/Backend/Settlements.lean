import PaymentProcessing.Backend.Charges
import PaymentProcessing.Backend.Duplicates
import PaymentProcessing.Backend.Identifiers

/-! The settlements table. Only the second statement of an entry of a reconciliation
pass writes it, in a transaction of its own; the reference is derived from the payment
id, so a payment gets at most one row, and no insert of a pass is ever rejected. -/
namespace PaymentBackend
open Relational Transition

/-- The reference that `insert_settlement` binds. -/
def settlementRef (paymentId : Uuid) : String := "settle-" ++ paymentId.hyphenated

theorem settlementRef_injective (same : settlementRef x = settlementRef y) : x = y := by
  have lists := congrArg String.toList same
  simp only [settlementRef, String.toList_append] at lists
  exact Uuid.hyphenated_injective (String.toList_injective (List.append_cancel_left lists))

namespace Database
variable {db db' : Database} {paymentId : Uuid} {gateway : String}

/-- How many settlements rows the payment has. -/
def settlementCount (db : Database) (paymentId : Uuid) : Nat :=
  db.settlements.countP (·.paymentId = paymentId)

/-- The row that `insert_settlement` adds, where it adds one. -/
def newSettlement (env : Externals) (db : Database) (paymentId : Uuid) (gateway : String) :
    Option SettlementRow :=
  if env.acceptsText gateway = true ∧ (∃ p ∈ db.payments, p.id = paymentId) ∧
      ∀ r ∈ db.settlements, r.settlementRef ≠ settlementRef paymentId then
    some ⟨paymentId, gateway, settlementRef paymentId, 100, .matched⟩
  else none

theorem newSettlement_eq_some (h : db.newSettlement env paymentId gateway = some row) :
    row = ⟨paymentId, gateway, settlementRef paymentId, 100, .matched⟩ ∧
      ∃ p ∈ db.payments, p.id = paymentId := by
  unfold newSettlement at h
  split at h
  · rename_i added
    cases h
    exact ⟨rfl, added.2.1⟩
  · cases h

/-- Each reference is the one of its payment. -/
def Referenced (db : Database) : Prop :=
  ∀ r ∈ db.settlements, r.settlementRef = settlementRef r.paymentId

theorem Referenced.count_le_one (referenced : db.Referenced) (paymentId : Uuid) :
    db.settlementCount paymentId ≤ 1 := by
  have named : (db.settlements.map SettlementRow.settlementRef) =
      (db.settlements.map SettlementRow.paymentId).map settlementRef := by
    rw [List.map_map]
    exact List.map_congr_left referenced
  have distinct : (db.settlements.map SettlementRow.paymentId).Nodup := by
    have refs := db.settlementsRef
    rw [Distinct, named] at refs
    exact refs.of_map
  have counted := List.nodup_iff_count_le_one.mp distinct paymentId
  rw [List.count, List.countP_map] at counted
  simpa only [settlementCount, Function.comp_def, beq_eq_decide] using counted

theorem settlementCount_pos : 0 < db.settlementCount paymentId ↔
    ∃ r ∈ db.settlements, r.paymentId = paymentId := by
  simp only [settlementCount, List.countP_pos_iff, decide_eq_true_eq]

/-- A payment with some row has exactly one. -/
theorem Referenced.count_eq_one (referenced : db.Referenced) :
    db.settlementCount paymentId = 1 ↔ ∃ r ∈ db.settlements, r.paymentId = paymentId := by
  rw [← settlementCount_pos]
  have most := referenced.count_le_one paymentId
  omega

/-- The settlement references of the payment. -/
def settlementRefs (db : Database) (paymentId : Uuid) : List String :=
  (db.settlements.filter (·.paymentId = paymentId)).map SettlementRow.settlementRef

/-- The count tells what the references are. -/
theorem Referenced.refs (referenced : db.Referenced) (paymentId : Uuid) :
    db.settlementRefs paymentId =
      List.replicate (db.settlementCount paymentId) (settlementRef paymentId) := by
  refine List.eq_replicate_iff.mpr ⟨?_, fun ref member => ?_⟩
  · rw [settlementRefs, List.length_map, settlementCount, List.countP_eq_length_filter]
  · obtain ⟨r, inside, rfl⟩ := List.mem_map.mp member
    obtain ⟨present, own⟩ := List.mem_filter.mp inside
    rw [referenced r present, of_decide_eq_true own]

theorem insertSettlement_new (db : Database) (row : SettlementRow)
    (fresh : ∀ r ∈ db.settlements, r.settlementRef ≠ row.settlementRef)
    (payment : ∃ p ∈ db.payments, p.id = row.paymentId) :
    ∃ db', db.insertSettlement row = .ok db' ∧ db'.settlements = db.settlements ++ [row] :=
  ⟨_, by rw [insertSettlement, dif_pos fresh, dif_pos payment], rfl⟩

theorem insertSettlement_orphan (db : Database) (row : SettlementRow)
    (fresh : ∀ r ∈ db.settlements, r.settlementRef ≠ row.settlementRef)
    (orphan : ¬ ∃ p ∈ db.payments, p.id = row.paymentId) :
    db.insertSettlement row = .error .foreignKeyViolation := by
  rw [insertSettlement, dif_pos fresh, dif_neg orphan]

theorem insertSettlement_present (db : Database) (row : SettlementRow)
    (present : ¬ ∀ r ∈ db.settlements, r.settlementRef ≠ row.settlementRef) :
    db.insertSettlement row = .ok db := by
  rw [insertSettlement, dif_neg present]

/-- The insert for a known payment of an accepted gateway leaves its row, old or new. -/
theorem insertSettlement_leaves (gateway : String) (referenced : db.Referenced)
    (payment : ∃ p ∈ db.payments, p.id = paymentId) :
    ∃ db', db.insertSettlement ⟨paymentId, gateway, settlementRef paymentId, 100, .matched⟩ =
      .ok db' ∧ ∃ r ∈ db'.settlements, r.paymentId = paymentId := by
  by_cases fresh : ∀ r ∈ db.settlements, r.settlementRef ≠ settlementRef paymentId
  · exact ⟨_, by rw [insertSettlement, dif_pos fresh, dif_pos payment],
      _, List.mem_append_right _ List.mem_cons_self, rfl⟩
  · refine ⟨db, by rw [insertSettlement, dif_neg fresh], ?_⟩
    simp only [not_forall, not_not] at fresh
    obtain ⟨r, member, same⟩ := fresh
    exact ⟨r, member, settlementRef_injective ((referenced r member).symm.trans same)⟩

end Database

section Statements
variable {env : Externals} {s t : Store}

theorem Executes.settlements (h : Executes env s handling t answer) :
    t.db.settlements = s.db.settlements := by
  cases h with
  | recorded _ inserted | logged _ inserted =>
    obtain ⟨-, -, settlements, -⟩ := Database.insertTransaction_ok inserted
    exact settlements
  | _ => rfl

theorem ApiEffect.settlements (h : ApiEffect s t) : t.db.settlements = s.db.settlements := by
  cases h with
  | answered => rfl
  | order _ inserted => exact (Database.insertOrder_ok inserted).2.2.2.2
  | payment _ _ inserted => exact (Database.insertPayment_ok inserted).2.2.2.2

/-- What the second statement of an entry does to the table. -/
theorem settle_settlements (env : Externals) (s : Store) (paymentId : Uuid) (gateway : String)
    (pending : List (Uuid × Uuid × String)) :
    (((Reconciling.settle paymentId gateway pending).next env).exec s).2.db.settlements =
      s.db.settlements ++ (s.db.newSettlement env paymentId gateway).toList := by
  simp only [Reconciling.next, Repository.insertSettlement, Effect.exec_bind, exec_sql,
    Database.newSettlement, settlementRef]
  by_cases accepted : env.acceptsText gateway = true
  · by_cases fresh :
        ∀ r ∈ s.db.settlements, r.settlementRef ≠ "settle-" ++ paymentId.hyphenated
    · by_cases payment : ∃ p ∈ s.db.payments, p.id = paymentId
      · obtain ⟨db, inserted, rows⟩ := s.db.insertSettlement_new
          ⟨paymentId, gateway, "settle-" ++ paymentId.hyphenated, 100, .matched⟩ fresh payment
        simp only [accepted, if_true, inserted]
        rw [if_pos ⟨trivial, payment, fresh⟩]
        exact rows
      · have rejected := s.db.insertSettlement_orphan
          ⟨paymentId, gateway, "settle-" ++ paymentId.hyphenated, 100, .matched⟩ fresh payment
        simp only [accepted, if_true, rejected]
        rw [if_neg fun all => payment all.2.1]
        exact (List.append_nil _).symm
    · have kept := s.db.insertSettlement_present
        ⟨paymentId, gateway, "settle-" ++ paymentId.hyphenated, 100, .matched⟩ fresh
      simp only [accepted, if_true, kept]
      rw [if_neg fun all => fresh all.2.2]
      exact (List.append_nil _).symm
  · rw [Bool.not_eq_true] at accepted
    simp [accepted]

end Statements

/-- The payment and gateway that the next statement settles. -/
def Reconciling.settling : Reconciling → Option (Uuid × String)
  | .settle paymentId gateway _ => some (paymentId, gateway)
  | .pay _ => none

theorem reconciling_settlements (env : Externals) (s : Store) (reconciling : Reconciling) :
    ((reconciling.next env).exec s).2.db.settlements = s.db.settlements ++
      (reconciling.settling.bind fun entry => s.db.newSettlement env entry.1 entry.2).toList := by
  cases reconciling with
  | settle paymentId gateway pending => exact settle_settlements env s paymentId gateway pending
  | pay pending =>
    cases pending with
    | nil => exact (List.append_nil _).symm
    | cons entry pending => exact (List.append_nil _).symm

namespace Services
variable {env : Externals} {gateways : List PaymentGateway} {s t : Services}

/-- The payment and gateway for which the step inserts a settlement. -/
def settling (s : Services) : Action → Option (Uuid × String)
  | .reconcile w | .reconcileFailure w true => (s.workers w).reconciler.bind Reconciling.settling
  | _ => none

/-- The settlements row that the step adds. -/
def settles (env : Externals) (s : Services) (a : Action) : Option SettlementRow :=
  (s.settling a).bind fun entry => s.store.db.newSettlement env entry.1 entry.2

theorem settles_of_current (env : Externals)
    (current : (s.workers w).reconciler = some reconciling)
    (acts : a = .reconcile w ∨ a = .reconcileFailure w true) :
    ((reconciling.next env).exec s.store).2.db.settlements =
      s.store.db.settlements ++ (s.settles env a).toList := by
  rw [reconciling_settlements]
  rcases acts with rfl | rfl <;> simp only [settles, settling, current, Option.bind_some]

/-- Every step of the system adds to the settlements exactly the row it settles with. -/
theorem step_settlements (h : step env gateways s a = some t) :
    t.store.db.settlements = s.store.db.settlements ++ (s.settles env a).toList := by
  have frame (silent : s.settling a = none)
      (same : t.store.db.settlements = s.store.db.settlements) :
      t.store.db.settlements = s.store.db.settlements ++ (s.settles env a).toList := by
    simp only [settles, silent, Option.bind_none, Option.toList_none, List.append_nil, same]
  have moves := step_moves env gateways h
  cases moves with
  | request a u api effect =>
    refine frame ?_ effect.settlements
    cases a <;> first | rfl | contradiction
  | statement w entry handling u answer current executed =>
    exact frame rfl (by rw [proceed_store, withStore_store, executed.settlements])
  | failed w applied entry handling u current outcome =>
    rcases outcome with ⟨rfl, -⟩ | ⟨rfl, answer, executed⟩
    · exact frame rfl rfl
    · exact frame rfl executed.settlements
  | reconcile w reconciling u next current settled =>
    have added := settles_of_current env current (Or.inl rfl)
    simp only [step, current] at h
    split at h <;> rename_i executed <;> rw [executed] at added <;>
      rw [← Option.some.inj h] <;> exact added
  | abandoned w applied reconciling u current outcome =>
    cases applied with
    | false =>
      simp only [step, current, Option.some.injEq] at h
      exact frame rfl (by rw [← h]; rfl)
    | true =>
      have added := settles_of_current env current (Or.inr rfl)
      simp only [step, current, Option.some.injEq] at h
      rw [← h]
      exact added
  | take w lastId entry payload rest processor => exact frame rfl (by simp)
  | _ => exact frame rfl rfl

/-- A payment enters its table with a gateway that Postgres takes as text. -/
theorem initiatePayment_payments (env : Externals) (gateways : List PaymentGateway)
    (paymentId rowId : Uuid) (createdAt : Nat) (req : InitiatePaymentRequest) (s : Store) :
    ((initiatePayment env gateways paymentId rowId createdAt req).exec s).2.db.payments =
        s.db.payments ∨
      ∃ row, env.acceptsText row.gateway = true ∧
        ((initiatePayment env gateways paymentId rowId createdAt req).exec s).2.db.payments =
          s.db.payments ++ [row] := by
  obtain ⟨sessions, asked | ⟨session, db, accepted, inserted, stored⟩⟩ :=
    initiatePayment_store env gateways paymentId rowId createdAt req s
  · exact Or.inl (by rw [asked])
  · rw [stored]
    exact Or.inr ⟨_, accepted, (Database.insertPayment_ok inserted).2.2.1⟩

theorem createOrder_payments (env : Externals) (orderId : Uuid) (req : CreateOrderRequest)
    (s : Store) : ((createOrder env orderId req).exec s).2.db.payments = s.db.payments := by
  rcases createOrder_exec env orderId req s with ⟨e, nothing⟩ | ⟨db, inserted, answered⟩
  · rw [nothing]
  · rw [answered]
    exact (Database.insertOrder_ok inserted).2.2.1

/-- No step changes what a pass selects of a payment; new rows have accepted gateways. -/
theorem step_selected (h : step env gateways s a = some t) :
    t.store.db.payments.map PaymentRow.selected = s.store.db.payments.map PaymentRow.selected ∨
      ∃ row, env.acceptsText row.gateway = true ∧
        t.store.db.payments = s.store.db.payments ++ [row] := by
  have frame {db : Database} (same : db.payments = s.store.db.payments)
      (left : t.store.db = db) :
      t.store.db.payments.map PaymentRow.selected = s.store.db.payments.map PaymentRow.selected := by
    rw [left, same]
  have marked {p o : Uuid} (left : t.store.db = s.store.db.markSuccess p o) :
      t.store.db.payments.map PaymentRow.selected = s.store.db.payments.map PaymentRow.selected := by
    rw [left, Database.markSuccess_payments]
    exact map_updateWhere _ fun _ => rfl
  have executed {handling u answer} (ran : Executes env s.store handling u answer)
      (left : t.store.db = u.db) :
      t.store.db.payments.map PaymentRow.selected = s.store.db.payments.map PaymentRow.selected := by
    rcases ran.payments with ⟨payload, event, -, updated⟩ | ⟨-, same⟩
    · exact marked (left.trans updated)
    · exact frame same left
  have settled {reconciling u next} (ran : Settles s.store reconciling u next)
      (left : t.store.db = u.db) :
      t.store.db.payments.map PaymentRow.selected = s.store.db.payments.map PaymentRow.selected := by
    rcases ran.payments with ⟨p, o, gateway, pending, -, updated⟩ | ⟨-, same⟩
    · exact marked (left.trans updated)
    · exact frame same left
  have moves := step_moves env gateways h
  cases moves with
  | request a u api effect =>
    cases a with
    | initiatePayment paymentId rowId createdAt req =>
      simp only [step, Option.some.injEq] at h
      rw [← h]
      rcases initiatePayment_payments env gateways paymentId rowId createdAt req s.store with
        same | added
      · exact Or.inl (congrArg _ same)
      · exact Or.inr added
    | createOrder orderId req =>
      simp only [step, Option.some.injEq] at h
      rw [← h]
      exact Or.inl (congrArg _ (createOrder_payments env orderId req s.store))
    | receiveWebhook gateway event =>
      simp only [step, Option.some.injEq] at h
      rw [← h]
      exact Or.inl rfl
    | elapse seconds =>
      simp only [step, Option.some.injEq] at h
      rw [← h]
      exact Or.inl rfl
    | _ => contradiction
  | statement w entry handling u answer current ran =>
    exact Or.inl (executed ran (by rw [proceed_store, withStore_store]))
  | failed w applied entry handling u current outcome =>
    rcases outcome with ⟨rfl, -⟩ | ⟨rfl, answer, ran⟩
    · exact Or.inl rfl
    · exact Or.inl (executed ran rfl)
  | reconcile w reconciling u next current ran => exact Or.inl (settled ran rfl)
  | abandoned w applied reconciling u current outcome =>
    rcases outcome with rfl | ⟨-, next, ran⟩
    · exact Or.inl rfl
    · exact Or.inl (settled ran rfl)
  | take w lastId entry payload rest processor => exact Or.inl (frame rfl (by simp))
  | _ => exact Or.inl rfl

end Services

/-- The payment of this gateway holds `SUCCESS` and its own order `PAID`. -/
def Database.Promoted (db : Database) (paymentId : Uuid) (gateway : String) : Prop :=
  ∃ p ∈ db.payments, p.id = paymentId ∧ p.gateway = gateway ∧ p.status = .success ∧ db.Paid p.orderId

theorem Database.Grows.promoted (grows : Database.Grows db db') (h : db.Promoted paymentId gateway) :
    db'.Promoted paymentId gateway := by
  obtain ⟨p, member, named, own, success, paid⟩ := h
  cases grows.payments p member with
  | inl kept => exact ⟨p, kept, named, own, success, grows.paid paid⟩
  | inr again => exact ⟨Database.setSuccess p, again, named, own, rfl, grows.paid paid⟩

theorem Database.Promoted.settled {db : Database} (h : db.Promoted paymentId gateway) :
    db.Settled paymentId := by
  obtain ⟨p, member, named, -, success, paid⟩ := h
  exact ⟨p, member, named, success, paid⟩

/-- An update with the ids of one row promotes that row. -/
theorem Database.Listed.promoted {db : Database} (listed : db.Listed (p, o, gateway)) :
    (db.markSuccess p o).Promoted p gateway := by
  obtain ⟨row, member, selected⟩ := listed
  simp only [PaymentRow.selected, Prod.mk.injEq] at selected
  obtain ⟨rfl, rfl, rfl⟩ := selected
  obtain ⟨order, inside, named⟩ := db.paymentsOrder.parent member
  exact ⟨setSuccess row, mem_updateWhere_of_hit member (by simp), rfl, rfl, rfl,
    (markSuccess_paid db _ _).mpr (Or.inr ⟨rfl, order, inside, named⟩)⟩

/-- What is about to be settled has been promoted. -/
def Reconciling.Promoted (db : Database) : Reconciling → Prop
  | .pay _ => True
  | .settle paymentId gateway _ => db.Promoted paymentId gateway

theorem Settles.promoted (h : Settles s reconciling t (some following))
    (listed : ∀ x ∈ reconciling.pending, s.db.Listed x) : following.Promoted t.db := by
  cases h with
  | paid => exact (listed _ List.mem_cons_self).promoted
  | settled => trivial

namespace Services
variable {env : Externals} {gateways : List PaymentGateway} {s t : Services}

/-- What keeps the inserts of reconciliation passes from being rejected. -/
structure Accountable (env : Externals) (s : Services) : Prop where
  accepted : ∀ p ∈ s.store.db.payments, env.acceptsText p.gateway = true
  referenced : s.store.db.Referenced
  promoted : ∀ w r, (s.workers w).reconciler = some r → r.Promoted s.store.db

theorem initial_accountable : initial.Accountable env := by
  constructor
  · intro p member
    cases member
  · intro r member
    cases member
  · intro w r current
    cases current

theorem step_accepted (h : step env gateways s a = some t)
    (before : ∀ p ∈ s.store.db.payments, env.acceptsText p.gateway = true) :
    ∀ p ∈ t.store.db.payments, env.acceptsText p.gateway = true := by
  intro p member
  rcases step_selected h with same | ⟨row, accepted, added⟩
  · have selected : p.selected ∈ s.store.db.payments.map PaymentRow.selected := by
      rw [← same]
      exact List.mem_map_of_mem member
    obtain ⟨old, present, equal⟩ := List.mem_map.mp selected
    have gateway : old.gateway = p.gateway := congrArg (·.2.2) equal
    exact gateway ▸ before old present
  · rw [added, List.mem_append, List.mem_singleton] at member
    rcases member with old | rfl
    · exact before p old
    · exact accepted

theorem step_referenced (h : step env gateways s a = some t) (before : s.store.db.Referenced) :
    t.store.db.Referenced := by
  intro r member
  rw [step_settlements h, List.mem_append, Option.mem_toList] at member
  rcases member with old | added
  · exact before r old
  · obtain ⟨entry, -, new⟩ := Option.bind_eq_some_iff.mp added
    rw [(Database.newSettlement_eq_some new).1]

theorem Moves.promoted (h : Moves env s a t) (sound : s.Sound env)
    (before : ∀ w r, (s.workers w).reconciler = some r → r.Promoted s.store.db) :
    ∀ w r, (t.workers w).reconciler = some r → r.Promoted t.store.db := by
  intro w r current
  cases h.passStep w with
  | same kept =>
    cases r with
    | pay => trivial
    | settle paymentId gateway pending =>
      exact h.extends.db.promoted (before w _ (kept.symm.trans current))
  | swept rows action pending started =>
    cases started.symm.trans current
    trivial
  | answered reconciling next action position settled continues =>
    cases continues.symm.trans current
    exact settled.promoted ((sound.workers w).pending _ position)
  | stopped action ended => cases ended.symm.trans current

theorem run_accountable (h : run (step env gateways) initial schedule = some t) :
    t.Accountable env := by
  have both : t.Sound env ∧ t.Accountable env := by
    refine invariant (I := fun s => s.Sound env ∧ s.Accountable env) (fun before stepped => ?_)
      ⟨initial_sound, initial_accountable⟩ h
    have moves := step_moves env gateways stepped
    exact ⟨moves.sound before.1, step_accepted stepped before.2.accepted,
      step_referenced stepped before.2.referenced, moves.promoted before.1 before.2.promoted⟩
  exact both.2

/-- Where a pass is about to settle a payment, the insert answers and leaves its row. -/
theorem Accountable.settle (accountable : s.Accountable env)
    (current : (s.workers w).reconciler = some (.settle paymentId gateway pending)) :
    ∃ db, ((Reconciling.settle paymentId gateway pending).next env).exec s.store =
        (.ok (some (.pay pending)), { s.store with db := db }) ∧
      ∃ r ∈ db.settlements, r.paymentId = paymentId := by
  obtain ⟨p, member, named, own, -⟩ := accountable.promoted w _ current
  have accepted : env.acceptsText gateway = true := own ▸ accountable.accepted p member
  obtain ⟨db, inserted, row⟩ :=
    Database.insertSettlement_leaves gateway accountable.referenced ⟨p, member, named⟩
  refine ⟨db, ?_, row⟩
  rw [settlementRef] at inserted
  simp only [Reconciling.next, Repository.insertSettlement, Effect.exec_bind, exec_sql, accepted,
    if_true, inserted, Effect.exec_pure]

end Services
end PaymentBackend
