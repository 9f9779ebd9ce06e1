import PaymentProcessing.Backend.Worker

/-! What each statement does to the shared stores. Rows are never deleted and a
status only moves to `SUCCESS` or `PAID`, so every fact about a completed statement
stays true; `Executes` and `Settles` list the outcomes that proofs split on. -/
namespace PaymentBackend
open Relational

namespace Database
variable {db db' db'' : Database} {x y p o : Uuid}

theorem insertOrder_ok (h : db.insertOrder row = .ok db') :
    (∀ r ∈ db.orders, r.id ≠ row.id) ∧ db'.orders = db.orders ++ [row] ∧
      db'.payments = db.payments ∧
      db'.transactions = db.transactions ∧ db'.settlements = db.settlements := by
  unfold insertOrder at h
  split at h
  · rename_i fresh
    cases h
    exact ⟨fresh, rfl, rfl, rfl, rfl⟩
  · contradiction

theorem insertPayment_ok (h : db.insertPayment row = .ok db') :
    (∃ o ∈ db.orders, o.id = row.orderId) ∧ db'.orders = db.orders ∧
      db'.payments = db.payments ++ [row] ∧ db'.transactions = db.transactions ∧
      db'.settlements = db.settlements := by
  unfold insertPayment at h
  split at h
  · split at h
    · rename_i order
      cases h
      exact ⟨order, rfl, rfl, rfl, rfl⟩
    · contradiction
  · contradiction

/-- The transactions row is there afterwards, whether this insert wrote it or not. -/
theorem insertTransaction_ok (h : db.insertTransaction row = .ok db') :
    db'.orders = db.orders ∧ db'.payments = db.payments ∧ db'.settlements = db.settlements ∧
      db'.Logged row.event ∧
      (db' = db ∨ (∃ p ∈ db.payments, p.id = row.paymentId) ∧
        db'.transactions = db.transactions ++ [row]) := by
  unfold insertTransaction at h
  split at h
  · split at h
    · split at h
      · rename_i payment
        cases h
        exact ⟨rfl, rfl, rfl, ⟨row, by simp, rfl⟩, Or.inr ⟨payment, rfl⟩⟩
      · contradiction
    · contradiction
  · rename_i conflict
    cases h
    simp only [not_forall, not_not] at conflict
    obtain ⟨r, member, same⟩ := conflict
    exact ⟨rfl, rfl, rfl, ⟨r, member, same⟩, Or.inl rfl⟩

theorem insertSettlement_ok (h : db.insertSettlement row = .ok db') :
    db'.orders = db.orders ∧ db'.payments = db.payments ∧ db'.transactions = db.transactions ∧
      (db' = db ∨ db'.settlements = db.settlements ++ [row]) := by
  unfold insertSettlement at h
  split at h
  · split at h
    · cases h
      exact ⟨rfl, rfl, rfl, Or.inr rfl⟩
    · contradiction
  · cases h
    exact ⟨rfl, rfl, rfl, Or.inl rfl⟩

@[simp] theorem markSuccess_orders (db : Database) (p o : Uuid) :
    (db.markSuccess p o).orders = updateWhere (·.id == o) setPaid db.orders := rfl

@[simp] theorem markSuccess_payments (db : Database) (p o : Uuid) :
    (db.markSuccess p o).payments = updateWhere (·.id == p) setSuccess db.payments := rfl

@[simp] theorem markSuccess_transactions (db : Database) (p o : Uuid) :
    (db.markSuccess p o).transactions = db.transactions := rfl

@[simp] theorem markSuccess_settlements (db : Database) (p o : Uuid) :
    (db.markSuccess p o).settlements = db.settlements := rfl

/-- The only changes that statements make to rows already present. -/
structure Grows (db db' : Database) : Prop where
  orders : ∀ o ∈ db.orders, o ∈ db'.orders ∨ setPaid o ∈ db'.orders
  payments : ∀ p ∈ db.payments, p ∈ db'.payments ∨ setSuccess p ∈ db'.payments
  transactions : db.transactions ⊆ db'.transactions
  settlements : db.settlements ⊆ db'.settlements

theorem Grows.refl (db : Database) : Grows db db :=
  ⟨fun _ h => Or.inl h, fun _ h => Or.inl h, fun _ h => h, fun _ h => h⟩

theorem Grows.trans (first : Grows db db') (second : Grows db' db'') : Grows db db'' := by
  constructor
  · intro o member
    cases first.orders o member with
    | inl kept => exact second.orders o kept
    | inr paid => exact Or.inr ((second.orders _ paid).elim id id)
  · intro p member
    cases first.payments p member with
    | inl kept => exact second.payments p kept
    | inr paid => exact Or.inr ((second.payments _ paid).elim id id)
  · intro row member
    exact second.transactions (first.transactions member)
  · intro row member
    exact second.settlements (first.settlements member)

theorem Grows.succeeded (grows : Grows db db') (h : db.Succeeded x) : db'.Succeeded x := by
  obtain ⟨p, member, same, status⟩ := h
  cases grows.payments p member with
  | inl kept => exact ⟨p, kept, same, status⟩
  | inr paid => exact ⟨setSuccess p, paid, same, rfl⟩

theorem Grows.paid (grows : Grows db db') (h : db.Paid x) : db'.Paid x := by
  obtain ⟨o, member, same, status⟩ := h
  cases grows.orders o member with
  | inl kept => exact ⟨o, kept, same, status⟩
  | inr paid => exact ⟨setPaid o, paid, same, rfl⟩

theorem Grows.belongs (grows : Grows db db') (h : db.Belongs p o) : db'.Belongs p o := by
  obtain ⟨row, member, same, order⟩ := h
  cases grows.payments row member with
  | inl kept => exact ⟨row, kept, same, order⟩
  | inr paid => exact ⟨setSuccess row, paid, same, order⟩

theorem Grows.logged (grows : Grows db db') (h : db.Logged key) : db'.Logged key := by
  obtain ⟨r, member, same⟩ := h
  exact ⟨r, grows.transactions member, same⟩

theorem insertOrder_grows (h : db.insertOrder row = .ok db') : Grows db db' := by
  obtain ⟨-, orders, payments, transactions, settlements⟩ := insertOrder_ok h
  constructor <;> simp +contextual [orders, payments, transactions, settlements]

theorem insertPayment_grows (h : db.insertPayment row = .ok db') : Grows db db' := by
  obtain ⟨-, orders, payments, transactions, settlements⟩ := insertPayment_ok h
  constructor <;> simp +contextual [orders, payments, transactions, settlements]

theorem insertTransaction_grows (h : db.insertTransaction row = .ok db') : Grows db db' := by
  obtain ⟨orders, payments, settlements, -, rfl | ⟨-, transactions⟩⟩ := insertTransaction_ok h
  · exact .refl _
  · constructor <;> simp +contextual [orders, payments, transactions, settlements]

theorem insertSettlement_grows (h : db.insertSettlement row = .ok db') : Grows db db' := by
  obtain ⟨orders, payments, transactions, rfl | settlements⟩ := insertSettlement_ok h
  · exact .refl _
  · constructor <;> simp +contextual [orders, payments, transactions, settlements]

theorem markSuccess_grows (db : Database) (p o : Uuid) : Grows db (db.markSuccess p o) := by
  refine ⟨?_, ?_, fun _ h => h, fun _ h => h⟩
  · intro row member
    by_cases hit : row.id = o
    · exact Or.inr (mem_updateWhere_of_hit member (by simpa using hit))
    · exact Or.inl (mem_updateWhere_of_miss member (by simpa using hit))
  · intro row member
    by_cases hit : row.id = p
    · exact Or.inr (mem_updateWhere_of_hit member (by simpa using hit))
    · exact Or.inl (mem_updateWhere_of_miss member (by simpa using hit))

/-- After the transaction the named payment has succeeded; others are as before. -/
theorem markSuccess_succeeded (db : Database) (p o : Uuid) :
    (db.markSuccess p o).Succeeded x ↔
      db.Succeeded x ∨ x = p ∧ ∃ row ∈ db.payments, row.id = p := by
  constructor
  · rintro ⟨row, member, same, status⟩
    obtain ⟨old, present, rfl⟩ := mem_updateWhere.mp member
    split at same <;> rename_i hit
    · have named : old.id = p := by simpa using hit
      exact Or.inr ⟨same.symm.trans named, old, present, named⟩
    · rw [if_neg hit] at status
      exact Or.inl ⟨old, present, same, status⟩
  · rintro (before | ⟨rfl, row, member, same⟩)
    · exact (markSuccess_grows db p o).succeeded before
    · exact ⟨setSuccess row, mem_updateWhere_of_hit member (by simpa using same), same, rfl⟩

theorem markSuccess_paid (db : Database) (p o : Uuid) :
    (db.markSuccess p o).Paid x ↔ db.Paid x ∨ x = o ∧ ∃ row ∈ db.orders, row.id = o := by
  constructor
  · rintro ⟨row, member, same, status⟩
    obtain ⟨old, present, rfl⟩ := mem_updateWhere.mp member
    split at same <;> rename_i hit
    · have named : old.id = o := by simpa using hit
      exact Or.inr ⟨same.symm.trans named, old, present, named⟩
    · rw [if_neg hit] at status
      exact Or.inl ⟨old, present, same, status⟩
  · rintro (before | ⟨rfl, row, member, same⟩)
    · exact (markSuccess_grows db p o).paid before
    · exact ⟨setPaid row, mem_updateWhere_of_hit member (by simpa using same), same, rfl⟩

end Database

theorem exec_sql (query : Database → Except SqlError Database) (s : Store) :
    (sql query).exec s = match query s.db with
      | .ok db => (.ok (), { s with db := db })
      | .error e => (.error (.sql e), s) := rfl

def Store.putMark (s : Store) (key : String) (expiry : Expiry) : Store :=
  { s with marks := fun k => if k = key then some expiry else s.marks k }

variable (env : Externals)

/-- The outcomes of one statement of `handle_event`: the store it leaves and its
answer. `.ok none` is the return of the function, `.ok (some next)` its next statement. -/
inductive Executes : Store → Handling → Store → Except Failure (Option Handling) → Prop where
  | malformed : env.fromJson payload = none → Executes s (.mark payload) s (.error .json)
  | duplicate : env.fromJson payload = some event → s.marked (idemKey event) = true →
      Executes s (.mark payload) s (.ok none)
  | marked : env.fromJson payload = some event → s.marked (idemKey event) = false →
      Executes s (.mark payload) (s.putMark (idemKey event) .never) (.ok (some (.expire payload event)))
  | expired : s.marked (idemKey event) = true →
      Executes s (.expire payload event)
        (s.putMark (idemKey event) (.at (s.now + 3600))) (.ok (some (.log payload event)))
  | gone : s.marked (idemKey event) = false →
      Executes s (.expire payload event) s (.ok (some (.log payload event)))
  | refused : Repository.acceptsTransaction env event = false →
      Executes s (.log payload event) s (.error (.sql .invalidJson))
  | violates : Repository.acceptsTransaction env event = true →
      s.db.insertTransaction (Repository.transactionRow env event) = .error e →
      Executes s (.log payload event) s (.error (.sql e))
  | recorded : Repository.acceptsTransaction env event = true →
      s.db.insertTransaction (Repository.transactionRow env event) = .ok db →
      event.status ≠ .success → Executes s (.log payload event) { s with db := db } (.ok none)
  | logged : Repository.acceptsTransaction env event = true →
      s.db.insertTransaction (Repository.transactionRow env event) = .ok db →
      event.status = .success →
      Executes s (.log payload event) { s with db := db } (.ok (some (.pay payload event)))
  | paid : Executes s (.pay payload event)
      { s with db := s.db.markSuccess event.paymentId event.orderId } (.ok (some (.publish payload event)))
  | published : Executes s (.publish payload event)
      { s with confirmed := s.confirmed ++ [payload] } (.ok none)

theorem executes_next (s : Store) (h : Handling) :
    Executes env s h ((h.next env).exec s).2 ((h.next env).exec s).1 := by
  cases h with
  | mark payload =>
    simp only [Handling.next, parseEvent]
    cases decoded : env.fromJson payload with
    | none => exact .malformed decoded
    | some event =>
      simp only [Effect.exec_bind, Effect.exec_pure, setNx, Effect.exec_statement]
      by_cases present : s.marked (idemKey event) = true
      · simpa only [present, if_true] using .duplicate decoded present
      · rw [Bool.not_eq_true] at present
        simpa only [present] using .marked decoded present
  | expire payload event =>
    simp only [Handling.next, expire, Effect.exec_bind, Effect.exec_statement]
    by_cases present : s.marked (idemKey event) = true
    · simpa only [present, if_true] using .expired present
    · rw [Bool.not_eq_true] at present
      simpa only [present] using .gone present
  | log payload event =>
    simp only [Handling.next, Repository.logTransaction, Effect.exec_bind, exec_sql]
    by_cases accepted : Repository.acceptsTransaction env event = true
    · simp only [accepted, if_true]
      cases inserted : s.db.insertTransaction (Repository.transactionRow env event) with
      | ok db =>
        by_cases success : event.status = .success
        · simpa only [success, if_true] using .logged accepted inserted success
        · simpa only [success, if_false] using .recorded accepted inserted success
      | error e => exact .violates accepted inserted
    · rw [Bool.not_eq_true] at accepted
      simpa only [accepted] using .refused accepted
  | pay payload event => exact .paid
  | publish payload event => exact .published

/-- The listed outcomes are what the statement computes. -/
theorem Executes.exec (h : Executes env s handling t answer) :
    (handling.next env).exec s = (answer, t) := by
  cases h with
  | malformed decoded | duplicate decoded present | marked decoded absent =>
    simp [Handling.next, parseEvent, setNx, Store.putMark, *]
  | expired present | gone absent =>
    simp [Handling.next, PaymentBackend.expire, Store.putMark, *]
  | refused accepted | violates accepted inserted | recorded accepted inserted other
  | logged accepted inserted success =>
    simp [Handling.next, Repository.logTransaction, exec_sql, *]
  | paid => rfl
  | published => rfl

/-- What a statement answers, read as the position of the function afterwards. -/
def continuation : Except Failure (Option β) → Option β
  | .ok next => next
  | .error _ => none

theorem continuation_eq_some : continuation answer = some next ↔ answer = .ok (some next) := by
  cases answer with
  | ok a => simp [continuation]
  | error e => simp [continuation]

/-- The outcomes of one statement of the loop in `reconcile_once`. -/
inductive Settles : Store → Reconciling → Store → Option Reconciling → Prop where
  | finished : Settles s (.pay []) s none
  | paid : Settles s (.pay ((paymentId, orderId, gateway) :: pending))
      { s with db := s.db.markSuccess paymentId orderId } (some (.settle paymentId gateway pending))
  | settled : s.db.insertSettlement
        ⟨paymentId, gateway, "settle-" ++ paymentId.hyphenated, 100, .matched⟩ = .ok db →
      Settles s (.settle paymentId gateway pending) { s with db := db } (some (.pay pending))
  | failed : Settles s (.settle paymentId gateway pending) s none

theorem settles_next (s : Store) (r : Reconciling) :
    Settles s r ((r.next env).exec s).2 (continuation ((r.next env).exec s).1) := by
  cases r with
  | pay pending =>
    cases pending with
    | nil => exact .finished
    | cons head pending => exact .paid
  | settle paymentId gateway pending =>
    simp only [Reconciling.next, Repository.insertSettlement, Effect.exec_bind, exec_sql]
    by_cases accepted : env.acceptsText gateway = true
    · simp only [accepted, if_true]
      cases inserted : s.db.insertSettlement ⟨paymentId, gateway,
          "settle-" ++ paymentId.hyphenated, 100, .matched⟩ with
      | ok db => exact .settled inserted
      | error e => exact .failed
    · rw [Bool.not_eq_true] at accepted
      simpa only [accepted] using .failed

theorem Executes.grows (h : Executes env s handling t answer) : s.db.Grows t.db := by
  cases h with
  | recorded _ inserted | logged _ inserted => exact Database.insertTransaction_grows inserted
  | paid => exact Database.markSuccess_grows _ _ _
  | _ => exact .refl _

theorem Settles.grows (h : Settles s reconciling t next) : s.db.Grows t.db := by
  cases h with
  | paid => exact Database.markSuccess_grows _ _ _
  | settled inserted => exact Database.insertSettlement_grows inserted
  | finished => exact .refl _
  | failed => exact .refl _

end PaymentBackend
