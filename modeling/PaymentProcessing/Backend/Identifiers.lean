import PaymentProcessing.Backend.Services
import PaymentProcessing.Backend.Statements

/-! The ids of one `initiate_payment`. The handler generates one for the gateway, the
repository another one for the row, and only the second is answered. -/
namespace PaymentBackend

/-- The id handed to the gateway that opened the session, the id of the inserted row and
the id of the response are the same. -/
def IdentifiersAgree (s t : Store) (resp : InitiatePaymentResponse) : Prop :=
  ∃ handed session row, t.sessions = s.sessions ++ [(handed, session)] ∧
    t.db.payments = s.db.payments ++ [row] ∧ row.id = handed ∧ resp.paymentId = handed

/-- A webhook that quotes the id handed to the gateway finds a payments row. -/
def QuotedRowExists (s t : Store) : Prop :=
  ∀ handed session, t.sessions = s.sessions ++ [(handed, session)] →
    ∃ p ∈ t.db.payments, p.id = handed

section Ids
variable {env : Externals} {gateways : List PaymentGateway} {s t : Store}

/-- The first gateway that answers gets the session, under the id that was passed on. -/
theorem pickFrom_ok (picked : (SmartRouter.pickFrom lastError orderId paymentId method gateways).exec s =
      (.ok session, t)) :
    t = { s with sessions := s.sessions ++ [(paymentId, session)] } ∧
      ∃ gateway ∈ gateways, gateway.createCheckout s.now orderId paymentId method = .ok session := by
  induction gateways generalizing lastError with
  | nil =>
    rw [SmartRouter.pickFrom, Effect.exec_throw] at picked
    cases picked
  | cons gateway rest ih =>
    simp only [SmartRouter.pickFrom, createCheckout, Effect.exec_statement] at picked
    cases answered : gateway.createCheckout s.now orderId paymentId method with
    | ok opened =>
      rw [answered] at picked
      cases picked
      exact ⟨rfl, gateway, List.mem_cons_self, answered⟩
    | error e =>
      rw [answered] at picked
      obtain ⟨left, other, member, found⟩ := ih picked
      exact ⟨left, other, List.mem_cons_of_mem gateway member, found⟩

theorem sql_ok (done : (sql query).exec s = (.ok u, t)) :
    ∃ db, query s.db = .ok db ∧ t = { s with db := db } := by
  rw [exec_sql] at done
  split at done
  · rename_i db answered
    cases done
    exact ⟨db, answered, rfl⟩
  · cases done

theorem createPayment_ok
    (created : (Repository.createPayment env rowId orderId gateway method url createdAt).exec s =
      (.ok answered, t)) :
    answered = rowId ∧ ∃ db, t = { s with db := db } ∧
      s.db.insertPayment ⟨rowId, orderId, gateway, method, url, .pending, createdAt⟩ = .ok db := by
  obtain ⟨_, u, inserted, answers⟩ := Effect.exec_bind_ok.mp created
  obtain ⟨db, accepted, rfl⟩ := sql_ok inserted
  cases answers
  split at accepted
  · exact ⟨rfl, db, rfl, accepted⟩
  · contradiction

theorem initiatePayment_ok
    (ok : (initiatePayment env gateways paymentId rowId createdAt req).exec s = (.ok resp, t)) :
    ∃ session row, t.sessions = s.sessions ++ [(paymentId, session)] ∧
      t.db.payments = s.db.payments ++ [row] ∧ row.id = rowId ∧ resp.paymentId = rowId := by
  obtain ⟨session, u, picked, ok⟩ := Effect.exec_bind_ok.mp ok
  obtain ⟨created, v, inserted, ok⟩ := Effect.exec_bind_ok.mp ok
  obtain ⟨rfl, -⟩ := pickFrom_ok (Effect.mapError_ok.mp picked)
  obtain ⟨rfl, db, rfl, accepted⟩ := createPayment_ok (Effect.mapError_ok.mp inserted)
  obtain ⟨-, -, payments, -⟩ := Database.insertPayment_ok accepted
  cases ok
  exact ⟨session, _, rfl, payments, rfl, rfl⟩

/-- Different ids that were generated stay apart in everything that comes of them. -/
theorem disagreement (distinct : paymentId ≠ rowId) (fresh : ∀ p ∈ s.db.payments, p.id ≠ paymentId)
    (ok : (initiatePayment env gateways paymentId rowId createdAt req).exec s = (.ok resp, t)) :
    ¬ IdentifiersAgree s t resp ∧ ¬ QuotedRowExists s t := by
  obtain ⟨session, row, sessions, payments, named, answered⟩ := initiatePayment_ok ok
  constructor
  · rintro ⟨handed, session', _, sessions', -, -, same⟩
    have opened := List.append_cancel_left (sessions.symm.trans sessions')
    have handed_eq : paymentId = handed := by simpa using congrArg (·.map Prod.fst) opened
    exact distinct (handed_eq.trans (same.symm.trans answered))
  · intro exists_
    obtain ⟨p, member, same⟩ := exists_ paymentId session sessions
    rw [payments] at member
    cases List.mem_append.mp member with
    | inl old => exact fresh p old same
    | inr new =>
      rw [List.mem_singleton.mp new, named] at same
      exact distinct same.symm

end Ids

/-- A payment whose handler got two different fresh ids never has one identifier, and no
webhook about it finds its row. -/
theorem initiatePayment_disagrees (env : Externals) (gateways : List PaymentGateway)
    (paymentId rowId : Uuid) (createdAt : Nat) (req : InitiatePaymentRequest) (s t : Store)
    (resp : InitiatePaymentResponse) (distinct : paymentId ≠ rowId)
    (fresh : ∀ p ∈ s.db.payments, p.id ≠ paymentId ∧ p.id ≠ rowId)
    (ok : (initiatePayment env gateways paymentId rowId createdAt req).exec s = (.ok resp, t)) :
    ¬ IdentifiersAgree s t resp ∧ ¬ QuotedRowExists s t :=
  disagreement distinct (fun p member => (fresh p member).1) ok

/-- Order 1, with no payment yet. -/
def orderedStore : Store :=
  ((createOrder (Sample.env []) 1 ⟨"u1", 45000, "INR"⟩).exec .empty).2

theorem orderedStore_initiates : ∃ resp t,
    (initiatePayment (Sample.env []) configuredGateways 10 11 0 ⟨1, .upi⟩).exec orderedStore =
      (.ok resp, t) := ⟨_, _, rfl⟩

theorem orderedStore_fresh : ∀ p ∈ orderedStore.db.payments, p.id ≠ 10 ∧ p.id ≠ 11 := by
  intro p member
  exact absurd member List.not_mem_nil

/-- The gateway is told 10, the row and the answer say 11. -/
theorem orderedStore_disagrees : ∃ resp t,
    (initiatePayment (Sample.env []) configuredGateways 10 11 0 ⟨1, .upi⟩).exec orderedStore =
      (.ok resp, t) ∧ ¬ IdentifiersAgree orderedStore t resp ∧ ¬ QuotedRowExists orderedStore t := by
  obtain ⟨resp, t, ok⟩ := orderedStore_initiates
  exact ⟨resp, t, ok,
    initiatePayment_disagrees _ _ _ _ _ _ _ _ _ (by decide) orderedStore_fresh ok⟩

theorem identifiers_not_agreed :
    ¬ ∀ (env : Externals) gateways paymentId rowId createdAt req s resp t, paymentId ≠ rowId →
      (∀ p ∈ s.db.payments, p.id ≠ paymentId ∧ p.id ≠ rowId) →
      (initiatePayment env gateways paymentId rowId createdAt req).exec s = (.ok resp, t) →
      IdentifiersAgree s t resp ∧ QuotedRowExists s t := by
  intro claim
  obtain ⟨resp, t, ok⟩ := orderedStore_initiates
  have agreed := claim _ _ 10 11 _ _ _ resp t (by decide) orderedStore_fresh ok
  have apart := disagreement (by decide) (fun p member => (orderedStore_fresh p member).1) ok
  exact apart.1 agreed.1

end PaymentBackend
