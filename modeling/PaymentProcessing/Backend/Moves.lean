import PaymentProcessing.Backend.Services
import PaymentProcessing.Backend.Statements

/-! One inversion of the system step. `Moves` lists what each action can do to the
stores and to one worker, in terms of the outcomes of single statements; invariants
of whole runs are proved by cases on it and never unfold a handler. -/
namespace PaymentBackend

/-- What a request to the order and payment routes does to the stores. -/
inductive ApiEffect : Store → Store → Prop where
  | answered (sessions) : ApiEffect s { s with sessions := sessions }
  | order : row.status = .pending → s.db.insertOrder row = .ok db → ApiEffect s { s with db := db }
  | payment (sessions) : row.status = .pending → s.db.insertPayment row = .ok db →
      ApiEffect s { s with db := db, sessions := sessions }

section Handlers
variable (env : Externals) (gateways : List PaymentGateway)

/-- The row is inserted and answered, or nothing has happened. -/
theorem createOrder_exec (orderId : Uuid) (req : CreateOrderRequest) (s : Store) :
    (∃ e, (createOrder env orderId req).exec s = (.error e, s)) ∨
      ∃ db, s.db.insertOrder ⟨orderId, req.userId, req.amount, req.currency, .pending⟩ = .ok db ∧
        (createOrder env orderId req).exec s = (.ok ⟨orderId, .pending⟩, { s with db := db }) := by
  simp only [createOrder, Repository.createOrder, Effect.exec_bind, Effect.exec_mapError, exec_sql]
  by_cases accepted : (env.acceptsText req.userId && env.acceptsText req.currency) = true
  · simp only [accepted, if_true]
    cases inserted : s.db.insertOrder ⟨orderId, req.userId, req.amount, req.currency, .pending⟩ with
    | ok db => exact Or.inr ⟨db, rfl, rfl⟩
    | error e => exact Or.inl ⟨_, rfl⟩
  · rw [Bool.not_eq_true] at accepted
    exact Or.inl ⟨_, by simp only [accepted]; rfl⟩

theorem createOrder_effect (orderId : Uuid) (req : CreateOrderRequest) (s : Store) :
    ApiEffect s ((createOrder env orderId req).exec s).2 := by
  rcases createOrder_exec env orderId req s with ⟨e, nothing⟩ | ⟨db, inserted, answered⟩
  · rw [nothing]
    exact .answered s.sessions
  · rw [answered]
    exact .order rfl inserted

/-- Asking the gateways in turn only ever opens sessions. -/
theorem pickFrom_effect (lastError : Option String) (orderId paymentId : Uuid)
    (method : PaymentMethod) (gateways : List PaymentGateway) (s : Store) :
    ∃ sessions, ((SmartRouter.pickFrom lastError orderId paymentId method gateways).exec s).2 =
      { s with sessions := sessions } := by
  induction gateways generalizing lastError with
  | nil => exact ⟨s.sessions, rfl⟩
  | cons gateway rest ih =>
    simp only [SmartRouter.pickFrom, createCheckout, Effect.exec_statement]
    cases gateway.createCheckout s.now orderId paymentId method with
    | ok session => exact ⟨_, rfl⟩
    | error e => exact ih _

/-- Gateways have been asked, and the row of the session that was picked may have been inserted. -/
theorem initiatePayment_store (paymentId rowId : Uuid) (createdAt : Nat)
    (req : InitiatePaymentRequest) (s : Store) :
    ∃ sessions,
      ((initiatePayment env gateways paymentId rowId createdAt req).exec s).2 =
          { s with sessions := sessions } ∨
        ∃ (session : CheckoutSession) (db : Database), env.acceptsText session.gateway = true ∧
          s.db.insertPayment ⟨rowId, req.orderId, session.gateway, req.paymentMethod,
            session.checkoutUrl, .pending, createdAt⟩ = .ok db ∧
          ((initiatePayment env gateways paymentId rowId createdAt req).exec s).2 =
            { s with db := db, sessions := sessions } := by
  obtain ⟨sessions, opened⟩ :=
    pickFrom_effect none req.orderId paymentId req.paymentMethod gateways s
  refine ⟨sessions, ?_⟩
  simp only [initiatePayment, SmartRouter.pickCheckout, Repository.createPayment, Effect.exec_bind,
    Effect.exec_mapError, exec_sql]
  cases picked :
    (SmartRouter.pickFrom none req.orderId paymentId req.paymentMethod gateways).exec s with
  | mk answer t =>
    rw [picked] at opened
    simp only at opened
    subst opened
    cases answer with
    | error e => exact Or.inl rfl
    | ok session =>
      simp only [Except.mapError]
      by_cases accepted :
          (env.acceptsText session.gateway && env.acceptsText session.checkoutUrl) = true
      · simp only [accepted, if_true]
        rw [Bool.and_eq_true] at accepted
        cases inserted : s.db.insertPayment ⟨rowId, req.orderId, session.gateway, req.paymentMethod,
            session.checkoutUrl, .pending, createdAt⟩ with
        | ok db => exact Or.inr ⟨session, db, accepted.1, inserted, rfl⟩
        | error e => exact Or.inl rfl
      · rw [Bool.not_eq_true] at accepted
        exact Or.inl (by simp only [accepted]; rfl)

theorem initiatePayment_effect (paymentId rowId : Uuid) (createdAt : Nat)
    (req : InitiatePaymentRequest) (s : Store) :
    ApiEffect s ((initiatePayment env gateways paymentId rowId createdAt req).exec s).2 := by
  obtain ⟨sessions, asked | ⟨session, db, -, inserted, stored⟩⟩ :=
    initiatePayment_store env gateways paymentId rowId createdAt req s
  · rw [asked]
    exact .answered sessions
  · rw [stored]
    exact .payment sessions rfl inserted

theorem ApiEffect.grows (h : ApiEffect s t) : s.db.Grows t.db := by
  cases h with
  | answered => exact .refl _
  | order _ inserted => exact Database.insertOrder_grows inserted
  | payment _ _ inserted => exact Database.insertPayment_grows inserted

end Handlers

namespace Services

/-- The effects of the actions of the system. -/
inductive Moves (env : Externals) : Services → Action → Services → Prop where
  | elapse (n) : Moves env s (.elapse n) (s.withStore { s.store with now := s.store.now + n })
  | request (a t) : a.worker = none → ApiEffect s.store t → Moves env s a (s.withStore t)
  | webhook (gateway event payload) : payload = env.toJson { event with gateway := gateway } →
      Moves env s (.receiveWebhook gateway event) (s.withStore { s.store with
        stream := s.store.stream ++ [⟨s.store.stream.length + 1, some payload⟩]
        broadcast := s.store.broadcast ++ [payload] })
  | read (w lastId) : (s.workers w).processor = ⟨lastId, [], none⟩ →
      Moves env s (.read w) (s.setProcessor w ⟨lastId, readAfter s.store.stream lastId 50, none⟩)
  | take (w lastId entry payload rest) : (s.workers w).processor = ⟨lastId, (entry, payload) :: rest, none⟩ →
      Moves env s (.take w)
        ((s.setProcessor w ⟨lastId, rest, some (entry, .mark payload)⟩).noteSeen env payload)
  | statement (w entry handling t answer) : (s.workers w).processor.current = some (entry, handling) →
      Executes env s.store handling t answer →
      Moves env s (.statement w) ((s.withStore t).proceed w entry (continuation answer))
  | failed (w applied entry handling t) : (s.workers w).processor.current = some (entry, handling) →
      t = s.store ∧ applied = false ∨ applied = true ∧ (∃ answer, Executes env s.store handling t answer) →
      Moves env s (.failure w applied) ((s.withStore t).finish w entry)
  | crash (w) : Moves env s (.crash w) (s.setWorker w .booted)
  | sweep (w rows) : s.store.db.PendingRead rows →
      Moves env s (.sweep w rows)
        (s.setReconciler w (some (.pay (rows.map PaymentRow.selected))))
  | reconcile (w reconciling t next) : (s.workers w).reconciler = some reconciling →
      Settles s.store reconciling t next →
      Moves env s (.reconcile w) ((s.withStore t).setReconciler w next)
  | abandoned (w applied reconciling t) : (s.workers w).reconciler = some reconciling →
      t = s.store ∨ (applied = true ∧ ∃ next, Settles s.store reconciling t next) →
      Moves env s (.reconcileFailure w applied) ((s.withStore t).setReconciler w none)

theorem step_moves (env : Externals) (gateways : List PaymentGateway)
    (h : step env gateways s a = some t) : Moves env s a t := by
  cases a with
  | elapse n => cases h; exact .elapse n
  | createOrder orderId req =>
    cases h
    exact .request _ _ rfl (createOrder_effect env orderId req _)
  | initiatePayment paymentId rowId createdAt req =>
    cases h
    exact .request _ _ rfl
      (initiatePayment_effect env gateways paymentId rowId createdAt req _)
  | receiveWebhook gateway event => cases h; exact .webhook gateway event _ rfl
  | read w =>
    simp only [step] at h
    split at h
    · rename_i idle
      cases h
      cases processor : (s.workers w).processor with
      | mk lastId batch current =>
        simp only [processor, Bool.and_eq_true, List.isEmpty_iff, Option.isNone_iff_eq_none] at idle
        obtain ⟨rfl, rfl⟩ := idle
        exact .read w lastId processor
    · contradiction
  | take w =>
    simp only [step] at h
    split at h
    · rename_i processor
      cases h
      exact .take w _ _ _ _ processor
    · contradiction
  | statement w =>
    simp only [step] at h
    split at h
    · rename_i entry handling current
      have executed := executes_next env s.store handling
      split at h
      · rename_i answered
        cases h
        rw [answered] at executed
        exact .statement w entry handling _ _ current executed
      · rename_i failed
        cases h
        rw [failed] at executed
        exact .statement w entry handling _ _ current executed
    · contradiction
  | failure w applied =>
    simp only [step] at h
    split at h
    · rename_i entry handling current
      cases h
      refine .failed w applied entry handling _ current ?_
      cases applied with
      | false => exact Or.inl ⟨rfl, rfl⟩
      | true => exact Or.inr ⟨rfl, _, executes_next env s.store handling⟩
    · contradiction
  | crash w => cases h; exact .crash w
  | sweep w rows =>
    simp only [step] at h
    split at h
    · rename_i pending
      cases h
      exact .sweep w rows pending.1
    · contradiction
  | reconcile w =>
    simp only [step] at h
    split at h
    · rename_i reconciling current
      have settled := settles_next env s.store reconciling
      split at h
      · rename_i answered
        cases h
        rw [answered] at settled
        exact .reconcile w reconciling _ _ current settled
      · rename_i failed
        cases h
        rw [failed] at settled
        exact .reconcile w reconciling _ _ current settled
    · contradiction
  | reconcileFailure w applied =>
    simp only [step] at h
    split at h
    · rename_i reconciling current
      cases h
      refine .abandoned w applied reconciling _ current ?_
      cases applied with
      | false => exact Or.inl rfl
      | true => exact Or.inr ⟨rfl, _, settles_next env s.store reconciling⟩
    · contradiction

end Services
end PaymentBackend
