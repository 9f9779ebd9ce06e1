import PaymentProcessing.Backend.Consumer
import PaymentProcessing.Backend.Refinement

/-! The stream read again. A worker starts over from `0-0`, and the marks of old events have
expired; but what an event has left in the tables is found there and left as it is. Only
`updated_at`, which no statement reads, is set again, and the rows are without it. -/
namespace PaymentBackend
open Relational Transition

namespace Database
variable {db : Database} {p o : Uuid}

/-- All that the handling of this event would write is there. -/
def Absorbs (db : Database) (event : GatewayWebhookEvent) : Prop :=
  db.Logged event.key ∧
    (event.status = .success → db.Succeeded event.paymentId ∧ db.Paid event.orderId)

instance (db : Database) (event : GatewayWebhookEvent) : Decidable (db.Absorbs event) :=
  inferInstanceAs (Decidable (_ ∧ _))

/-- An update that was made before changes nothing. -/
theorem markSuccess_of_done (succeeded : db.Succeeded p) (paid : db.Paid o) :
    db.markSuccess p o = db := by
  have payments : updateWhere (·.id == p) setSuccess db.payments = db.payments := by
    refine updateWhere_of_done fun row member selected => ?_
    obtain ⟨other, present, named, status⟩ := succeeded
    have same : row.id = other.id := (eq_of_beq selected).trans named.symm
    rw [db.paymentsKey.unique member present same, setSuccess, ← status]
  have orders : updateWhere (·.id == o) setPaid db.orders = db.orders := by
    refine updateWhere_of_done fun row member selected => ?_
    obtain ⟨other, present, named, status⟩ := paid
    have same : row.id = other.id := (eq_of_beq selected).trans named.symm
    rw [db.ordersKey.unique member present same, setPaid, ← status]
  unfold markSuccess
  simp only [payments, orders]

theorem insertTransaction_of_logged (row : TransactionRow) (logged : db.Logged row.event) :
    db.insertTransaction row = .ok db := by
  obtain ⟨r, member, same⟩ := logged
  have conflict : ¬ ∀ r ∈ db.transactions, r.event ≠ row.event := fun fresh => fresh r member same
  rw [insertTransaction, dif_neg conflict]

end Database

/-- A statement for an event that was absorbed leaves the tables as they are. -/
theorem Executes.of_absorbed (h : Executes env s handling t answer)
    (absorbed : ∀ event, handling.held = some event → s.db.Absorbs event)
    (reached : handling.Reached env s) : t.db = s.db := by
  cases h with
  | malformed | duplicate | marked | expired | gone | refused | violates | published => rfl
  | recorded _ inserted | logged _ inserted =>
    have known := Database.insertTransaction_of_logged (Repository.transactionRow env _)
      (absorbed _ rfl).1
    cases inserted.symm.trans known
    rfl
  | paid =>
    obtain ⟨succeeded, paid⟩ := (absorbed _ rfl).2 reached.2.1
    exact Database.markSuccess_of_done succeeded paid

/-- Reading and handling the stream, with any failures and crashes, as time passes. -/
def Action.rereads : Action → Bool
  | .elapse _ | .read _ | .take _ | .statement _ | .failure .. | .crash _ => true
  | _ => false

namespace Services
variable {env : Externals} {gateways : List PaymentGateway} {s t : Services}

/-- The events of these entries were absorbed. -/
def Absorbed (env : Externals) (stream : List StreamEntry) (db : Database) : Prop :=
  ∀ entry ∈ stream, ∀ event ∈ entry.payload.bind env.fromJson, db.Absorbs event

instance (env : Externals) (stream : List StreamEntry) (db : Database) :
    Decidable (Absorbed env stream db) :=
  inferInstanceAs (Decidable (∀ _ ∈ _, ∀ _ ∈ _, _))

theorem Absorbed.of_held (absorbed : Absorbed env s.store.stream s.store.db) (sound : s.Sound env)
    (current : (s.workers w).processor.current = some (entry, handling))
    (held : handling.held = some event) : s.store.db.Absorbs event := by
  obtain ⟨x, member, carries⟩ := (sound.workers w).received entry handling current
  have decoded := ((sound.workers w).reached entry handling current).decoded held
  exact absorbed x member event (by simp [carries, decoded])

theorem step_rereads (h : step env gateways s a = some t) (rereads : a.rereads = true)
    (sound : s.Sound env) (absorbed : Absorbed env s.store.stream s.store.db) :
    t.store.stream = s.store.stream ∧ t.store.db = s.store.db := by
  cases step_moves env gateways h with
  | request a u api =>
    cases a with
    | elapse n =>
      obtain rfl : _ = u := congrArg Services.store (Option.some.inj h)
      exact ⟨rfl, rfl⟩
    | _ => contradiction
  | webhook | sweep | reconcile | abandoned => contradiction
  | elapse | read | crash => exact ⟨rfl, rfl⟩
  | take => simp
  | statement w entry handling u answer current executed =>
    have reached := (sound.workers w).reached entry handling current
    rw [proceed_store]
    exact ⟨executed.stream,
      executed.of_absorbed (fun event held => absorbed.of_held sound current held) reached⟩
  | failed w applied entry handling u current outcome =>
    have reached := (sound.workers w).reached entry handling current
    rcases outcome with ⟨rfl, -⟩ | ⟨-, answer, executed⟩
    · exact ⟨rfl, rfl⟩
    · exact ⟨executed.stream,
        executed.of_absorbed (fun event held => absorbed.of_held sound current held) reached⟩

/-- Once the events of the stream have been absorbed, any number of workers may read it again, from
any place, with crashes and failures at any statement and after any time: every column of the
tables but `updated_at` stays as it is. -/
theorem run_rereads (env : Externals) (gateways : List PaymentGateway) (past schedule : List Action)
    (s t : Services) (reached : run (step env gateways) initial past = some s)
    (absorbed : Absorbed env s.store.stream s.store.db)
    (rereads : ∀ a ∈ schedule, a.rereads = true)
    (h : run (step env gateways) s schedule = some t) : t.store.db = s.store.db := by
  have kept : t.Sound env ∧ t.store.stream = s.store.stream ∧ t.store.db = s.store.db := by
    refine invariant_of_meets (C := fun _ a => a.rereads = true)
      (I := fun u => u.Sound env ∧ u.store.stream = s.store.stream ∧ u.store.db = s.store.db) ?_
      ⟨run_sound reached, rfl, rfl⟩ (Meets.of_forall rereads s) h
    rintro u a v ⟨sound, stream, db⟩ allowed stepped
    have still : Absorbed env u.store.stream u.store.db := by rwa [stream, db]
    obtain ⟨stream', db'⟩ := step_rereads stepped allowed sound still
    exact ⟨(step_moves env gateways stepped).sound sound, stream'.trans stream, db'.trans db⟩
  exact kept.2.2

/-- The events of order 1 were absorbed, and their worker starts over from `0-0`. -/
def Sample.absorbed : List Action :=
  Sample.orders ++ [.receiveWebhook "Razorpay" Sample.event, .read 0] ++ Sample.handle 0 5 ++
    [.elapse 4000, .crash 0]

theorem absorbed_rereads : ∃ s t,
    run (step (Sample.env [Sample.event]) configuredGateways) initial Sample.absorbed = some s ∧
    run (step (Sample.env [Sample.event]) configuredGateways) s (.read 0 :: Sample.handle 0 5) = some t ∧
    t.store.confirmed.length = 2 ∧ t.store.db = s.store.db := by
  have runs : ∃ s ∈ run (step (Sample.env [Sample.event]) configuredGateways) initial Sample.absorbed,
      Absorbed (Sample.env [Sample.event]) s.store.stream s.store.db ∧
      ∃ t ∈ run (step (Sample.env [Sample.event]) configuredGateways) s (.read 0 :: Sample.handle 0 5),
        t.store.confirmed.length = 2 := by decide +kernel
  obtain ⟨s, reached, absorbed, t, h, confirmed⟩ := runs
  exact ⟨s, t, reached, h, confirmed,
    run_rereads _ _ _ _ s t reached absorbed (by simp [Sample.handle, Action.rereads]) h⟩

end Services

/-- `handle_event` on one payload after the other, whatever each call answers. -/
def handleAll (env : Externals) (s : Store) (events : List (Nat × String)) : Store :=
  events.foldl (fun s event => ((handleEvent env event.2).exec s).2) s

theorem handleAll_concat (env : Externals) (s : Store) (events : List (Nat × String))
    (event : Nat × String) : handleAll env s (events ++ [event]) =
      ((handleEvent env event.2).exec (handleAll env s events)).2 := by
  rw [handleAll, List.foldl_append]
  rfl

/-- One statement of a call on its way to its return. -/
theorem Returns.statement (returns : Returns env s handling u result)
    (executed : Executes env s handling t answer) : match continuation answer with
      | none => t = u
      | some following => Returns env t following u result := by
  cases returns with
  | returned last =>
    cases executed.exec.symm.trans last.exec
    rfl
  | failed last =>
    cases executed.exec.symm.trans last.exec
    rfl
  | next first rest =>
    cases executed.exec.symm.trans first.exec
    exact rest

namespace Services
variable {env : Externals} {gateways : List PaymentGateway} {s t u : Services} {w : Nat}
open Consumer (upTo after Ordered)

/-- In every reachable state a worker is a consumer that has kept its place. -/
theorem run_consumer (h : run (step env gateways) initial schedule = some s) (w : Nat) :
    s.Enqueued ∧ ∃ c, s.Consumes w c ∧ c.Kept := by
  refine invariant (I := fun s => s.Enqueued ∧ ∃ c, s.Consumes w c ∧ c.Kept) ?_ ?_ h
  · rintro s a t ⟨enqueued, c, consumes, kept⟩ stepped
    have moves := step_moves env gateways stepped
    have after := moves.enqueued enqueued
    refine ⟨after, ?_⟩
    by_cases crashes : a = .crash w
    · subst crashes
      cases stepped
      refine ⟨⟨s.store.stream, 0, [], none, []⟩, ⟨rfl, ?_, ?_, ?_⟩, ?_⟩
      iterate 3 simp [setWorker, Worker.booted]
      have unread : upTo s.store.stream 0 = [] :=
        Consumer.upTo_eq_nil fun entry member => (enqueued.bounds entry member).1
      exact ⟨enqueued.ordered, fun entry member => (enqueued.bounds entry member).1, Or.inl rfl,
        List.nil_prefix, by simp [unread]⟩
    · obtain ⟨events, d, ran, next⟩ := moves.consumes crashes enqueued consumes
      exact ⟨d, next, invariant Consumer.step_kept kept ran⟩
  · refine ⟨⟨List.Pairwise.nil, by simp [initial, Store.empty]⟩, .booted, ?_, Consumer.booted_kept⟩
    constructor <;> rfl

/-- A turn of the loop of this worker. -/
def Works (w : Nat) (a : Action) : Prop := a = .read w ∨ a = .take w ∨ a = .statement w

/-- Since `s`, worker `w` has called `handle_event` on these events one after the other, and may be
inside the call for another one. -/
structure Folds (env : Externals) (w : Nat) (s : Services) (handed : List (Nat × String))
    (u : Services) : Prop where
  stream : u.store.stream = s.store.stream
  cursor : upTo s.store.stream (u.workers w).processor.lastId =
    upTo s.store.stream (s.workers w).processor.lastId ++ handed
  next : ((u.workers w).processor.current.map fun call => (call.1, call.2.payload)).toList ++
    (u.workers w).processor.batch <+: after s.store.stream (u.workers w).processor.lastId
  idle : (u.workers w).processor.current = none → u.store = handleAll env s.store handed
  calling : ∀ entry handling, (u.workers w).processor.current = some (entry, handling) →
    ∃ result, Returns env u.store handling
      (handleAll env s.store (handed ++ [(entry, handling.payload)])) result

theorem step_folds (folds : Folds env w s handed t) (ordered : Ordered s.store.stream)
    (works : Works w a) (h : step env gateways t a = some u) : ∃ handed, Folds env w s handed u := by
  obtain ⟨stream, cursor, next, idle, calling⟩ := folds
  cases step_moves env gateways h with
  | read v lastId processor =>
    obtain rfl : v = w := by rcases works with same | same | same <;> cases same; rfl
    have left := processor_setProcessor t v ⟨lastId, readAfter t.store.stream lastId 50, none⟩ v
    rw [if_pos rfl] at left
    rw [processor] at cursor idle
    refine ⟨handed, stream, by rw [left, cursor], ?_, fun _ => idle rfl, by simp [left]⟩
    rw [left]
    exact stream ▸ Consumer.readAfter_prefix t.store.stream lastId 50
  | take v lastId entry payload rest processor =>
    obtain rfl : v = w := by rcases works with same | same | same <;> cases same; rfl
    have left := processor_setProcessor t v ⟨lastId, rest, some (entry, .mark payload)⟩ v
    rw [if_pos rfl, ← @noteSeen_workers env _ payload] at left
    rw [processor] at cursor next idle
    refine ⟨handed, by simpa using stream, by rw [left, cursor], by rw [left]; exact next, ?_, ?_⟩
    · rw [left]
      intro absent
      cases absent
    · rw [left]
      intro id handling current
      cases current
      rw [noteSeen_store, setProcessor_store, handleAll_concat, idle rfl]
      exact ⟨_, handleEvent_returns env payload _⟩
  | statement v entry handling x answer current executed =>
    obtain rfl : v = w := by rcases works with same | same | same <;> cases same; rfl
    obtain ⟨result, returns⟩ := calling entry handling current
    have onward := returns.statement executed
    have left := processor_proceed (t.withStore x) v entry (continuation answer) v
    rw [if_pos rfl] at left
    rw [current] at next
    have kept : ((t.withStore x).proceed v entry (continuation answer)).store.stream =
        s.store.stream := by
      rw [proceed_store]
      exact executed.stream.trans stream
    cases remains : continuation answer with
    | none =>
      -- the call returns, and the cursor moves past its event
      rw [remains] at onward left kept
      obtain ⟨later, whole⟩ := next
      obtain ⟨passed, ahead⟩ := Consumer.after_next ordered whole.symm
      refine ⟨handed ++ [(entry, handling.payload)], kept, ?_, ?_, fun _ => ?_, by simp [left]⟩
      · rw [left, passed]
        exact cursor ▸ List.append_assoc _ _ _
      · rw [left]
        exact ⟨later, ahead.symm⟩
      · rw [proceed_store]
        exact onward
    | some following =>
      rw [remains] at onward left kept
      have payload : following.payload = handling.payload :=
        (continuation_eq_some.mp remains ▸ executed).payload
      refine ⟨handed, kept, by rw [left]; exact cursor, ?_, ?_, ?_⟩
      · rw [left]
        change (some (entry, following.payload)).toList ++ (t.workers v).processor.batch <+: _
        rw [payload]
        exact next
      · rw [left]
        intro absent
        cases absent
      · rw [left]
        intro id handling current
        cases current
        rw [proceed_store, payload]
        exact ⟨result, onward⟩
  | request a x api => rcases works with rfl | rfl | rfl <;> cases api
  | elapse | webhook | failed | crash | sweep | reconcile | abandoned =>
    rcases works with same | same | same <;> cases same

/-- From any reachable state, a worker that is left alone between calls does to the stores what
`handle_event` does on the events between its cursors, one after the other. -/
theorem run_folds (env : Externals) (gateways : List PaymentGateway) (w : Nat)
    (past schedule : List Action) (s t : Services)
    (reached : run (step env gateways) initial past = some s)
    (idle : (s.workers w).processor.current = none) (alone : ∀ a ∈ schedule, Works w a)
    (h : run (step env gateways) s schedule = some t)
    (done : (t.workers w).processor.current = none) :
    ∃ handed, upTo s.store.stream (t.workers w).processor.lastId =
        upTo s.store.stream (s.workers w).processor.lastId ++ handed ∧
      t.store = handleAll env s.store handed := by
  obtain ⟨-, c, consumes, kept⟩ := run_consumer reached w
  have next := kept.next
  rw [consumes.current, consumes.batch, consumes.stream, consumes.lastId] at next
  have ordered : Ordered s.store.stream := consumes.stream ▸ kept.ordered
  have initial_folds : Folds env w s [] s :=
    ⟨rfl, (List.append_nil _).symm, next, fun _ => rfl, by simp [idle]⟩
  obtain ⟨handed, folds⟩ : ∃ handed, Folds env w s handed t := by
    refine invariant_of_meets (C := fun _ a => Works w a) (I := fun u => ∃ handed, Folds env w s handed u)
      ?_ ⟨[], initial_folds⟩ (Meets.of_forall alone s) h
    rintro u a v ⟨handed, folds⟩ works stepped
    exact step_folds folds ordered works stepped
  exact ⟨handed, folds.cursor, folds.idle done⟩

def Sample.twice : Externals := Sample.env [Sample.event, { Sample.event with gateway := "Cashfree" }]

/-- Webhooks of two gateways about one payment are received before the worker gets to them. -/
def Sample.received : List Action :=
  Sample.orders ++ [.receiveWebhook "Razorpay" Sample.event, .receiveWebhook "Cashfree" Sample.event]

def Sample.working : List Action := .read 0 :: (Sample.handle 0 5 ++ Sample.handle 0 5)

theorem received_folds : ∃ s t, run (step Sample.twice configuredGateways) initial
      Sample.received = some s ∧
    run (step Sample.twice configuredGateways) s Sample.working = some t ∧
    ∃ handed, upTo s.store.stream (t.workers 0).processor.lastId =
        upTo s.store.stream (s.workers 0).processor.lastId ++ handed ∧
      t.store = handleAll Sample.twice s.store handed := by
  have runs : ∃ s ∈ run (step Sample.twice configuredGateways) initial Sample.received,
      (s.workers 0).processor.current = none ∧
      ∃ t ∈ run (step Sample.twice configuredGateways) s Sample.working,
        (t.workers 0).processor.current = none := by decide +kernel
  obtain ⟨s, reached, idle, t, h, done⟩ := runs
  exact ⟨s, t, reached, h, run_folds _ _ 0 _ _ s t reached idle
    (by simp [Sample.working, Sample.handle, Works]) h done⟩

end Services
end PaymentBackend
