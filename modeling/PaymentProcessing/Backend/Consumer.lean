import PaymentProcessing.Backend.InFlight

/-! `process_webhooks` as a reader of a stream that anybody may append to, within one
lifetime of a worker. What `handle_event` does and answers is left open: the cursor
moves on either way. -/
namespace PaymentBackend
open Transition

/-- The loop: its cursor, the events read and not yet handed over, and the one that
`handle_event` is working on. -/
structure Consumer where
  stream : List StreamEntry
  lastId : Nat
  batch : List (Nat × String)
  current : Option (Nat × String)
  /-- The payloads given to `handle_event` so far; never read. -/
  handed : List String

namespace Consumer

inductive Action where
  /-- `XADD` by any producer, with the id that Redis gives the entry. -/
  | append (id : Nat) (payload : Option String)
  | read
  | readFailure
  | take
  /-- `handle_event` returns, with `Ok` or with an error. -/
  | return
  deriving DecidableEq, Repr

def booted : Consumer := ⟨[], 0, [], none, []⟩

def step (c : Consumer) : Action → Option Consumer
  | .append id payload =>
      if 0 < id ∧ ∀ entry ∈ c.stream, entry.id < id then
        some { c with stream := c.stream ++ [⟨id, payload⟩] }
      else none
  | .read =>
      if c.batch = [] ∧ c.current = none then
        some { c with batch := readAfter c.stream c.lastId 50 }
      else none
  | .readFailure => if c.batch = [] ∧ c.current = none then some c else none
  | .take =>
      match c.batch, c.current with
      | event :: rest, none =>
          some { c with batch := rest, current := some event, handed := c.handed ++ [event.2] }
      | _, _ => none
  | .return =>
      match c.current with
      | some event => some { c with lastId := event.1, current := none }
      | none => none

theorem step_take {c : Consumer} (batch : c.batch = event :: rest) (idle : c.current = none) :
    c.step .take =
      some { c with batch := rest, current := some event, handed := c.handed ++ [event.2] } := by
  simp only [step, batch, idle]

theorem step_return {c : Consumer} (current : c.current = some event) :
    c.step .return = some { c with lastId := event.1, current := none } := by
  simp only [step, current]

/-- The events up to a cursor, and those after it. -/
def upTo (stream : List StreamEntry) (id : Nat) : List (Nat × String) :=
  (stream.filter (·.id ≤ id)).filterMap StreamEntry.carried

def after (stream : List StreamEntry) (id : Nat) : List (Nat × String) :=
  (stream.filter (id < ·.id)).filterMap StreamEntry.carried

section Stream
variable {stream : List StreamEntry} {event : Nat × String} {id : Nat}

def Ordered (stream : List StreamEntry) : Prop := stream.Pairwise (·.id < ·.id)

theorem mem_carried (h : event ∈ stream.filterMap StreamEntry.carried) :
    ∃ entry ∈ stream, entry.id = event.1 ∧ entry.payload = some event.2 := by
  obtain ⟨entry, member, carries⟩ := List.mem_filterMap.mp h
  obtain ⟨payload, present, rfl⟩ := Option.map_eq_some_iff.mp carries
  exact ⟨entry, member, rfl, present⟩

theorem mem_after (h : event ∈ after stream id) : id < event.1 := by
  obtain ⟨entry, member, same, -⟩ := mem_carried h
  rw [← same]
  exact of_decide_eq_true (List.mem_filter.mp member).2

theorem upTo_eq_nil (above : ∀ entry ∈ stream, id < entry.id) : upTo stream id = [] := by
  have none : stream.filter (·.id ≤ id) = [] := by
    rw [List.filter_eq_nil_iff]
    intro entry member
    simpa using above entry member
  rw [upTo, none, List.filterMap_nil]

theorem upTo_cons (x : StreamEntry) :
    upTo (x :: stream) id = (if x.id ≤ id then x.carried.toList else []) ++ upTo stream id := by
  by_cases reached : x.id ≤ id
  · cases carries : x.carried <;> simp [upTo, reached, carries]
  · simp [upTo, reached]

theorem after_cons (x : StreamEntry) :
    after (x :: stream) id = (if id < x.id then x.carried.toList else []) ++ after stream id := by
  by_cases beyond : id < x.id
  · cases carries : x.carried <;> simp [after, beyond, carries]
  · simp [after, beyond]

theorem upTo_append (beyond : id < x.id) : upTo (stream ++ [x]) id = upTo stream id := by
  simp [upTo, List.filter_append, Nat.not_le.mpr beyond]

theorem after_append (stream : List StreamEntry) (x : StreamEntry) (id : Nat) :
    after stream id <+: after (stream ++ [x]) id := by
  simp only [after, List.filter_append, List.filterMap_append]
  exact List.prefix_append _ _

theorem readAfter_prefix (stream : List StreamEntry) (id count : Nat) :
    readAfter stream id count <+: after stream id :=
  (List.take_prefix count _).filterMap _

/-- The first event after the cursor is the next one up to it. -/
theorem after_next (ordered : Ordered stream) (next : after stream id = event :: more) :
    upTo stream event.1 = upTo stream id ++ [event] ∧ after stream event.1 = more := by
  induction stream with
  | nil => cases next
  | cons x stream ih =>
    obtain ⟨above, ordered⟩ := List.pairwise_cons.mp ordered
    have beyond : id < event.1 := mem_after (next ▸ List.mem_cons_self)
    rw [after_cons] at next
    rw [upTo_cons, upTo_cons, after_cons]
    by_cases fresh : id < x.id
    · have unread : upTo stream id = [] :=
        upTo_eq_nil fun entry member => Nat.lt_trans fresh (above entry member)
      cases carries : x.carried with
      | some found =>
        simp only [fresh, carries, if_true, Option.toList_some, List.singleton_append,
          List.cons.injEq] at next
        obtain ⟨rfl, rest⟩ := next
        have same : found.1 = x.id := by
          obtain ⟨payload, -, rfl⟩ := Option.map_eq_some_iff.mp carries
          rfl
        have later : upTo stream x.id = [] := upTo_eq_nil above
        have all : after stream x.id = after stream id := by
          simp only [after]
          congr 1
          apply List.filter_congr
          intro entry member
          simp [above entry member, Nat.lt_trans fresh (above entry member)]
        simp [same, fresh, unread, later, all, rest]
      | none =>
        simp only [carries, Option.toList_none, ite_self, List.nil_append] at next ⊢
        exact ih ordered next
    · simp only [fresh, if_false, List.nil_append] at next
      obtain ⟨read, rest⟩ := ih ordered next
      have early : x.id ≤ id := Nat.le_of_not_lt fresh
      have passed : x.id ≤ event.1 := by omega
      rw [if_pos early, if_pos passed, if_neg (by omega), read, rest, List.append_assoc]
      exact ⟨rfl, rfl⟩

end Stream

/-- Cursor, batch and stream: what was handed over is what the cursor has passed, and
what was read is what comes next. -/
structure Kept (c : Consumer) : Prop where
  ordered : Ordered c.stream
  positive : ∀ entry ∈ c.stream, 0 < entry.id
  cursor : c.lastId = 0 ∨ ∃ entry ∈ c.stream, entry.id = c.lastId
  next : c.current.toList ++ c.batch <+: after c.stream c.lastId
  handed : c.handed = (upTo c.stream c.lastId ++ c.current.toList).map Prod.snd

theorem Kept.cursor_lt {c : Consumer} {id : Nat} (kept : c.Kept) (positive : 0 < id)
    (above : ∀ entry ∈ c.stream, entry.id < id) : c.lastId < id := by
  rcases kept.cursor with zero | ⟨entry, member, same⟩
  · rwa [zero]
  · exact same ▸ above entry member

theorem step_kept {c d : Consumer} (kept : c.Kept) (stepped : c.step a = some d) : d.Kept := by
  cases a with
  | append id payload =>
    simp only [step] at stepped
    split at stepped
    · rename_i fresh
      cases stepped
      have beyond := kept.cursor_lt fresh.1 fresh.2
      refine ⟨?_, ?_, ?_, kept.next.trans (after_append _ _ _), ?_⟩
      · apply List.pairwise_append.mpr
        exact ⟨kept.ordered, List.pairwise_singleton _ _,
          fun x member y single => List.mem_singleton.mp single ▸ fresh.2 x member⟩
      · intro entry member
        rcases List.mem_append.mp member with old | new
        · exact kept.positive entry old
        · rw [List.mem_singleton.mp new]
          exact fresh.1
      · rcases kept.cursor with zero | ⟨entry, member, same⟩
        · exact Or.inl zero
        · exact Or.inr ⟨entry, List.mem_append_left _ member, same⟩
      · simpa only [upTo_append (x := ⟨id, payload⟩) beyond] using kept.handed
    · contradiction
  | read =>
    simp only [step] at stepped
    split at stepped
    · rename_i idle
      cases stepped
      have next := readAfter_prefix c.stream c.lastId 50
      exact ⟨kept.ordered, kept.positive, kept.cursor, by simpa [idle.2] using next, kept.handed⟩
    · contradiction
  | readFailure =>
    simp only [step] at stepped
    split at stepped
    · cases stepped
      exact kept
    · contradiction
  | take =>
    simp only [step] at stepped
    split at stepped
    · rename_i event rest batch idle
      cases stepped
      have next := kept.next
      have handed := kept.handed
      rw [idle, batch] at next
      rw [idle] at handed
      refine ⟨kept.ordered, kept.positive, kept.cursor, by simpa using next, ?_⟩
      simp [handed]
    · contradiction
  | «return» =>
    simp only [step] at stepped
    split at stepped
    · rename_i event current
      cases stepped
      obtain ⟨later, whole⟩ := kept.next
      rw [current] at whole
      obtain ⟨passed, rest⟩ := after_next kept.ordered whole.symm
      have handed := kept.handed
      rw [current] at handed
      refine ⟨kept.ordered, kept.positive, Or.inr ?_, ⟨later, rest.symm⟩, ?_⟩
      · have member : event ∈ after c.stream c.lastId := whole ▸ List.mem_cons_self
        obtain ⟨entry, inside, same, -⟩ := mem_carried member
        exact ⟨entry, List.mem_of_mem_filter inside, same⟩
      · simpa [passed] using handed
    · contradiction

theorem booted_kept : booted.Kept := by
  constructor <;> simp [booted, Ordered, upTo, after]

theorem run_kept (h : run step booted schedule = some c) : c.Kept :=
  invariant step_kept booted_kept h

theorem carried_payload (entries : List StreamEntry) :
    (entries.filterMap StreamEntry.carried).map Prod.snd = entries.filterMap (·.payload) := by
  rw [List.map_filterMap]
  apply List.filterMap_congr
  intro entry _
  cases carries : entry.payload <;> simp [StreamEntry.carried, carries]

/-- Whatever is appended when, whichever reads fail and whatever `handle_event` answers:
it has been given the payloads up to the cursor, each once and in the order of their ids,
and besides them only the one that it is working on. -/
theorem run_handed (schedule : List Action) (c : Consumer)
    (h : run step booted schedule = some c) :
    c.stream.Pairwise (·.id < ·.id) ∧
      c.handed = (c.stream.filter (·.id ≤ c.lastId)).filterMap (·.payload) ++
        (c.current.map Prod.snd).toList := by
  have kept := run_kept h
  refine ⟨kept.ordered, ?_⟩
  rw [kept.handed, List.map_append, upTo, carried_payload]
  cases c.current <;> rfl

/-- Entries without a payload in between, a read that fails, and an entry that arrives
while the first one is handled. -/
def gaps : List Action :=
  [.append 3 none, .append 5 (some "a"), .readFailure, .read, .take, .append 8 (some "b"),
    .append 9 none, .return, .read, .take, .return]

theorem gaps_handed : ∃ c, run step booted gaps = some c ∧
    c.handed = (c.stream.filter (·.id ≤ c.lastId)).filterMap (·.payload) ++
      (c.current.map Prod.snd).toList :=
  ⟨_, rfl, (run_handed gaps _ rfl).2⟩

end Consumer

namespace Services
variable {env : Externals} {gateways : List PaymentGateway} {s t : Services} {w : Nat}

/-- The consumer that a worker is. -/
structure Consumes (s : Services) (w : Nat) (c : Consumer) : Prop where
  stream : c.stream = s.store.stream
  lastId : c.lastId = (s.workers w).processor.lastId
  batch : c.batch = (s.workers w).processor.batch
  current : c.current =
    (s.workers w).processor.current.map fun call => (call.1, call.2.payload)

/-- The ids of the stream are those that `enqueue` gives. -/
structure Enqueued (s : Services) : Prop where
  ordered : Consumer.Ordered s.store.stream
  bounds : ∀ entry ∈ s.store.stream, 0 < entry.id ∧ entry.id ≤ s.store.stream.length

theorem processor_setProcessor (s : Services) (v : Nat) (p : Processor) (w : Nat) :
    ((s.setProcessor v p).workers w).processor =
      if w = v then p else (s.workers w).processor := by
  by_cases same : w = v
  · subst same
    simp [setProcessor, setWorker]
  · simp [setProcessor, setWorker, same]

theorem processor_setReconciler (s : Services) (v : Nat) (r : Option Reconciling) (w : Nat) :
    ((s.setReconciler v r).workers w).processor = (s.workers w).processor := by
  by_cases same : w = v
  · subst same
    simp [setReconciler, setWorker]
  · simp [setReconciler, setWorker, same]

theorem processor_proceed (s : Services) (v entry : Nat) (next : Option Handling) (w : Nat) :
    ((s.proceed v entry next).workers w).processor =
      if w = v then
        match next with
        | some following => { (s.workers v).processor with current := some (entry, following) }
        | none => { (s.workers v).processor with lastId := entry, current := none }
      else (s.workers w).processor := by
  cases next with
  | none => exact processor_setProcessor s v _ w
  | some following => exact processor_setProcessor s v _ w

end Services

theorem Executes.stream (h : Executes env s handling t answer) : t.stream = s.stream := by
  cases h <;> rfl

theorem Settles.stream (h : Settles s reconciling t next) : t.stream = s.stream := by
  cases h <;> rfl

theorem ApiEffect.stream (h : ApiEffect s t) : t.stream = s.stream := by
  cases h <;> rfl

namespace Services
variable {env : Externals} {gateways : List PaymentGateway} {s t : Services} {w : Nat}

/-- Only a webhook adds to the stream. -/
theorem Moves.stream (h : Moves env s a t) :
    t.store.stream = s.store.stream ∨ ∃ payload, (∀ v, t.workers v = s.workers v) ∧
      t.store.stream = s.store.stream ++ [⟨s.store.stream.length + 1, some payload⟩] := by
  cases h with
  | webhook gateway event payload same => exact Or.inr ⟨payload, fun _ => rfl, rfl⟩
  | request a u api effect => exact Or.inl effect.stream
  | statement v entry handling u answer current executed =>
    rw [proceed_store]
    exact Or.inl executed.stream
  | failed v applied entry handling u current outcome =>
    rcases outcome with ⟨rfl, -⟩ | ⟨-, answer, executed⟩
    · exact Or.inl rfl
    · exact Or.inl executed.stream
  | reconcile v reconciling u next current settled => exact Or.inl settled.stream
  | abandoned v applied reconciling u current outcome =>
    rcases outcome with rfl | ⟨-, next, settled⟩
    · exact Or.inl rfl
    · exact Or.inl settled.stream
  | take v => exact Or.inl (by simp)
  | _ => exact Or.inl rfl

theorem Moves.enqueued (h : Moves env s a t) (before : s.Enqueued) : t.Enqueued := by
  rcases h.stream with same | ⟨payload, -, more⟩
  · exact ⟨same ▸ before.ordered, same ▸ before.bounds⟩
  · refine ⟨?_, ?_⟩
    · rw [more]
      apply List.pairwise_append.mpr
      refine ⟨before.ordered, List.pairwise_singleton _ _, ?_⟩
      intro x member y single
      rw [List.mem_singleton.mp single]
      exact Nat.lt_succ_of_le (before.bounds x member).2
    · intro entry member
      rw [more, List.mem_append, List.mem_singleton] at member
      rw [more, List.length_append, List.length_singleton]
      rcases member with old | rfl
      · have bound := before.bounds entry old
        omega
      · exact ⟨Nat.succ_pos _, Nat.le_refl _⟩

/-- What a step does to the loop of one worker. -/
inductive LoopStep (s t : Services) (w : Nat) : Prop where
  | kept : (t.workers w).processor = (s.workers w).processor → LoopStep s t w
  | read : t.store.stream = s.store.stream → (s.workers w).processor = ⟨lastId, [], none⟩ →
      (t.workers w).processor = ⟨lastId, readAfter s.store.stream lastId 50, none⟩ → LoopStep s t w
  | taken : t.store.stream = s.store.stream →
      (s.workers w).processor = ⟨lastId, (entry, payload) :: rest, none⟩ →
      (t.workers w).processor = ⟨lastId, rest, some (entry, .mark payload)⟩ → LoopStep s t w
  | answered : t.store.stream = s.store.stream →
      (s.workers w).processor = ⟨lastId, batch, some (entry, handling)⟩ →
      (t.workers w).processor = ⟨lastId, batch, some (entry, next)⟩ →
      next.payload = handling.payload → LoopStep s t w
  | returned : t.store.stream = s.store.stream →
      (s.workers w).processor = ⟨lastId, batch, some (entry, handling)⟩ →
      (t.workers w).processor = ⟨entry, batch, none⟩ → LoopStep s t w

theorem Moves.loopStep (h : Moves env s a t) (alive : a ≠ .crash w) : LoopStep s t w := by
  cases h with
  | elapse | request | webhook => exact .kept rfl
  | read v lastId processor =>
    have after := processor_setProcessor s v ⟨lastId, readAfter s.store.stream lastId 50, none⟩ w
    split at after <;> rename_i same
    · exact .read rfl (same ▸ processor) after
    · exact .kept after
  | take v lastId entry payload rest processor =>
    have after := processor_setProcessor s v ⟨lastId, rest, some (entry, .mark payload)⟩ w
    rw [← @noteSeen_workers env _ payload] at after
    split at after <;> rename_i same
    · exact .taken (by simp) (same ▸ processor) after
    · exact .kept after
  | statement v entry handling u answer current executed =>
    have stream : ((s.withStore u).proceed v entry (continuation answer)).store.stream =
        s.store.stream := by
      rw [proceed_store]
      exact executed.stream
    have after := processor_proceed (s.withStore u) v entry (continuation answer) w
    split at after <;> rename_i same
    · subst same
      have before : (s.workers w).processor = ⟨(s.workers w).processor.lastId,
          (s.workers w).processor.batch, some (entry, handling)⟩ := by rw [← current]
      cases next : continuation answer with
      | none =>
        rw [next] at stream after
        exact .returned stream before after
      | some following =>
        rw [next] at stream after
        rw [continuation_eq_some.mp next] at executed
        exact .answered stream before after executed.payload
    · exact .kept after
  | failed v applied entry handling u current outcome =>
    have stream : u.stream = s.store.stream := by
      rcases outcome with ⟨rfl, -⟩ | ⟨-, answer, executed⟩
      · rfl
      · exact executed.stream
    have after := processor_proceed (s.withStore u) v entry none w
    split at after <;> rename_i same
    · subst same
      have before : (s.workers w).processor = ⟨(s.workers w).processor.lastId,
          (s.workers w).processor.batch, some (entry, handling)⟩ := by rw [← current]
      exact .returned stream before after
    · exact .kept after
  | crash v =>
    have other : w ≠ v := fun same => alive (same ▸ rfl)
    exact .kept (by simp [setWorker, other])
  | sweep v | reconcile v | abandoned v => exact .kept (processor_setReconciler _ v _ w)

/-- Each step of the services is one of the consumer that worker `w` is, or none. -/
theorem Moves.consumes (h : Moves env s a t) (alive : a ≠ .crash w) (enqueued : s.Enqueued)
    {c : Consumer} (consumes : s.Consumes w c) :
    ∃ schedule d, run Consumer.step c schedule = some d ∧ t.Consumes w d := by
  obtain ⟨stream, lastId, batch, current⟩ := consumes
  cases h.loopStep alive with
  | kept kept =>
    rcases h.stream with same | ⟨payload, -, more⟩
    · exact ⟨[], c, rfl, ⟨stream.trans same.symm, kept ▸ lastId, kept ▸ batch, kept ▸ current⟩⟩
    · have fresh : 0 < s.store.stream.length + 1 ∧
          ∀ entry ∈ c.stream, entry.id < s.store.stream.length + 1 := by
        refine ⟨Nat.succ_pos _, fun entry member => Nat.lt_succ_of_le ?_⟩
        exact (enqueued.bounds entry (stream ▸ member)).2
      refine ⟨[.append (s.store.stream.length + 1) (some payload)], _,
        run_cons_iff.mpr ⟨_, if_pos fresh, rfl⟩, ?_⟩
      exact ⟨by rw [more, stream], kept ▸ lastId, kept ▸ batch, kept ▸ current⟩
  | read same before after =>
    rw [before] at lastId batch current
    refine ⟨[.read], _, run_cons_iff.mpr ⟨_, if_pos ⟨batch, current⟩, rfl⟩, ?_⟩
    refine ⟨stream.trans same.symm, by rw [after, ← lastId], ?_, by rw [after, current]⟩
    rw [after, stream, lastId]
  | taken same before after =>
    rw [before] at lastId batch current
    exact ⟨[.take], _, run_cons_iff.mpr ⟨_, Consumer.step_take batch current, rfl⟩,
      stream.trans same.symm, by rw [after, ← lastId], by rw [after], by rw [after]; rfl⟩
  | answered same before after payload =>
    rw [before] at lastId batch current
    refine ⟨[], c, rfl, stream.trans same.symm, by rw [after, ← lastId], by rw [after, ← batch], ?_⟩
    rw [after, current, Option.map_some, Option.map_some, payload]
  | returned same before after =>
    rw [before] at lastId batch current
    exact ⟨[.return], _, run_cons_iff.mpr ⟨_, Consumer.step_return current, rfl⟩,
      stream.trans same.symm, by rw [after], by rw [after, ← batch], by rw [after]; rfl⟩

/-- From its boot to its crash, a worker of the services is a consumer of their stream. -/
theorem run_consumes (alive : .crash w ∉ schedule) (enqueued : s.Enqueued)
    (h : run (step env gateways) s schedule = some t) {c : Consumer} (consumes : s.Consumes w c) :
    ∃ schedule d, run Consumer.step c schedule = some d ∧ t.Consumes w d := by
  induction schedule generalizing s c with
  | nil =>
    cases h
    exact ⟨[], c, rfl, consumes⟩
  | cons a rest ih =>
    obtain ⟨u, stepped, h⟩ := run_cons_iff.mp h
    simp only [List.mem_cons, not_or] at alive
    have moves := step_moves env gateways stepped
    obtain ⟨first, d, reached, next⟩ := moves.consumes (Ne.symm alive.1) enqueued consumes
    obtain ⟨second, e, later, last⟩ := ih alive.2 (moves.enqueued enqueued) h next
    exact ⟨first ++ second, e, run_append_iff.mpr ⟨d, reached, later⟩, last⟩

end Services
end PaymentBackend
