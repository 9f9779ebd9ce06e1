import Mathlib.Data.List.Infix
import Mathlib.Data.List.Pairwise
import PaymentProcessing.Backend.Consumer

/-! How far the cursor of `process_webhooks` gets. Each iteration reads at most fifty entries,
drops those without a payload and moves the cursor to the last one that is left. -/
namespace PaymentBackend.Consumer
open Transition

/-- `last_id` after an iteration in which nothing fails. -/
def advance (stream : List StreamEntry) (lastId : Nat) : Nat :=
  ((readAfter stream lastId 50).getLast?.map Prod.fst).getD lastId

/-- The actions of an iteration that is given `n` events and meets no error. -/
def iterationOf (n : Nat) : List Action :=
  .read :: (List.replicate n [Action.take, .return]).flatten

theorem run_batch {c : Consumer} (idle : c.current = none) :
    run step c (List.replicate c.batch.length [Action.take, .return]).flatten =
      some { c with
        batch := []
        lastId := (c.batch.getLast?.map Prod.fst).getD c.lastId
        handed := c.handed ++ c.batch.map Prod.snd } := by
  obtain ⟨stream, lastId, batch, current, handed⟩ := c
  obtain rfl : current = none := idle
  induction batch generalizing lastId handed with
  | nil => simp
  | cons event rest ih =>
    have next := ih event.1 (handed ++ [event.2])
    have final : ((event :: rest).getLast?.map Prod.fst).getD lastId =
        (rest.getLast?.map Prod.fst).getD event.1 := by
      cases rest with
      | nil => rfl
      | cons other more => simp [List.getLast?_cons]
    simp only [List.length_cons, List.replicate_succ, List.flatten_cons, List.cons_append,
      List.nil_append, run, step, Option.bind_some, final, List.map_cons]
    rw [next, List.append_assoc, List.singleton_append]

/-- What an iteration does to a worker between two iterations. -/
theorem run_iteration {c : Consumer} (empty : c.batch = []) (idle : c.current = none) :
    run step c (iterationOf (readAfter c.stream c.lastId 50).length) =
      some { c with
        lastId := advance c.stream c.lastId
        handed := c.handed ++ (readAfter c.stream c.lastId 50).map Prod.snd } := by
  have read : c.step .read = some { c with batch := readAfter c.stream c.lastId 50 } := by
    simp [step, empty, idle]
  rw [iterationOf, run, read, Option.bind_some]
  have handing := run_batch (c := { c with batch := readAfter c.stream c.lastId 50 }) idle
  simpa only [empty, advance] using handing

/-- The stream as each of the iterations finds it. -/
structure Feed where
  stream : Nat → List StreamEntry
  ordered : ∀ n, Ordered (stream n)
  grows : ∀ n, stream n <+: stream (n + 1)

/-- `last_id` before each of the iterations. -/
def Feed.cursor (feed : Feed) (lastId : Nat) : Nat → Nat
  | 0 => lastId
  | n + 1 => advance (feed.stream n) (feed.cursor lastId n)

/-- The iterations move the cursor on until one of them hands the event over. -/
def Feed.Reaches (feed : Feed) (lastId : Nat) (event : Nat × String) : Prop :=
  ∃ n, (∀ k ≤ n, feed.cursor lastId k < feed.cursor lastId (k + 1)) ∧
    event ∈ readAfter (feed.stream n) (feed.cursor lastId n) 50

/-- The entries after a cursor, up to an id. -/
def between (stream : List StreamEntry) (lastId id : Nat) : List StreamEntry :=
  stream.filter fun entry => lastId < entry.id ∧ entry.id ≤ id

/-- Fifty entries in a row carry no payload. -/
def Clogged (entries : List StreamEntry) : Prop :=
  ∃ block, block <:+: entries ∧ block.length = 50 ∧ ∀ entry ∈ block, entry.payload = none

section Window
variable {stream : List StreamEntry} {event : Nat × String} {lastId id : Nat}

theorem Ordered.split (ordered : Ordered stream) (id : Nat) :
    stream = stream.filter (·.id ≤ id) ++ stream.filter (id < ·.id) := by
  induction stream with
  | nil => rfl
  | cons x rest ih =>
    obtain ⟨above, ordered⟩ := List.pairwise_cons.mp ordered
    by_cases early : x.id ≤ id
    · have late : ¬ id < x.id := Nat.not_lt.mpr early
      simp only [List.filter_cons, early, late, decide_true, decide_false, if_true,
        Bool.false_eq_true, if_false, List.cons_append]
      rw [← ih ordered]
    · have late : id < x.id := Nat.lt_of_not_le early
      have none : rest.filter (·.id ≤ id) = [] := by
        rw [List.filter_eq_nil_iff]
        intro y member
        have further := above y member
        simp only [decide_eq_true_eq]
        omega
      have all : rest.filter (id < ·.id) = rest := by
        rw [List.filter_eq_self]
        intro y member
        have further := above y member
        simp only [decide_eq_true_eq]
        omega
      simp only [List.filter_cons, early, late, decide_true, decide_false, if_true,
        Bool.false_eq_true, if_false, none, all, List.nil_append]

theorem Ordered.between (ordered : Ordered stream) (lastId id : Nat) :
    Ordered (between stream lastId id) := ordered.filter _

theorem mem_between {entry : StreamEntry} :
    entry ∈ between stream lastId id ↔ entry ∈ stream ∧ lastId < entry.id ∧ entry.id ≤ id := by
  simp [between]

/-- What is unread begins with what is unread up to an id. -/
theorem unread_eq (ordered : Ordered stream) (early : lastId ≤ id) :
    stream.filter (lastId < ·.id) = between stream lastId id ++ stream.filter (id < ·.id) := by
  rw [Ordered.split (ordered.filter _) id, List.filter_filter, List.filter_filter, between]
  congr 1
  · apply List.filter_congr
    intro entry _
    simp [Bool.and_comm]
  · apply List.filter_congr
    intro entry _
    by_cases late : id < entry.id
    · simp [late, Nat.lt_of_le_of_lt early late]
    · simp [late]

theorem filter_between (onward : lastId ≤ later) :
    (between stream lastId id).filter (later < ·.id) = between stream later id := by
  rw [between, between, List.filter_filter]
  apply List.filter_congr
  intro entry _
  by_cases late : later < entry.id
  · simp [late, Nat.lt_of_le_of_lt onward late]
  · simp [late]

/-- A later cursor leaves an end of what was unread. -/
theorem between_suffix (ordered : Ordered stream) (onward : lastId ≤ later) (id : Nat) :
    between stream lastId id =
      (between stream lastId id).filter (·.id ≤ later) ++ between stream later id := by
  rw [← filter_between onward]
  exact Ordered.split (ordered.between lastId id) later

/-- Entries that arrive later lie after every id of the stream. -/
theorem between_of_prefix {longer : List StreamEntry} (grown : stream <+: longer)
    (ordered : Ordered longer) (present : ∃ entry ∈ stream, entry.id = id) :
    between longer lastId id = between stream lastId id := by
  obtain ⟨added, rfl⟩ := grown
  obtain ⟨x, inside, rfl⟩ := present
  have none : between added lastId x.id = [] := by
    rw [between, List.filter_eq_nil_iff]
    intro entry new
    have beyond := (List.pairwise_append.mp ordered).2.2 x inside entry new
    simp only [decide_eq_true_eq]
    omega
  rw [between, List.filter_append]
  change between stream lastId x.id ++ between added lastId x.id = _
  rw [none, List.append_nil]

theorem readAfter_eq (ordered : Ordered stream) (early : lastId ≤ id) :
    readAfter stream lastId 50 = ((between stream lastId id ++
      stream.filter (id < ·.id)).take 50).filterMap StreamEntry.carried := by
  rw [readAfter, unread_eq ordered early]

/-- The cursor is where it was or on the last event that was read. -/
theorem advance_cases (stream : List StreamEntry) (lastId : Nat) :
    readAfter stream lastId 50 = [] ∧ advance stream lastId = lastId ∨
      ∃ event ∈ readAfter stream lastId 50, advance stream lastId = event.1 := by
  cases last : (readAfter stream lastId 50).getLast? with
  | none => exact Or.inl ⟨List.getLast?_eq_none_iff.mp last, by rw [advance, last]; rfl⟩
  | some event => exact Or.inr ⟨event, List.mem_of_getLast? last, by rw [advance, last]; rfl⟩

theorem lt_advance (read : event ∈ readAfter stream lastId 50) : lastId < advance stream lastId := by
  rcases advance_cases stream lastId with ⟨none, -⟩ | ⟨final, last, moved⟩
  · exact absurd read (none ▸ List.not_mem_nil)
  · rw [moved]
    exact mem_after (( readAfter_prefix stream lastId 50).subset last)

theorem eq_of_id (ordered : Ordered stream) {x y : StreamEntry} (left : x ∈ stream)
    (right : y ∈ stream) (same : x.id = y.id) : x = y := by
  have distinct : (stream.map (·.id)).Nodup := by
    rw [List.Nodup, List.pairwise_map]
    exact ordered.imp Nat.ne_of_lt
  exact List.inj_on_of_nodup_map distinct left right same

end Window

section Run
variable {feed : Feed} {lastId id : Nat} {event : Nat × String}

theorem Feed.prefix_of_le (feed : Feed) (later : n ≤ m) : feed.stream n <+: feed.stream m := by
  induction later with
  | refl => exact List.prefix_rfl
  | step _ ih => exact ih.trans (feed.grows _)

/-- What an iteration reads, by what lies between the cursor and an id of the first stream. -/
theorem Feed.readAfter_eq (feed : Feed) (present : ∃ entry ∈ feed.stream 0, entry.id = id)
    (early : lastId ≤ id) (n : Nat) :
    readAfter (feed.stream n) lastId 50 = ((between (feed.stream 0) lastId id ++
      (feed.stream n).filter (id < ·.id)).take 50).filterMap StreamEntry.carried := by
  rw [Consumer.readAfter_eq (feed.ordered n) early,
    between_of_prefix (feed.prefix_of_le (Nat.zero_le n)) (feed.ordered n) present]

/-- Where nothing is clogged, an iteration hands the event over or gets closer to it. -/
theorem Feed.iteration (feed : Feed) {x : StreamEntry} (present : x ∈ feed.stream 0)
    (carries : x.carried = some event) (early : lastId < x.id)
    (open_ : ¬ Clogged (between (feed.stream 0) lastId x.id)) (n : Nat) :
    event ∈ readAfter (feed.stream n) lastId 50 ∨
      ∃ y ∈ between (feed.stream 0) lastId x.id, y.id < x.id ∧
        advance (feed.stream n) lastId = y.id := by
  have read := feed.readAfter_eq ⟨x, present, rfl⟩ (Nat.le_of_lt early) n
  have target : x ∈ between (feed.stream 0) lastId x.id :=
    mem_between.mpr ⟨present, early, Nat.le_refl _⟩
  by_cases short : (between (feed.stream 0) lastId x.id).length ≤ 50
  · refine Or.inl ?_
    rw [read, List.take_append, List.take_of_length_le short]
    exact List.mem_filterMap.mpr ⟨x, List.mem_append_left _ target, carries⟩
  · have long : 50 ≤ (between (feed.stream 0) lastId x.id).length := by omega
    rw [List.take_append_of_le_length long] at read
    rcases advance_cases (feed.stream n) lastId with ⟨none, -⟩ | ⟨final, last, moved⟩
    · -- a window of fifty entries without a payload
      refine absurd ⟨_, (List.take_prefix 50 _).isInfix, List.length_take_of_le long, ?_⟩ open_
      intro y inside
      rw [none] at read
      have nothing := List.filterMap_eq_nil_iff.mp read.symm y inside
      simpa [StreamEntry.carried] using nothing
    · rw [read] at last
      obtain ⟨y, inside, found⟩ := List.mem_filterMap.mp last
      have inside := List.mem_of_mem_take inside
      obtain ⟨payload, -, rfl⟩ := Option.map_eq_some_iff.mp found
      by_cases hit : y.id = x.id
      · have same := eq_of_id (feed.ordered 0) (mem_between.mp inside).1 present hit
        subst same
        rw [carries] at found
        refine Or.inl ?_
        rw [read, Option.some.inj found]
        exact last
      · have bound := (mem_between.mp inside).2.2
        exact Or.inr ⟨y, inside, by omega, moved⟩

theorem Clogged.of_infix (clogged : Clogged part) (within : part <:+: entries) : Clogged entries := by
  obtain ⟨block, inside, length, empty⟩ := clogged
  exact ⟨block, inside.trans within, length, empty⟩

/-- The induction is on the entries between the cursor and the event. -/
theorem Feed.reaches_of_open (feed : Feed) {x : StreamEntry} (present : x ∈ feed.stream 0)
    (carries : x.carried = some event) (n : Nat) (early : feed.cursor lastId n < x.id)
    (open_ : ¬ Clogged (between (feed.stream 0) (feed.cursor lastId n) x.id)) :
    ∃ m, n ≤ m ∧ (∀ k, n ≤ k → k ≤ m → feed.cursor lastId k < feed.cursor lastId (k + 1)) ∧
      event ∈ readAfter (feed.stream m) (feed.cursor lastId m) 50 := by
  generalize size : (between (feed.stream 0) (feed.cursor lastId n) x.id).length = entries
  induction entries using Nat.strong_induction_on generalizing n with
  | _ entries ih =>
    rcases feed.iteration present carries early open_ n with read | ⟨y, inside, before, moved⟩
    · refine ⟨n, Nat.le_refl n, fun k above below => ?_, read⟩
      obtain rfl : k = n := by omega
      exact lt_advance read
    · have onward : feed.cursor lastId n < feed.cursor lastId (n + 1) := by
        rw [Feed.cursor, moved]
        exact (mem_between.mp inside).2.1
      have split := between_suffix (feed.ordered 0) (Nat.le_of_lt onward) x.id
      have fewer : (between (feed.stream 0) (feed.cursor lastId (n + 1)) x.id).length < entries := by
        have passed : y ∈ (between (feed.stream 0) (feed.cursor lastId n) x.id).filter
            (·.id ≤ feed.cursor lastId (n + 1)) := by
          refine List.mem_filter.mpr ⟨inside, ?_⟩
          rw [Feed.cursor, moved]
          exact decide_eq_true (Nat.le_refl _)
        have some := List.length_pos_of_mem passed
        have whole := congrArg List.length split
        rw [List.length_append] at whole
        omega
      have closer : feed.cursor lastId (n + 1) < x.id := by
        rw [Feed.cursor, moved]
        exact before
      have still : ¬ Clogged (between (feed.stream 0) (feed.cursor lastId (n + 1)) x.id) := by
        refine fun clogged => open_ (clogged.of_infix ?_)
        rw [split]
        exact (List.suffix_append _ _).isInfix
      obtain ⟨m, above, moving, read⟩ := ih _ fewer (n + 1) closer still rfl
      refine ⟨m, by omega, fun k low high => ?_, read⟩
      by_cases first : k = n
      · exact first ▸ onward
      · exact moving k (by omega) high

section Clog
variable {before block rest : List StreamEntry}

/-- Fifty entries reach to the end of a clog at most, and what they carry lies before it. -/
theorem Feed.reads_before (feed : Feed) (present : ∃ entry ∈ feed.stream 0, entry.id = id)
    (split : between (feed.stream 0) lastId id = before ++ block ++ rest)
    (length : block.length = 50) (empty : ∀ entry ∈ block, entry.payload = none)
    {reached : Nat} (onward : lastId ≤ reached) (ahead : ∀ entry ∈ block, reached < entry.id)
    (n : Nat) :
    ∀ event ∈ readAfter (feed.stream n) reached 50, ∀ entry ∈ block, event.1 < entry.id := by
  have ordered := (feed.ordered 0).between lastId id
  rw [split, List.append_assoc] at ordered
  obtain ⟨-, inner, apart⟩ := List.pairwise_append.mp ordered
  obtain ⟨-, -, beyond⟩ := List.pairwise_append.mp inner
  obtain ⟨first, member⟩ := List.exists_mem_of_length_pos (l := block) (by omega)
  have bound : first.id ≤ id := by
    have inside : first ∈ between (feed.stream 0) lastId id := by simp [split, member]
    exact (mem_between.mp inside).2.2
  have unread : between (feed.stream 0) reached id =
      before.filter (reached < ·.id) ++ block ++ rest := by
    have whole : block.filter (reached < ·.id) = block :=
      List.filter_eq_self.mpr fun entry inside => decide_eq_true (ahead entry inside)
    have all : rest.filter (reached < ·.id) = rest := by
      refine List.filter_eq_self.mpr fun entry inside => decide_eq_true ?_
      exact (ahead first member).trans (beyond first member entry inside)
    rw [← filter_between onward, split, List.filter_append, List.filter_append, whole, all]
  intro event read entry inside
  rw [feed.readAfter_eq present ((Nat.le_of_lt (ahead first member)).trans bound), unread,
    List.append_assoc _ rest, List.take_append_of_le_length (by simp [length])] at read
  obtain ⟨y, taken, found⟩ := List.mem_filterMap.mp read
  obtain ⟨payload, carries, rfl⟩ := Option.map_eq_some_iff.mp found
  rcases List.mem_append.mp (List.mem_of_mem_take taken) with early | clogged
  · exact apart y (List.mem_of_mem_filter early) entry (List.mem_append_left _ inside)
  · rw [empty y clogged] at carries
    contradiction

/-- A clog that lies ahead of the cursor stays ahead of it. -/
theorem Feed.stuck (feed : Feed) (present : ∃ entry ∈ feed.stream 0, entry.id = id)
    (split : between (feed.stream 0) lastId id = before ++ block ++ rest)
    (length : block.length = 50) (empty : ∀ entry ∈ block, entry.payload = none) (n : Nat) :
    lastId ≤ feed.cursor lastId n ∧ ∀ entry ∈ block, feed.cursor lastId n < entry.id := by
  induction n with
  | zero =>
    refine ⟨Nat.le_refl _, fun entry inside => ?_⟩
    have member : entry ∈ between (feed.stream 0) lastId id := by simp [split, inside]
    exact (mem_between.mp member).2.1
  | succ n ih =>
    obtain ⟨onward, ahead⟩ := ih
    have reads := feed.reads_before present split length empty onward ahead n
    rcases advance_cases (feed.stream n) (feed.cursor lastId n) with ⟨-, same⟩ |
      ⟨event, read, moved⟩
    · rw [Feed.cursor, same]
      exact ⟨onward, ahead⟩
    · refine ⟨onward.trans (Nat.le_of_lt (lt_advance read)), fun entry inside => ?_⟩
      rw [Feed.cursor, moved]
      exact reads event read entry inside

end Clog

/-- Whatever is appended meanwhile: the iterations reach an event after the cursor exactly when
no fifty entries without a payload stand in a row before it. -/
theorem reaches_iff (feed : Feed) (lastId : Nat) (event : Nat × String)
    (pending : event ∈ after (feed.stream 0) lastId) :
    feed.Reaches lastId event ↔ ¬ Clogged (between (feed.stream 0) lastId event.1) := by
  obtain ⟨x, member, carries⟩ := List.mem_filterMap.mp pending
  have present := List.mem_of_mem_filter member
  have early : lastId < x.id := of_decide_eq_true (List.mem_filter.mp member).2
  have named : event.1 = x.id := by
    obtain ⟨payload, -, rfl⟩ := Option.map_eq_some_iff.mp carries
    rfl
  rw [named]
  constructor
  · rintro ⟨n, -, read⟩ ⟨block, ⟨before, rest, split⟩, length, empty⟩
    obtain ⟨onward, ahead⟩ := feed.stuck ⟨x, present, rfl⟩ split.symm length empty n
    have reads := feed.reads_before ⟨x, present, rfl⟩ split.symm length empty onward ahead n
    obtain ⟨first, inside⟩ := List.exists_mem_of_length_pos (l := block) (by omega)
    have bound : first ∈ between (feed.stream 0) lastId x.id := by simp [← split, inside]
    have beyond := reads event read first inside
    have within := (mem_between.mp bound).2.2
    omega
  · intro open_
    obtain ⟨n, -, moving, read⟩ := feed.reaches_of_open present carries 0 early open_
    exact ⟨n, fun k below => moving k (Nat.zero_le k) below, read⟩

end Run

/-- A stream that nobody appends to. -/
def Feed.steady (stream : List StreamEntry) (ordered : Ordered stream) : Feed where
  stream _ := stream
  ordered _ := ordered
  grows _ := List.prefix_rfl

/-- This many entries without a payload and then one with a payload. -/
def gapped (n : Nat) : List StreamEntry :=
  (List.range' 1 n).map (⟨·, none⟩) ++ [⟨n + 1, some "a"⟩]

theorem gapped_ordered (n : Nat) : Ordered (gapped n) := by
  refine List.pairwise_append.mpr ⟨?_, List.pairwise_singleton _ _, ?_⟩
  · rw [List.pairwise_map]
    exact List.pairwise_lt_range'
  · intro x early y last
    obtain ⟨i, inside, rfl⟩ := List.mem_map.mp early
    obtain rfl := List.mem_singleton.mp last
    have bound := (List.mem_range'_1.mp inside).2
    change i < n + 1
    omega

/-- Forty-nine are passed over. -/
theorem gapped_reaches : (Feed.steady (gapped 49) (gapped_ordered 49)).Reaches 0 (50, "a") := by
  refine (reaches_iff _ 0 (50, "a") (by decide)).mpr ?_
  rintro ⟨block, inside, length, empty⟩
  have whole := inside.eq_of_length (by rw [length]; decide)
  have carried := empty ⟨50, some "a"⟩ (by rw [whole]; decide)
  contradiction

/-- At fifty the cursor stays where it was, and the entry after them is never handed over. -/
theorem gapped_stuck : (51, "a") ∈ after (gapped 50) 0 ∧
    (∀ n, (Feed.steady (gapped 50) (gapped_ordered 50)).cursor 0 n = 0) ∧
    ¬ (Feed.steady (gapped 50) (gapped_ordered 50)).Reaches 0 (51, "a") := by
  have stays : advance (gapped 50) 0 = 0 := by decide
  have cursor (n : Nat) : (Feed.steady (gapped 50) (gapped_ordered 50)).cursor 0 n = 0 := by
    induction n with
    | zero => rfl
    | succ n ih =>
      rw [Feed.cursor, ih]
      exact stays
  refine ⟨by decide, cursor, ?_⟩
  rintro ⟨n, moving, -⟩
  have onward := moving 0 (Nat.zero_le n)
  rw [cursor, cursor] at onward
  contradiction

end PaymentBackend.Consumer
