import PaymentProcessing.Segments
import PaymentProcessing.Backend.InFlight

/-! The idempotency key as a name of an event. It joins the gateway and the event id with a
colon that both may contain, where the transactions table compares the pair. -/
namespace PaymentBackend

/-- No gateway of the set, with the separator after it, begins another one. -/
def Separated (gatewayNames : Set String) : Prop :=
  ∀ g ∈ gatewayNames, ∀ g' ∈ gatewayNames, ¬ g.toList ++ [':'] <+: g'.toList

theorem idemKey_eq (event : GatewayWebhookEvent) :
    idemKey event = "idemp:webhook:" ++ event.gateway ++ ":" ++ event.eventId := rfl

theorem toList_idemKey (event : GatewayWebhookEvent) :
    (idemKey event).toList =
      "idemp:webhook:".toList ++ (event.gateway.toList ++ ':' :: event.eventId.toList) := by
  simp only [idemKey_eq, String.toList_append, List.append_assoc]
  rfl

theorem idemKey_eq_iff {first second : GatewayWebhookEvent} : idemKey first = idemKey second ↔
    first.gateway.toList ++ ':' :: first.eventId.toList =
      second.gateway.toList ++ ':' :: second.eventId.toList := by
  rw [← String.toList_inj, toList_idemKey, toList_idemKey, List.append_cancel_left_eq]

theorem idemKey_eq_of_key {first second : GatewayWebhookEvent} (same : first.key = second.key) :
    idemKey first = idemKey second := by
  obtain ⟨gateway, eventId⟩ := Prod.mk.inj same
  rw [idemKey_eq, idemKey_eq, gateway, eventId]

/-- Events of separated gateways have one key only where they are one event. -/
theorem Separated.key_of_idemKey (separated : Separated names) {first second : GatewayWebhookEvent}
    (left : first.gateway ∈ names) (right : second.gateway ∈ names)
    (same : idemKey first = idemKey second) : first.key = second.key := by
  rcases Segments.joined_eq_iff.mp (idemKey_eq_iff.mp same) with ⟨gateway, eventId⟩ |
    ⟨rest, longer, -⟩ | ⟨rest, longer, -⟩
  · exact Prod.ext (String.toList_inj.mp gateway) (String.toList_inj.mp eventId)
  · refine absurd ⟨rest, ?_⟩ (separated _ left _ right)
    rw [longer, List.append_assoc, List.singleton_append]
  · refine absurd ⟨rest, ?_⟩ (separated _ right _ left)
    rw [longer, List.append_assoc, List.singleton_append]

/-- The event with this gateway and event id and nothing else to tell it by. -/
def eventNamed (gateway eventId : String) : GatewayWebhookEvent :=
  ⟨eventId, gateway, 0, 0, "", .pending, 0, "", 0⟩

theorem separated_of_injective
    (injective : ∀ first second : GatewayWebhookEvent, first.gateway ∈ names →
      second.gateway ∈ names → idemKey first = idemKey second → first.key = second.key) :
    Separated names := by
  rintro g left g' right ⟨rest, whole⟩
  rw [List.append_assoc, List.singleton_append] at whole
  have same : idemKey (eventNamed g (String.ofList (rest ++ [':']))) = idemKey (eventNamed g' "") := by
    refine idemKey_eq_iff.mpr (Segments.joined_eq_iff.mpr (Or.inr (Or.inl ⟨rest, whole.symm, ?_⟩)))
    exact String.toList_ofList
  have gateway := (Prod.mk.inj (injective _ _ left right same)).1
  have length := congrArg List.length whole
  rw [show g = g' from gateway] at length
  simp at length

namespace Services
variable {env : Externals} {gateways : List PaymentGateway} {s t : Services} {past : List Action}

/-- The event whose key `SETNX` sets in this step, whether or not its answer arrives. -/
def marks (env : Externals) (s : Services) (a : Action) : Option GatewayWebhookEvent :=
  (s.performed a).bind fun
    | .mark payload => (env.fromJson payload).filter fun event => !s.store.marked (idemKey event)
    | _ => none

/-- The key of an event with this gateway and event id was set before. -/
def Started (env : Externals) (gateways : List PaymentGateway) (past : List Action)
    (key : String × String) : Prop :=
  Transition.Occurs (step env gateways) (fun u b => ∃ event ∈ u.marks env b, event.key = key)
    initial past

/-- Each mark, and each call past its mark, comes from a received event that was started. -/
structure Marked (env : Externals) (gateways : List PaymentGateway) (past : List Action)
    (s : Services) : Prop where
  sound : s.Sound env
  marks : ∀ key, s.store.marked key = true → ∃ payload event, env.fromJson payload = some event ∧
    idemKey event = key ∧ s.store.Received payload ∧ Started env gateways past event.key
  holds : ∀ v payload event, s.Holds v payload event → Started env gateways past event.key

theorem initial_marked : Marked env gateways [] initial :=
  ⟨initial_sound, by simp [initial, Store.empty, Store.marked],
    by simp [Holds, call, initial, Worker.booted]⟩

theorem marks_of_begins (h : s.begins env (.statement v) = some event) :
    s.marks env (.statement v) = some event := by
  obtain ⟨found, fresh⟩ := Option.filter_eq_some_iff.mp h
  obtain ⟨handling, called, decoded⟩ := Option.bind_eq_some_iff.mp found
  cases handling with
  | mark payload =>
    have performed : s.performed (.statement v) = some (.mark payload) := called
    simp only [marks, performed, Option.bind_some]
    exact Option.filter_eq_some_iff.mpr ⟨decoded, fresh⟩
  | _ => contradiction

/-- A handling that is cut short was past its mark, or this step has set it. -/
theorem holds_or_marks_of_cutShort (h : s.cutShort env a = some event) :
    (∃ v payload, s.Holds v payload event) ∨ s.marks env a = some event := by
  have holding {w : Nat} {handling : Handling} (called : s.call w = some handling)
      (held : handling.held = some event) : ∃ v payload, s.Holds v payload event :=
    ⟨w, _, handling, called, rfl, held⟩
  unfold cutShort at h
  split at h
  · rename_i w
    obtain ⟨handling, called, ended⟩ := Option.bind_eq_some_iff.mp h
    split at ended
    · exact Or.inl (holding called ended)
    · contradiction
  · rename_i w
    obtain ⟨handling, called, ended⟩ := Option.bind_eq_some_iff.mp h
    split at ended
    · exact Or.inl (holding called ended)
    · rename_i following answer
      obtain ⟨next, rfl, held⟩ := Option.bind_eq_some_iff.mp ended
      have executed := executes_next env s.store handling
      rw [answer] at executed
      rcases executed.setNx held with before | ⟨rfl, decoded, fresh⟩
      · exact Or.inl (holding called before)
      · have performed : s.performed (.failure w true) = some (.mark next.payload) := called
        refine Or.inr ?_
        simp only [marks, performed, Option.bind_some]
        exact Option.filter_eq_some_iff.mpr ⟨decoded, by simp [fresh]⟩
  · obtain ⟨handling, called, held⟩ := Option.bind_eq_some_iff.mp h
    exact Or.inl (holding called held)
  · obtain ⟨handling, called, held⟩ := Option.bind_eq_some_iff.mp h
    exact Or.inl (holding called held)
  · contradiction

/-- The event of a handling that is cut short was received. -/
theorem Sound.cutShort (sound : s.Sound env) (h : s.cutShort env a = some event) :
    ∃ payload, env.fromJson payload = some event ∧ s.store.Received payload := by
  rcases holds_or_marks_of_cutShort h with ⟨v, payload, handling, called, rfl, held⟩ | marks
  · obtain ⟨reached, received⟩ := sound.reached called
    exact ⟨handling.payload, reached.decoded held, received⟩
  · obtain ⟨handling, performed, marking⟩ := Option.bind_eq_some_iff.mp marks
    obtain ⟨w, -, called⟩ := performed_worker performed
    cases handling with
    | mark payload =>
      exact ⟨payload, (Option.filter_eq_some_iff.mp marking).1, (sound.reached called).2⟩
    | _ => contradiction

theorem Sound.looksUp (sound : s.Sound env) (h : s.looksUp env a = some event) :
    ∃ payload, env.fromJson payload = some event ∧ s.store.Received payload := by
  cases a with
  | statement w =>
    obtain ⟨handling, called, decoded⟩ := Option.bind_eq_some_iff.mp h
    cases handling with
    | mark payload => exact ⟨payload, decoded, (sound.reached called).2⟩
    | _ => contradiction
  | _ => contradiction

theorem Started.append (reached : Transition.run (step env gateways) initial past = some s)
    (started : Started env gateways past key ∨ ∃ event ∈ s.marks env a, event.key = key) :
    Started env gateways (past ++ [a]) key := by
  rw [Started, Transition.occurs_append_iff reached]
  exact started.imp_right Or.inl

theorem Moves.marks (h : Moves env s a t)
    (reached : Transition.run (step env gateways) initial past = some s)
    (before : Marked env gateways past s) : Marked env gateways (past ++ [a]) t := by
  have sound := h.sound before.sound
  have holds (v payload event) (held : t.Holds v payload event) :
      Started env gateways (past ++ [a]) event.key := by
    refine .append reached ?_
    rcases h.held_of held with already | ⟨rfl, begins⟩
    · exact Or.inl (before.holds v payload event already)
    · exact Or.inr ⟨event, marks_of_begins begins, rfl⟩
  refine ⟨sound, fun key marked => ?_, holds⟩
  rcases h.marked_of marked with earlier | ⟨v, payload, event, decoded, same, held | cut⟩
  · obtain ⟨payload, event, decoded, same, received, started⟩ := before.marks key earlier
    exact ⟨payload, event, decoded, same, h.extends.received received,
      .append reached (Or.inl started)⟩
  · exact ⟨payload, event, decoded, same, sound.holds held, holds v payload event held⟩
  · obtain ⟨received, decoded, inside⟩ := before.sound.cutShort cut
    refine ⟨received, event, decoded, same, h.extends.received inside, .append reached ?_⟩
    rcases holds_or_marks_of_cutShort cut with ⟨w, past, held⟩ | marks
    · exact Or.inl (before.holds w past event held)
    · exact Or.inr ⟨event, marks, rfl⟩

/-- An event is skipped only after one with the same key text was started. -/
theorem run_skips_started (h : Transition.run (step env gateways) initial schedule = some s)
    (skipped : s.skips env a = some event) :
    ∃ payload earlier, env.fromJson payload = some earlier ∧ s.store.Received payload ∧
      idemKey earlier = idemKey event ∧ Started env gateways schedule earlier.key := by
  have marked : Marked env gateways schedule s := by
    refine Transition.history_of_meets (I := Marked env gateways) (C := fun _ _ => True)
      (fun reached before _ stepped => ?_) initial_marked (Transition.Meets.of_forall
        (fun _ _ => trivial) initial) h
    exact (step_moves env gateways stepped).marks reached before
  obtain ⟨payload, earlier, decoded, same, received, started⟩ :=
    marked.marks _ (Option.filter_eq_some_iff.mp skipped).2
  exact ⟨payload, earlier, decoded, received, same, started⟩

/-- Every event that was received comes from one of these gateways. -/
def FromGateways (env : Externals) (names : Set String) (s : Services) : Prop :=
  ∀ payload event, s.store.Received payload → env.fromJson payload = some event →
    event.gateway ∈ names

/-- No event that was not started before is skipped, whatever else was handled. -/
def DropsNone (env : Externals) (gateways : List PaymentGateway) (names : Set String) : Prop :=
  ∀ schedule s a event, Transition.run (step env gateways) initial schedule = some s →
    s.FromGateways env names → s.skips env a = some event →
      Started env gateways schedule event.key

theorem dropsNone_of_separated (separated : Separated names) : DropsNone env gateways names := by
  intro schedule s a event h known skipped
  obtain ⟨payload, earlier, decoded, received, same, started⟩ := run_skips_started h skipped
  obtain ⟨text, read, inside⟩ := (run_sound h).looksUp (Option.filter_eq_some_iff.mp skipped).1
  have key := separated.key_of_idemKey (known payload earlier received decoded)
    (known text event inside read) same
  exact key ▸ started

/-- For events of these gateways, in any number and with any event ids: keys are equal just for
equal pairs and no first event is dropped for another one, exactly when no gateway with a colon
after it begins another. -/
theorem keys_name_events_iff (env : Externals) (gateways : List PaymentGateway)
    (names : Set String) :
    ((∀ first second : GatewayWebhookEvent, first.gateway ∈ names → second.gateway ∈ names →
        (idemKey first = idemKey second ↔ first.key = second.key)) ∧
      DropsNone env gateways names) ↔ Separated names := by
  constructor
  · rintro ⟨injective, -⟩
    exact separated_of_injective fun first second left right =>
      (injective first second left right).mp
  · intro separated
    refine ⟨fun first second left right => ⟨?_, idemKey_eq_of_key⟩, dropsNone_of_separated separated⟩
    exact separated.key_of_idemKey left right

/-- Event `c` of the gateway `a:b`, and event `b:c` of the gateway `a`. -/
def colonEvents : List GatewayWebhookEvent :=
  [{ Sample.event with gateway := "a:b", eventId := "c" },
    { Sample.event with gateway := "a", eventId := "b:c", paymentId := 22, orderId := 2 }]

/-- The first event is handled to its end, then a worker looks at the second one. -/
def colonDeliveries : List Action :=
  Sample.orders ++ .receiveWebhook "a:b" (colonEvents.get ⟨0, by decide⟩) :: .read 0 ::
    Sample.handle 0 5 ++
    [.receiveWebhook "a" (colonEvents.get ⟨1, by decide⟩), .read 0, .take 0]

set_option maxRecDepth 8000 in
/-- The second event is dropped although nothing with its gateway and event id came before. -/
theorem colon_drops : ∃ s event,
    Transition.run (step (Sample.env colonEvents) configuredGateways) initial colonDeliveries =
      some s ∧
    s.skips (Sample.env colonEvents) (.statement 0) = some event ∧ event.key = ("a", "b:c") ∧
    ¬ Started (Sample.env colonEvents) configuredGateways colonDeliveries event.key ∧
    Started (Sample.env colonEvents) configuredGateways colonDeliveries ("a:b", "c") := by
  refine ⟨_, colonEvents.get ⟨1, by decide⟩, rfl, rfl, rfl, ?_, ?_⟩
  · unfold Started
    decide
  · unfold Started
    decide

end Services
end PaymentBackend
