import PaymentProcessing.JsonText
import PaymentProcessing.Utf8
import PaymentProcessing.Propeller.Handlers

/-! The text of the frame in which `handle_ws` hands on an event. Its data is read as text with
replacement characters, where `GrpcPushHandler::channel` passes the bytes. -/
namespace Propeller

/-- `String::from_utf8_lossy` -/
def fromUtf8Lossy (bytes : List UInt8) : String := String.ofList (Utf8.lossy bytes)

/-- The object of `serde_json::json!` in the event branch, with its keys in order. -/
def eventPayload (e : TopicEvent) : String :=
  "\x7b\"data\":" ++ JsonText.quote (fromUtf8Lossy e.event) ++ ",\"topic\":" ++
    JsonText.quote e.topic ++ ",\"type\":\"event\"\x7d"

example : eventPayload ⟨"news", [0x68, 0x22, 0xC3, 0xA9, 0xFF]⟩ =
    "\x7b\"data\":\"h\\\"é\uFFFD\",\"topic\":\"news\",\"type\":\"event\"\x7d" := by decide +kernel

/-- A frame of this topic with the payload of this event carries what a gRPC client receives. -/
def Recoverable (e : TopicEvent) : Prop :=
  ∀ data, eventPayload ⟨e.topic, data⟩ = eventPayload e →
    Frontend.grpc.event ⟨e.topic, data⟩ = Frontend.grpc.event e

theorem fromUtf8Lossy_inj {bytes bytes' : List UInt8} :
    fromUtf8Lossy bytes = fromUtf8Lossy bytes' ↔ Utf8.lossy bytes = Utf8.lossy bytes' :=
  String.ofList_inj

theorem eventPayload_inj {topic : String} {data data' : List UInt8} :
    eventPayload ⟨topic, data⟩ = eventPayload ⟨topic, data'⟩ ↔ Utf8.lossy data = Utf8.lossy data' := by
  rw [← fromUtf8Lossy_inj]
  constructor
  · intro same
    have lists := congrArg String.toList same
    simp only [eventPayload, String.toList_append, List.append_cancel_right_eq,
      List.append_cancel_left_eq, String.toList_inj] at lists
    exact JsonText.quote_injective lists
  · intro same
    rw [eventPayload, same]
    rfl

theorem grpcEvent_inj {topic : String} {data data' : List UInt8} :
    Frontend.grpc.event ⟨topic, data⟩ = Frontend.grpc.event ⟨topic, data'⟩ ↔ data = data' := by
  simp [Frontend.event]

/-- The frame of an event determines the bytes that a gRPC client receives exactly when they are
those of a text without a replacement character. -/
theorem recoverable_iff (e : TopicEvent) :
    Recoverable e ↔ ∃ text, Utf8.replacement ∉ text ∧ e.event = Utf8.encode text := by
  rw [← Utf8.lossy_determines_iff]
  constructor
  · intro recovers data same
    exact grpcEvent_inj.mp (recovers data (eventPayload_inj.mpr same))
  · intro determines data same
    exact grpcEvent_inj.mpr (determines data (eventPayload_inj.mp same))

/-- Two single bytes that begin no character. -/
theorem binary_payloads_collide : ¬ ∀ e : TopicEvent, Recoverable e := by
  intro claim
  have same := claim ⟨"news", [0xFF]⟩ [0xFE] (eventPayload_inj.mpr (by decide +kernel))
  exact absurd (grpcEvent_inj.mp same) (by decide)

end Propeller
