import PaymentProcessing.Segments
import Mathlib.Data.String.Basic

/-! The channel names of the push service. Tenant, client, device and topic strings go
into them unescaped, so one text may be a channel of two tenants, or of two clients. -/
namespace Propeller
open Segments

def clientChannel (tenantId clientId : String) : String :=
  "tenant:" ++ tenantId ++ ":client:" ++ clientId

def deviceChannel (tenantId clientId deviceId : String) : String :=
  "tenant:" ++ tenantId ++ ":client:" ++ clientId ++ ":device:" ++ deviceId

def topicChannel (tenantId topic : String) : String :=
  "tenant:" ++ tenantId ++ ":topic:" ++ topic

/-- The name `b` starts with `a:keyword:`, or is `a:keyword`. -/
def Continues (keyword a b : String) : Prop :=
  Segments.Continues ':' keyword.toList a.toList b.toList

instance (keyword a b : String) : Decidable (Continues keyword a b) :=
  inferInstanceAs (Decidable (Segments.Continues _ _ _ _))

example : Continues "client" "acme" "acme:client:eu" ∧
    ¬ Continues "client" "acme" "acme:eu" := by decide

/-- A name, a keyword and a rest, joined by colons. -/
def joined (keyword a rest : String) : String := a ++ ":" ++ keyword ++ ":" ++ rest

theorem joined_toList (keyword a rest : String) :
    (joined keyword a rest).toList = a.toList ++ bracket ':' keyword.toList ++ rest.toList := by
  simp [joined, bracket]

theorem joined_cancel (same : joined keyword a x = joined keyword a y) : x = y := by
  have lists := congrArg String.toList same
  rw [joined_toList, joined_toList, List.append_cancel_left_eq] at lists
  exact String.toList_inj.mp lists

/-- Different names with a common text: one of them continues the other. -/
theorem joined_collision (free : ':' ∉ keyword.toList) (free' : ':' ∉ keyword'.toList)
    (different : a ≠ b) (same : joined keyword a x = joined keyword' b y) :
    Continues keyword a b ∨ Continues keyword' b a := by
  have lists := congrArg String.toList same
  rw [joined_toList, joined_toList] at lists
  have apart : a.toList ≠ b.toList := fun equal => different (String.toList_inj.mp equal)
  exact continues_of_collision free free' apart lists

/-- Every text of the longer name is one of the shorter name. -/
theorem Continues.joined_eq (h : Continues keyword a b) :
    ∃ rest, ∀ keyword' x, joined keyword a (rest ++ keyword' ++ ":" ++ x) =
      joined keyword' b x := by
  obtain ⟨rest, whole⟩ := Segments.Continues.collision h
  refine ⟨String.ofList rest, fun keyword' x => String.toList_inj.mp ?_⟩
  have text := whole (keyword'.toList ++ ':' :: x.toList)
  rw [joined_toList, joined_toList]
  simpa [bracket] using text

/-- A name is continued by every text that joins something to it. -/
theorem continues_joined (keyword a rest : String) :
    Continues keyword a (joined keyword a rest) := by
  refine ⟨rest.toList ++ [':'], ?_⟩
  rw [joined_toList, List.append_assoc, List.append_assoc, List.append_assoc]

theorem Continues.ne (h : Continues keyword a b) : a ≠ b := by
  rintro rfl
  exact Segments.Continues.ne h rfl

/-- The longer name is not empty. -/
theorem Continues.nonempty (h : Continues keyword a b) : b ≠ "" := by
  rintro rfl
  have shorter := Segments.Continues.length_lt h
  simp at shorter

/-- A continued name has a colon in it. -/
theorem Continues.colon_mem (h : Continues keyword a b) : ':' ∈ b.toList :=
  Segments.Continues.separator_mem h

theorem client_free : ':' ∉ "client".toList := by decide

theorem device_free : ':' ∉ "device".toList := by decide

theorem topic_free : ':' ∉ "topic".toList := by decide

theorem clientChannel_joined (t c : String) :
    clientChannel t c = "tenant:" ++ joined "client" t c := by
  simp [clientChannel, joined, String.append_assoc]

theorem deviceChannel_joined (t c d : String) :
    deviceChannel t c d = "tenant:" ++ joined "client" t (joined "device" c d) := by
  simp [deviceChannel, joined, String.append_assoc]

theorem topicChannel_joined (t x : String) :
    topicChannel t x = "tenant:" ++ joined "topic" t x := by
  simp [topicChannel, joined, String.append_assoc]

theorem tenant_cancel (same : "tenant:" ++ x = "tenant:" ++ y) : x = y := by
  have lists := congrArg String.toList same
  rw [String.toList_append, String.toList_append, List.append_cancel_left_eq] at lists
  exact String.toList_inj.mp lists

theorem topicChannel_cancel (same : topicChannel t x = topicChannel t y) : x = y := by
  rw [topicChannel_joined, topicChannel_joined] at same
  exact joined_cancel (tenant_cancel same)

end Propeller
