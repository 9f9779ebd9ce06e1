import Mathlib.Logic.Basic

/-! The errors of the service and what becomes of them at its gRPC boundary. -/
namespace Propeller

inductive PropellerError where
  | unauthenticated (message : String)
  | permissionDenied (message : String)
  | invalidArgument (message : String)
  | notFound (message : String)
  | failedPrecondition (message : String)
  | internal (message : String)
  | broker (message : String)
  deriving DecidableEq, Repr

def PropellerError.toString : PropellerError → String
  | .unauthenticated message => "unauthenticated: " ++ message
  | .permissionDenied message => "permission denied: " ++ message
  | .invalidArgument message => "invalid argument: " ++ message
  | .notFound message => "not found: " ++ message
  | .failedPrecondition message => "failed precondition: " ++ message
  | .internal message => "internal: " ++ message
  | .broker message => "broker error: " ++ message

inductive Code where
  | unauthenticated | permissionDenied | invalidArgument | notFound | failedPrecondition | internal
  deriving DecidableEq, Repr

structure Status where
  code : Code
  message : String
  deriving DecidableEq, Repr

def Status.ofError : PropellerError → Status
  | .unauthenticated message => ⟨.unauthenticated, message⟩
  | .permissionDenied message => ⟨.permissionDenied, message⟩
  | .invalidArgument message => ⟨.invalidArgument, message⟩
  | .notFound message => ⟨.notFound, message⟩
  | .failedPrecondition message => ⟨.failedPrecondition, message⟩
  | .internal message => ⟨.internal, message⟩
  | .broker message => ⟨.internal, message⟩

def refuse (refused : Bool) (error : PropellerError) : Except PropellerError Unit :=
  if refused then .error error else .ok ()

theorem refuse_ok : refuse refused error = .ok () ↔ refused = false := by
  cases refused <;> simp [refuse]

theorem refuse_bind_ok {next : Unit → Except PropellerError α} :
    (refuse refused error >>= next) = .ok result ↔ refused = false ∧ next () = .ok result := by
  cases refused <;> simp [refuse, bind, Except.bind]

theorem refuse_error : refuse refused error = .error e ↔ refused = true ∧ error = e := by
  cases refused <;> simp [refuse]

theorem refuse_bind_error {next : Unit → Except PropellerError α} :
    (refuse refused error >>= next) = .error e ↔
      refused = true ∧ error = e ∨ refused = false ∧ next () = .error e := by
  cases refused <;> simp [refuse, bind, Except.bind]

theorem then_ok {x : Except ε α} {f : α → Except ε β} :
    (x >>= f) = .ok b ↔ ∃ a, x = .ok a ∧ f a = .ok b := by
  cases x <;> simp [bind, Except.bind]

theorem ok_mapError (a : α) (f : ε → δ) : (Except.ok a : Except ε α).mapError f = .ok a := rfl

theorem mapError_ok {x : Except ε α} {f : ε → δ} : x.mapError f = .ok a ↔ x = .ok a := by
  cases x with
  | error e =>
    change Except.error (f e) = Except.ok a ↔ _
    simp
  | ok b =>
    change (Except.ok b : Except δ α) = Except.ok a ↔ _
    simp

theorem map_error {x : Except ε α} {f : α → β} : x.map f = .error e ↔ x = .error e := by
  cases x <;> simp [Except.map]

theorem map_ok {x : Except ε α} {f : α → β} : x.map f = .ok b ↔ ∃ a, x = .ok a ∧ f a = b := by
  cases x <;> simp [Except.map]

end Propeller
