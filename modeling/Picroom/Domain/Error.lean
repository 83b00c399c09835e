import Mathlib.Data.List.Basic

/-!
# Domain, storage and service errors

The error types the service layer propagates, with the texts their `Display`
implementations print.  The upload handler routes on substrings of these texts,
so they are part of the behaviour.
-/

namespace Picroom

inductive DomainError where
  | notFound
  | permissionDenied
  | validation (message : String)
  | internal (message : String)
  | conflict (message : String)
  deriving DecidableEq

def DomainError.display : DomainError → String
  | .notFound => "not found"
  | .permissionDenied => "permission denied"
  | .validation message => "validation: " ++ message
  | .internal message => "internal: " ++ message
  | .conflict message => "conflict: " ++ message

/-- Storage-driver errors; URL parse errors carry the parser's own text. -/
inductive StorageError where
  | notFound (key : String)
  | permissionDenied (message : String)
  | network (message : String)
  | backend (message : String)
  | config (message : String)
  | notImplemented (message : String)
  | domain (error : DomainError)
  | url (message : String)
  deriving DecidableEq

def StorageError.display : StorageError → String
  | .notFound key => "object not found: " ++ key
  | .permissionDenied message => "permission denied: " ++ message
  | .network message => "network error: " ++ message
  | .backend message => "backend error: " ++ message
  | .config message => "configuration error: " ++ message
  | .notImplemented message => "not implemented: " ++ message
  | .domain error => error.display
  | .url message => message

structure AuditSinkError where
  message : String
  deriving DecidableEq

def AuditSinkError.display (error : AuditSinkError) : String := "write: " ++ error.message

inductive ServiceError where
  | domain (error : DomainError)
  | storage (error : StorageError)
  | audit (error : AuditSinkError)
  | quotaExceeded (requested available : Nat)
  | permissionDenied
  | internal (message : String)
  deriving DecidableEq

def ServiceError.display : ServiceError → String
  | .domain error => error.display
  | .storage error => error.display
  | .audit error => error.display
  | .quotaExceeded requested available =>
      "quota exceeded: " ++ toString requested ++ " bytes requested, " ++
        toString available ++ " bytes available"
  | .permissionDenied => "permission denied"
  | .internal message => "internal: " ++ message

structure ApiError where
  status : Nat
  code : String
  message : String
  retryAfter : Option Nat := none
  deriving DecidableEq

namespace ApiError

def badRequest (message : String) : ApiError := ⟨400, "bad_request", message, none⟩
def unauthorized (message : String) : ApiError := ⟨401, "unauthorized", message, none⟩
def forbidden (message : String) : ApiError := ⟨403, "forbidden", message, none⟩
def notFound (message : String) : ApiError := ⟨404, "not_found", message, none⟩
def quotaExceededError (message : String) : ApiError := ⟨413, "quota_exceeded", message, none⟩

/-- The wait is part of the contract. -/
def tooManyRequests (retryAfterSecs : Nat) (message : String) : ApiError :=
  ⟨429, "too_many_requests", message, some retryAfterSecs⟩

/-- The detail is logged on the server; clients get a generic message. -/
def internal (_detail : String) : ApiError := ⟨500, "internal", "internal server error", none⟩

/-- `From<ServiceError> for ApiError`. -/
def ofService : ServiceError → ApiError
  | error@(.quotaExceeded _ _) => quotaExceededError error.display
  | .permissionDenied => forbidden "permission denied"
  | .domain .notFound => notFound "not found"
  | .domain .permissionDenied => forbidden "forbidden"
  | .domain (.validation message) => badRequest message
  | .domain error => internal error.display
  | error => internal error.display

end ApiError

/-- How a call that writes elsewhere ends: answered, failed without its effect, or failed after
it. -/
inductive WriteOutcome (Failure : Type) where
  | done
  | refused (error : Failure)
  | lost (error : Failure)
  deriving DecidableEq

namespace WriteOutcome

variable {Failure : Type}

def takesEffect : WriteOutcome Failure → Bool
  | .done | .lost _ => true
  | .refused _ => false

def answer : WriteOutcome Failure → Except Failure Unit
  | .done => .ok ()
  | .refused error | .lost error => .error error

end WriteOutcome

theorem ok_of_bind {Failure Value Result : Type} {first : Except Failure Value}
    {next : Value → Except Failure Result} {result : Result}
    (succeeded : first >>= next = .ok result) :
    ∃ value, first = .ok value ∧ next value = .ok result := by
  cases first with
  | error failure => cases succeeded
  | ok value => exact ⟨value, rfl, succeeded⟩

end Picroom
