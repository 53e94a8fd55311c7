import Mathlib.Data.Rat.Floor

/-!
# Domain errors

`AegisError` is the hierarchy of `errors.py`. A Python exception of any other
class is one of the remaining constructors of `PyExc`: the classes that some
handler of the gateway names, and `other` for the rest.
-/

namespace AegisGateway

structure ProviderError where
  message : String
  provider : String
  statusCode : Nat := 502
  retryable : Bool := true
  code : String := "provider_error"
  cls : String := "ProviderError"
  deriving DecidableEq, Repr

def providerAuthError (message provider : String) : ProviderError :=
  { message, provider, statusCode := 502, retryable := false, code := "provider_auth_error"
    cls := "ProviderAuthError" }

def providerRateLimitError (message provider : String) : ProviderError :=
  { message, provider, statusCode := 503, retryable := true, code := "provider_rate_limited"
    cls := "ProviderRateLimitError" }

def providerTimeoutError (message provider : String) : ProviderError :=
  { message, provider, statusCode := 504, retryable := true, code := "provider_timeout"
    cls := "ProviderTimeoutError" }

def streamInterruptedError (message provider : String) : ProviderError :=
  { message, provider, statusCode := 502, retryable := false, code := "stream_interrupted"
    cls := "StreamInterruptedError" }

inductive AegisError where
  | noEligibleRoute (message : String)
  | rateLimitExceeded (message : String)
  | provider (e : ProviderError)
  | circuitOpen (message : String)
  | registryConflict (message : String)
  | artifactNotFound (message : String)
  | evaluationGate (message : String)
  | schemaViolation (message : String)
  deriving DecidableEq, Repr

namespace AegisError

def code : AegisError → String
  | .noEligibleRoute _ => "no_eligible_route"
  | .rateLimitExceeded _ => "rate_limit_exceeded"
  | .provider e => e.code
  | .circuitOpen _ => "circuit_open"
  | .registryConflict _ => "registry_conflict"
  | .artifactNotFound _ => "artifact_not_found"
  | .evaluationGate _ => "evaluation_gate_failed"
  | .schemaViolation _ => "schema_violation"

def statusCode : AegisError → Nat
  | .noEligibleRoute _ => 422
  | .rateLimitExceeded _ => 429
  | .provider e => e.statusCode
  | .circuitOpen _ => 503
  | .registryConflict _ => 409
  | .artifactNotFound _ => 404
  | .evaluationGate _ => 409
  | .schemaViolation _ => 502

def retryable : AegisError → Bool
  | .rateLimitExceeded _ | .circuitOpen _ | .schemaViolation _ => true
  | .provider e => e.retryable
  | _ => false

def message : AegisError → String
  | .noEligibleRoute m | .rateLimitExceeded m | .circuitOpen m | .registryConflict m
  | .artifactNotFound m | .evaluationGate m | .schemaViolation m => m
  | .provider e => e.message

end AegisError

/-- `jsonDecodeError` and `validationError` are what `_validate_schema` catches, `schemaError`
is what `jsonschema` raises for a schema that is none. The consumer of a stream leaves it with
`generatorExit`, and a task is stopped with `cancelledError`. -/
inductive PyExc where
  | aegis (e : AegisError)
  | timeoutError
  | valueError (message : String)
  | jsonDecodeError
  | validationError
  | schemaError
  | generatorExit
  | cancelledError
  | other (cls : String)
  deriving DecidableEq, Repr

namespace PyExc

/-- The classes that an `except` clause of the candidate loops names. -/
def handled : PyExc → Bool
  | .aegis (.schemaViolation _) | .aegis (.circuitOpen _) | .aegis (.provider _)
  | .timeoutError => true
  | _ => false

/-- What `except Exception` catches. -/
def isException : PyExc → Bool
  | .generatorExit | .cancelledError => false
  | _ => true

/-- `type(exc).__name__`. -/
def className : PyExc → String
  | .aegis (.noEligibleRoute _) => "NoEligibleRouteError"
  | .aegis (.rateLimitExceeded _) => "RateLimitExceededError"
  | .aegis (.provider e) => e.cls
  | .aegis (.circuitOpen _) => "CircuitOpenError"
  | .aegis (.registryConflict _) => "RegistryConflictError"
  | .aegis (.artifactNotFound _) => "ArtifactNotFoundError"
  | .aegis (.evaluationGate _) => "EvaluationGateError"
  | .aegis (.schemaViolation _) => "SchemaViolationError"
  | .timeoutError => "TimeoutError"
  | .valueError _ => "ValueError"
  | .jsonDecodeError => "JSONDecodeError"
  | .validationError => "ValidationError"
  | .schemaError => "SchemaError"
  | .generatorExit => "GeneratorExit"
  | .cancelledError => "CancelledError"
  | .other cls => cls

end PyExc

/-! ## Numbers in messages -/

def roundHalfEven (x : ℚ) : Nat :=
  let n := x.floor.toNat
  if x - n < 1 / 2 then n else if 1 / 2 < x - n then n + 1 else n + n % 2

/-- The format `.3f` and the like. -/
def formatFixed (digits : Nat) (x : ℚ) : String :=
  let n := roundHalfEven (|x| * 10 ^ digits)
  let fraction := toString (n % 10 ^ digits)
  (if x < 0 then "-" else "") ++ toString (n / 10 ^ digits) ++ "." ++
    String.ofList (List.replicate (digits - fraction.length) '0') ++ fraction

example : formatFixed 3 (1 / 8) = "0.125" := by decide +kernel

theorem bind_ok {ε α β : Type} {x : Except ε α} {f : α → Except ε β} {b : β}
    (h : x >>= f = .ok b) : ∃ a, x = .ok a ∧ f a = .ok b := by
  cases x with
  | error e => cases h
  | ok a => exact ⟨a, rfl, h⟩

theorem bind_eq_ok {ε α β : Type} {x : Except ε α} {f : α → Except ε β} {b : β} :
    x >>= f = .ok b ↔ ∃ a, x = .ok a ∧ f a = .ok b := by
  refine ⟨bind_ok, ?_⟩
  rintro ⟨a, rfl, h⟩
  exact h

end AegisGateway
