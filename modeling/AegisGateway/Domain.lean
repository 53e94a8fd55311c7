import AegisGateway.Errors
import AegisGateway.Lib.Json
import Mathlib.Algebra.Order.Field.Rat

/-!
# The contracts of `domain.py`

A set is the list of its members, in no order that matters. A float is its exact
value, and a `datetime` the microseconds since the epoch.
-/

open JsonText

namespace AegisGateway

/-! ## Enumerations -/

inductive Capability where
  | text | streaming | structuredOutput | tools | vision
  deriving DecidableEq, Repr

def Capability.value : Capability → String
  | .text => "text"
  | .streaming => "streaming"
  | .structuredOutput => "structured_output"
  | .tools => "tools"
  | .vision => "vision"

inductive DataClassification where
  | isPublic | internal | confidential | restricted
  deriving DecidableEq, Repr

def DataClassification.value : DataClassification → String
  | .isPublic => "public"
  | .internal => "internal"
  | .confidential => "confidential"
  | .restricted => "restricted"

inductive PrivacyMode where
  | standard | zeroRetention | localOnly
  deriving DecidableEq, Repr

def PrivacyMode.value : PrivacyMode → String
  | .standard => "standard"
  | .zeroRetention => "zero_retention"
  | .localOnly => "local_only"

inductive CacheMode where
  | default | bypass | refresh
  deriving DecidableEq, Repr

inductive Role where
  | system | developer | user | assistant | tool
  deriving DecidableEq, Repr

def Role.value : Role → String
  | .system => "system"
  | .developer => "developer"
  | .user => "user"
  | .assistant => "assistant"
  | .tool => "tool"

inductive ArtifactKind where
  | prompt | dataset | modelCatalog | policy
  deriving DecidableEq, Repr

def ArtifactKind.value : ArtifactKind → String
  | .prompt => "prompt"
  | .dataset => "dataset"
  | .modelCatalog => "model_catalog"
  | .policy => "policy"

inductive ReleaseState where
  | draft | candidate | active | rolledBack | rejected
  deriving DecidableEq, Repr

/-! ## Requests and routes -/

structure Message where
  role : Role
  content : String
  name : Option String := none
  deriving DecidableEq, Repr

structure ArtifactRef where
  name : String
  version : Option String := none
  deriving DecidableEq, Repr

/-- pydantic's `ValidationError`, which is not the one of `jsonschema`. -/
def invalidModel : PyExc := .other "ValidationError"

def lengthWithin (low high : Nat) (s : String) : Bool := low ≤ s.length && s.length ≤ high

def Message.fieldsValid (m : Message) : Bool :=
  lengthWithin 1 1000000 m.content && m.name.all (lengthWithin 0 128)

/-- `Message(...)`. -/
def Message.validate (m : Message) : Except PyExc Message :=
  if m.fieldsValid then .ok m else .error invalidModel

def ArtifactRef.fieldsValid (r : ArtifactRef) : Bool :=
  lengthWithin 1 128 r.name && r.version.all (lengthWithin 0 128)

structure GatewayRequest where
  tenantId : String
  requestId : String
  userId : Option String := none
  messages : List Message
  prompt : Option ArtifactRef := none
  promptVariables : List (String × String) := []
  requiredCapabilities : List Capability := [.text]
  dataClassification : DataClassification := .internal
  privacyMode : PrivacyMode := .standard
  allowedRegions : List String := []
  maxCostUsd : ℚ := 1 / 20
  maxLatencyMs : Nat := 10000
  maxOutputTokens : Nat := 512
  temperature : Option ℚ := none
  stream : Bool := false
  responseSchema : Option Object := none
  schemaName : String := "gateway_response"
  cacheMode : CacheMode := .default
  shadowEnabled : Bool := true
  metadata : List (String × String) := []

/-- The validator that runs after the fields are checked. -/
def GatewayRequest.inferCapabilities (q : GatewayRequest) : GatewayRequest :=
  { q with
    requiredCapabilities :=
      q.requiredCapabilities.insert .text
        |> (fun cs => if q.stream then cs.insert .streaming else cs)
        |> (fun cs => if q.responseSchema.isSome then cs.insert .structuredOutput else cs) }

/-- `[a-zA-Z0-9_.-]`. -/
def isIdChar (c : Char) : Bool :=
  c.isAlphanum || c == '_' || c == '.' || c == '-'

/-- `[a-zA-Z0-9_-]`. -/
def isSchemaNameChar (c : Char) : Bool :=
  c.isAlphanum || c == '_' || c == '-'

/-- The bounds that pydantic checks on the fields of a request. -/
def GatewayRequest.fieldsValid (q : GatewayRequest) : Bool :=
  lengthWithin 1 128 q.tenantId && q.tenantId.toList.all isIdChar &&
  lengthWithin 8 128 q.requestId &&
  q.userId.all (lengthWithin 0 256) &&
  1 ≤ q.messages.length && q.messages.length ≤ 256 && q.messages.all Message.fieldsValid &&
  q.prompt.all ArtifactRef.fieldsValid &&
  0 ≤ q.maxCostUsd && q.maxCostUsd ≤ 1000 &&
  50 ≤ q.maxLatencyMs && q.maxLatencyMs ≤ 600000 &&
  1 ≤ q.maxOutputTokens && q.maxOutputTokens ≤ 131072 &&
  (q.temperature.all fun t => 0 ≤ t && t ≤ 2) &&
  1 ≤ q.schemaName.length && q.schemaName.toList.all isSchemaNameChar

/-- `GatewayRequest(...)`. -/
def GatewayRequest.validate (q : GatewayRequest) : Except PyExc GatewayRequest :=
  if q.fieldsValid then .ok q.inferCapabilities else .error invalidModel

/-- A route that `ModelRoute.model_validate` has accepted. -/
structure ModelRoute where
  id : String
  provider : String
  model : String
  capabilities : List Capability
  regions : List String
  contextWindow : Nat
  inputCostPerMillion : ℚ
  outputCostPerMillion : ℚ
  expectedP95LatencyMs : Nat
  qualityScore : ℚ
  privacyModes : List PrivacyMode
  enabled : Bool := true
  inputCost_nonneg : 0 ≤ inputCostPerMillion := by decide +kernel
  outputCost_nonneg : 0 ≤ outputCostPerMillion := by decide +kernel

def ModelRoute.idValid (route : ModelRoute) : Bool :=
  lengthWithin 1 128 route.id && route.id.toList.all isIdChar

/-! ## Routing -/

structure RejectedRoute where
  routeId : String
  reasons : List String
  deriving DecidableEq, Repr

structure RoutingCandidate where
  routeId : String
  predictedCostUsd : ℚ
  predictedLatencyMs : Nat
  utility : ℚ
  routingRegret : ℚ := 0
  deriving DecidableEq, Repr

structure RoutingDecision where
  requestId : String
  selectedRouteId : String
  candidates : List RoutingCandidate
  rejected : List RejectedRoute
  policyVersion : String
  canary : Bool
  releaseId : Option String

/-- Where a request goes under the live release. -/
structure ReleaseAssignment where
  preferredRouteId : Option String := none
  shadowRouteId : Option String := none
  canary : Bool := false
  releaseId : Option String := none
  deriving DecidableEq, Repr

structure RollbackDecision where
  rolledBack : Bool
  reason : Option String := none
  durationMs : Option ℚ := none
  deriving DecidableEq, Repr

/-! ## Providers -/

structure ProviderResult where
  text : String
  inputTokens : Nat
  outputTokens : Nat
  ttftMs : ℚ
  rawModel : String
  deriving DecidableEq, Repr

inductive StreamEventType where
  | start | delta | usage | done | error
  deriving DecidableEq, Repr

structure ProviderStreamEvent where
  type : StreamEventType
  delta : String := ""
  inputTokens : Option Nat := none
  outputTokens : Option Nat := none
  deriving DecidableEq, Repr

/-! ## Responses -/

structure GatewayUsage where
  inputTokens : Nat
  outputTokens : Nat
  costUsd : ℚ
  deriving DecidableEq, Repr

/-- `parsed` is `null` where Python has `None`. -/
structure GatewayResponse where
  requestId : String
  routeId : String
  provider : String
  model : String
  text : String
  parsed : Json := .null
  schemaValid : Option Bool := none
  usage : GatewayUsage
  ttftMs : ℚ
  latencyMs : ℚ
  cacheHit : Bool := false
  fallbackCount : Nat := 0
  routingRegret : ℚ := 0
  createdAt : Int

inductive GatewayEventType where
  | start | delta | done | error
  deriving DecidableEq, Repr

structure GatewayStreamEvent where
  type : GatewayEventType
  requestId : String
  routeId : String
  provider : String
  model : String
  delta : String := ""
  response : Option GatewayResponse := none

/-! ## Evidence and releases -/

structure RequestMetric where
  requestId : String
  tenantId : String
  routeId : String
  provider : String
  success : Bool
  schemaValid : Option Bool
  cacheHit : Bool
  canary : Bool
  releaseId : Option String
  shadow : Bool
  inputTokens : Nat
  outputTokens : Nat
  costUsd : ℚ
  ttftMs : ℚ
  latencyMs : ℚ
  routingRegret : ℚ
  fallbackCount : Nat
  errorCode : Option String := none
  createdAt : Int
  deriving DecidableEq, Repr

structure MetricsSnapshot where
  requests : Nat
  successfulRequests : Nat
  successRate : ℚ
  schemaCompliance : Option ℚ
  cacheHitRate : ℚ
  failoverSuccessRate : Option ℚ
  meanCostPerSuccessUsd : Option ℚ
  meanTtftMs : Option ℚ
  p99LatencyMs : Option ℚ
  meanRoutingRegret : Option ℚ
  deriving DecidableEq, Repr

structure RollbackEvent where
  releaseId : String
  reason : String
  durationMs : ℚ
  createdAt : Int
  deriving DecidableEq, Repr

structure Artifact where
  kind : ArtifactKind
  name : String
  version : String
  content : Object
  contentHash : String
  createdAt : Int

structure Release where
  id : String
  name : String
  baselineRouteId : String
  candidateRouteId : String
  canaryPercent : Nat := 5
  shadowPercent : Nat := 0
  state : ReleaseState := .draft
  maxErrorRate : ℚ := 1 / 20
  maxP99LatencyMs : ℚ := 10000
  minSchemaCompliance : ℚ := 99 / 100
  minQualityScore : ℚ := 4 / 5
  minCanarySamples : Nat := 20
  createdAt : Int := 0
  updatedAt : Int := 0
  deriving DecidableEq, Repr

/-- The bounds that pydantic checks on the body of a release. -/
structure Release.Accepted (r : Release) : Prop where
  canaryPercent : r.canaryPercent ≤ 100
  shadowPercent : r.shadowPercent ≤ 100
  maxErrorRate : 0 ≤ r.maxErrorRate ∧ r.maxErrorRate ≤ 1
  maxP99LatencyMs : 0 < r.maxP99LatencyMs
  minSchemaCompliance : 0 ≤ r.minSchemaCompliance ∧ r.minSchemaCompliance ≤ 1
  minQualityScore : 0 ≤ r.minQualityScore ∧ r.minQualityScore ≤ 1
  minCanarySamples : 1 ≤ r.minCanarySamples

/-! ## Evaluation -/

structure EvaluationCase where
  id : String
  messages : List Message
  expectedText : Option String := none
  expectedContains : List String := []
  responseSchema : Option Object := none

structure EvaluationCaseResult where
  caseId : String
  routeId : String
  passed : Bool
  qualityScore : ℚ
  schemaValid : Option Bool
  latencyMs : ℚ
  costUsd : ℚ
  error : Option String := none
  deriving DecidableEq, Repr

structure EvaluationRun where
  id : String
  datasetName : String
  datasetVersion : String
  routeId : String
  results : List EvaluationCaseResult
  passRate : ℚ
  meanQuality : ℚ
  schemaCompliance : Option ℚ
  p99LatencyMs : ℚ
  totalCostUsd : ℚ
  createdAt : Int
  deriving DecidableEq, Repr

end AegisGateway
