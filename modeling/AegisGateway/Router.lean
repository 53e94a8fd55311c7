import AegisGateway.Ops

/-!
# The policy router

`control/router.py`: hard constraints first, then an explicit ranking. The estimate
of tokens is the one of `providers/base.py`.
-/

open Coroutine

namespace AegisGateway

def estimateTokens (text : String) : Nat := max 1 ((text.length + 3) / 4)

def requestInputTokens (q : GatewayRequest) : Nat :=
  (q.messages.map fun m => estimateTokens m.content + 4).sum

def requiredPrivacy (q : GatewayRequest) : PrivacyMode :=
  if q.dataClassification = .restricted then .localOnly
  else if q.dataClassification = .confidential ∧ q.privacyMode = .standard then .zeroRetention
  else q.privacyMode

def predictedCost (route : ModelRoute) (inputTokens outputTokens : Nat) : ℚ :=
  (inputTokens * route.inputCostPerMillion + outputTokens * route.outputCostPerMillion) / 1000000

def actualCost (route : ModelRoute) (inputTokens outputTokens : Nat) : ℚ :=
  predictedCost route inputTokens outputTokens

/-- The cost that a request is routed by: its output limit is spent in full. -/
def requestCost (route : ModelRoute) (q : GatewayRequest) : ℚ :=
  predictedCost route (requestInputTokens q) q.maxOutputTokens

def missingCapabilities (q : GatewayRequest) (route : ModelRoute) : List Capability :=
  q.requiredCapabilities.filter (· ∉ route.capabilities)

def regionAllowed (q : GatewayRequest) (route : ModelRoute) : Bool :=
  q.allowedRegions = [] || q.allowedRegions.any (· ∈ route.regions)

/-! ## The decision -/

/-- The keyword arguments of `decide`. -/
structure RoutingOptions where
  preferredRouteId : Option String := none
  forcedRouteId : Option String := none
  excludedRouteIds : List String := []
  canary : Bool := false
  releaseId : Option String := none

def rejectReasons (q : GatewayRequest) (opts : RoutingOptions) (route : ModelRoute)
    (available : Bool) : List String :=
  (if route.enabled then [] else ["disabled"]) ++
  (if route.id ∈ opts.excludedRouteIds then ["previous_attempt_failed"] else []) ++
  (if opts.forcedRouteId.all (· = route.id) then [] else ["not_forced_route"]) ++
  (if missingCapabilities q route = [] then []
    else ["missing_capabilities:" ++
      ",".intercalate (sorted ((missingCapabilities q route).map (·.value)))]) ++
  (if requiredPrivacy q ∈ route.privacyModes then []
    else [s!"privacy_mode:{(requiredPrivacy q).value}"]) ++
  (if regionAllowed q route then [] else ["region"]) ++
  (if requestInputTokens q + q.maxOutputTokens ≤ route.contextWindow then []
    else ["context_window"]) ++
  (if requestCost route q ≤ q.maxCostUsd then [] else ["cost_budget"]) ++
  (if route.expectedP95LatencyMs ≤ q.maxLatencyMs then [] else ["latency_budget"]) ++
  (if available then [] else ["circuit_open"])

def utility (weights : UtilityWeights) (route : ModelRoute) (q : GatewayRequest) : ℚ :=
  let latencyRatio := min 1 ((route.expectedP95LatencyMs : ℚ) / q.maxLatencyMs)
  let costRatio := if 0 < q.maxCostUsd then min 1 (requestCost route q / q.maxCostUsd) else 0
  weights.quality * route.qualityScore - weights.latency * latencyRatio - weights.cost * costRatio

/-- The order of `candidates.sort`: by utility, then cost, then id. -/
def rankLe (a b : RoutingCandidate) : Prop :=
  b.utility < a.utility ∨ b.utility = a.utility ∧
    (a.predictedCostUsd < b.predictedCostUsd ∨ a.predictedCostUsd = b.predictedCostUsd ∧
      a.routeId ≤ b.routeId)

instance : DecidableRel rankLe := fun a b =>
  inferInstanceAs (Decidable (b.utility < a.utility ∨ b.utility = a.utility ∧
    (a.predictedCostUsd < b.predictedCostUsd ∨ a.predictedCostUsd = b.predictedCostUsd ∧
      a.routeId ≤ b.routeId)))

namespace Service

variable (svc : Service)

def toCandidate (q : GatewayRequest) (route : ModelRoute) : RoutingCandidate :=
  { routeId := route.id
    predictedCostUsd := requestCost route q
    predictedLatencyMs := route.expectedP95LatencyMs
    utility := utility svc.weights route q }

/-- The loop of `decide` over the routes. -/
def screen (q : GatewayRequest) (opts : RoutingOptions) :
    List ModelRoute → GatewayM (List RoutingCandidate × List RejectedRoute)
  | [] => pure ([], [])
  | route :: routes => do
    let available ← perform (.isAvailable route.id)
    let reasons := rejectReasons q opts route available
    let (candidates, rejected) ← screen q opts routes
    if reasons = [] then pure (svc.toCandidate q route :: candidates, rejected)
    else pure (candidates, ⟨route.id, reasons⟩ :: rejected)

/-- What `decide` makes of the screened routes. -/
def conclude (q : GatewayRequest) (opts : RoutingOptions) (candidates : List RoutingCandidate)
    (rejected : List RejectedRoute) : Except PyExc RoutingDecision :=
  match candidates.insertionSort rankLe with
  | [] =>
    let summary := "; ".intercalate
      (rejected.map fun item => item.routeId ++ "=" ++ ",".intercalate item.reasons)
    .error (.aegis (.noEligibleRoute s!"no route satisfies the request contract: {summary}"))
  | best :: rest =>
    let ranked := (best :: rest).map fun c =>
      { c with routingRegret := max 0 (best.utility - c.utility) }
    let selected := (opts.preferredRouteId.bind fun id => ranked.find? (·.routeId = id)).getD best
    .ok
      { requestId := q.requestId
        selectedRouteId := selected.routeId
        candidates := ranked
        rejected
        policyVersion := svc.policyVersion
        canary := opts.canary
        releaseId := opts.releaseId }

def decide (q : GatewayRequest) (opts : RoutingOptions) : GatewayM RoutingDecision := do
  let (candidates, rejected) ← svc.screen q opts svc.routes
  Prog.ofExcept (svc.conclude q opts candidates rejected)

end Service

/-- `_ordered_candidates`: the selected candidate, then the others as they are ranked. -/
def orderedCandidates (decision : RoutingDecision) : List RoutingCandidate :=
  match decision.candidates.find? (·.routeId = decision.selectedRouteId) with
  | some selected =>
    selected :: decision.candidates.eraseP (·.routeId = decision.selectedRouteId)
  | none => []

end AegisGateway
