import AegisGateway.Service
import Mathlib.Data.List.Infix

/-!
# Offline evaluation and the control plane

`control/evaluation.py`, and the handlers of `api/app.py` behind the administrator's
token. The handlers take the bodies that their models have accepted.
-/

open Coroutine JsonText

namespace AegisGateway

/-! ## Scoring -/

/-- `re.sub(r"\s+", " ", …)`. -/
def squeezeSpaces (isSpace : Char → Bool) : List Char → List Char
  | [] => []
  | c :: cs =>
    if isSpace c then
      match squeezeSpaces isSpace cs with
      | ' ' :: rest => ' ' :: rest
      | rest => ' ' :: rest
    else c :: squeezeSpaces isSpace cs

def strip (isSpace : Char → Bool) (cs : List Char) : List Char :=
  ((cs.dropWhile isSpace).reverse.dropWhile isSpace).reverse

/-- `_normalize`. -/
def Platform.normalize (P : Platform) (value : String) : List Char :=
  strip P.isSpace (squeezeSpaces P.isSpace (value.toList.flatMap P.casefold))

/-- `_quality`: the share of the checks that the answer passes. -/
def Platform.quality (P : Platform) (case : EvaluationCase) (response : GatewayResponse) : ℚ :=
  let actual := P.normalize response.text
  let checks :=
    (case.expectedText.elim [] fun t => [decide (actual = P.normalize t)]) ++
    case.expectedContains.map fun fragment => decide (P.normalize fragment <:+: actual)
  (share id (if checks = [] then [decide (actual ≠ [])] else checks)).getD 0

/-! ## One run over a data set -/

def evaluationRequest (case : EvaluationCase) (id : String) : Except PyExc GatewayRequest :=
  GatewayRequest.validate
    { tenantId := "offline-evaluation"
      requestId := s!"eval-{id}"
      messages := case.messages
      responseSchema := case.responseSchema
      maxCostUsd := 100
      maxLatencyMs := 120000
      cacheMode := .bypass
      shadowEnabled := false
      metadata := [("evaluation_case_id", case.id)] }

def caseResult (P : Platform) (case : EvaluationCase) (routeId : String)
    (response : GatewayResponse) : EvaluationCaseResult :=
  let quality := P.quality case response
  let schemaOk := response.schemaValid ≠ some false
  { caseId := case.id
    routeId
    passed := decide (1 ≤ quality) && schemaOk
    qualityScore := quality
    schemaValid := response.schemaValid
    latencyMs := response.latencyMs
    costUsd := response.usage.costUsd }

def caseFailure (case : EvaluationCase) (routeId : String) (e : PyExc) : EvaluationCaseResult :=
  { caseId := case.id
    routeId
    passed := false
    qualityScore := 0
    schemaValid := if case.responseSchema.any (· ≠ []) then some false else none
    latencyMs := 0
    costUsd := 0
    error := some e.className }

/-- `_percentile` of `evaluation.py`, of values in any order. -/
def evaluationPercentile (values : List ℚ) (quantile : ℚ) : Option ℚ :=
  (values.insertionSort (· ≤ ·))[percentileIndex quantile values.length]?

def evaluationRun (artifact : Artifact) (routeId runId : String)
    (results : List EvaluationCaseResult) (createdAt : Int) : EvaluationRun :=
  { id := runId
    datasetName := artifact.name
    datasetVersion := artifact.version
    routeId
    results
    passRate := (share (·.passed) results).getD 0
    meanQuality := (mean (·.qualityScore) results).getD 0
    schemaCompliance := share id (results.filterMap (·.schemaValid))
    p99LatencyMs := (evaluationPercentile (results.map (·.latencyMs)) (99 / 100)).getD 0
    totalCostUsd := (results.map (·.costUsd)).sum
    createdAt }

def Platform.datasetCases (P : Platform) (content : Object) : Except PyExc (List EvaluationCase) :=
  match content.lookup "cases" with
  | some (.arr (item :: items)) => (item :: items).mapM P.validateCase
  | _ => .error (.valueError "evaluation dataset must contain a non-empty cases list")

namespace Service

variable (svc : Service)

/-- The result of a case. Only an `Exception` of `generate` is one. -/
def caseOutcome (case : EvaluationCase) (routeId : String) :
    Except PyExc GatewayResponse → GatewayM EvaluationCaseResult
  | .ok response => pure (caseResult svc.platform case routeId response)
  | .error e => if e.isException then pure (caseFailure case routeId e) else raise e

def runCases (routeId : String) : List EvaluationCase → GatewayM (List EvaluationCaseResult)
  | [] => pure []
  | case :: cases => do
    let id ← perform .uuid4
    let request ← Prog.ofExcept (evaluationRequest case id)
    let outcome ←
      (svc.generate { request, forcedRouteId := some routeId, evaluation := true }).attempt
    let result ← svc.caseOutcome case routeId outcome
    let results ← runCases routeId cases
    pure (result :: results)

def runEvaluation (datasetName : String) (datasetVersion : Option String) (routeId : String) :
    GatewayM EvaluationRun := do
  let artifact ← getArtifact .dataset datasetName datasetVersion
  let cases ← Prog.ofExcept (svc.platform.datasetCases artifact.content)
  let results ← svc.runCases routeId cases
  let id ← perform .uuid4
  let createdAt ← perform .datetimeNow
  let run := evaluationRun artifact routeId id results createdAt
  perform (.putEvaluation run)
  pure run

end Service

/-! ## The gate -/

def gateFailures (release : Release) (candidate : EvaluationRun) : List String :=
  (if candidate.meanQuality < release.minQualityScore then
    [s!"quality={formatFixed 4 candidate.meanQuality}<{formatFixed 4 release.minQualityScore}"]
    else []) ++
  (match candidate.schemaCompliance with
    | some compliance => if compliance < release.minSchemaCompliance then
        [s!"schema={formatFixed 4 compliance}<{formatFixed 4 release.minSchemaCompliance}"] else []
    | none => []) ++
  (if release.maxP99LatencyMs < candidate.p99LatencyMs then
    [s!"p99={formatFixed 2 candidate.p99LatencyMs}>{formatFixed 2 release.maxP99LatencyMs}"]
    else []) ++
  (if release.maxErrorRate < 1 - candidate.passRate then
    [s!"failure_rate={formatFixed 4 (1 - candidate.passRate)}>{formatFixed 4 release.maxErrorRate}"]
    else [])

/-- `enforce_release_gate`. -/
def enforceReleaseGate (release : Release) (candidate : EvaluationRun) : Except PyExc Unit :=
  if gateFailures release candidate = [] then .ok ()
  else .error (.aegis (.evaluationGate
    ("release rejected: " ++ ";".intercalate (gateFailures release candidate))))

/-! ## The control plane -/

namespace Service

variable (svc : Service)

/-- `POST /v1/control/releases`. -/
def apiCreateRelease (body : Release) : GatewayM Release := do
  let _ ← Prog.ofExcept (svc.getRoute body.baselineRouteId)
  let _ ← Prog.ofExcept (svc.getRoute body.candidateRouteId)
  .op (.createRelease body) fun a => Prog.ofExcept (a.mapError .aegis)

/-- `POST /v1/control/releases/…/start-canary`. -/
def apiStartCanary (releaseId datasetName : String) (datasetVersion : Option String) :
    GatewayM (Release × EvaluationRun) := do
  let release ← getRelease releaseId
  let run ← svc.runEvaluation datasetName datasetVersion release.candidateRouteId
  Prog.ofExcept (enforceReleaseGate release run)
  let updated ← startCanary releaseId
  pure (updated, run)

/-- `POST /v1/control/artifacts`. -/
def apiCreateArtifact (kind : ArtifactKind) (name version : String) (content : Object) :
    GatewayM Artifact :=
  .op (.putArtifact kind name version content) fun a => Prog.ofExcept (a.mapError .aegis)

/-! ## Tasks -/

inductive Outcome where
  | response (r : GatewayResponse)
  | streamed
  | rollback (d : RollbackDecision)
  | artifact (a : Artifact)
  | release (r : Release)
  | canary (r : Release) (run : EvaluationRun)
  | evaluation (run : EvaluationRun)
  | metrics (m : MetricsSnapshot)
  | circuits (shots : List CircuitSnapshot)
  | cleared (n : Nat)

/-- The coroutine of a call. A shadow runs under an assignment that only names the release. -/
def body : Call → GatewayM Outcome
  | .generate request forced => do
    let r ← svc.generate { request, forcedRouteId := forced }
    pure (.response r)
  | .stream request forced => do
    svc.stream request forced
    pure .streamed
  | .shadow request routeId releaseId => do
    let r ← svc.generate
      { request, forcedRouteId := some routeId, shadow := true
        assignmentOverride := some { releaseId } }
    pure (.response r)
  | .assess releaseId => do
    let d ← assess releaseId
    pure (.rollback d)
  | .createArtifact kind name version content => do
    let a ← apiCreateArtifact kind name version content
    pure (.artifact a)
  | .createRelease release => do
    let r ← svc.apiCreateRelease release
    pure (.release r)
  | .startCanary releaseId datasetName datasetVersion => do
    let (r, run) ← svc.apiStartCanary releaseId datasetName datasetVersion
    pure (.canary r run)
  | .promote releaseId => do
    let r ← promote releaseId
    pure (.release r)
  | .rollback releaseId reason => do
    let d ← AegisGateway.rollback releaseId reason
    pure (.rollback d)
  | .runEvaluation datasetName datasetVersion routeId => do
    let run ← svc.runEvaluation datasetName datasetVersion routeId
    pure (.evaluation run)
  | .metricSummary releaseId routeId canary => do
    let m ← summary releaseId routeId canary
    pure (.metrics m)
  | .circuits => do
    let shots ← perform .snapshots
    pure (.circuits shots)
  | .clearCache => do
    let n ← perform .cacheClear
    pure (.cleared n)

end Service

end AegisGateway
