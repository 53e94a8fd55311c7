import AegisGateway.Ops

/-!
# Releases

`control/release.py`: the assignment of a request to a lane, and the verdict on a
candidate from its live evidence.
-/

open Coroutine

namespace AegisGateway

/-- `int.from_bytes(digest[:8], "big")`. -/
def bigEndian (digest : List UInt8) : Nat := digest.foldl (fun n b => 256 * n + b.toNat) 0

/-- `_bucket`. -/
def Platform.bucket (P : Platform) (releaseId requestId lane : String) : Nat :=
  bigEndian ((P.sha256 s!"{releaseId}:{lane}:{requestId}").take 8) % 100

def Platform.assignTo (P : Platform) (q : GatewayRequest) (release : Release) :
    ReleaseAssignment :=
  match release.state with
  | .active =>
    { preferredRouteId := some release.candidateRouteId, releaseId := some release.id }
  | .candidate =>
    let canary := decide (P.bucket release.id q.requestId "canary" < release.canaryPercent)
    let shadow := q.shadowEnabled && !canary &&
      decide (P.bucket release.id q.requestId "shadow" < release.shadowPercent)
    { preferredRouteId := some (if canary then release.candidateRouteId else release.baselineRouteId)
      shadowRouteId := if shadow then some release.candidateRouteId else none
      canary
      releaseId := some release.id }
  | _ => {}

/-- `ReleaseManager.assignment`, of the release name that the service uses. -/
def Service.assignment (svc : Service) (q : GatewayRequest) : GatewayM ReleaseAssignment := do
  let release ← perform (.getLive "default")
  pure (release.elim {} (svc.platform.assignTo q))

/-! ## The verdict -/

/-- What `assess` holds against a release, from the summary of its canary rows. -/
def breaches (release : Release) (summary : MetricsSnapshot) : List String :=
  (if release.maxErrorRate < 1 - summary.successRate then
    [s!"error_rate={formatFixed 4 (1 - summary.successRate)}>{formatFixed 4 release.maxErrorRate}"]
    else []) ++
  (match summary.p99LatencyMs with
    | some p99 => if release.maxP99LatencyMs < p99 then
        [s!"p99_ms={formatFixed 2 p99}>{formatFixed 2 release.maxP99LatencyMs}"] else []
    | none => []) ++
  (match summary.schemaCompliance with
    | some compliance => if compliance < release.minSchemaCompliance then
        [s!"schema_compliance={formatFixed 4 compliance}<{formatFixed 4 release.minSchemaCompliance}"]
        else []
    | none => [])

/-- `EvidenceStore.summary`. -/
def summary (releaseId routeId : Option String) (canary : Option Bool) :
    GatewayM MetricsSnapshot := do
  let rows ← perform (.metrics releaseId routeId canary 100000)
  pure (summarizeMetrics rows)

def rollbackWith (releaseId reason : String) : GatewayM RollbackDecision := do
  let started ← perform .monotonic
  let _ ← setState releaseId .rolledBack
  let now ← perform .monotonic
  let durationMs := (now - started) * 1000
  perform (.recordRollback releaseId reason durationMs)
  pure { rolledBack := true, reason := some reason, durationMs := some durationMs }

def assess (releaseId : String) : GatewayM RollbackDecision := do
  let release ← getRelease releaseId
  if release.state ≠ .candidate then pure { rolledBack := false }
  else do
    let summary ← summary (some release.id) none (some true)
    if summary.requests < release.minCanarySamples then pure { rolledBack := false }
    else if breaches release summary = [] then pure { rolledBack := false }
    else rollbackWith release.id (";".intercalate (breaches release summary))

def promote (releaseId : String) : GatewayM Release := setState releaseId .active

def startCanary (releaseId : String) : GatewayM Release := setState releaseId .candidate

/-- `ReleaseManager.rollback`. -/
def rollback (releaseId reason : String) : GatewayM RollbackDecision :=
  rollbackWith releaseId reason

end AegisGateway
