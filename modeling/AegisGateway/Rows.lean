import AegisGateway.Registry
import AegisGateway.Lib.IsoText
import AegisGateway.Lib.Tables

/-!
# Rows

The statements of `control/registry.py` on the tables of the metrics and of the releases,
column by column. What is written is a list of values for a list of names, and what is read
is a row of a table that is defined elsewhere.
-/

open Tables Calendar

namespace AegisGateway

/-- `ReleaseState(value).value`. -/
def ReleaseState.value : ReleaseState → String
  | .draft => "draft"
  | .candidate => "candidate"
  | .active => "active"
  | .rolledBack => "rolled_back"
  | .rejected => "rejected"

namespace Rows

/-! ## Objects -/

/-- A `RequestMetric`, with its time as a `datetime`. -/
structure MetricObject where
  requestId : String
  tenantId : String
  routeId : String
  provider : String
  success : Bool
  schemaValid : Option Bool
  cacheHit : Bool
  canary : Bool
  releaseId : Option String
  shadow : Bool
  inputTokens : Int
  outputTokens : Int
  costUsd : ℚ
  ttftMs : ℚ
  latencyMs : ℚ
  routingRegret : ℚ
  fallbackCount : Int
  errorCode : Option String
  createdAt : Timestamp

/-- A `Release`, with its times and with the bounds that its fields are checked for. -/
structure ReleaseObject where
  id : String
  name : String
  baselineRouteId : String
  candidateRouteId : String
  canaryPercent : Int
  shadowPercent : Int
  state : ReleaseState
  maxErrorRate : ℚ
  maxP99LatencyMs : ℚ
  minSchemaCompliance : ℚ
  minQualityScore : ℚ
  minCanarySamples : Int
  createdAt : Timestamp
  updatedAt : Timestamp
  valid : (0 ≤ canaryPercent ∧ canaryPercent ≤ 100) ∧ (0 ≤ shadowPercent ∧ shadowPercent ≤ 100) ∧
    (0 ≤ maxErrorRate ∧ maxErrorRate ≤ 1) ∧ 0 < maxP99LatencyMs ∧
    (0 ≤ minSchemaCompliance ∧ minSchemaCompliance ≤ 1) ∧
    (0 ≤ minQualityScore ∧ minQualityScore ≤ 1) ∧ 1 ≤ minCanarySamples

/-! ## The tables -/

def releaseColumns : List Column :=
  [⟨"id", .text, .primaryKey⟩,
    ⟨"name", .text, .notNull⟩,
    ⟨"baseline_route_id", .text, .notNull⟩,
    ⟨"candidate_route_id", .text, .notNull⟩,
    ⟨"canary_percent", .integer, .notNull⟩,
    ⟨"shadow_percent", .integer, .notNull⟩,
    ⟨"state", .text, .notNull⟩,
    ⟨"max_error_rate", .real, .notNull⟩,
    ⟨"max_p99_latency_ms", .real, .notNull⟩,
    ⟨"min_schema_compliance", .real, .notNull⟩,
    ⟨"min_quality_score", .real, .notNull⟩,
    ⟨"min_canary_samples", .integer, .notNull⟩,
    ⟨"created_at", .text, .notNull⟩,
    ⟨"updated_at", .text, .notNull⟩]

def metricColumns : List Column :=
  [⟨"sequence", .integer, .autoincrement⟩,
    ⟨"request_id", .text, .notNull⟩,
    ⟨"tenant_id", .text, .notNull⟩,
    ⟨"route_id", .text, .notNull⟩,
    ⟨"provider", .text, .notNull⟩,
    ⟨"success", .integer, .notNull⟩,
    ⟨"schema_valid", .integer, .none⟩,
    ⟨"cache_hit", .integer, .notNull⟩,
    ⟨"canary", .integer, .notNull⟩,
    ⟨"release_id", .text, .none⟩,
    ⟨"shadow", .integer, .notNull⟩,
    ⟨"input_tokens", .integer, .notNull⟩,
    ⟨"output_tokens", .integer, .notNull⟩,
    ⟨"cost_usd", .real, .notNull⟩,
    ⟨"ttft_ms", .real, .notNull⟩,
    ⟨"latency_ms", .real, .notNull⟩,
    ⟨"routing_regret", .real, .notNull⟩,
    ⟨"fallback_count", .integer, .notNull⟩,
    ⟨"error_code", .text, .none⟩,
    ⟨"created_at", .text, .notNull⟩]

def rollbackColumns : List Column :=
  [⟨"id", .integer, .autoincrement⟩,
    ⟨"release_id", .text, .notNull⟩,
    ⟨"reason", .text, .notNull⟩,
    ⟨"duration_ms", .real, .notNull⟩,
    ⟨"created_at", .text, .notNull⟩]

def raised : Fault → PyExc
  | .overflow => .other "OverflowError"
  | .integrity | .mismatch => .other "IntegrityError"

/-! ## Writing -/

/-- `int(value)` of a `bool`. -/
def flag (b : Bool) : Value := .integer (if b then 1 else 0)

def nullable {α : Type} (write : α → Value) : Option α → Value
  | none => .null
  | some a => write a

def time (t : Timestamp) : Value := .text t.isoformat

def metricNames : List String :=
  ["request_id", "tenant_id", "route_id", "provider", "success", "schema_valid", "cache_hit",
    "canary", "release_id", "shadow", "input_tokens", "output_tokens", "cost_usd", "ttft_ms",
    "latency_ms", "routing_regret", "fallback_count", "error_code", "created_at"]

def metricValues (m : MetricObject) : List Value :=
  [.text m.requestId, .text m.tenantId, .text m.routeId, .text m.provider, flag m.success,
    nullable flag m.schemaValid, flag m.cacheHit, flag m.canary, nullable .text m.releaseId,
    flag m.shadow, .integer m.inputTokens, .integer m.outputTokens, .real m.costUsd,
    .real m.ttftMs, .real m.latencyMs, .real m.routingRegret, .integer m.fallbackCount,
    nullable .text m.errorCode, time m.createdAt]

def recordMetric (m : MetricObject) (t : Table) : Except PyExc Table :=
  (Tables.insert metricColumns metricNames (metricValues m) t).mapError raised

def releaseNames : List String :=
  ["id", "name", "baseline_route_id", "candidate_route_id", "canary_percent", "shadow_percent",
    "state", "max_error_rate", "max_p99_latency_ms", "min_schema_compliance",
    "min_quality_score", "min_canary_samples", "created_at", "updated_at"]

def releaseValues (r : ReleaseObject) : List Value :=
  [.text r.id, .text r.name, .text r.baselineRouteId, .text r.candidateRouteId,
    .integer r.canaryPercent, .integer r.shadowPercent, .text r.state.value, .real r.maxErrorRate,
    .real r.maxP99LatencyMs, .real r.minSchemaCompliance, .real r.minQualityScore,
    .integer r.minCanarySamples, time r.createdAt, time r.updatedAt]

def create (release : ReleaseObject) (t : Table) : Except PyExc ReleaseObject × Table :=
  match Tables.insert releaseColumns releaseNames (releaseValues release) t with
  | .ok t' => (.ok release, t')
  | .error .integrity =>
    (.error (.aegis (.registryConflict s!"release '{release.id}' already exists")), t)
  | .error e => (.error (raised e), t)

def rollbackNames : List String := ["release_id", "reason", "duration_ms", "created_at"]

def rollbackValues (releaseId reason : String) (durationMs : ℚ) (now : Timestamp) : List Value :=
  [.text releaseId, .text reason, .real durationMs, time now]

def recordRollback (now : DateTime) (releaseId reason : String) (durationMs : ℚ) (t : Table) :
    Except PyExc Table :=
  (Tables.insert rollbackColumns rollbackNames
    (rollbackValues releaseId reason durationMs (.utc now)) t).mapError raised

/-! ## Reading -/

/-- `bool(value)`. -/
def truth : Value → Bool
  | .null => false
  | .integer n => n ≠ 0
  | .real x => x ≠ 0
  | .text s => s ≠ ""

/-! A column holds no value that the validation of a field would have to convert. -/

def readText : Value → Except PyExc String
  | .text s => .ok s
  | _ => .error .validationError

def readInteger : Value → Except PyExc Int
  | .integer n => .ok n
  | _ => .error .validationError

def readReal : Value → Except PyExc ℚ
  | .real x => .ok x
  | .integer n => .ok n
  | _ => .error .validationError

def readOptional {α : Type} (read : Value → Except PyExc α) : Value → Except PyExc (Option α)
  | .null => .ok none
  | v => (read v).map some

/-- `datetime.fromisoformat(value)`. -/
def readTime : Value → Except PyExc Timestamp
  | .text s =>
    match fromisoformat s with
    | some t => .ok t
    | none => .error (.valueError s!"Invalid isoformat string: '{s}'")
  | _ => .error (.other "TypeError")

/-- `ReleaseState(value)`. -/
def readState : Value → Except PyExc ReleaseState
  | .text "draft" => .ok .draft
  | .text "candidate" => .ok .candidate
  | .text "active" => .ok .active
  | .text "rolled_back" => .ok .rolledBack
  | .text "rejected" => .ok .rejected
  | _ => .error (.valueError "not a valid ReleaseState")

/-- `_metric_from_row`. -/
def metricFromRow (row : Row) : Except PyExc MetricObject := do
  let value (i : Nat) : Value := row.getD i .null
  let createdAt ← readTime (value 19)
  let requestId ← readText (value 1)
  let tenantId ← readText (value 2)
  let routeId ← readText (value 3)
  let provider ← readText (value 4)
  let releaseId ← readOptional readText (value 9)
  let inputTokens ← readInteger (value 11)
  let outputTokens ← readInteger (value 12)
  let costUsd ← readReal (value 13)
  let ttftMs ← readReal (value 14)
  let latencyMs ← readReal (value 15)
  let routingRegret ← readReal (value 16)
  let fallbackCount ← readInteger (value 17)
  let errorCode ← readOptional readText (value 18)
  return {
    requestId, tenantId, routeId, provider
    success := truth (value 5)
    schemaValid := if value 6 = .null then none else some (truth (value 6))
    cacheHit := truth (value 7)
    canary := truth (value 8)
    releaseId
    shadow := truth (value 10)
    inputTokens, outputTokens, costUsd, ttftMs, latencyMs, routingRegret, fallbackCount
    errorCode, createdAt }

/-- `_release_from_row`. -/
def releaseFromRow (row : Row) : Except PyExc ReleaseObject := do
  let value (i : Nat) : Value := row.getD i .null
  let state ← readState (value 6)
  let createdAt ← readTime (value 12)
  let updatedAt ← readTime (value 13)
  let id ← readText (value 0)
  let name ← readText (value 1)
  let baselineRouteId ← readText (value 2)
  let candidateRouteId ← readText (value 3)
  let canaryPercent ← readInteger (value 4)
  let shadowPercent ← readInteger (value 5)
  let maxErrorRate ← readReal (value 7)
  let maxP99LatencyMs ← readReal (value 8)
  let minSchemaCompliance ← readReal (value 9)
  let minQualityScore ← readReal (value 10)
  let minCanarySamples ← readInteger (value 11)
  if valid : (0 ≤ canaryPercent ∧ canaryPercent ≤ 100) ∧ (0 ≤ shadowPercent ∧ shadowPercent ≤ 100) ∧
      (0 ≤ maxErrorRate ∧ maxErrorRate ≤ 1) ∧ 0 < maxP99LatencyMs ∧
      (0 ≤ minSchemaCompliance ∧ minSchemaCompliance ≤ 1) ∧
      (0 ≤ minQualityScore ∧ minQualityScore ≤ 1) ∧ 1 ≤ minCanarySamples then
    return {
      id, name, baselineRouteId, candidateRouteId, canaryPercent, shadowPercent, state, maxErrorRate
      maxP99LatencyMs, minSchemaCompliance, minQualityScore, minCanarySamples, createdAt, updatedAt
      valid }
  else throw .validationError

/-! ## Queries -/

/-- The clauses of the query that `metrics` builds, and the parameters. -/
def metricsQuery (releaseId routeId : Option String) (canary : Option Bool) (limit : Int) :
    List String × List Value :=
  let (clauses, params) : List String × List Value := ([], [])
  let (clauses, params) :=
    match releaseId with
    | some id => (clauses ++ ["release_id"], params ++ [Value.text id])
    | none => (clauses, params)
  let (clauses, params) :=
    match routeId with
    | some id => (clauses ++ ["route_id"], params ++ [Value.text id])
    | none => (clauses, params)
  let (clauses, params) :=
    match canary with
    | some b => (clauses ++ ["canary"], params ++ [flag b])
    | none => (clauses, params)
  (clauses, params ++ [Value.integer limit])

def metrics (releaseId routeId : Option String) (canary : Option Bool) (limit : Int) (t : Table) :
    Except PyExc (List MetricObject) := do
  let query := metricsQuery releaseId routeId canary limit
  let rows ← (select metricColumns query.1 "sequence" query.2 t).mapError raised
  rows.mapM metricFromRow

def get (releaseId : String) (t : Table) : Except PyExc ReleaseObject := do
  match ← (fetchone releaseColumns "id" (.text releaseId) t).mapError raised with
  | some row => releaseFromRow row
  | none => throw (.aegis (.artifactNotFound (Database.releaseNotFound releaseId)))

/-- `WHERE name = ? AND state IN (?, ?)`. -/
def IsLive (name : String) (row : Row) : Prop :=
  (Condition.equal "name" (.text name)).Holds releaseColumns row ∧
    ∃ state ∈ [ReleaseState.candidate, .active],
      (cell releaseColumns row "state").Same (.text state.value)

instance (name : String) : DecidablePred (IsLive name) := fun _ => by
  unfold IsLive
  infer_instance

/-- `CASE state WHEN ? THEN 0 ELSE 1 END`. -/
def rowRank (row : Row) : Nat :=
  if (cell releaseColumns row "state").Same (.text ReleaseState.candidate.value) then 0 else 1

/-- `ORDER BY CASE state WHEN ? THEN 0 ELSE 1 END, updated_at DESC`. -/
def RowBefore (row row' : Row) : Prop :=
  rowRank row < rowRank row' ∨ rowRank row = rowRank row' ∧
    (cell releaseColumns row' "updated_at").key < (cell releaseColumns row "updated_at").key

instance : DecidableRel RowBefore := fun _ _ => by
  unfold RowBefore
  infer_instance

def getLive (name : String) (t : Table) : Except PyExc (Option ReleaseObject) := do
  let params := [Value.text name, .text ReleaseState.candidate.value,
    .text ReleaseState.active.value, .text ReleaseState.candidate.value]
  let first := firstBy RowBefore (t.rows.filter fun row => IsLive name row)
  match ← (bound params (.ok first)).mapError raised with
  | some row => (releaseFromRow row).map some
  | none => return none

/-- The first `UPDATE` of `set_state`. -/
def demote (now : Value) (name releaseId : String) (t : Table) : Except PyExc Table :=
  ((update releaseColumns [("state", .text ReleaseState.rolledBack.value), ("updated_at", now)]
    [.equal "name" (.text name), .equal "state" (.text ReleaseState.active.value),
      .differs "id" (.text releaseId)] t).mapError raised).map Prod.fst

/-- The second `UPDATE` of `set_state`. -/
def restate (now : Value) (releaseId : String) (state : ReleaseState) (t : Table) :
    Except PyExc (Table × Nat) :=
  (update releaseColumns [("state", .text state.value), ("updated_at", now)]
    [.equal "id" (.text releaseId)] t).mapError raised

/-- The statements of `set_state`, up to the commit. -/
def stateWritten (now : Value) (releaseId : String) (state : ReleaseState) (t : Table) :
    Except PyExc Table := do
  let others ←
    if state = .active then do
      let current ← get releaseId t
      demote now current.name releaseId t
    else pure t
  let (written, rowcount) ← restate now releaseId state others
  if rowcount ≠ 1 then
    throw (.aegis (.artifactNotFound (Database.releaseNotFound releaseId)))
  return written

/-- Nothing is committed if one of the statements fails. -/
def setState (now : DateTime) (releaseId : String) (state : ReleaseState) (t : Table) :
    Except PyExc ReleaseObject × Table :=
  match stateWritten (time (.utc now)) releaseId state t with
  | .ok written => (get releaseId written, written)
  | .error e => (.error e, t)

end Rows

end AegisGateway
