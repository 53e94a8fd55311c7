import AegisGateway.Cache

/-!
# The registries

`control/registry.py`. A table is the list of its rows, in the order of their
insertion. A method is one step on the tables: SQLite commits it as a whole, and
no call of the database fails for a reason of its own.
-/

open JsonText

namespace AegisGateway

structure Database where
  artifacts : List Artifact := []
  releases : List Release := []
  evaluationRuns : List EvaluationRun := []
  requestMetrics : List RequestMetric := []
  rollbackEvents : List RollbackEvent := []

namespace Database

/-! ## Artifacts -/

def canonicalText (P : Platform) (content : Object) : String :=
  dumps P.floatRepr .canonical (.obj content)

/-- What `json.loads` reads back from the canonical text. -/
def storedContent (content : Object) : Object :=
  (sortKeysFields content).insertionSort keyLe

/-- The row that `ORDER BY key DESC LIMIT 1` yields. -/
def newestBy {α : Type} (key : α → Int) : List α → Option α
  | [] => none
  | x :: xs =>
    match newestBy key xs with
    | some y => if key x < key y then some y else some x
    | none => some x

theorem newestBy_mem {α : Type} {key : α → Int} {xs : List α} {y : α}
    (h : newestBy key xs = some y) : y ∈ xs := by
  induction xs with
  | nil => cases h
  | cons x xs ih =>
    rw [newestBy] at h
    split at h
    next y' hy' =>
      split_ifs at h <;> cases h
      · exact List.mem_cons_of_mem _ (ih hy')
      · exact List.mem_cons_self
    next =>
      cases h
      exact List.mem_cons_self

/-- `version or "latest"`, in the message. -/
def artifactNotFound (kind : ArtifactKind) (name : String) (version : Option String) : String :=
  let suffix := (version.filter (· ≠ "")).getD "latest"
  s!"artifact {kind.value}/{name}/{suffix} was not found"

def artifactConflict (kind : ArtifactKind) (name version : String) : String :=
  s!"artifact {kind.value}/{name}/{version} already exists with different content"

def getArtifact (db : Database) (kind : ArtifactKind) (name : String) (version : Option String) :
    Except String Artifact :=
  let rows := db.artifacts.filter fun a =>
    a.kind = kind ∧ a.name = name ∧ version.all (· = a.version)
  match newestBy (·.createdAt) rows with
  | some a => .ok a
  | none => .error (artifactNotFound kind name version)

/-- A repeated put of the same content is answered with the first row. -/
def putArtifact (P : Platform) (now : Int) (db : Database) (kind : ArtifactKind)
    (name version : String) (content : Object) : Except AegisError Artifact × Database :=
  let contentHash := hexdigest (P.sha256 (canonicalText P content))
  let row : Artifact := { kind, name, version, content, contentHash, createdAt := now }
  match db.getArtifact kind name (some version) with
  | .ok existing =>
    if existing.contentHash = contentHash then (.ok existing, db)
    else (.error (.registryConflict (artifactConflict kind name version)), db)
  | .error _ =>
    (.ok row,
      { db with artifacts := db.artifacts ++ [{ row with content := storedContent content }] })

section

variable (P : Platform) (now : Int) (db : Database) (kind : ArtifactKind) (name version : String)
  (content : Object)

theorem putArtifact_frame :
    ∃ artifacts, (putArtifact P now db kind name version content).2 = { db with artifacts } := by
  unfold putArtifact
  dsimp only
  split
  · split_ifs <;> exact ⟨db.artifacts, rfl⟩
  · exact ⟨_, rfl⟩

@[simp]
theorem putArtifact_releases :
    (putArtifact P now db kind name version content).2.releases = db.releases := by
  obtain ⟨artifacts, h⟩ := putArtifact_frame P now db kind name version content
  rw [h]

@[simp]
theorem putArtifact_requestMetrics :
    (putArtifact P now db kind name version content).2.requestMetrics = db.requestMetrics := by
  obtain ⟨artifacts, h⟩ := putArtifact_frame P now db kind name version content
  rw [h]

@[simp]
theorem putArtifact_rollbackEvents :
    (putArtifact P now db kind name version content).2.rollbackEvents = db.rollbackEvents := by
  obtain ⟨artifacts, h⟩ := putArtifact_frame P now db kind name version content
  rw [h]

end

/-! ## Releases -/

def releaseNotFound (releaseId : String) : String := s!"release '{releaseId}' was not found"

def createRelease (db : Database) (release : Release) : Except AegisError Release × Database :=
  if db.releases.any (·.id = release.id) then
    (.error (.registryConflict s!"release '{release.id}' already exists"), db)
  else (.ok release, { db with releases := db.releases ++ [release] })

@[simp]
theorem createRelease_requestMetrics (db : Database) (release : Release) :
    (createRelease db release).2.requestMetrics = db.requestMetrics := by
  unfold createRelease
  split_ifs <;> rfl

@[simp]
theorem createRelease_rollbackEvents (db : Database) (release : Release) :
    (createRelease db release).2.rollbackEvents = db.rollbackEvents := by
  unfold createRelease
  split_ifs <;> rfl

def getRelease (db : Database) (releaseId : String) : Except String Release :=
  match db.releases.find? (·.id = releaseId) with
  | some r => .ok r
  | none => .error (releaseNotFound releaseId)

/-- Candidates come before active releases, and the last updated one comes first. -/
def getLive (db : Database) (name : String) : Option Release :=
  let live (state : ReleaseState) :=
    newestBy (·.updatedAt) (db.releases.filter fun r => r.name = name ∧ r.state = state)
  (live .candidate).or (live .active)

/-- The first `UPDATE` of `set_state`. -/
def demoteOthers (now : Int) (name releaseId : String) (rs : List Release) : List Release :=
  rs.map fun r =>
    if r.name = name ∧ r.state = .active ∧ r.id ≠ releaseId then
      { r with state := .rolledBack, updatedAt := now }
    else r

/-- The second `UPDATE` of `set_state`. -/
def updateState (now : Int) (releaseId : String) (state : ReleaseState) (rs : List Release) :
    List Release :=
  rs.map fun r => if r.id = releaseId then { r with state, updatedAt := now } else r

/-- A release that is missing is found to be so before anything is committed. -/
def setState (now : Int) (db : Database) (releaseId : String) (state : ReleaseState) :
    Except String Release × Database :=
  match db.getRelease releaseId with
  | .error m => (.error m, db)
  | .ok current =>
    let rows :=
      if state = .active then demoteOthers now current.name releaseId db.releases else db.releases
    let db := { db with releases := updateState now releaseId state rows }
    (db.getRelease releaseId, db)

@[simp]
theorem setState_requestMetrics (now : Int) (db : Database) (releaseId : String)
    (state : ReleaseState) : (setState now db releaseId state).2.requestMetrics =
      db.requestMetrics := by
  unfold setState
  split <;> rfl

@[simp]
theorem setState_rollbackEvents (now : Int) (db : Database) (releaseId : String)
    (state : ReleaseState) : (setState now db releaseId state).2.rollbackEvents =
      db.rollbackEvents := by
  unfold setState
  split <;> rfl

def recordRollback (now : Int) (db : Database) (releaseId reason : String) (durationMs : ℚ) :
    Database :=
  { db with rollbackEvents := db.rollbackEvents ++ [⟨releaseId, reason, durationMs, now⟩] }

/-! ## Evidence -/

def recordMetric (db : Database) (m : RequestMetric) : Database :=
  { db with requestMetrics := db.requestMetrics ++ [m] }

/-- The `WHERE` clauses of `metrics`. -/
def metricMatches (releaseId routeId : Option String) (canary : Option Bool) (m : RequestMetric) :
    Bool :=
  releaseId.all (fun r => m.releaseId = some r) && routeId.all (· = m.routeId) &&
    canary.all (· = m.canary)

def metrics (db : Database) (releaseId routeId : Option String) (canary : Option Bool)
    (limit : Nat) : List RequestMetric :=
  (db.requestMetrics.reverse.filter (metricMatches releaseId routeId canary)).take limit

def putEvaluation (db : Database) (run : EvaluationRun) : Database :=
  { db with evaluationRuns := db.evaluationRuns ++ [run] }

end Database

/-! ## Summaries -/

/-- `max(0, ceil(quantile * len(values)) - 1)`. -/
def percentileIndex (quantile : ℚ) (n : Nat) : Nat := (quantile * n).ceil.toNat - 1

/-- `_percentile` of `registry.py`, of values that are sorted. -/
def percentile (values : List ℚ) (quantile : ℚ) : Option ℚ :=
  values[percentileIndex quantile values.length]?

/-- The share of a list that meets a condition, and `None` for the empty list. -/
def share {α : Type} (p : α → Bool) (xs : List α) : Option ℚ :=
  if xs = [] then none else some ((xs.countP p : ℚ) / xs.length)

def mean {α : Type} (f : α → ℚ) (xs : List α) : Option ℚ :=
  if xs = [] then none else some ((xs.map f).sum / xs.length)

theorem share_map {α β : Type} (f : α → β) (p : β → Bool) (xs : List α) :
    share p (xs.map f) = share (fun a => p (f a)) xs := by
  unfold share
  simp only [List.map_eq_nil_iff, List.countP_map, List.length_map]
  rfl

theorem mean_map {α β : Type} (f : α → β) (g : β → ℚ) (xs : List α) :
    mean g (xs.map f) = mean (fun a => g (f a)) xs := by
  simp [mean, Function.comp_def]

theorem share_perm {α : Type} (p : α → Bool) {xs ys : List α} (h : xs.Perm ys) :
    share p xs = share p ys := by
  have hnil : xs = [] ↔ ys = [] := by
    rw [← List.length_eq_zero_iff, h.length_eq, List.length_eq_zero_iff]
  simp only [share, hnil, h.countP_eq, h.length_eq]

theorem mean_perm {α : Type} (f : α → ℚ) {xs ys : List α} (h : xs.Perm ys) :
    mean f xs = mean f ys := by
  have hnil : xs = [] ↔ ys = [] := by
    rw [← List.length_eq_zero_iff, h.length_eq, List.length_eq_zero_iff]
  simp only [mean, hnil, h.length_eq, (h.map f).sum_eq]

def summarizeMetrics (metrics : List RequestMetric) : MetricsSnapshot :=
  let successes := metrics.filter (·.success)
  let schemas := metrics.filterMap (·.schemaValid)
  let failovers := metrics.filter (0 < ·.fallbackCount)
  let latencies := (metrics.map (·.latencyMs)).insertionSort (· ≤ ·)
  { requests := metrics.length
    successfulRequests := successes.length
    successRate := (share (·.success) metrics).getD 0
    schemaCompliance := share id schemas
    cacheHitRate := (share (·.cacheHit) metrics).getD 0
    failoverSuccessRate := share (·.success) failovers
    meanCostPerSuccessUsd := mean (·.costUsd) successes
    meanTtftMs := mean (·.ttftMs) metrics
    p99LatencyMs := percentile latencies (99 / 100)
    meanRoutingRegret := mean (·.routingRegret) metrics }

end AegisGateway
