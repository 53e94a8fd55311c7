import AegisGateway.Artifacts
import AegisGateway.EvaluationRows
import AegisGateway.Latest
import AegisGateway.Lib.Alone
import AegisGateway.Lib.Refinement
import AegisGateway.Persistence

/-!
# The gateway on its file

The whole gateway over the tables of the file, where a record is a row of texts and numbers,
and over the records themselves. Both make the same runs.
-/

open Coroutine JsonText Tables Calendar

namespace AegisGateway

/-! ## The file -/

structure Store where
  artifacts : ArtifactRegistry.Table := []
  releases : Table := {}
  evaluationRuns : Table := {}
  requestMetrics : Table := {}
  rollbackEvents : Table := {}

/-! ### Objects -/

def dateTime? (t : Int) : Option DateTime := (DateTime.ofMicros t).filter (·.micros = t)

def metricObject? (m : RequestMetric) : Option Rows.MetricObject :=
  (dateTime? m.createdAt).map fun createdAt =>
    { requestId := m.requestId
      tenantId := m.tenantId
      routeId := m.routeId
      provider := m.provider
      success := m.success
      schemaValid := m.schemaValid
      cacheHit := m.cacheHit
      canary := m.canary
      releaseId := m.releaseId
      shadow := m.shadow
      inputTokens := m.inputTokens
      outputTokens := m.outputTokens
      costUsd := m.costUsd
      ttftMs := m.ttftMs
      latencyMs := m.latencyMs
      routingRegret := m.routingRegret
      fallbackCount := m.fallbackCount
      errorCode := m.errorCode
      createdAt := .utc createdAt }

/-- `Release(...)`, where a field out of its bounds is refused. -/
def releaseObject? (r : Release) : Option Rows.ReleaseObject := do
  let createdAt ← dateTime? r.createdAt
  let updatedAt ← dateTime? r.updatedAt
  if valid : (0 ≤ (r.canaryPercent : Int) ∧ (r.canaryPercent : Int) ≤ 100) ∧
      (0 ≤ (r.shadowPercent : Int) ∧ (r.shadowPercent : Int) ≤ 100) ∧
      (0 ≤ r.maxErrorRate ∧ r.maxErrorRate ≤ 1) ∧ 0 < r.maxP99LatencyMs ∧
      (0 ≤ r.minSchemaCompliance ∧ r.minSchemaCompliance ≤ 1) ∧
      (0 ≤ r.minQualityScore ∧ r.minQualityScore ≤ 1) ∧ 1 ≤ (r.minCanarySamples : Int) then
    some {
      id := r.id
      name := r.name
      baselineRouteId := r.baselineRouteId
      candidateRouteId := r.candidateRouteId
      canaryPercent := r.canaryPercent
      shadowPercent := r.shadowPercent
      state := r.state
      maxErrorRate := r.maxErrorRate
      maxP99LatencyMs := r.maxP99LatencyMs
      minSchemaCompliance := r.minSchemaCompliance
      minQualityScore := r.minQualityScore
      minCanarySamples := r.minCanarySamples
      createdAt := .utc createdAt
      updatedAt := .utc updatedAt
      valid }
  else none

/-! ### Operations -/

/-- A lookup that raises nothing but that there is no such row. -/
def notFound? {α : Type} : Except PyExc α → Option (Except String α)
  | .ok a => some (.ok a)
  | .error (.aegis (.artifactNotFound m)) => some (.error m)
  | .error _ => none

def gatewayError? {α : Type} : Except PyExc α → Option (Except AegisError α)
  | .ok a => some (.ok a)
  | .error (.aegis e) => some (.error e)
  | .error _ => none

namespace ArtifactRegistry

theorem exec_isSome (rows : Table) (o : Statement) (t : Int) : (exec rows o t).isSome := by
  cases o with
  | now => rfl
  | select kind name version => rfl
  | insert row =>
    simp only [exec]
    split <;> rfl

/-- A statement, when the clock shows `t`. -/
def serve (t : Int) (rows : Table) (o : Statement) : o.Ans × Table :=
  (exec rows o t).get (exec_isSome rows o t)

end ArtifactRegistry

namespace Store

/-- An operation on the file. It has no answer where a method raises what is none of the gateway's
errors. -/
def exec (P : Platform) (now : Int) (s : Store) : (o : Op) → Option (Ans o × Store)
  | .getArtifact kind name version =>
    let r := (ArtifactRegistry.get P kind name version).execute (ArtifactRegistry.serve now) s.artifacts
    (notFound? r.outcome).map fun a => (a, { s with artifacts := r.world })
  | .putArtifact kind name version content =>
    let r := (ArtifactRegistry.put P ⟨kind, name, version⟩ content).execute
      (ArtifactRegistry.serve now) s.artifacts
    (gatewayError? r.outcome).map fun a => (a, { s with artifacts := r.world })
  | .createRelease release => do
    let object ← releaseObject? release
    let r := Rows.create object s.releases
    (gatewayError? r.1).map fun a => (a.map (·.release), { s with releases := r.2 })
  | .getRelease releaseId =>
    (notFound? (Rows.get releaseId s.releases)).map fun a => (a.map (·.release), s)
  | .getLive name => (Rows.getLive name s.releases).toOption.map fun a => (a.map (·.release), s)
  | .setState releaseId state => do
    let time ← dateTime? now
    let r := Rows.setState time releaseId state s.releases
    (notFound? r.1).map fun a => (a.map (·.release), { s with releases := r.2 })
  | .recordRollback releaseId reason durationMs => do
    let time ← dateTime? now
    (Rows.recordRollback time releaseId reason durationMs s.rollbackEvents).toOption.map fun t =>
      ((), { s with rollbackEvents := t })
  | .recordMetric m => do
    let object ← metricObject? m
    (Rows.recordMetric object s.requestMetrics).toOption.map fun t =>
      ((), { s with requestMetrics := t })
  | .metrics releaseId routeId canary limit =>
    (Rows.metrics releaseId routeId canary limit s.requestMetrics).toOption.map fun found =>
      (found.map (·.metric), s)
  | .putEvaluation run =>
    (Rows.putEvaluation P.modelDumpJson run s.evaluationRuns).toOption.map fun t =>
      ((), { s with evaluationRuns := t })
  | _ => none

end Store

/-- The operations of `control/registry.py`. -/
def Op.onDatabase : Op → Bool
  | .getArtifact _ _ _ | .putArtifact _ _ _ _ | .createRelease _ | .getRelease _ | .getLive _
  | .setState _ _ | .recordRollback _ _ _ | .recordMetric _ | .metrics _ _ _ _
  | .putEvaluation _ => true
  | _ => false

/-- The world without its database, and the file in the place of it. -/
structure StoredWorld where
  rest : World := {}
  store : Store := {}

namespace Service

variable (svc : Service)

def storedExec (w : StoredWorld) (o : Op) (x : Input) : Option (Ans o × StoredWorld) :=
  if o.onDatabase then
    match x with
    | .go => (w.store.exec svc.platform w.rest.utc o).map fun r => (r.1, { w with store := r.2 })
    | _ => none
  else (svc.exec w.rest o x).map fun r => (r.1, { w with rest := r.2 })

def storedDrift (w : StoredWorld) (x : Input) : Option StoredWorld :=
  (drift w.rest x).map fun rest => { w with rest }

def storedMachine : Machine Op Ans PyExc Outcome StoredWorld Input Call where
  body := svc.body
  exec := svc.storedExec
  spawn := spawned
  drift := storedDrift

abbrev StoredState : Type := Pool Op Ans PyExc Outcome StoredWorld Call

def storedInitial : StoredState := .empty {}

end Service

/-! ## Objects and records -/

section Objects

theorem dateTime?_eq_some {t : Int} {d : DateTime} (h : dateTime? t = some d) : d.micros = t :=
  of_decide_eq_true (Option.filter_eq_some_iff.mp h).2

theorem dateTime?_micros (d : DateTime) : dateTime? d.micros = some d := by
  rw [dateTime?, DateTime.ofMicros_micros]
  simp

theorem dateTime?_isSome {t : Int} (h : Instant t) : (dateTime? t).isSome := by
  obtain ⟨d, rfl⟩ := h
  rw [dateTime?_micros]
  rfl

theorem micros_utc (d : DateTime) : Rows.micros (.utc d) = d.micros := sub_zero _

theorem metricObject?_metric {m : RequestMetric} {object : Rows.MetricObject}
    (h : metricObject? m = some object) : object.metric = m := by
  obtain ⟨d, hd, rfl⟩ := Option.map_eq_some_iff.mp h
  simp only [Rows.MetricObject.metric, Int.toNat_natCast, micros_utc, dateTime?_eq_some hd]

theorem releaseObject?_release {r : Release} {object : Rows.ReleaseObject}
    (h : releaseObject? r = some object) :
    object.release = r ∧ object.minCanarySamples = r.minCanarySamples ∧
      ∃ d, object.updatedAt = .utc d := by
  obtain ⟨created, hcreated, h⟩ := Option.bind_eq_some_iff.mp h
  obtain ⟨updated, hupdated, h⟩ := Option.bind_eq_some_iff.mp h
  split_ifs at h with hvalid
  cases h
  refine ⟨?_, rfl, updated, rfl⟩
  simp only [Rows.ReleaseObject.release, Int.toNat_natCast, micros_utc, dateTime?_eq_some hcreated,
    dateTime?_eq_some hupdated]

end Objects

/-! ## The live release -/

namespace Database

instance : DecidableRel LiveBefore := fun _ _ => by
  unfold LiveBefore
  infer_instance

theorem newestBy_eq_firstBy {α : Type} {key : α → Int} {before : α → α → Prop} [DecidableRel before]
    {xs : List α} (h : ∀ a ∈ xs, ∀ b ∈ xs, before a b ↔ key b < key a) :
    newestBy key xs = firstBy before xs := by
  induction xs with
  | nil => rfl
  | cons x xs ih =>
    have hrest := ih fun a ha b hb => h a (List.mem_cons_of_mem _ ha) b (List.mem_cons_of_mem _ hb)
    rw [newestBy, firstBy, hrest]
    cases hfirst : firstBy before xs with
    | none => rfl
    | some y =>
      exact if_congr (h y (List.mem_cons_of_mem _ (firstBy_mem hfirst)) x List.mem_cons_self).symm
        rfl rfl

theorem getLive_eq_firstBy {db : Database} (htimes : ∀ r ∈ db.releases, Instant r.updatedAt)
    (name : String) : db.getLive name = firstBy LiveBefore (db.live name) := by
  have hmem : ∀ {r}, r ∈ db.live name →
      r ∈ db.releases ∧ (r.state = .candidate ∨ r.state = .active) := fun hr =>
    have hr := List.mem_filter.mp hr
    ⟨hr.1, (of_decide_eq_true hr.2).2⟩
  have hcandidates : (db.live name).filter (fun r => r.state = .candidate) =
      db.stated name .candidate := by
    rw [live, stated, List.filter_filter]
    apply List.filter_congr
    intro r _
    simp only [← Bool.decide_and, decide_eq_decide]
    tauto
  have hactives : (db.live name).filter (fun r => ¬ r.state = .candidate) = db.stated name .active := by
    rw [live, stated, List.filter_filter]
    apply List.filter_congr
    intro r _
    simp only [← Bool.decide_and, decide_eq_decide]
    cases r.state <;> simp
  have hnewest : ∀ state, newestBy (·.updatedAt) (db.stated name state) =
      firstBy LiveBefore (db.stated name state) := fun state => by
    apply newestBy_eq_firstBy
    intro a ha b hb
    obtain ⟨ha, -, hstate⟩ := mem_stated.mp ha
    obtain ⟨hb, -, hstate'⟩ := mem_stated.mp hb
    simp [LiveBefore, liveRank, hstate, hstate', isoText_lt_iff (htimes b hb) (htimes a ha)]
  have htiers := @firstBy_tiers Release LiveBefore _ (·.state = .candidate) _ (db.live name)
    (fun a _ b _ ha hb => .inl (by simp [liveRank, ha, hb]))
    (fun a _ b _ ha hb => by simp [LiveBefore, liveRank, ha, hb])
  rw [htiers, hcandidates, hactives, getLive_eq, hnewest, hnewest]

end Database

namespace Rows

section Live

variable {t : Table} {rs : List ReleaseObject} {db : Database}

def ReleaseObject.InUtc (r : ReleaseObject) : Prop := ∃ d, r.updatedAt = .utc d

theorem isLive_iff {name : String} {r : ReleaseObject} :
    IsLive name (releaseValues r) ↔
      r.release.name = name ∧ (r.release.state = .candidate ∨ r.release.state = .active) := by
  have hstate : ∀ {s s' : ReleaseState}, s.value = s'.value ↔ s = s' :=
    ⟨value_inj, congrArg _⟩
  simp [IsLive, Condition.Holds, cell_name, cell_state, same_text, hstate, ReleaseObject.release]

theorem cell_updatedAt (r : ReleaseObject) :
    cell releaseColumns (releaseValues r) "updated_at" = time r.updatedAt :=
  @cell_at releaseColumns (releaseValues r) releaseNames_nodup 13 _ _ rfl rfl

theorem rowRank_eq (r : ReleaseObject) :
    rowRank (releaseValues r) = Database.liveRank r.release := by
  rw [rowRank, Database.liveRank, cell_state]
  refine if_congr ?_ rfl rfl
  rw [same_text]
  exact ⟨value_inj, congrArg _⟩

theorem text_lt_iff {s s' : String} : (Value.text s).key < (Value.text s').key ↔ s < s' := by
  simp [Value.key, Prod.Lex.lt_iff]

theorem rowBefore_iff {r r' : ReleaseObject} (hr : r.InUtc) (hr' : r'.InUtc) :
    RowBefore (releaseValues r) (releaseValues r') ↔
      Database.LiveBefore r.release r'.release := by
  obtain ⟨d, hd⟩ := hr
  obtain ⟨d', hd'⟩ := hr'
  have htext : ∀ {r : ReleaseObject} {d}, r.updatedAt = .utc d →
      isoText r.release.updatedAt = (Timestamp.utc d).isoformat := fun {r d} hd => by
    rw [ReleaseObject.release, hd]
    exact (congrArg isoText (micros_utc d)).trans (isoText_micros d)
  rw [RowBefore, Database.LiveBefore, rowRank_eq, rowRank_eq, cell_updatedAt, cell_updatedAt, hd, hd',
    time, time, text_lt_iff, htext hd, htext hd']

theorem getLive_of_holds (h : Holds t rs) (hdb : db.releases = rs.map (·.release))
    (hutc : ∀ r ∈ rs, r.InUtc) (name : String) :
    ∃ found, getLive name t = .ok found ∧ found.map (·.release) = db.getLive name := by
  let live := rs.filter fun r =>
    r.release.name = name ∧ (r.release.state = .candidate ∨ r.release.state = .active)
  have hutc' : ∀ r ∈ live, r.InUtc := fun r hr => hutc r (List.mem_of_mem_filter hr)
  have hrows : t.rows.filter (fun row => IsLive name row) = live.map releaseValues := by
    rw [h.1, List.filter_map]
    congr 1
    exact List.filter_congr fun r _ => decide_eq_decide.mpr isLive_iff
  have hreleases : db.live name = live.map (·.release) := by
    rw [Database.live, hdb, List.filter_map]
    rfl
  have hfirst : firstBy RowBefore (live.map releaseValues) =
      (firstBy (fun r r' => Database.LiveBefore r.release r'.release) live).map releaseValues :=
    firstBy_map fun r hr r' hr' => rowBefore_iff (hutc' r hr) (hutc' r' hr')
  have hrelease : firstBy Database.LiveBefore (live.map (·.release)) =
      (firstBy (fun r r' => Database.LiveBefore r.release r'.release) live).map (·.release) :=
    firstBy_map fun r _ r' _ => Iff.rfl
  have htimes : ∀ r ∈ db.releases, Instant r.updatedAt := by
    rw [hdb, List.forall_mem_map]
    intro r hr
    obtain ⟨d, hd⟩ := hutc r hr
    exact ⟨d, by rw [ReleaseObject.release, hd, micros_utc]⟩
  refine ⟨_, ?_, by rw [Database.getLive_eq_firstBy htimes, hreleases, hrelease]⟩
  unfold getLive
  dsimp only
  rw [hrows, hfirst, bound_of_bindable (by simp)]
  cases firstBy (fun r r' => Database.LiveBefore r.release r'.release) live with
  | none => rfl
  | some r =>
    have hread := releaseFromRow_values r
    simp only [Option.map_some, Except.mapError, bind, Except.bind, hread]
    rfl

end Live

end Rows

/-! ## The file stands for the database -/

def eventValues (e : RollbackEvent) : List Value :=
  [.text e.releaseId, .text e.reason, .real e.durationMs, .text (isoText e.createdAt)]

structure Store.StandsFor (P : Platform) (s : Store) (db : Database) : Prop where
  sound : ArtifactRegistry.Sound P s.artifacts
  artifacts : ArtifactRegistry.Represents P s.artifacts db.artifacts
  refines : Rows.Refines s.requestMetrics s.releases db
  inUtc : ∀ r, Rows.releaseValues r ∈ s.releases.rows → r.InUtc
  evaluationRuns : Rows.HoldsRuns P.modelDumpJson s.evaluationRuns db.evaluationRuns
  rollbackEvents : s.rollbackEvents.rows.map List.tail = db.rollbackEvents.map eventValues

/-- Everything but the database is the same. -/
structure StandsFor (P : Platform) (w : World) (s : StoredWorld) : Prop where
  rest : s.rest = { w with database := {} }
  store : s.store.StandsFor P w.database

/-- What the file takes: an integer of 64 bits, a time of the calendar, a new identifier, and a
dictionary that names no key twice. -/
def Op.Fits (w : World) : Op → Prop
  | .putArtifact _ _ _ content => Distinct (.obj content)
  | .createRelease release => (releaseObject? release).isSome ∧ Rows.Int64 release.minCanarySamples
  | .setState _ _ | .recordRollback _ _ _ => Instant w.utc
  | .recordMetric m =>
    Instant m.createdAt ∧ Rows.Int64 m.inputTokens ∧ Rows.Int64 m.outputTokens ∧
      Rows.Int64 m.fallbackCount
  | .metrics _ _ _ limit => Rows.Int64 limit
  | .putEvaluation run => run.id ∉ w.database.evaluationRuns.map (·.id)
  | _ => True

def Op.OfDict : Op → Prop
  | .putArtifact _ _ _ content => Distinct (.obj content)
  | _ => True

/-- The file gives the answer of the database and stands for it again, or it gives none to an
operation that does not fit. -/
def Store.Answers (P : Platform) {o : Op} (r : Option (Ans o × Store)) (a : Ans o) (db : Database)
    (fits : Prop) : Prop :=
  (∃ s, r = some (a, s) ∧ s.StandsFor P db) ∨ (r = none ∧ ¬ fits)

/-! ### Artifacts -/

namespace ArtifactRegistry

section Artifacts

variable {P : Platform} {rows rows' : Table} {db : Database} {now t : Int} {kind : ArtifactKind}
  {name : String} {version : Option String} {key : Key} {content : Dict}

theorem Sound.insert (h : Sound P rows) {b : Bool}
    (hexec : exec rows (.insert (newRow P key content.1 now)) t = some (b, rows')) :
    Sound P rows' := by
  rcases exec_rows hexec with rfl | ⟨row, he, rfl, hfresh⟩
  · exact h
  · cases he
    refine ⟨?_, fun r hr => ?_⟩
    · rw [List.map_append, List.nodup_append]
      refine ⟨h.keys, List.nodup_singleton _, ?_⟩
      simpa using hfresh
    · rcases List.mem_append.mp hr with hr | hr
      · exact h.holds r hr
      · obtain rfl := List.mem_singleton.mp hr
        exact ⟨content, now, rfl⟩

theorem newestBy_related {α β : Type} {R : α → β → Prop} {key : α → Int} {key' : β → Int}
    (hkey : ∀ a b, R a b → key a = key' b) {xs : List α} {ys : List β} (h : List.Forall₂ R xs ys) :
    Option.Rel R (Database.newestBy key xs) (Database.newestBy key' ys) := by
  induction h with
  | nil => exact .none
  | @cons x y xs ys hxy _ ih =>
    rw [Database.newestBy, Database.newestBy]
    generalize Database.newestBy key xs = found at ih
    generalize Database.newestBy key' ys = found' at ih
    cases ih with
    | none => exact .some hxy
    | some hrest =>
      dsimp only
      rw [hkey _ _ hxy, hkey _ _ hrest]
      split_ifs
      · exact .some hrest
      · exact .some hxy

theorem fetched_eq {floatOf : List Char → PyFloat} (hP : Decodes P floatOf) (h : Sound P rows)
    (hrep : Represents P rows db.artifacts) :
    fetched P kind name version (rows.select kind name version) =
      (db.getArtifact kind name version).mapError fun m => .aegis (.artifactNotFound m) := by
  cases version with
  | some version =>
    cases hlookup : rows.lookup ⟨kind, name, version⟩ with
    | none =>
      have hget := getArtifact_of_none hrep h.keys hlookup
      simp only [Table.select, hlookup, fetched, hget, Except.mapError]
    | some row =>
      obtain ⟨stored, hstored⟩ := h.holds row (lookup_eq_some hlookup).1
      have hread := artifactFromRow_eq hP hstored
      have hget := getArtifact_of_some hrep h.keys hlookup hread
      simp only [Table.select, hlookup, fetched, hget, hread, Except.mapError]
  | none =>
    -- Both take the newest of the rows that the name has.
    have hnamed : List.Forall₂ (fun row a => artifactFromRow P row = .ok a)
        (rows.filter fun r => r.key.kind = kind ∧ r.key.name = name) (db.named kind name) := by
      refine List.rel_filter (fun row a ha => ?_) hrep
      obtain ⟨content, rfl⟩ := artifactFromRow_inv ha
      rfl
    have hkey : ∀ (row : Row) (a : Artifact), artifactFromRow P row = .ok a →
        row.createdAt = a.createdAt := fun row a ha => by
      obtain ⟨content, rfl⟩ := artifactFromRow_inv ha
      rfl
    have hnewest := newestBy_related hkey hnamed
    rw [Database.getArtifact_latest, Table.select]
    revert hnewest
    generalize Database.newestBy (·.createdAt) (db.named kind name) = found
    generalize Database.newestBy (·.createdAt)
      (rows.filter fun r => r.key.kind = kind ∧ r.key.name = name) = row
    rintro (hread | -)
    · rw [fetched, hread]
      rfl
    · rfl

theorem execute_get (kind : ArtifactKind) (name : String) (version : Option String) :
    (get P kind name version).execute (serve t) rows =
      ⟨rows, [⟨.select kind name version, rows.select kind name version⟩],
        fetched P kind name version (rows.select kind name version)⟩ := by
  have hserve : serve t rows (.select kind name version) = (rows.select kind name version, rows) :=
    rfl
  rw [get, Prog.execute_op, hserve]
  cases rows.select kind name version with
  | none => rfl
  | some row =>
    dsimp only
    rw [Prog.execute_ofExcept]
    rfl

/-- A `put` is what the registry does in one step. -/
theorem execute_put {floatOf : List Char → PyFloat} (hP : Decodes P floatOf) (h : Sound P rows)
    (hrep : Represents P rows db.artifacts) (key : Key) (content : Dict) :
    ((put P key content.1).execute (serve now) rows).outcome =
        (db.putArtifact P now key.kind key.name key.version content.1).1.mapError .aegis ∧
      Sound P ((put P key content.1).execute (serve now) rows).world ∧
      Represents P ((put P key content.1).execute (serve now) rows).world
        (db.putArtifact P now key.kind key.name key.version content.1).2.artifacts := by
  let row := newRow P key content.1 now
  obtain ⟨⟨b, rows'⟩, hexec⟩ := Option.isSome_iff_exists.mp (exec_isSome rows (.insert row) now)
  have hserve : serve now rows (.insert row) = (b, rows') := by
    simp only [serve, hexec, Option.get_some]
  obtain ⟨hrep', hinserted, hcollided⟩ := insert_atomic hP h hexec hrep rfl
  have hsound' := h.insert hexec
  have hnow : serve now rows .now = (now, rows) := rfl
  rw [put, Prog.execute_op, hnow]
  dsimp only
  rw [Prog.execute_op, hserve]
  cases b with
  | true => exact ⟨by rw [hinserted rfl]; rfl, hsound', hrep'⟩
  | false =>
    obtain ⟨row', hrow', hkey, hanswer⟩ := hcollided rfl
    obtain rfl : rows' = rows := by
      rcases exec_rows hexec with hsame | ⟨r, he, -⟩
      · exact hsame
      · cases he
    -- The read behind the collision finds the row that the insert has met.
    have hlookup : rows'.lookup key = some row' := by
      cases hfound : rows'.lookup key with
      | none => exact absurd hkey (lookup_eq_none hfound row' hrow')
      | some r =>
        obtain ⟨hr, hrkey⟩ := lookup_eq_some hfound
        rw [h.unique hr hrow' (hrkey.trans hkey.symm)]
    have hselect : rows'.select key.kind key.name (some key.version) = some row' := hlookup
    obtain ⟨stored, hstored⟩ := h.holds row' hrow'
    have hread := artifactFromRow_eq hP hstored
    rw [hread, compared] at hanswer
    dsimp only
    rw [Prog.execute_bind, execute_get, hselect, fetched, hread, Ran.andThen_ok, hanswer]
    split_ifs <;> exact ⟨rfl, hsound', hrep'⟩

end Artifacts

end ArtifactRegistry

/-! ### Releases and evidence -/

namespace Rows

section Answers

variable {t : Table} {rs : List ReleaseObject}

theorem create_overflow {r : ReleaseObject} (hr : ¬ r.Within64) (t : Table) :
    create r t = (.error (raised .overflow), t) := by
  have hsome : ∃ v ∈ releaseValues r, ¬ v.Bindable := by
    have h := mt bindable_release.mp hr
    push Not at h
    exact h
  have hinsert : Tables.insert releaseColumns releaseNames (releaseValues r) t = .error .overflow :=
    if_pos hsome
  rw [create, hinsert]

theorem create_taken (h : Holds t rs) {r : ReleaseObject} (hr : r.Within64)
    (htaken : ∃ r' ∈ rs, r'.id = r.id) :
    create r t =
      (.error (.aegis (.registryConflict s!"release '{r.id}' already exists")), t) := by
  have hrefused : ¬ ∀ p ∈ releaseColumns.zip (releaseValues r), Takes releaseColumns t p.1 p.2 := by
    rw [takes_release h]
    push Not
    exact htaken
  have hinsert : Tables.insert releaseColumns releaseNames (releaseValues r) t =
      .error .integrity := by
    unfold Tables.insert
    dsimp only
    rw [newRow_release, bound_of_bindable (bindable_release.mpr hr), if_neg hrefused]
  rw [create, hinsert]

theorem recordMetric_overflow {m : MetricObject} (hm : ¬ m.Within64) (t : Table) :
    recordMetric m t = .error (raised .overflow) := by
  have hsome : ∃ v ∈ metricValues m, ¬ v.Bindable := by
    by_contra hall
    push Not at hall
    exact hm ⟨hall (.integer m.inputTokens) (by simp [metricValues]),
      hall (.integer m.outputTokens) (by simp [metricValues]),
      hall (.integer m.fallbackCount) (by simp [metricValues])⟩
  have hinsert : Tables.insert metricColumns metricNames (metricValues m) t = .error .overflow :=
    if_pos hsome
  rw [recordMetric, hinsert]
  rfl

theorem metrics_overflow {releaseId routeId : Option String} {canary : Option Bool} {limit : Int}
    (hlimit : ¬ Int64 limit) (t : Table) :
    metrics releaseId routeId canary limit t = .error (raised .overflow) := by
  have hsome : ∃ v ∈ (metricsQuery releaseId routeId canary limit).2, ¬ v.Bindable :=
    ⟨.integer limit, List.mem_append_right _ (List.mem_singleton_self _), hlimit⟩
  have hselect : select metricColumns (metricsQuery releaseId routeId canary limit).1 "sequence"
      (metricsQuery releaseId routeId canary limit).2 t = .error .overflow := if_pos hsome
  rw [metrics, hselect]
  rfl

theorem recordRollback_ok (now : DateTime) (releaseId reason : String) (durationMs : ℚ) (t : Table) :
    ∃ t', recordRollback now releaseId reason durationMs t = .ok t' ∧
      t'.rows.map List.tail =
        t.rows.map List.tail ++ [rollbackValues releaseId reason durationMs (.utc now)] := by
  let values := rollbackValues releaseId reason durationMs (.utc now)
  have hrow : newRow rollbackColumns rollbackNames values t =
      .integer (t.sequence + 1) :: values := newRow_counted rfl rfl (by decide) (by decide) rfl
  have hbindable : ∀ v ∈ values, v.Bindable := by simp [values, rollbackValues, time]
  have htakes : ∀ p ∈ rollbackColumns.zip (.integer (t.sequence + 1) :: values),
      Takes rollbackColumns t p.1 p.2 := by
    simp [rollbackColumns, values, rollbackValues, Takes, time]
  refine ⟨{ rows := t.rows ++ [.integer (t.sequence + 1) :: values], sequence := t.sequence + 1 },
    ?_, by rw [List.map_append]; rfl⟩
  have hinsert : Tables.insert rollbackColumns rollbackNames values t =
      .ok { rows := t.rows ++ [.integer (t.sequence + 1) :: values], sequence := t.sequence + 1 } := by
    unfold Tables.insert
    dsimp only
    rw [hrow, bound_of_bindable hbindable, if_pos htakes]
  rw [recordRollback, hinsert]
  rfl

theorem releaseValues_inj {r r' : ReleaseObject} (h : releaseValues r = releaseValues r') :
    r = r' := by
  have hread := releaseFromRow_values r
  rw [h, releaseFromRow_values] at hread
  exact (Except.ok.inj hread).symm

theorem Holds.mem_rows (h : Holds t rs) {r : ReleaseObject} : releaseValues r ∈ t.rows ↔ r ∈ rs := by
  rw [h.1, List.mem_map]
  constructor
  · rintro ⟨r', hr', heq⟩
    rwa [← releaseValues_inj heq]
  · exact fun hr => ⟨r, hr, rfl⟩

end Answers

end Rows

theorem Database.createRelease_frame (db : Database) (release : Release) :
    ∃ releases, (db.createRelease release).2 = { db with releases } := by
  unfold createRelease
  split_ifs
  · exact ⟨db.releases, rfl⟩
  · exact ⟨_, rfl⟩

theorem Database.setState_frame (now : Int) (db : Database) (releaseId : String)
    (state : ReleaseState) :
    ∃ releases, (setState now db releaseId state).2 = { db with releases } := by
  unfold setState
  split
  · exact ⟨db.releases, rfl⟩
  · exact ⟨_, rfl⟩

theorem notFound?_mapError {α : Type} (x : Except String α) :
    notFound? (x.mapError fun m => .aegis (.artifactNotFound m)) = some x := by
  cases x <;> rfl

theorem gatewayError?_mapError {α : Type} (x : Except AegisError α) :
    gatewayError? (x.mapError .aegis) = some x := by
  cases x <;> rfl

namespace Store.StandsFor

section Answers

variable {P : Platform} {s : Store} {db : Database} {now : Int} {floatOf : List Char → PyFloat}

theorem getArtifact (hP : ArtifactRegistry.Decodes P floatOf) (h : s.StandsFor P db)
    (kind : ArtifactKind) (name : String) (version : Option String) :
    s.exec P now (.getArtifact kind name version) = some (db.getArtifact kind name version, s) := by
  simp only [exec, ArtifactRegistry.execute_get, ArtifactRegistry.fetched_eq hP h.sound h.artifacts,
    notFound?_mapError, Option.map_some]

theorem putArtifact (hP : ArtifactRegistry.Decodes P floatOf) (h : s.StandsFor P db)
    (kind : ArtifactKind) (name version : String) {content : Object}
    (hcontent : Distinct (.obj content)) :
    ∃ s', s.exec P now (.putArtifact kind name version content) =
        some ((db.putArtifact P now kind name version content).1, s') ∧
      s'.StandsFor P (db.putArtifact P now kind name version content).2 := by
  let rows := ((ArtifactRegistry.put P ⟨kind, name, version⟩ content).execute
    (ArtifactRegistry.serve now) s.artifacts).world
  obtain ⟨hanswer, hsound, hrep⟩ := @ArtifactRegistry.execute_put P s.artifacts db now floatOf hP
    h.sound h.artifacts ⟨kind, name, version⟩ ⟨content, hcontent⟩
  obtain ⟨artifacts, hframe⟩ := Database.putArtifact_frame P now db kind name version content
  refine ⟨{ s with artifacts := rows }, ?_, ⟨hsound, hrep, ?_, h.inUtc, ?_, ?_⟩⟩
  · simp only [exec, hanswer, gatewayError?_mapError, Option.map_some, rows]
  all_goals rw [hframe]
  · exact ⟨h.refines.metrics, h.refines.releases⟩
  · exact h.evaluationRuns
  · exact h.rollbackEvents

theorem withReleases (h : s.StandsFor P db) {t : Table} {releases : List Release}
    (hrefines : Rows.Refines s.requestMetrics t { db with releases })
    (hutc : ∀ r, Rows.releaseValues r ∈ t.rows → r.InUtc) :
    { s with releases := t }.StandsFor P { db with releases } :=
  ⟨h.sound, h.artifacts, hrefines, hutc, h.evaluationRuns, h.rollbackEvents⟩

theorem createRelease (h : s.StandsFor P db) (release : Release) :
    Answers P (s.exec P now (.createRelease release)) (db.createRelease release).1
      (db.createRelease release).2
      ((releaseObject? release).isSome ∧ Rows.Int64 release.minCanarySamples) := by
  cases hobject : releaseObject? release with
  | none => exact .inr ⟨by simp [exec, hobject], by simp⟩
  | some object =>
    obtain ⟨rfl, hsamples, hutc⟩ := releaseObject?_release hobject
    obtain ⟨rs, hholds, hrs⟩ := h.refines.releases
    have hexec : s.exec P now (.createRelease object.release) =
        (gatewayError? (Rows.create object s.releases).1).map fun a =>
          (a.map (·.release), { s with releases := (Rows.create object s.releases).2 }) := by
      simp only [exec, hobject, Option.bind_some, bind]
    by_cases hfits : object.Within64
    · have hrefines := h.refines.create hfits
      refine .inl ⟨{ s with releases := (Rows.create object s.releases).2 }, ?_, ?_⟩
      · rw [hexec]
        by_cases htaken : ∃ r' ∈ rs, r'.id = object.id
        · have hdb : db.createRelease object.release =
              (.error (.registryConflict s!"release '{object.id}' already exists"), db) := by
            obtain ⟨r', hr', hid⟩ := htaken
            refine if_pos (List.any_eq_true.mpr ⟨r'.release, ?_, decide_eq_true hid⟩)
            rw [hrs]
            exact List.mem_map_of_mem hr'
          rw [Rows.create_taken hholds hfits htaken, hdb]
          rfl
        · push Not at htaken
          rcases Rows.create_cases hholds object with ⟨-, hno⟩ | ⟨t', ht', -⟩
          · exact absurd ⟨hfits, htaken⟩ hno
          · rw [ht', Database.createRelease_fresh]
            · rfl
            · rw [hrs, List.forall_mem_map]
              exact htaken
      · obtain ⟨releases, hframe⟩ := Database.createRelease_frame db object.release
        rw [hframe] at hrefines ⊢
        apply h.withReleases hrefines
        intro r hr
        rcases Rows.create_cases hholds object with ⟨⟨e, he⟩, -⟩ | ⟨t', ht', hholds', -⟩
        · rw [he] at hr
          exact h.inUtc r hr
        · rw [ht', hholds'.mem_rows, List.mem_append, ← hholds.mem_rows, List.mem_singleton] at hr
          rcases hr with hr | rfl
          · exact h.inUtc r hr
          · exact hutc
    · refine .inr ⟨?_, fun hboth => hfits ?_⟩
      · rw [hexec, Rows.create_overflow hfits]
        rfl
      · rw [Rows.ReleaseObject.Within64, hsamples]
        exact hboth.2

theorem getRelease (h : s.StandsFor P db) (releaseId : String) :
    s.exec P now (.getRelease releaseId) = some (db.getRelease releaseId, s) := by
  obtain ⟨rs, hholds, hrs⟩ := h.refines.releases
  have hget : (Rows.get releaseId s.releases).map (·.release) =
      (db.getRelease releaseId).mapError fun m => .aegis (.artifactNotFound m) := by
    by_cases hknown : ∃ r ∈ rs, r.id = releaseId
    · obtain ⟨r, hr, rfl⟩ := hknown
      have hget := (Rows.get_ok_iff hholds).mpr ⟨hr, rfl⟩
      rw [hget, h.refines.get_eq hget]
      rfl
    · push Not at hknown
      rw [Rows.get_error hholds hknown, Rows.getRelease_missing hrs hknown]
      rfl
  have hmap : ∀ x : Except PyExc Rows.ReleaseObject,
      (notFound? x).map (fun a => (a.map (·.release), s)) =
        (notFound? (x.map (·.release))).map fun a => (a, s) := by
    rintro (e | object)
    · cases e with
      | aegis e => cases e <;> rfl
      | _ => rfl
    · rfl
  rw [exec, hmap, hget, notFound?_mapError]
  rfl

theorem getLive (h : s.StandsFor P db) (name : String) :
    s.exec P now (.getLive name) = some (db.getLive name, s) := by
  obtain ⟨rs, hholds, hrs⟩ := h.refines.releases
  obtain ⟨found, hfound, hrelease⟩ := Rows.getLive_of_holds hholds hrs
    (fun r hr => h.inUtc r (hholds.mem_rows.mpr hr)) name
  rw [exec, hfound, ← hrelease]
  rfl

theorem setState (h : s.StandsFor P db) (releaseId : String) (state : ReleaseState) :
    Answers P (s.exec P now (.setState releaseId state)) (db.setState now releaseId state).1
      (db.setState now releaseId state).2 (Instant now) := by
  -- A time beyond the calendar has no text.
  cases htime : dateTime? now with
  | none => exact .inr ⟨by simp [exec, htime], fun hnow => by simpa [htime] using dateTime?_isSome hnow⟩
  | some d =>
    obtain rfl := dateTime?_eq_some htime
    obtain ⟨rs, hholds, hrs⟩ := h.refines.releases
    have hrefines := h.refines.setState d releaseId state
    obtain ⟨releases, hframe⟩ := Database.setState_frame d.micros db releaseId state
    refine .inl ⟨{ s with releases := (Rows.setState d releaseId state s.releases).2 }, ?_, ?_⟩
    · have hexec : s.exec P d.micros (.setState releaseId state) =
          (notFound? (Rows.setState d releaseId state s.releases).1).map fun a =>
            (a.map (·.release),
              { s with releases := (Rows.setState d releaseId state s.releases).2 }) := by
        simp only [exec, htime, Option.bind_some, bind]
      rw [hexec]
      rcases Rows.setState_cases hholds d releaseId state with
        ⟨current, hcurrent, rfl, hset⟩ | ⟨hnone, hset⟩
      · have hget := h.refines.get_eq ((Rows.get_ok_iff hholds).mpr ⟨hcurrent, rfl⟩)
        rw [hset, Database.setState_ok hget, ← Rows.restated_release]
        rfl
      · rw [hset, Database.setState_error (Rows.getRelease_missing hrs hnone)]
        rfl
    · rw [hframe] at hrefines ⊢
      apply h.withReleases hrefines
      intro r hr
      rcases Rows.setState_cases hholds d releaseId state with
        ⟨current, hcurrent, rfl, hset⟩ | ⟨-, hset⟩
      · rw [hset, (hholds.restated d current state).mem_rows, List.mem_map] at hr
        obtain ⟨r', hr', rfl⟩ := hr
        have hutc := h.inUtc r' (hholds.mem_rows.mpr hr')
        unfold Rows.restatedObject
        split_ifs
        · exact ⟨d, rfl⟩
        · exact ⟨d, rfl⟩
        · exact hutc
      · rw [hset] at hr
        exact h.inUtc r hr

theorem recordRollback (h : s.StandsFor P db) (releaseId reason : String) (durationMs : ℚ) :
    Answers P (s.exec P now (.recordRollback releaseId reason durationMs)) ()
      (db.recordRollback now releaseId reason durationMs) (Instant now) := by
  cases htime : dateTime? now with
  | none => exact .inr ⟨by simp [exec, htime], fun hnow => by simpa [htime] using dateTime?_isSome hnow⟩
  | some d =>
    obtain rfl := dateTime?_eq_some htime
    obtain ⟨t, ht, hrows⟩ := Rows.recordRollback_ok d releaseId reason durationMs s.rollbackEvents
    refine .inl ⟨{ s with rollbackEvents := t }, ?_, ⟨h.sound, h.artifacts, ?_, h.inUtc,
      h.evaluationRuns, ?_⟩⟩
    · simp only [exec, htime, ht, Option.bind_some, bind]
      rfl
    · exact ⟨h.refines.metrics, h.refines.releases⟩
    · rw [hrows, h.rollbackEvents, Database.recordRollback, List.map_append, List.map_singleton,
        eventValues, isoText_micros]
      rfl

theorem recordMetric (h : s.StandsFor P db) (m : RequestMetric) :
    Answers P (s.exec P now (.recordMetric m)) () (db.recordMetric m)
      (Instant m.createdAt ∧ Rows.Int64 m.inputTokens ∧ Rows.Int64 m.outputTokens ∧
        Rows.Int64 m.fallbackCount) := by
  cases hobject : metricObject? m with
  | none =>
    refine .inr ⟨by simp [exec, hobject], fun hfits => ?_⟩
    have hnone := Option.map_eq_none_iff.mp hobject
    simpa [hnone] using dateTime?_isSome hfits.1
  | some object =>
    have hmetric := metricObject?_metric hobject
    obtain ⟨d, -, hd⟩ := Option.map_eq_some_iff.mp hobject
    by_cases hfits : object.Within64
    · obtain ⟨t, ht, hrefines⟩ := h.refines.recordMetric hfits
      rw [hmetric] at hrefines
      refine .inl ⟨{ s with requestMetrics := t }, ?_, ⟨h.sound, h.artifacts, hrefines, h.inUtc,
        h.evaluationRuns, h.rollbackEvents⟩⟩
      simp only [exec, hobject, ht, Option.bind_some, bind]
      rfl
    · refine .inr ⟨?_, fun hall => hfits ?_⟩
      · simp only [exec, hobject, Rows.recordMetric_overflow hfits, Option.bind_some, bind]
        rfl
      · rw [← hd]
        exact ⟨hall.2.1, hall.2.2.1, hall.2.2.2⟩

theorem metrics (h : s.StandsFor P db) (releaseId routeId : Option String) (canary : Option Bool)
    (limit : Nat) :
    Answers P (s.exec P now (.metrics releaseId routeId canary limit))
      (db.metrics releaseId routeId canary limit) db (Rows.Int64 limit) := by
  by_cases hlimit : Rows.Int64 limit
  · obtain ⟨found, hfound, hmetrics⟩ := h.refines.metrics_eq releaseId routeId canary hlimit
    refine .inl ⟨s, ?_, h⟩
    rw [exec, hfound, ← hmetrics]
    rfl
  · refine .inr ⟨?_, hlimit⟩
    rw [exec, Rows.metrics_overflow hlimit]
    rfl

theorem putEvaluation (h : s.StandsFor P db) (run : EvaluationRun) :
    Answers P (s.exec P now (.putEvaluation run)) () (db.putEvaluation run)
      (run.id ∉ db.evaluationRuns.map (·.id)) := by
  rcases Rows.putEvaluation_cases h.evaluationRuns run with ⟨hid, hput⟩ | ⟨-, t, hput, hholds⟩
  · refine .inr ⟨?_, not_not.mpr hid⟩
    rw [exec, hput]
    rfl
  · refine .inl ⟨{ s with evaluationRuns := t }, ?_, ⟨h.sound, h.artifacts,
      ⟨h.refines.metrics, h.refines.releases⟩, h.inUtc, hholds, h.rollbackEvents⟩⟩
    rw [exec, hput]
    rfl

end Answers

end Store.StandsFor

/-! ## Runs -/

namespace Service

section Runs

variable {svc : Service} {w w' : World} {s s' : StoredWorld} {o : Op} {x : Input} {a : Ans o}
  {floatOf : List Char → PyFloat}

theorem exec_apart (ho : o.onDatabase = false) (db : Database) :
    svc.exec { w with database := db } o x =
      (svc.exec w o x).map fun r => (r.1, { r.2 with database := db }) := by
  cases o <;> cases x <;> first | rfl | cases ho

theorem drift_database (db : Database) :
    drift { w with database := db } x = (drift w x).map fun w => { w with database := db } := by
  unfold drift
  split
  · split_ifs <;> rfl
  · rfl

theorem exec_database (ho : o.onDatabase = false) (h : svc.exec w o x = some (a, w')) :
    w'.database = w.database := by
  have hsame := @exec_apart svc w o x ho w.database
  rw [show { w with database := w.database } = w from rfl, h] at hsame
  exact congrArg (fun r => r.2.database) (Option.some.inj hsame)

theorem exec_answers (hP : ArtifactRegistry.Decodes svc.platform floatOf)
    (h : s.store.StandsFor svc.platform w.database) (ho : o.onDatabase = true) (hdict : o.OfDict) :
    ∃ a db, svc.exec w o .go = some (a, { w with database := db }) ∧
      Store.Answers svc.platform (s.store.exec svc.platform w.utc o) a db (o.Fits w) := by
  cases o with
  | getArtifact kind name version =>
    exact ⟨_, _, rfl, .inl ⟨_, h.getArtifact hP kind name version, h⟩⟩
  | putArtifact kind name version content =>
    exact ⟨_, _, rfl, .inl (h.putArtifact hP kind name version hdict)⟩
  | createRelease release => exact ⟨_, _, rfl, h.createRelease release⟩
  | getRelease releaseId => exact ⟨_, _, rfl, .inl ⟨_, h.getRelease releaseId, h⟩⟩
  | getLive name => exact ⟨_, _, rfl, .inl ⟨_, h.getLive name, h⟩⟩
  | setState releaseId state => exact ⟨_, _, rfl, h.setState releaseId state⟩
  | recordRollback releaseId reason durationMs =>
    exact ⟨_, _, rfl, h.recordRollback releaseId reason durationMs⟩
  | recordMetric m => exact ⟨_, _, rfl, h.recordMetric m⟩
  | metrics releaseId routeId canary limit =>
    exact ⟨_, _, rfl, h.metrics releaseId routeId canary limit⟩
  | putEvaluation run => exact ⟨_, _, rfl, h.putEvaluation run⟩
  | _ => cases ho

theorem exec_go (ho : o.onDatabase = true) (h : svc.exec w o x = some (a, w')) : x = .go := by
  cases o <;> cases x <;> first | rfl | (cases ho; done) | cases h

theorem Fits.ofDict (h : o.Fits w) : o.OfDict := by
  cases o <;> first | exact h | trivial

theorem storedExec_apart (ho : o.onDatabase = false) (h : StandsFor svc.platform w s) :
    svc.storedExec s o x = (svc.exec w o x).map fun r =>
      (r.1, { s with rest := { r.2 with database := {} } }) := by
  unfold storedExec
  rw [if_neg (by simp [ho]), h.rest, exec_apart ho, Option.map_map]
  rfl

theorem StandsFor.apart (h : StandsFor svc.platform w s) (ho : o.onDatabase = false)
    (hexec : svc.exec w o x = some (a, w')) :
    StandsFor svc.platform w' { s with rest := { w' with database := {} } } :=
  ⟨rfl, by rw [exec_database ho hexec]; exact h.store⟩

theorem StandsFor.store_exec (h : StandsFor svc.platform w s) (ho : o.onDatabase = true) :
    svc.storedExec s o .go =
      (s.store.exec svc.platform w.utc o).map fun r => (r.1, { s with store := r.2 }) := by
  rw [storedExec, if_pos ho, h.rest]

/-- The file answers as the database does, if all that is written fits. -/
theorem storedMachine_follows (hP : ArtifactRegistry.Decodes svc.platform floatOf) :
    svc.machine.Follows svc.storedMachine (StandsFor svc.platform) Op.Fits where
  body := rfl
  spawn := rfl
  exec := by
    intro w w' s o x a h hfits hexec
    cases ho : o.onDatabase with
    | false =>
      have hexec : svc.exec w o x = some (a, s) := hexec
      refine ⟨_, ?_, StandsFor.apart h ho hexec⟩
      exact (storedExec_apart ho h).trans (by rw [hexec]; rfl)
    | true =>
      obtain rfl := exec_go ho hexec
      obtain ⟨a', db, hanswer, hstore⟩ := exec_answers hP h.store ho (Fits.ofDict hfits)
      obtain ⟨rfl, rfl⟩ := Prod.mk.inj (Option.some.inj (hexec.symm.trans hanswer))
      rcases hstore with ⟨store, hstore, hstands⟩ | ⟨-, hno⟩
      · refine ⟨{ w' with store }, ?_, h.rest, hstands⟩
        exact (StandsFor.store_exec h ho).trans (by rw [hstore]; rfl)
      · exact absurd hfits hno
  drift := by
    intro w w' v x h hdrift
    have hdrift : drift w x = some v := hdrift
    have hrest : drift w'.rest x = some { v with database := {} } := by
      rw [h.rest, drift_database, hdrift]
      rfl
    obtain ⟨clock, utc, -, hv⟩ := drift_eq hdrift
    refine ⟨{ w' with rest := { v with database := {} } }, ?_, rfl, ?_⟩
    · exact (congrArg (Option.map _) hrest).trans rfl
    · rw [hv]
      exact h.store

/-- What the file answers, the database answers too. -/
theorem machine_follows (hP : ArtifactRegistry.Decodes svc.platform floatOf) :
    svc.storedMachine.Follows svc.machine (fun s w => StandsFor svc.platform w s)
      (fun _ o => o.OfDict) where
  body := rfl
  spawn := rfl
  exec := by
    intro s w s' o x a h hdict hexec
    have hexec : svc.storedExec s o x = some (a, s') := hexec
    cases ho : o.onDatabase with
    | false =>
      rw [storedExec_apart ho h] at hexec
      obtain ⟨⟨a', w'⟩, hanswer, heq⟩ := Option.map_eq_some_iff.mp hexec
      obtain ⟨rfl, rfl⟩ := Prod.mk.inj heq
      exact ⟨w', hanswer, StandsFor.apart h ho hanswer⟩
    | true =>
      obtain rfl : x = .go := by
        unfold storedExec at hexec
        rw [if_pos ho] at hexec
        split at hexec
        · rfl
        · cases hexec
      rw [StandsFor.store_exec h ho] at hexec
      obtain ⟨⟨a', store⟩, hstored, heq⟩ := Option.map_eq_some_iff.mp hexec
      obtain ⟨rfl, rfl⟩ := Prod.mk.inj heq
      obtain ⟨a'', db, hanswer, hstore⟩ := exec_answers hP h.store ho hdict
      -- The file gives the same answer, or none, and then there is no such step.
      rcases hstore with ⟨store', hstore, hstands⟩ | ⟨hnone, -⟩
      · obtain ⟨rfl, rfl⟩ := Prod.mk.inj (Option.some.inj (hstored.symm.trans hstore))
        exact ⟨_, hanswer, h.rest, hstands⟩
      · rw [hnone] at hstored
        cases hstored
  drift := by
    intro s w s' x h hdrift
    obtain ⟨rest, hrest, rfl⟩ := Option.map_eq_some_iff.mp hdrift
    rw [h.rest, drift_database] at hrest
    obtain ⟨w', hw', rfl⟩ := Option.map_eq_some_iff.mp hrest
    refine ⟨w', hw', rfl, ?_⟩
    obtain ⟨clock, utc, -, rfl⟩ := drift_eq hw'
    exact h.store

end Runs

theorem stands_initial (P : Platform) : StandsFor P {} {} where
  rest := rfl
  store :=
    { sound := ⟨List.nodup_nil, fun _ hrow => absurd hrow List.not_mem_nil⟩
      artifacts := .nil
      refines := ⟨⟨[], ⟨[], rfl, rfl, .nil, by simp⟩, rfl⟩, ⟨[], ⟨rfl, List.nodup_nil⟩, rfl⟩⟩
      inUtc := fun _ hrow => absurd hrow List.not_mem_nil
      evaluationRuns := ⟨rfl, List.nodup_nil⟩
      rollbackEvents := rfl }

/-- The gateway on its file makes the runs of the gateway on its records, with the same answers, the
same outcomes and the same order. It lacks none of them but those that write what a row does
not take. -/
theorem storage_faithful {svc : Service} {floatOf : List Char → PyFloat}
    (hP : ArtifactRegistry.Decodes svc.platform floatOf) :
    (∀ c', svc.storedMachine.Reach (Pool.Fitting fun _ o => o.OfDict) storedInitial c' →
      ∃ c, svc.machine.Reachable initial c ∧
        Pool.Mirrors (fun s w => StandsFor svc.platform w s) c' c) ∧
    ∀ c, svc.machine.Reach (Pool.Fitting Op.Fits) initial c →
      ∃ c', svc.storedMachine.Reachable storedInitial c' ∧
        Pool.Mirrors (StandsFor svc.platform) c c' :=
  ⟨fun _ => (machine_follows hP).reach (fun _ _ => id) ⟨stands_initial svc.platform, rfl, rfl⟩,
    fun _ => (storedMachine_follows hP).reach (fun _ _ => id)
      ⟨stands_initial svc.platform, rfl, rfl⟩⟩

def storedService : Service := { Sample.service with platform := ArtifactRegistry.decodingPlatform }

/-- An artifact is put, a release is created and promoted, and a call leaves its row. -/
def storedMoves : List (Move Input Call) :=
  [.start (.createArtifact .prompt "greeting" "1" [("template", .str "hello")]), .run 0 .go,
    .start (.createRelease Sample.release), .run 1 .go, .start (.promote "release-1"),
    .run 2 .go, .start (.generate Sample.request none)] ++
      Sample.goes 3 7 ++ .run 3 (Sample.completion "hello") :: Sample.goes 3 6

def oneText : Object → Bool
  | [(_, .str _)] => true
  | _ => false

theorem distinct_of_oneText {content : Object} (h : oneText content = true) :
    Distinct (.obj content) := by
  unfold oneText at h
  split at h
  · exact .obj (List.nodup_singleton _) (List.forall_mem_singleton.mpr (.str _))
  · cases h

def fitting (w : World) : Op → Bool
  | .putArtifact _ _ _ content => oneText content
  | .putEvaluation _ => false
  | .createRelease release =>
    (releaseObject? release).isSome ∧ Rows.Int64 release.minCanarySamples
  | .setState _ _ | .recordRollback _ _ _ => Instant w.utc
  | .recordMetric m =>
    Instant m.createdAt ∧ Rows.Int64 m.inputTokens ∧ Rows.Int64 m.outputTokens ∧
      Rows.Int64 m.fallbackCount
  | .metrics _ _ _ limit => Rows.Int64 limit
  | _ => true

theorem fits_of_fitting {w : World} {o : Op} (h : fitting w o = true) : o.Fits w := by
  cases o with
  | putArtifact kind name version content => exact distinct_of_oneText h
  | putEvaluation run => cases h
  | createRelease | setState | recordRollback | recordMetric | metrics =>
    simpa [fitting, Op.Fits] using h
  | _ => trivial

def fittingMove (c : State) : Move Input Call → Bool
  | .run i _ => c.tasks[i]?.all fun t =>
    match t.rest with
    | .op o _ => fitting c.world o
    | _ => true
  | _ => true

theorem fitting_of_move {c : State} {m : Move Input Call} (h : fittingMove c m = true) :
    c.Fitting Op.Fits m := by
  rintro i x call o k rfl htask
  rw [fittingMove, htask] at h
  exact fits_of_fitting h

theorem storage_faithful_release : ∃ (c : State) (c' : StoredState),
    storedService.machine.Reachable initial c ∧
    storedService.storedMachine.Reachable storedInitial c' ∧ c'.tasks = c.tasks ∧
    c'.log = c.log ∧ c.tasks.all (·.rest.ended) = true ∧
    c.world.database.releases.map (·.state) = [.active] ∧
    c'.world.store.artifacts.length = 1 ∧ c'.world.store.releases.rows.length = 1 ∧
    c'.world.store.requestMetrics.rows.length = 1 := by
  obtain ⟨c, hm, hended, hartifacts, hreleases, hmetrics⟩ :
      ∃ c ∈ storedService.machine.movesUnder? fittingMove initial storedMoves,
        c.tasks.all (·.rest.ended) = true ∧ c.world.database.artifacts.length = 1 ∧
          c.world.database.releases.map (·.state) = [.active] ∧
            c.world.database.requestMetrics.length = 1 := by decide +kernel
  have hreach := Machine.reach_of_movesUnder (fun _ _ => fitting_of_move) _ .start hm
  obtain ⟨c', hreach', hmirrors⟩ :=
    (storage_faithful ArtifactRegistry.decodingPlatform_decodes).2 c hreach
  have hstore := hmirrors.world.store
  obtain ⟨rs, hholds, hrs⟩ := hstore.refines.releases
  obtain ⟨ms, ⟨ps, hrows, hms, -⟩, hmetric⟩ := hstore.refines.metrics
  refine ⟨c, c', hreach.weaken, hreach', hmirrors.tasks, hmirrors.log, hended, hreleases, ?_, ?_, ?_⟩
  · rw [hstore.artifacts.length_eq, hartifacts]
  · have hlength := congrArg List.length hreleases
    rw [List.length_map, hrs, List.length_map] at hlength
    rw [hholds.1, List.length_map, hlength]
    rfl
  · rw [hmetric, List.length_map, ← hms, List.length_map] at hmetrics
    rw [hrows, List.length_map, hmetrics]

end Service

end AegisGateway
