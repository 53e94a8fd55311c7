import AegisGateway.Accounting
import AegisGateway.Assessment
import AegisGateway.Lib.Sides

/-!
# Shadows and evaluations

Neither a shadow nor the cases of an evaluation are part of the service. The flags of
`generate` keep them away from the limiter, the cache and the tasks behind a response.
-/

open Coroutine JsonText

namespace AegisGateway

def Arguments.online (args : Arguments) : Bool := !args.evaluation && !args.shadow

def RequestMetric.shadowOnly (m : RequestMetric) : Bool := m.shadow && !m.canary

/-! ## What production sees -/

/-- What the limiter, the cache, the assignments and the verdicts go by, with the clocks. -/
structure Production where
  clock : ℚ
  utc : Int
  buckets : Buckets
  cache : Entries
  artifacts : List Artifact
  releases : List Release
  rollbackEvents : List RollbackEvent
  rows : List RequestMetric

/-- The evaluation runs, the gauge and the rows of shadows are left out, and the circuits. -/
def World.production (w : World) : Production where
  clock := w.clock
  utc := w.utc
  buckets := w.buckets
  cache := w.cache
  artifacts := w.database.artifacts
  releases := w.database.releases
  rollbackEvents := w.database.rollbackEvents
  rows := w.database.requestMetrics.filter (!·.shadowOnly)

namespace Database

def beside (db : Database) (evaluationRuns : List EvaluationRun)
    (requestMetrics : List RequestMetric) : Database :=
  { db with evaluationRuns, requestMetrics }

section Beside

variable (db : Database) (runs : List EvaluationRun) (rows : List RequestMetric)

theorem putArtifact_beside (P : Platform) (now : Int) (kind : ArtifactKind)
    (name version : String) (content : Object) :
    putArtifact P now (db.beside runs rows) kind name version content =
      ((db.putArtifact P now kind name version content).1,
        (db.putArtifact P now kind name version content).2.beside runs rows) := by
  have hget : (db.beside runs rows).getArtifact kind name (some version) =
      db.getArtifact kind name (some version) := rfl
  unfold putArtifact
  rw [hget]
  cases db.getArtifact kind name (some version) with
  | ok existing =>
    dsimp only
    split_ifs <;> rfl
  | error m => rfl

theorem createRelease_beside (release : Release) :
    (db.beside runs rows).createRelease release =
      ((db.createRelease release).1, (db.createRelease release).2.beside runs rows) := by
  unfold createRelease
  have hreleases : (db.beside runs rows).releases = db.releases := rfl
  rw [hreleases]
  split_ifs <;> rfl

theorem setState_beside (now : Int) (releaseId : String) (state : ReleaseState) :
    (db.beside runs rows).setState now releaseId state =
      ((db.setState now releaseId state).1, (db.setState now releaseId state).2.beside runs rows) := by
  have hget : (db.beside runs rows).getRelease releaseId = db.getRelease releaseId := rfl
  unfold setState
  rw [hget]
  cases db.getRelease releaseId with
  | ok current => rfl
  | error m => rfl

theorem metrics_beside {db : Database} (runs : List EvaluationRun) {rows : List RequestMetric}
    (h : rows.filter (!·.shadowOnly) = db.requestMetrics.filter (!·.shadowOnly))
    (releaseId routeId : Option String) (limit : Nat) :
    (db.beside runs rows).metrics releaseId routeId (some true) limit =
      db.metrics releaseId routeId (some true) limit := by
  have hkeep : ∀ l : List RequestMetric, l.filter (metricMatches releaseId routeId (some true)) =
      (l.filter (!·.shadowOnly)).filter (metricMatches releaseId routeId (some true)) := by
    intro l
    rw [List.filter_filter]
    apply List.filter_congr
    intro m _
    cases hm : m.canary <;> simp [metricMatches, RequestMetric.shadowOnly, hm]
  change (rows.reverse.filter _).take limit = (db.requestMetrics.reverse.filter _).take limit
  rw [List.filter_reverse, List.filter_reverse, hkeep rows, hkeep db.requestMetrics, h]

end Beside

end Database

namespace Service

/-! ## What the flags allow -/

/-- What a call of the data plane does, if it is `online` or not. -/
def dataOp (online : Bool) : Op → Bool
  | .consume _ | .cacheGet _ _ | .cachePut _ _ _ => online
  | .cacheClear | .metrics _ _ _ _ | .putArtifact _ _ _ _ | .createRelease _ | .setState _ _
  | .recordRollback _ _ _ | .putEvaluation _ => false
  | _ => true

theorem dataOp_of_settling {online : Bool} {o : Op} (h : settling o = true) :
    dataOp online o = true := by
  cases o <;> first | rfl | cases h

theorem dataOp_of_relaying {online : Bool} {o : Op} (h : relaying o = true) :
    dataOp online o = true := by
  cases o <;> first | rfl | cases h

variable {svc : Service} {online : Bool} {x : Exchange}

theorem keepEvents_dataOp (hx : x.cacheAllowed = true → online = true) (response : GatewayResponse)
    (t : Int) : ∀ e ∈ x.keepEvents response t, dataOp online e.1 = true := by
  have hrow : ∀ e ∈ (if x.evaluation then [] else x.rowEvents response t),
      dataOp online e.1 = true := by
    split_ifs <;> simp [Exchange.rowEvents, dataOp]
  have hput : ∀ e ∈ x.putEvents response, dataOp online e.1 = true := by
    unfold Exchange.putEvents
    split_ifs with h
    · simp [dataOp, hx h.1]
    · simp
  simp only [Exchange.keepEvents, List.forall_mem_append]
  exact ⟨hrow, hput, fun e he => dataOp_of_settling (settling_of_task (launchEvents_tasks x e he))⟩

theorem GeneratePassRun.dataOp (hx : x.cacheAllowed = true → online = true) {c : RoutingCandidate}
    {route : ModelRoute} {st : LoopState} {tr : GatewayTrace}
    {out : Except PyExc (Pass GatewayResponse)} (h : svc.GeneratePassRun x c route st tr out) :
    ∀ e ∈ tr, Service.dataOp online e.1 = true := by
  have hadmitted : ∀ t state, ∀ e ∈ admitted route t state, Service.dataOp online e.1 = true := by
    simp [admitted, Service.dataOp]
  cases h with
  | deadline | refused => simp [Service.dataOp]
  | unconfigured _ _ hh =>
    rw [List.forall_mem_append]
    exact ⟨hadmitted _ _, fun e he => dataOp_of_settling (hh.settling e he)⟩
  | failed _ _ _ hh =>
    simp only [List.forall_mem_append, List.forall_mem_cons]
    exact ⟨hadmitted _ _, rfl, fun e he => dataOp_of_settling (hh.settling e he)⟩
  | succeeded =>
    simp only [List.forall_mem_append, List.forall_mem_cons]
    exact ⟨hadmitted _ _, rfl, by simp [successEvents, Service.dataOp], rfl, rfl,
      keepEvents_dataOp hx _ _⟩

theorem StreamPassRun.dataOp (hx : x.cacheAllowed = true → online = true) {c : RoutingCandidate}
    {route : ModelRoute} {st : LoopState} {tr : GatewayTrace} {out : Except PyExc (Pass Unit)}
    (h : svc.StreamPassRun x c route st tr out) : ∀ e ∈ tr, Service.dataOp online e.1 = true := by
  have hadmitted : ∀ t state, ∀ e ∈ admitted route t state, Service.dataOp online e.1 = true := by
    simp [admitted, Service.dataOp]
  have hrelay : ∀ {es r tr r' left}, RelayRun x route es r tr r' left →
      ∀ e ∈ tr, Service.dataOp online e.1 = true :=
    fun h e he => dataOp_of_relaying (h.relaying e he)
  cases h with
  | deadline | refused => simp [Service.dataOp]
  | unconfigured _ _ hh =>
    rw [List.forall_mem_append]
    exact ⟨hadmitted _ _, fun e he => dataOp_of_settling (hh.settling e he)⟩
  | left _ _ hl =>
    simp only [List.forall_mem_append, List.forall_mem_cons]
    exact ⟨hadmitted _ _, rfl, hrelay hl⟩
  | failed _ _ hl _ hh =>
    simp only [List.forall_mem_append, List.forall_mem_cons]
    exact ⟨hadmitted _ _, rfl, hrelay hl, fun e he => dataOp_of_settling (hh.settling e he)⟩
  | succeeded _ _ hl =>
    simp only [List.forall_mem_append, List.forall_mem_cons]
    exact ⟨hadmitted _ _, rfl, hrelay hl, by simp [successEvents, Service.dataOp], rfl, rfl,
      keepEvents_dataOp hx _ _, rfl, by simp⟩

theorem LoopRun.dataOp {α : Type} {R : PassRel α}
    (hR : ∀ c route st tr out, R c route st tr out → ∀ e ∈ tr, Service.dataOp online e.1 = true)
    {cs : List RoutingCandidate} {st : LoopState} {tr : GatewayTrace} {out : Except PyExc α}
    (h : svc.LoopRun x R cs st tr out) : ∀ e ∈ tr, Service.dataOp online e.1 = true :=
  h.keeps (Prog.closed_forall fun e => Service.dataOp online e.1 = true)
    (fun _ _ _ h e he => dataOp_of_settling (h.settling e he)) hR

/-! ## Up to the answer -/

theorem begin_dataOp (args : Arguments) :
    (svc.begin args).Emits fun e => dataOp args.online e.1 = true := by
  have hclosed := Prog.closed_forall fun e : GatewayEvent => dataOp args.online e.1 = true
  have hone : ∀ (o : Op) a, dataOp args.online o = true →
      ∀ e ∈ [ev o a], dataOp args.online e.1 = true := fun o a h =>
    List.forall_mem_singleton.mpr h
  rw [begin]
  apply Prog.leaves_bind hclosed (Prog.leaves_perform fun a => hone _ a rfl)
  intro started
  refine Prog.leaves_bind hclosed ?_ fun request => ?_
  · unfold resolvePrompt
    split
    next => exact Prog.leaves_pure hclosed _
    next =>
      refine Prog.leaves_bind hclosed (Prog.leaves_op hclosed (fun a => hone _ a rfl) fun a => ?_)
        fun artifact => Prog.leaves_ofExcept hclosed _
      exact Prog.leaves_ofExcept hclosed _
  refine Prog.leaves_bind hclosed ?_ fun _ => ?_
  · refine .when (fun honline => ?_) fun _ => hclosed.nil
    exact Prog.leaves_op hclosed (fun a => hone _ a honline) fun a => Prog.leaves_ofExcept hclosed _
  refine Prog.leaves_bind hclosed ?_ fun assignment => Prog.leaves_pure hclosed _
  unfold assignmentFor
  split
  next => exact Prog.leaves_pure hclosed _
  next =>
    split_ifs
    · exact Prog.leaves_pure hclosed _
    · exact Prog.leaves_bind hclosed (Prog.leaves_perform fun a => hone _ a rfl)
        fun _ => Prog.leaves_pure hclosed _

theorem cached_dataOp (hx : x.cacheAllowed = true → online = true) :
    (cached x).Emits fun e => dataOp online e.1 = true := by
  unfold cached
  split_ifs with h
  · exact Prog.leaves_perform fun a => List.forall_mem_singleton.mpr (hx h.1)
  · exact Prog.leaves_pure (Prog.closed_forall _) _

theorem decide_dataOp (q : GatewayRequest) (opts : RoutingOptions) :
    (svc.decide q opts).Emits fun e => dataOp online e.1 = true := by
  apply (svc.decide_runs q opts).mono
  rintro _ _ ⟨xs, -, rfl, -⟩ e he
  obtain ⟨a, -, rfl⟩ := List.mem_map.mp he
  rfl

theorem online_of_begun {args : Arguments} {tr : GatewayTrace} (h : svc.Begun args tr x)
    (hx : x.cacheAllowed = true) : args.online = true := by
  unfold Exchange.cacheAllowed at hx
  rw [h.evaluation, h.shadow] at hx
  exact (Bool.and_eq_true_iff.mp hx).1

theorem approach_dataOp (args : Arguments) :
    (svc.approach args).Emits fun e => dataOp args.online e.1 = true := by
  have hclosed := Prog.closed_forall fun e : GatewayEvent => dataOp args.online e.1 = true
  rw [Prog.Emits, Prog.Leaves, approach, Prog.allRuns_bind]
  apply ((svc.begin_runs args).and (begin_dataOp args)).mono
  rintro tr out ⟨⟨-, hb⟩, htr⟩
  cases out with
  | error e => exact htr
  | ok x =>
    refine Prog.Emits.after (Prog.leaves_bind hclosed (cached_dataOp (online_of_begun (hb x rfl)))
      fun hit => ?_) htr
    cases hit with
    | some hit => exact Prog.leaves_pure hclosed _
    | none =>
      exact Prog.leaves_bind hclosed (decide_dataOp _ _) fun d => Prog.leaves_pure hclosed _

theorem ServedRun.dataOp {hit : GatewayResponse} {tr : GatewayTrace}
    {out : Except PyExc GatewayResponse} (h : ServedRun x hit tr out) :
    ∀ e ∈ tr, Service.dataOp online e.1 = true := by
  cases h with
  | served now t t' =>
    have htasks := fun e he => @dataOp_of_settling online _
      (settling_of_task (launchEvents_tasks x e he))
    simpa [Exchange.rowEvents, Service.dataOp] using htasks

theorem StreamServedRun.dataOp {hit : GatewayResponse} {tr : GatewayTrace}
    {out : Except PyExc Unit} (h : StreamServedRun x hit tr out) :
    ∀ e ∈ tr, Service.dataOp online e.1 = true := by
  cases h with
  | leftAtStart | leftAtDelta => simp [hitEvent, Service.dataOp]
  | served now t consumer =>
    simp only [List.forall_mem_append, List.forall_mem_cons]
    exact ⟨rfl, rfl, rfl, by simp [Exchange.rowEvents, Service.dataOp],
      fun e he => dataOp_of_settling (settling_of_task (launchEvents_tasks x e he)), rfl, by simp⟩

theorem approached_dataOp {α : Type} {args : Arguments} {f : Exchange × Origin → GatewayM α}
    (hf : ∀ a, (a.1.cacheAllowed = true → args.online = true) →
      (f a).Emits fun e => dataOp args.online e.1 = true) :
    (svc.approach args >>= f).Emits fun e => dataOp args.online e.1 = true := by
  rw [Prog.Emits, Prog.Leaves, Prog.allRuns_bind]
  apply ((svc.approach_runs args).and (approach_dataOp args)).mono
  rintro tr out ⟨happroach, htr⟩
  cases out with
  | error e => exact htr
  | ok a =>
    obtain ⟨x, origin⟩ := a
    obtain ⟨tr₀, -, hb⟩ := happroach.begun
    exact (hf (x, origin) (online_of_begun hb)).after htr

theorem generate_dataOp (args : Arguments) :
    (svc.generate args).Emits fun e => dataOp args.online e.1 = true := by
  rw [generate]
  apply approached_dataOp
  intro a ha
  obtain ⟨x, origin⟩ := a
  cases origin with
  | cache hit => exact (serveCached_runs x hit).mono fun _ _ h => h.dataOp
  | decision d =>
    exact (svc.candidateLoop_runs x (svc.generatePass_runs x) _ _).mono fun _ _ h =>
      h.dataOp fun _ _ _ _ _ => GeneratePassRun.dataOp ha

theorem stream_dataOp (q : GatewayRequest) (forced : Option String) :
    (svc.stream q forced).Emits fun e => dataOp true e.1 = true := by
  rw [stream]
  apply approached_dataOp
  intro a ha
  obtain ⟨x, origin⟩ := a
  cases origin with
  | cache hit => exact (streamCached_runs x hit).mono fun _ _ h => h.dataOp
  | decision d =>
    exact (svc.candidateLoop_runs x (svc.streamPass_runs x) _ _).mono fun _ _ h =>
      h.dataOp fun _ _ _ _ _ => StreamPassRun.dataOp ha

/-! ## Rows and tasks -/

theorem rows_keepEvents_le (x : Exchange) (response : GatewayResponse) (t : Int) :
    (rows (x.keepEvents response t)).length ≤ 1 := by
  have hput : rows (x.putEvents response) = [] := by
    unfold Exchange.putEvents
    split_ifs <;> rfl
  unfold Exchange.keepEvents
  rw [rows_append, rows_append, hput, rows_launchEvents]
  split_ifs
  · exact Nat.zero_le 1
  · exact Nat.le_refl 1

theorem GaveUp.oneRow {α : Type} {st : LoopState} {tr : GatewayTrace} {out : Except PyExc α}
    (h : GaveUp x st tr out) : (rows tr).length ≤ 1 := by
  cases h with
  | unrecorded | assertion => exact Nat.zero_le 1
  | recorded now t => rw [rows_errorEvents, List.length_singleton]

theorem GeneratePassRun.oneRow {c : RoutingCandidate} {route : ModelRoute} {st : LoopState}
    {tr : GatewayTrace} {out : Except PyExc (Pass GatewayResponse)}
    (h : svc.GeneratePassRun x c route st tr out) : (rows tr).length ≤ 1 ∧
      ∀ st', out = .ok (.next st') ∨ out = .ok (.broke st') → rows tr = [] := by
  have honly : ∀ {tr : GatewayTrace}, rows tr = [] → (rows tr).length ≤ 1 ∧
      ∀ st', out = .ok (.next st') ∨ out = .ok (.broke st') → rows tr = [] :=
    fun h => ⟨by simp [h], fun _ _ => h⟩
  cases h with
  | deadline | refused => exact honly rfl
  | unconfigured _ _ hh =>
    apply honly
    rw [rows_append, rows_admitted, rows_handled hh]
    rfl
  | @failed _ _ _ _ _ _ _ tr _ _ _ _ hh =>
    apply honly
    rw [rows_append, rows_admitted]
    change rows tr = []
    exact rows_handled hh
  | succeeded =>
    refine ⟨?_, by rintro st' (⟨⟨⟩⟩ | ⟨⟨⟩⟩)⟩
    rw [rows_append, rows_admitted]
    exact rows_keepEvents_le x _ _

theorem LoopRun.oneRow {cs : List RoutingCandidate} {st : LoopState} {tr : GatewayTrace}
    {out : Except PyExc GatewayResponse} (h : svc.LoopRun x (svc.GeneratePassRun x) cs st tr out) :
    (rows tr).length ≤ 1 := by
  induction h with
  | exhausted h => exact h.oneRow
  | unknown => exact Nat.zero_le 1
  | raised _ hp | returned _ hp => exact hp.oneRow.1
  | broke _ hp h =>
    rw [rows_append, hp.oneRow.2 _ (.inr rfl)]
    exact h.oneRow
  | next _ hp _ ih =>
    rw [rows_append, hp.oneRow.2 _ (.inl rfl)]
    exact ih

theorem generate_oneRow (args : Arguments) :
    (svc.generate args).Leaves fun tr => (rows tr).length ≤ 1 := by
  apply (svc.generate_runs args).mono
  intro tr out h
  have happroach : ∀ {tr out}, svc.ApproachRun args tr out → rows tr = [] := fun h =>
    rows_eq_nil fun e he => rowOf_of_approaching (h.approaching e he)
  change (rows tr).length ≤ 1
  cases h with
  | stopped h =>
    rw [happroach h]
    exact Nat.zero_le 1
  | @served _ _ x hit _ h hs =>
    rw [rows_append, happroach h]
    cases hs with
    | served now t t' =>
      change (rows (x.rowEvents (cachedResponse x hit now t) t' ++ x.launchEvents)).length ≤ 1
      rw [rows_append, rows_rowEvents, rows_launchEvents]
      rfl
  | looped h hl =>
    rw [rows_append, happroach h]
    exact hl.oneRow

theorem not_launches (hs : x.shadow = true ∨ x.assignment.shadowRouteId = none)
    (hc : x.assignment.canary = false) (call : Call) : ¬ Launches x call := by
  rintro (⟨hx, h⟩ | ⟨hcanary, -⟩)
  · rcases hs with hs | hs
    · rw [hs] at hx
      cases hx
    · rw [hs] at h
      cases h
  · rw [hc] at hcanary
    cases hcanary

theorem generate_noTask {args : Arguments}
    (h : args.shadow = true ∧ (∃ a, args.assignmentOverride = some a ∧ a.canary = false) ∨
      args.evaluation = true ∧ args.assignmentOverride = none) :
    (svc.generate args).Emits fun e => spawned e.1 = [] := by
  apply (generate_oneExchange args).mono
  intro tr hone e he
  have hquiet : ∀ {x tr₀}, svc.Begun args tr₀ x → ∀ call, ¬ Launches x call := by
    intro x tr₀ hb
    rcases h with ⟨hs, a, ha, hcanary⟩ | ⟨hx, hnone⟩
    · rcases hb.assigned with heq | ⟨hnone, -⟩
      · rw [ha] at heq
        cases heq
        exact not_launches (.inl (hb.shadow.trans hs)) hcanary
      · rw [ha] at hnone
        cases hnone
    · rcases hb.assigned with heq | ⟨-, ⟨-, heq⟩ | ⟨hno, -⟩⟩
      · rw [hnone] at heq
        cases heq
      · exact not_launches (.inr (heq ▸ rfl)) (heq ▸ rfl)
      · exact absurd (.inl hx) hno
  rcases e with ⟨o, a⟩
  cases o with
  | createTask call =>
    rcases hone with hp | ⟨tr₀, tr₁, x, rfl, hb, hx⟩
    · cases hp _ he
    · rcases List.mem_append.mp he with he | he
      · cases hb.preliminary _ he
      · exact absurd ((hx _ he).task call rfl) (hquiet hb call)
  | _ => rfl

theorem generate_shadowRows {args : Arguments} (hs : args.shadow = true)
    {assignment : ReleaseAssignment} (ha : args.assignmentOverride = some assignment)
    (hc : assignment.canary = false) :
    (svc.generate args).Leaves fun tr => ∀ m ∈ rows tr, m.shadow = true ∧ m.canary = false := by
  apply (generate_oneExchange args).mono
  intro tr h m hm
  obtain ⟨⟨o, a⟩, he, hrow⟩ := List.mem_filterMap.mp hm
  cases o with
  | recordMetric m' =>
    cases hrow
    rcases h with hp | ⟨tr₀, tr₁, x, rfl, hb, hx⟩
    · cases hp _ he
    · rcases List.mem_append.mp he with he | he
      · cases hb.preliminary _ he
      · have hrow := (hx _ he).row m rfl
        rcases hb.assigned with heq | ⟨hnone, -⟩
        · rw [ha] at heq
          cases heq
          exact ⟨hrow.shadow.trans (hb.shadow.trans hs), hrow.canary.trans hc⟩
        · rw [ha] at hnone
          cases hnone
  | _ => cases hrow

/-! ## Operations that production does not see, or not all of -/

def harmless : Op → Bool
  | .consume _ | .cacheGet _ _ | .cachePut _ _ _ | .cacheClear | .putArtifact _ _ _ _
  | .createRelease _ | .setState _ _ | .recordRollback _ _ _ => false
  | .recordMetric m => m.shadowOnly
  | _ => true

def discerning : Op → Bool
  | .metrics _ _ canary _ => canary = some true
  | _ => true

theorem exec_harmless {w w' : World} {o : Op} {i : Input} {a : Ans o}
    (h : svc.exec w o i = some (a, w')) (ho : harmless o = true) :
    w'.production = w.production := by
  unfold exec at h
  split at h <;> cases h
  case h_25 m => simp [World.production, Database.recordMetric, show m.shadowOnly = true from ho]
  all_goals first
    | rfl
    | cases ho

def besides (w : World) (gauge : AList (fun _ : String => Nat)) (runs : List EvaluationRun)
    (rows : List RequestMetric) : World :=
  { w with gauge, database := w.database.beside runs rows }

theorem eq_besides {w v : World} (hp : w.production = v.production)
    (hc : w.circuits = v.circuits) :
    v = besides w v.gauge v.database.evaluationRuns v.database.requestMetrics := by
  obtain ⟨clock, utc, circuits, buckets, cache, gauge, database⟩ := v
  obtain ⟨hclock, hutc, hbuckets, hcache, hartifacts, hreleases, hrollbacks, -⟩ :=
    Production.mk.inj hp
  simp only [besides, Database.beside, hclock, hutc, hc, hbuckets, hcache, hartifacts, hreleases,
    hrollbacks]

section Besides

variable {gauge : AList (fun _ : String => Nat)} {runs : List EvaluationRun}
  {rows : List RequestMetric}

theorem production_besides {w : World}
    (hrows : rows.filter (!·.shadowOnly) = w.database.requestMetrics.filter (!·.shadowOnly)) :
    (besides w gauge runs rows).production = w.production := by
  simp only [World.production, besides, Database.beside, hrows]

/-- What such a world answers, and what becomes of it, is the same but for these. -/
theorem exec_besides {w w' : World} {o : Op} {i : Input} {a : Ans o} (ho : discerning o = true)
    (hrows : rows.filter (!·.shadowOnly) = w.database.requestMetrics.filter (!·.shadowOnly))
    (h : svc.exec w o i = some (a, w')) :
    ∃ v', svc.exec (besides w gauge runs rows) o i = some (a, v') ∧
      v'.production = w'.production := by
  have hsame := exec_rows h
  unfold exec at h
  split at h <;> cases h
  case h_9 routeId state =>
    exact ⟨besides w (gauge.insert routeId state.gauge) runs rows, rfl, production_besides hrows⟩
  case h_19 | h_20 | h_23 =>
    refine ⟨besides _ gauge runs rows, ?_, production_besides (hrows.trans ?_)⟩
    · simp only [exec, besides, Database.putArtifact_beside, Database.createRelease_beside,
        Database.setState_beside]
    · exact congrArg (List.filter _) (hsame.trans (List.append_nil _)).symm
  case h_25 m =>
    refine ⟨besides { w with database := w.database.recordMetric m } gauge runs (rows ++ [m]), rfl,
      production_besides ?_⟩
    rw [hsame, List.filter_append, List.filter_append, hrows]
    rfl
  case h_26 releaseId routeId canary limit =>
    have hcanary : canary = some true := of_decide_eq_true ho
    subst hcanary
    refine ⟨besides w gauge runs rows, ?_, production_besides hrows⟩
    rw [← Database.metrics_beside runs hrows]
    rfl
  case h_27 run =>
    exact ⟨besides w gauge (runs ++ [run]) rows, rfl, production_besides hrows⟩
  -- All others read and write what both worlds have in common.
  all_goals exact ⟨besides _ gauge runs rows, rfl, production_besides hrows⟩

end Besides

theorem exec_production {w v w' : World} {o : Op} {i : Input} {a : Ans o}
    (ho : discerning o = true) (hp : w.production = v.production) (hc : w.circuits = v.circuits)
    (h : svc.exec w o i = some (a, w')) :
    ∃ v', svc.exec v o i = some (a, v') ∧ v'.production = w'.production := by
  rw [eq_besides hp hc]
  exact exec_besides ho (congrArg Production.rows hp).symm h

/-- Nothing of the limiter, the cache, the releases and the rollbacks has changed, and the evidence
has grown by `added`. -/
structure Spared (w w' : World) (added : List RequestMetric) : Prop where
  buckets : w'.buckets = w.buckets
  cache : w'.cache = w.cache
  releases : w'.database.releases = w.database.releases
  rollbackEvents : w'.database.rollbackEvents = w.database.rollbackEvents
  rows : w'.database.requestMetrics = w.database.requestMetrics ++ added

theorem spared_of_offline {w w' : World} {o : Op} {i : Input} {a : Ans o}
    (ho : dataOp false o = true) (h : svc.exec w o i = some (a, w')) :
    Spared w w' (rowOf o).toList := by
  have hrows := exec_rows h
  unfold exec at h
  split at h <;> cases h
  all_goals first
    | exact ⟨rfl, rfl, rfl, rfl, hrows⟩
    | cases ho

theorem harmless_of_offline {o : Op} (ho : dataOp false o = true)
    (hrow : ∀ m, rowOf o = some m → m.shadowOnly = true) : harmless o = true := by
  cases o with
  | recordMetric m => exact hrow m rfl
  | _ => first | rfl | cases ho

/-! ## The calls on the side -/

/-- The summaries of the evidence only look, and they look at the rows of shadows too. -/
def onTheSide : Call → Bool
  | .shadow _ _ _ | .runEvaluation _ _ _ | .metricSummary _ _ _ => true
  | _ => false

theorem evaluation_quiet (args : Arguments) (hargs : args.evaluation = true) :
    (svc.generate args).Emits fun e => dataOp false e.1 = true ∧ rowOf e.1 = none := by
  have honline : args.online = false := by simp [Arguments.online, hargs]
  apply ((generate_dataOp args).and (generate_rows_nil hargs)).mono
  rintro tr - ⟨hop, hrows⟩ e he
  exact ⟨honline ▸ hop e he, List.filterMap_eq_nil_iff.mp hrows e he⟩

theorem body_aside {call : Call} (h : onTheSide call = true) :
    (svc.body call).Emits fun e => spawned e.1 = [] ∧ harmless e.1 = true := by
  have hclosed := Prog.closed_forall fun e : GatewayEvent => spawned e.1 = [] ∧ harmless e.1 = true
  cases call with
  | shadow q routeId releaseId =>
    refine Prog.leaves_map ?_ _
    refine ((generate_noTask (.inl ⟨rfl, _, rfl, rfl⟩)).and ((generate_dataOp _).and
      (generate_shadowRows rfl rfl rfl))).mono ?_
    rintro tr - ⟨htask, hop, hrows⟩ e he
    refine ⟨htask e he, harmless_of_offline (hop e he) fun m hm => ?_⟩
    obtain ⟨hs, hc⟩ := hrows m (List.mem_filterMap.mpr ⟨e, he, hm⟩)
    simp [RequestMetric.shadowOnly, hs, hc]
  | runEvaluation datasetName datasetVersion routeId =>
    refine Prog.leaves_map (runEvaluation_leaves hclosed (fun request forcedRouteId => ?_)
      (fun e he => ?_) _ _ _) _
    · apply ((generate_noTask (.inr ⟨rfl, rfl⟩)).and (evaluation_quiet _ rfl)).mono
      rintro tr - ⟨htask, hquiet⟩ e he
      refine ⟨htask e he, harmless_of_offline (hquiet e he).1 fun m hm => ?_⟩
      rw [(hquiet e he).2] at hm
      cases hm
    · rcases e with ⟨o, a⟩
      rw [List.forall_mem_singleton]
      cases o <;> first | exact ⟨rfl, rfl⟩ | cases he
  | metricSummary releaseId routeId canary =>
    refine Prog.leaves_bind hclosed ?_ fun _ => Prog.leaves_pure hclosed _
    rw [summary]
    exact Prog.leaves_bind hclosed (Prog.leaves_perform fun a => by simp [spawned, harmless])
      fun _ => Prog.leaves_pure hclosed _
  | _ => cases h

/-! ## The other calls -/

theorem discerning_of_online {o : Op} (h : dataOp true o = true) : discerning o = true := by
  cases o <;> first | rfl | cases h

theorem AssessRun.discerning {id : String} {tr : GatewayTrace} {out : Except PyExc RollbackDecision}
    (h : AssessRun id tr out) : ∀ e ∈ tr, Service.discerning e.1 = true := by
  cases h <;> simp [assessed, Service.discerning]

theorem body_discerning {call : Call} (h : onTheSide call = false) :
    (svc.body call).Emits fun e => discerning e.1 = true := by
  have hclosed := Prog.closed_forall fun e : GatewayEvent => discerning e.1 = true
  have hone : ∀ (o : Op) a, discerning o = true → ∀ e ∈ [ev o a], discerning e.1 = true :=
    fun o a h => List.forall_mem_singleton.mpr h
  have hset : ∀ releaseId state,
      (setState releaseId state).Emits fun e => discerning e.1 = true := fun _ _ =>
    Prog.leaves_op hclosed (fun a => hone _ a rfl) fun a => Prog.leaves_ofExcept hclosed _
  cases call with
  | generate q forced =>
    have hop : (svc.generate { request := q, forcedRouteId := forced }).Emits fun e =>
        dataOp true e.1 = true := generate_dataOp _
    exact Prog.leaves_map (hop.mono fun _ h e he => discerning_of_online (h e he)) _
  | stream q forced =>
    exact Prog.leaves_map ((stream_dataOp q forced).mono fun _ h e he =>
      discerning_of_online (h e he)) _
  | assess releaseId => exact Prog.leaves_map ((assess_runs releaseId).mono fun _ _ h => h.discerning) _
  | createArtifact kind name version content =>
    refine Prog.leaves_map (Prog.leaves_op hclosed (fun a => hone _ a rfl) fun a => ?_) _
    exact Prog.leaves_ofExcept hclosed _
  | createRelease release =>
    refine Prog.leaves_map ?_ _
    rw [apiCreateRelease]
    apply Prog.leaves_bind hclosed (Prog.leaves_ofExcept hclosed _)
    intro _
    apply Prog.leaves_bind hclosed (Prog.leaves_ofExcept hclosed _)
    intro _
    exact Prog.leaves_op hclosed (fun a => hone _ a rfl) fun a => Prog.leaves_ofExcept hclosed _
  | startCanary releaseId datasetName datasetVersion =>
    refine Prog.leaves_bind hclosed ?_ fun _ => Prog.leaves_pure hclosed _
    rw [apiStartCanary]
    refine Prog.leaves_bind hclosed (Prog.leaves_op hclosed (fun a => hone _ a rfl) fun a =>
      Prog.leaves_ofExcept hclosed _) fun release => ?_
    refine Prog.leaves_bind hclosed (runEvaluation_leaves hclosed (fun request forcedRouteId =>
      (generate_dataOp _).mono fun _ h e he => ?_) (fun e he => ?_) _ _ _) fun run => ?_
    · have hop := h e he
      rcases e with ⟨o, a⟩
      cases o <;> first | rfl | cases hop
    · rcases e with ⟨o, a⟩
      cases o <;> first | exact hone _ _ rfl | cases he
    apply Prog.leaves_bind hclosed (Prog.leaves_ofExcept hclosed _)
    intro _
    exact Prog.leaves_bind hclosed (hset _ _) fun _ => Prog.leaves_pure hclosed _
  | promote releaseId => exact Prog.leaves_map (hset releaseId .active) _
  | rollback releaseId reason =>
    refine Prog.leaves_map ?_ _
    rw [AegisGateway.rollback, rollbackWith]
    apply Prog.leaves_bind hclosed (Prog.leaves_perform fun a => hone _ a rfl)
    intro started
    apply Prog.leaves_bind hclosed (hset _ _)
    intro _
    apply Prog.leaves_bind hclosed (Prog.leaves_perform fun a => hone _ a rfl)
    intro now
    exact Prog.leaves_bind hclosed (Prog.leaves_perform fun a => hone _ a rfl) fun _ =>
      Prog.leaves_pure hclosed _
  | circuits => exact Prog.leaves_map (Prog.leaves_perform fun a => hone _ a rfl) _
  | clearCache => exact Prog.leaves_map (Prog.leaves_perform fun a => hone _ a rfl) _
  | shadow | runEvaluation | metricSummary => cases h

/-! ## Two runs -/

variable (svc) in
theorem separated : svc.machine.Separated onTheSide World.production World.circuits where
  aside := by
    intro call h
    apply (body_aside h).mono
    intro tr hev e he
    exact ⟨(hev e he).1, fun w w' i hexec => exec_harmless hexec (hev e he).2⟩
  main := by
    intro call h
    apply (body_discerning h).mono
    intro tr hev e he
    exact fun w v i a w' hp hc hexec => exec_production (hev e he) hp hc hexec
  drift := by
    intro w v i w' hp hd
    cases i with
    | later seconds microseconds =>
      simp only [machine, drift] at hd ⊢
      split_ifs at hd ⊢ with hpos
      cases hd
      refine ⟨_, rfl, ?_⟩
      simp only [World.production, Production.mk.injEq] at hp ⊢
      simp [hp]
    | _ => cases hd

variable (svc) in
/-- A `generate` of an evaluation that is given no assignment changes nothing but circuits, whatever
world its operations meet, and starts no task. Neither does a shadow, which adds one row at most,
marked as that of a shadow and not of a canary. Two runs that make the same moves at the same
circuits, but for evaluations and shadows, agree on what production sees and on all that the other
calls have done and learnt: what the limiter, the cache and the assessments have answered them. -/
theorem side_leaves_production :
    (∀ args : Arguments, args.evaluation = true →
      ((svc.generate args).Emits fun e => ∀ w w' i, svc.exec w e.1 i = some (e.2, w') →
        Spared w w' []) ∧
      (args.assignmentOverride = none →
        (svc.generate args).Emits fun e => spawned e.1 = [])) ∧
    (∀ q routeId releaseId,
      ((svc.body (.shadow q routeId releaseId)).Emits fun e => spawned e.1 = [] ∧
        ∀ w w' i, svc.exec w e.1 i = some (e.2, w') → Spared w w' (rowOf e.1).toList) ∧
      (svc.body (.shadow q routeId releaseId)).Leaves fun tr => (rows tr).length ≤ 1 ∧
        ∀ m ∈ rows tr, m.shadow = true ∧ m.canary = false) ∧
    ∀ l c d, svc.machine.Seen onTheSide World.circuits initial l c →
      svc.machine.Seen onTheSide World.circuits initial l d →
        c.world.production = d.world.production ∧ c.main onTheSide = d.main onTheSide := by
  refine ⟨fun args hargs => ⟨?_, fun hnone => generate_noTask (.inr ⟨hargs, hnone⟩)⟩,
    fun q routeId releaseId => ⟨?_, ?_⟩, fun l c d hc hd => ?_⟩
  · apply (evaluation_quiet args hargs).mono
    intro tr hquiet e he w w' i hexec
    have hspared := spared_of_offline (hquiet e he).1 hexec
    rwa [(hquiet e he).2] at hspared
  · refine Prog.leaves_map (((generate_noTask (.inl ⟨rfl, _, rfl, rfl⟩)).and
      (generate_dataOp _)).mono ?_) _
    rintro tr - ⟨htask, hop⟩ e he
    exact ⟨htask e he, fun w w' i hexec => spared_of_offline (hop e he) hexec⟩
  · refine Prog.leaves_map (((generate_oneRow _).and (generate_shadowRows rfl rfl rfl)).mono ?_) _
    exact fun tr _ h => h
  · have halike := hc.alike (separated svc) hd
    exact ⟨halike.view, halike.main⟩

end Service

end AegisGateway
