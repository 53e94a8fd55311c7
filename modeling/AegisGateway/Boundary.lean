import AegisGateway.Compat
import AegisGateway.Quiescence

/-!
# The administrator's boundary

`create_app` puts `require_admin` in front of every endpoint of the control plane. What gets
past it without the token are requests to be answered, and what these start by themselves.
-/

open Coroutine JsonText

namespace AegisGateway

/-! ## Endpoints -/

structure ArtifactCreate where
  kind : ArtifactKind
  name : String
  version : String
  content : Object

structure EvaluationRequest where
  datasetName : String
  datasetVersion : Option String := none
  routeId : String

structure CanaryStartRequest where
  datasetName : String
  datasetVersion : Option String := none

structure ManualRollbackRequest where
  reason : String := "manual"

/-- A request as FastAPI hands it to a handler, with its body read. -/
inductive Endpoint where
  | live
  | ready
  | generate (body : GatewayRequest)
  | openaiCompat (xAegisTenant : String) (body : OpenAICompatRequest) (id : String)
  | prometheus
  | console
  | routes
  | providerHealth
  | circuits
  | clearCache
  | createArtifact (body : ArtifactCreate)
  | listArtifacts (kind : Option ArtifactKind)
  | createRelease (body : Release)
  | listReleases
  | startCanary (releaseId : String) (body : CanaryStartRequest)
  | promote (releaseId : String)
  | rollback (releaseId : String) (body : ManualRollbackRequest)
  | assess (releaseId : String)
  | runEvaluation (body : EvaluationRequest)
  | listEvaluations
  | metricSummary (routeId releaseId : Option String) (canary : Option Bool)
  | recentMetrics (limit : Nat)

namespace Endpoint

/-- The endpoints with `dependencies=[admin]`. -/
def admin : Endpoint → Bool
  | .live | .ready | .generate _ | .openaiCompat _ _ _ | .prometheus | .console => false
  | _ => true

/-- The call that the handler makes, or none where it only reads. -/
def handle (P : Platform) (isPrintable : Char → Bool) (enableConsole : Bool) :
    Endpoint → Except HandlerExc (Option Call)
  | .generate body =>
    .ok (some (if body.stream then .stream body none else .generate body none))
  | .openaiCompat xAegisTenant body id =>
    (AegisGateway.openaiCompat P isPrintable xAegisTenant body id).map some
  | .console => if enableConsole then .ok none else .error (.http 404 "Not Found")
  | .circuits => .ok (some .circuits)
  | .clearCache => .ok (some .clearCache)
  | .createArtifact body =>
    .ok (some (.createArtifact body.kind body.name body.version body.content))
  | .createRelease body => .ok (some (.createRelease body))
  | .startCanary releaseId body =>
    .ok (some (.startCanary releaseId body.datasetName body.datasetVersion))
  | .promote releaseId => .ok (some (.promote releaseId))
  | .rollback releaseId body => .ok (some (.rollback releaseId body.reason))
  | .assess releaseId => .ok (some (.assess releaseId))
  | .runEvaluation body =>
    .ok (some (.runEvaluation body.datasetName body.datasetVersion body.routeId))
  | .metricSummary routeId releaseId canary => .ok (some (.metricSummary releaseId routeId canary))
  | .live | .ready | .prometheus | .routes | .providerHealth | .listArtifacts _ | .listReleases
  | .listEvaluations | .recentMetrics _ => .ok none

end Endpoint

/-! ## The credential -/

structure ApiSettings where
  adminToken : String := "development-only"
  enableConsole : Bool := true

def isAscii (text : String) : Bool := text.toList.all fun c => c.toNat < 128

/-- `removeprefix("Bearer ")`. -/
def removeBearer (text : String) : String :=
  if "Bearer ".toList <+: text.toList then String.ofList (text.toList.drop 7) else text

def invalidCredential : HandlerExc := .http 401 "invalid control-plane credential"

/-- `require_admin`. `compare_digest` takes no text with a character beyond ASCII. -/
def requireAdmin (adminToken : String) (authorization : Option String) : Except HandlerExc Unit :=
  let presented := match authorization with
    | some text => removeBearer text
    | none => ""
  if ¬ (isAscii presented ∧ isAscii adminToken) then .error (.raised (.other "TypeError"))
  else if presented = adminToken then .ok () else .error invalidCredential

theorem removeBearer_eq {text token : String} (h : removeBearer text = token) :
    text = token ∨ text = "Bearer " ++ token := by
  unfold removeBearer at h
  split_ifs at h with hbearer
  · right
    obtain ⟨rest, hrest⟩ := hbearer
    have hdrop : ("Bearer ".toList ++ rest).drop 7 = rest := List.drop_left' (by decide)
    rw [← hrest, hdrop] at h
    rw [← h, ← String.toList_inj, ← hrest]
    simp
  · exact .inl h

/-- Only the token gets past, alone or behind `Bearer `. -/
theorem requireAdmin_ok {adminToken : String} {authorization : Option String}
    (h : requireAdmin adminToken authorization = .ok ()) :
    authorization.getD "" = adminToken ∨ authorization = some ("Bearer " ++ adminToken) := by
  unfold requireAdmin at h
  dsimp only at h
  split_ifs at h with hascii hpresented
  cases authorization with
  | none => exact .inl hpresented
  | some text => exact (removeBearer_eq hpresented).imp_right (congrArg some)

structure HttpRequest where
  endpoint : Endpoint
  authorization : Option String := none

def HttpRequest.serve (P : Platform) (isPrintable : Char → Bool) (api : ApiSettings)
    (q : HttpRequest) : Except HandlerExc (Option Call) := do
  if q.endpoint.admin then requireAdmin api.adminToken q.authorization
  q.endpoint.handle P isPrintable api.enableConsole

def HttpRequest.Unauthorized (api : ApiSettings) (q : HttpRequest) : Prop :=
  requireAdmin api.adminToken q.authorization ≠ .ok ()

namespace Service

variable {svc : Service}

/-! ## Calls from outside -/

def outer : Call → Bool
  | .generate _ _ | .stream _ _ | .shadow _ _ _ | .assess _ => true
  | _ => false

/-- Each call that begins has been asked for without the token. -/
def Outside (svc : Service) (isPrintable : Char → Bool) (api : ApiSettings) (_ : State)
    (m : Move Input Call) : Prop :=
  ∀ call, m = .start call → ∃ q : HttpRequest, q.Unauthorized api ∧
    q.serve svc.platform isPrintable api = .ok (some call)

section Serve

variable {P : Platform} {isPrintable : Char → Bool} {api : ApiSettings} {q : HttpRequest}
  {call : Call}

theorem openaiCompat_serves {tenant id : String} {body : OpenAICompatRequest}
    (h : openaiCompat P isPrintable tenant body id = .ok call) :
    ∃ request, call = .stream request body.forcedRoute ∨ call = .generate request body.forcedRoute := by
  cases hschema : compatSchema P isPrintable body.responseFormat with
  | error e =>
    rw [openaiCompat_error hschema] at h
    cases h
  | ok schema =>
    rw [openaiCompat_of_schema hschema] at h
    cases hvalid : (compatRequest tenant body id schema).validate with
    | error e =>
      rw [hvalid] at h
      cases h
    | ok request =>
      rw [hvalid] at h
      simp only [Except.mapError, Except.bind] at h
      split_ifs at h <;> cases h
      · exact ⟨request, .inl rfl⟩
      · exact ⟨request, .inr rfl⟩

theorem handle_serves {endpoint : Endpoint} {enableConsole : Bool} (hopen : endpoint.admin = false)
    (h : endpoint.handle P isPrintable enableConsole = .ok (some call)) :
    ∃ request forced, call = .stream request forced ∨ call = .generate request forced := by
  cases endpoint with
  | generate body =>
    simp only [Endpoint.handle] at h
    split_ifs at h <;> cases h
    · exact ⟨body, none, .inl rfl⟩
    · exact ⟨body, none, .inr rfl⟩
  | openaiCompat tenant body id =>
    simp only [Endpoint.handle] at h
    cases hcompat : openaiCompat P isPrintable tenant body id with
    | error e =>
      rw [hcompat] at h
      cases h
    | ok made =>
      rw [hcompat] at h
      cases h
      obtain ⟨request, hmade⟩ := openaiCompat_serves hcompat
      exact ⟨request, body.forcedRoute, hmade⟩
  | console =>
    simp only [Endpoint.handle] at h
    split_ifs at h
    cases h
  | live | ready | prometheus => cases h
  | _ => cases hopen

theorem serve_unauthorized (hq : q.Unauthorized api) (h : q.serve P isPrintable api = .ok (some call)) :
    ∃ request forced, call = .stream request forced ∨ call = .generate request forced := by
  unfold HttpRequest.serve at h
  cases hadmin : q.endpoint.admin with
  | false =>
    rw [hadmin] at h
    exact handle_serves hadmin h
  | true =>
    rw [hadmin] at h
    cases hrequire : requireAdmin api.adminToken q.authorization with
    | ok u => exact absurd hrequire hq
    | error e =>
      rw [hrequire] at h
      cases h

end Serve

/-! ## What they do -/

def answering : Call → Bool
  | .assess _ => false
  | call => outer call

/-- All but to add to the registries, and to start other calls. Assessments alone write states. -/
def tame (call : Call) : Op → Bool
  | .putArtifact _ _ _ _ | .createRelease _ | .putEvaluation _ => false
  | .setState _ _ => !answering call
  | .createTask call' => outer call'
  | _ => true

section Tame

variable {call : Call}

theorem outer_of_launches {x : Exchange} (h : Launches x call) : outer call = true := by
  cases h <;> rfl

theorem tame_of_concerns {x : Exchange} {e : GatewayEvent} (h : Concerns x e)
    (hserving : serving e.1 = true) : tame call e.1 = true := by
  rcases e with ⟨o, a⟩
  cases o with
  | createTask call' => exact outer_of_launches (h.task call' rfl)
  | putArtifact | createRelease | putEvaluation | setState => cases hserving
  | _ => rfl

theorem tame_of_preliminary {o : Op} (h : preliminary o = true) : tame call o = true := by
  cases o <;> first | rfl | cases h

theorem OneExchange.tame {args : Arguments} {tr : GatewayTrace} (h : svc.OneExchange args tr)
    (hserving : ∀ e ∈ tr, serving e.1 = true) : ∀ e ∈ tr, Service.tame call e.1 = true := by
  rcases h with hp | ⟨tr₀, tr₁, x, rfl, hb, hx⟩
  · exact fun e he => tame_of_preliminary (hp e he)
  · refine List.forall_mem_append.mpr ⟨fun e he => tame_of_preliminary (hb.preliminary e he), ?_⟩
    exact fun e he => tame_of_concerns (hx e he) (hserving e (List.mem_append_right _ he))

theorem generate_tame (args : Arguments) :
    (svc.generate args).Emits fun e => tame call e.1 = true :=
  ((generate_oneExchange args).and (generate_serving args)).mono fun _ _ h => h.1.tame h.2

theorem AssessRun.tame {id : String} {tr : GatewayTrace} {out : Except PyExc RollbackDecision}
    (h : AssessRun id tr out) : ∀ e ∈ tr, Service.tame (.assess id) e.1 = true := by
  cases h <;> simp [assessed, Service.tame, answering]

theorem body_tame (hcall : outer call = true) :
    (svc.body call).Emits fun e => tame call e.1 = true := by
  cases call with
  | generate q forced | shadow q routeId releaseId => exact Prog.leaves_map (generate_tame _) _
  | stream q forced =>
    refine Prog.leaves_map ?_ _
    exact ((stream_oneExchange q forced).and (stream_serving q forced)).mono fun _ _ h =>
      h.1.tame h.2
  | assess id => exact Prog.leaves_map ((assess_runs id).mono fun _ _ h => h.tame) _
  | _ => cases hcall

end Tame

theorem setState_registries (now : Int) (db : Database) (id : String) (state : ReleaseState) :
    (Database.setState now db id state).2.artifacts = db.artifacts ∧
      (Database.setState now db id state).2.evaluationRuns = db.evaluationRuns := by
  unfold Database.setState
  split <;> exact ⟨rfl, rfl⟩

theorem exec_tame {call : Call} {w w' : World} {o : Op} {x : Input} {a : Ans o}
    (ho : tame call o = true) (h : svc.exec w o x = some (a, w')) :
    w'.database.artifacts = w.database.artifacts ∧
      w'.database.evaluationRuns = w.database.evaluationRuns := by
  unfold exec at h
  split at h <;> cases h
  all_goals first
    | exact ⟨rfl, rfl⟩
    | exact setState_registries ..
    | cases ho

/-! ## What is kept -/

/-- A task begun since `c₀` has read rows on which the release breaches its own thresholds. -/
def Indicted (c₀ c : State) (r : Release) : Prop :=
  ∃ i ms, c₀.tasks.length ≤ i ∧
    (i, ev (.metrics (some r.id) none (some true) 100000) ms) ∈ c.log ∧ Breached r ms

/-- The release is as it was, or it was a candidate and its own rows have rolled it back. -/
def Declined (c₀ c : State) (r₀ r : Release) : Prop :=
  r = r₀ ∨ r₀.state = .candidate ∧ r.state = .rolledBack ∧ r.fixed = r₀.fixed ∧ Indicted c₀ c r₀

/-- Nothing of the control plane is under way, and no assessment. -/
def Settled (c : State) : Prop :=
  ∀ t ∈ c.tasks, t.rest.ended = true ∨ answering t.call = true

def Outsiders (c₀ c : State) : Prop :=
  ∀ i t, c.tasks[i]? = some t → if c₀.tasks.length ≤ i then outer t.call = true
    else t.rest.ended = true ∨ answering t.call = true

structure Withheld (c₀ c : State) : Prop where
  tasks : Outsiders c₀ c
  grown : c₀.tasks.length ≤ c.tasks.length
  artifacts : c.world.database.artifacts = c₀.world.database.artifacts
  evaluationRuns : c.world.database.evaluationRuns = c₀.world.database.evaluationRuns
  fixed : (table c).map (·.fixed) = (table c₀).map (·.fixed)
  declined : ∀ r₀ ∈ table c₀, ∀ r ∈ table c, r.id = r₀.id → Declined c₀ c r₀ r
  /-- What has been read as a candidate was one from the start. -/
  reads : ∀ i id r, c₀.tasks.length ≤ i → (i, ev (.getRelease id) (.ok r)) ∈ c.log →
    r.state = .candidate → ∃ r₀ ∈ table c₀, r₀.id = r.id ∧ r₀.state = .candidate

section Step

variable {c₀ c c' : State}

theorem Indicted.mono {r : Release} (h : Indicted c₀ c r) (hlog : ∀ e ∈ c.log, e ∈ c'.log) :
    Indicted c₀ c' r := by
  obtain ⟨i, ms, hi, hread, hb⟩ := h
  exact ⟨i, ms, hi, hlog _ hread, hb⟩

theorem Declined.mono {r₀ r : Release} (h : Declined c₀ c r₀ r) (hlog : ∀ e ∈ c.log, e ∈ c'.log) :
    Declined c₀ c' r₀ r :=
  h.imp_right fun ⟨hcandidate, hback, hfixed, hindicted⟩ =>
    ⟨hcandidate, hback, hfixed, hindicted.mono hlog⟩

theorem breached_of_fixed {r r' : Release} {ms : List RequestMetric} (h : r.fixed = r'.fixed)
    (hb : Breached r ms) : Breached r' ms := by
  have hfixed : Breached r.fixed ms := hb
  rw [h] at hfixed
  exact hfixed

theorem id_of_fixed {r r' : Release} (h : r.fixed = r'.fixed) : r.id = r'.id := by
  have hid : r.fixed.id = r'.fixed.id := by rw [h]
  exact hid

theorem Withheld.origin (h : Withheld c₀ c) {r : Release} (hr : r ∈ table c) :
    ∃ r₀ ∈ table c₀, r₀.id = r.id ∧ r₀.fixed = r.fixed ∧ Declined c₀ c r₀ r := by
  have hmem : r.fixed ∈ (table c₀).map (·.fixed) := h.fixed ▸ List.mem_map_of_mem hr
  obtain ⟨r₀, hr₀, hfixed⟩ := List.mem_map.mp hmem
  have hid := id_of_fixed hfixed
  exact ⟨r₀, hr₀, hid, hfixed, h.declined r₀ hr₀ r hr hid.symm⟩

theorem outer_of_held (h : Outsiders c₀ c) {i : Nat} {call : Call} {o : Op}
    {k : Ans o → GatewayM Outcome} (ht : c.tasks[i]? = some ⟨call, .op o k⟩) :
    outer call = true := by
  have hheld := h i _ ht
  split_ifs at hheld
  · exact hheld
  · rcases hheld with hended | hanswers
    · cases hended
    · cases call <;> first | rfl | exact hanswers

theorem young (h : Outsiders c₀ c) {i : Nat} {id : String} {o : Op} {k : Ans o → GatewayM Outcome}
    (ht : c.tasks[i]? = some ⟨.assess id, .op o k⟩) : c₀.tasks.length ≤ i := by
  have hheld := h i _ ht
  split_ifs at hheld with hi
  · exact hi
  · rcases hheld with hended | hanswers
    · cases hended
    · cases hanswers

theorem tame_of_task (h : svc.machine.Reachable initial c) (hout : Outsiders c₀ c) {i : Nat}
    {call : Call} {o : Op} {k : Ans o → GatewayM Outcome}
    (ht : c.tasks[i]? = some ⟨call, .op o k⟩) : tame call o = true := by
  obtain ⟨a⟩ := ansNonempty o
  have hsteps := Prog.steps_snoc (h.onTheWay.2 i _ ht) a
  exact Prog.Emits.steps (body_tame (outer_of_held hout ht)) hsteps ⟨o, a⟩ (by simp)

variable {isPrintable : Char → Bool} {api : ApiSettings} {m : Move Input Call}

theorem outsiders_step (h : svc.machine.Reachable initial c) (hout : Outsiders c₀ c)
    (hgrown : c₀.tasks.length ≤ c.tasks.length) (hok : svc.Outside isPrintable api c m)
    (hs : svc.machine.step? c m = some c') : Outsiders c₀ c' := by
  intro j t ht
  rcases Machine.task_origin hs ht with ⟨t₀, ht₀, hcall, hended⟩ | ⟨hj, hnew⟩
  · have hheld := hout j t₀ ht₀
    split_ifs at hheld ⊢
    · rw [hcall]
      exact hheld
    · rw [hcall]
      exact hheld.imp_left fun h => by rwa [hended h]
  · rw [if_pos (hgrown.trans hj)]
    rcases hnew with hstart | ⟨i, x, call, o, k, -, hi, hspawn⟩
    · obtain ⟨q, hq, hserve⟩ := hok _ hstart
      obtain ⟨request, forced, hcall | hcall⟩ := serve_unauthorized hq hserve <;>
        rw [hcall] <;> rfl
    · have htame := tame_of_task h hout hi
      cases o with
      | createTask call' =>
        obtain rfl : t.call = call' := List.mem_singleton.mp hspawn
        exact htame
      | _ => cases hspawn

theorem Withheld.reads_of (h : Withheld c₀ c) {i : Nat} {id : String} {r : Release}
    (hi : c₀.tasks.length ≤ i)
    (hread : (i, ev (.getRelease id) (.ok r)) ∈ c.log ∨ r ∈ table c) (hstate : r.state = .candidate) :
    ∃ r₀ ∈ table c₀, r₀.id = r.id ∧ r₀.state = .candidate := by
  rcases hread with hread | hr
  · exact h.reads i id r hi hread hstate
  · obtain ⟨r₀, hr₀, hid, -, rfl | ⟨hcandidate, -⟩⟩ := h.origin hr
    · exact ⟨r, hr₀, rfl, hstate⟩
    · exact ⟨r₀, hr₀, hid, hcandidate⟩

theorem Withheld.keep (h : Withheld c₀ c) (htasks : Outsiders c₀ c')
    (hgrown : c₀.tasks.length ≤ c'.tasks.length)
    (hdatabase : c'.world.database.artifacts = c.world.database.artifacts ∧
      c'.world.database.evaluationRuns = c.world.database.evaluationRuns)
    (htable : table c' = table c) (hlog : ∀ e ∈ c.log, e ∈ c'.log)
    (hnew : ∀ i id r, (i, ev (.getRelease id) (.ok r)) ∈ c'.log →
      (i, ev (.getRelease id) (.ok r)) ∈ c.log ∨ r ∈ table c) : Withheld c₀ c' where
  tasks := htasks
  grown := hgrown
  artifacts := hdatabase.1.trans h.artifacts
  evaluationRuns := hdatabase.2.trans h.evaluationRuns
  fixed := htable ▸ h.fixed
  declined r₀ hr₀ r hr hid := (h.declined r₀ hr₀ r (htable ▸ hr) hid).mono hlog
  reads i id r hi hread := h.reads_of hi (hnew i id r hread)

theorem Withheld.written (h₀ : svc.machine.Reachable initial c₀) (hc : svc.machine.Reachable initial c)
    (h : Withheld c₀ c) {i : Nat} {call : Call} {id : String} {state : ReleaseState}
    {k : Ans (.setState id state) → GatewayM Outcome}
    (ht : c.tasks[i]? = some ⟨call, .op (.setState id state) k⟩) {current : Release}
    (hget : c.world.database.getRelease id = .ok current) :
    state = .rolledBack ∧ ∃ r₀ ∈ table c₀, r₀.id = current.id ∧ r₀.state = .candidate ∧
      Indicted c₀ c r₀ := by
  obtain ⟨id', rfl⟩ : ∃ id', call = .assess id' := by
    have houter := outer_of_held h.tasks ht
    have htame := tame_of_task hc h.tasks ht
    cases call with
    | assess id' => exact ⟨id', rfl⟩
    | generate | stream | shadow => cases htame
    | _ => cases houter
  obtain ⟨hid, hstate, r, ms, t, pre, mid, hr, hb, htrace, hlog⟩ := writing hc ht
  have hi := young h.tasks ht
  have hread : (i, ev (.getRelease id') (.ok r)) ∈ c.log := by simp [hlog]
  have hrows : (i, ev (.metrics (some r.id) none (some true) 100000) ms) ∈ c.log :=
    Pool.mem_trace.mp (by simp [htrace, assessed])
  obtain ⟨r₀, hr₀, hid₀, hcandidate⟩ := h.reads i id' r hi hread hr
  obtain ⟨hrid, r₁, hr₁, hfixed₁⟩ := known_of_reach hc hread
  obtain ⟨r₂, hr₂, hid₂, hfixed₂, -⟩ := h.origin hr₁
  obtain rfl := (keyed_of_reach h₀).eq_of_id hr₂ hr₀ (by rw [hid₂, id_of_fixed hfixed₁, hid₀])
  obtain ⟨-, hcurrent⟩ := Database.mem_of_getRelease hget
  refine ⟨hstate, r₂, hr₂, ?_, hcandidate, i, ms, hi, ?_, ?_⟩
  · rw [hid₀, hrid, hcurrent, hid]
  · rwa [hid₀]
  · exact breached_of_fixed (hfixed₂.trans hfixed₁).symm hb

theorem Declined.restated {r₀ r current : Release} (now : Int) (h : Declined c₀ c r₀ r)
    (hfixed : r.fixed = r₀.fixed)
    (hcurrent : r.id = current.id → r₀.state = .candidate ∧ Indicted c₀ c r₀) :
    Declined c₀ c r₀ (restated now current .rolledBack r) := by
  by_cases hid : r.id = current.id
  · obtain ⟨hcandidate, hindicted⟩ := hcurrent hid
    refine .inr ⟨hcandidate, ?_, (restated_fixed ..).trans hfixed, hindicted⟩
    rw [restated_self now _ hid]
  · rcases restated_other now .rolledBack hid with hsame | ⟨hactive, -⟩
    · rwa [hsame]
    · cases hactive

theorem Withheld.step (h₀ : svc.machine.Reachable initial c₀) (hc : svc.machine.Reachable initial c)
    (h : Withheld c₀ c) (hok : svc.Outside isPrintable api c m)
    (hs : svc.machine.step? c m = some c') : Withheld c₀ c' := by
  have htasks := outsiders_step hc h.tasks h.grown hok hs
  have hgrown : c₀.tasks.length ≤ c'.tasks.length := by
    have hcalls := (Machine.calls_step hs).length_le
    simp only [List.length_map] at hcalls
    exact h.grown.trans hcalls
  rcases step_releases hs with ⟨hm, htable, hlog⟩ | ⟨i, x, call, o, k, a, rfl, ht, hlog, hexec, hstep⟩
  · -- A call begins, or time passes.
    refine h.keep htasks hgrown ?_ htable (fun e he => hlog ▸ he) fun i id r he => .inl (hlog ▸ he)
    cases m with
    | start call =>
      cases hs
      exact ⟨rfl, rfl⟩
    | drift x =>
      obtain ⟨w, hw, rfl⟩ := Option.map_eq_some_iff.mp hs
      obtain ⟨clock, utc, -, rfl⟩ := drift_eq hw
      exact ⟨rfl, rfl⟩
    | run i x => exact absurd rfl (hm i x)
  have htame := tame_of_task hc h.tasks ht
  have hdatabase := exec_tame htame hexec
  have hmem : ∀ e ∈ c.log, e ∈ c'.log := fun e he => hlog ▸ List.mem_append_left _ he
  -- A release that is read was in the table.
  have hnew : ∀ j id r, (j, ev (.getRelease id) (.ok r)) ∈ c'.log →
      (j, ev (.getRelease id) (.ok r)) ∈ c.log ∨ r ∈ table c := by
    intro j id r hread
    rw [hlog] at hread
    rcases List.mem_append.mp hread with hread | hread
    · exact .inl hread
    · obtain ⟨rfl, hevent⟩ := Prod.mk.inj (List.mem_singleton.mp hread)
      cases hevent
      exact .inr (Database.mem_of_getRelease (exec_getRelease hexec).symm).1
  have hsame : table c' = table c → Withheld c₀ c' := fun htable =>
    h.keep htasks hgrown hdatabase htable hmem hnew
  generalize hrs : table c' = rs at hstep
  cases hstep with
  | other | taken | missing => exact hsame hrs
  | created => cases htame
  | @written id state current hget =>
    -- Only an assessment is left to write, and it has found the candidate in breach.
    obtain ⟨rfl, r₁, hr₁, hid₁, hcandidate, hindicted⟩ := h.written h₀ hc ht hget
    refine ⟨htasks, hgrown, hdatabase.1.trans h.artifacts, hdatabase.2.trans h.evaluationRuns, ?_,
      fun r₀ hr₀ r' hr' hid => ?_, fun j id r hj hread => h.reads_of hj (hnew j id r hread)⟩
    · rw [hrs, List.map_map, ← h.fixed]
      exact List.map_congr_left fun r _ => restated_fixed ..
    · rw [hrs] at hr'
      obtain ⟨r, hr, rfl⟩ := List.mem_map.mp hr'
      rw [restated_id] at hid
      obtain ⟨r₂, hr₂, hid₂, hfixed₂, -⟩ := h.origin hr
      obtain rfl := (keyed_of_reach h₀).eq_of_id hr₂ hr₀ (hid₂.trans hid)
      refine ((h.declined r₂ hr₀ r hr hid).restated c.world.utc hfixed₂.symm fun hcur => ?_).mono hmem
      obtain rfl := (keyed_of_reach h₀).eq_of_id hr₁ hr₂ (hid₁.trans (hcur.symm.trans hid))
      exact ⟨hcandidate, hindicted⟩

end Step

/-- Only the token gets past the boundary. In every run without it, from a state in which nothing
of the control plane is under way, no artifact and no evaluation is added, and the releases stay
what they are, but for candidates that their own rows have rolled back. -/
theorem boundary_kept (isPrintable : Char → Bool) (api : ApiSettings) :
    (∀ authorization, requireAdmin api.adminToken authorization = .ok () →
      authorization.getD "" = api.adminToken ∨
        authorization = some ("Bearer " ++ api.adminToken)) ∧
    ∀ c₀ c, svc.machine.Reachable initial c₀ → Settled c₀ →
      svc.machine.Reach (svc.Outside isPrintable api) c₀ c →
      (∀ i t, c₀.tasks.length ≤ i → c.tasks[i]? = some t → outer t.call = true) ∧
      c.world.database.artifacts = c₀.world.database.artifacts ∧
      c.world.database.evaluationRuns = c₀.world.database.evaluationRuns ∧
      (table c).map (·.fixed) = (table c₀).map (·.fixed) ∧
      ∀ r₀ ∈ table c₀, ∀ r ∈ table c, r.id = r₀.id → Declined c₀ c r₀ r := by
  refine ⟨fun _ => requireAdmin_ok, fun c₀ c h₀ hsettled h => ?_⟩
  have hstart : Withheld c₀ c₀ :=
    { tasks := fun i t ht => by
        rw [if_neg (not_le.mpr (List.getElem?_eq_some_iff.mp ht).1)]
        exact hsettled t (List.mem_of_getElem? ht)
      grown := le_rfl
      artifacts := rfl
      evaluationRuns := rfl
      fixed := rfl
      declined := fun r₀ hr₀ r hr hid => .inl ((keyed_of_reach h₀).eq_of_id hr hr₀ hid)
      reads := fun i id r hi hread => by
        obtain ⟨t, ht⟩ := h₀.task_of_mem hread
        exact absurd (List.getElem?_eq_some_iff.mp ht).1 (not_lt.mpr hi) }
  have hkept := h.invariant (Withheld c₀) hstart fun c m c' hreach hkept hok hs =>
    hkept.step h₀ (h₀.trans hreach.weaken) hok hs
  refine ⟨fun i t hi ht => ?_, hkept.artifacts, hkept.evaluationRuns, hkept.fixed, hkept.declined⟩
  have hheld := hkept.tasks i t ht
  rwa [if_pos hi] at hheld

/-! A canary that fails under a client without any header. -/

/-- The move begins nothing, or what `/v1/generate` makes of a plain body. -/
def plainStart : Move Input Call → Bool
  | .start (.generate q none) => !q.stream
  | .start _ => false
  | _ => true

theorem outside_of_plainStart {api : ApiSettings} (hrefused : requireAdmin api.adminToken none ≠ .ok ())
    {isPrintable : Char → Bool} {c : State} {m : Move Input Call} (h : plainStart m = true) :
    svc.Outside isPrintable api c m := by
  rintro call rfl
  cases call with
  | generate q forced =>
    cases forced with
    | none =>
      refine ⟨⟨.generate q, none⟩, hrefused, ?_⟩
      have hstream : q.stream = false := by simpa [plainStart] using h
      simp [HttpRequest.serve, Endpoint.admin, Endpoint.handle, hstream]
    | some routeId => cases h
  | _ => cases h

theorem boundary_kept_breach : ∃ c₀ c : State, Sample.service.machine.Reachable initial c₀ ∧
    (table c₀).map (·.state) = [.candidate] ∧
    Sample.service.machine.Reach (Sample.service.Outside (fun _ => true) {}) c₀ c ∧
    (table c).map (·.state) = [.rolledBack] ∧
    (table c).map (·.fixed) = (table c₀).map (·.fixed) ∧
    ∀ r₀ ∈ table c₀, ∀ r ∈ table c, r.id = r₀.id → Indicted c₀ c r₀ := by
  obtain ⟨c₀, hm₀, c, hm, hbefore, hafter, hsettled⟩ :
      ∃ c₀ ∈ Sample.service.machine.moves? initial (breachMoves.take 2),
        ∃ c ∈ Sample.service.machine.movesUnder? (fun _ m => plainStart m) c₀
            (breachMoves.drop 2 ++ Sample.goes 2 3),
          (table c₀).map (·.state) = [.candidate] ∧ (table c).map (·.state) = [.rolledBack] ∧
            ∀ t ∈ c₀.tasks, t.rest.ended = true := by decide +kernel
  have h₀ := Machine.reachable_of_moves _ .start hm₀
  have hrefused : requireAdmin ({} : ApiSettings).adminToken none ≠ .ok () := by decide
  have h : Sample.service.machine.Reach (Sample.service.Outside (fun _ => true) {}) c₀ c :=
    Machine.reach_of_movesUnder (fun _ _ => outside_of_plainStart hrefused) _ .start hm
  obtain ⟨-, -, -, hfixed, hdeclined⟩ := (@boundary_kept Sample.service (fun _ => true) {}).2
    c₀ c h₀ (fun t ht => .inl (hsettled t ht)) h
  refine ⟨c₀, c, h₀, hbefore, h, hafter, hfixed, fun r₀ hr₀ r hr hid => ?_⟩
  rcases hdeclined r₀ hr₀ r hr hid with rfl | ⟨-, -, -, hindicted⟩
  · have hcandidate : r.state ∈ (table c₀).map (·.state) := List.mem_map_of_mem hr₀
    have hback : r.state ∈ (table c).map (·.state) := List.mem_map_of_mem hr
    rw [hbefore, List.mem_singleton] at hcandidate
    rw [hafter, List.mem_singleton, hcandidate] at hback
    cases hback
  · exact hindicted

end Service

end AegisGateway
