import AegisGateway.Canary

/-!
# One result for each case

An evaluation stands on what `generate` does with the cases, which may be anything. A case
that the data set accepts may still be one that no request can be made of.
-/

open Coroutine JsonText

namespace AegisGateway

/-! ## Scores -/

/-- The answer passes every check of the case, and is not empty if there is none. -/
def Platform.Meets (P : Platform) (case : EvaluationCase) (response : GatewayResponse) : Prop :=
  (∀ text ∈ case.expectedText, P.normalize response.text = P.normalize text) ∧
  (∀ fragment ∈ case.expectedContains,
    P.normalize fragment <:+: P.normalize response.text) ∧
  (case.expectedText = none → case.expectedContains = [] → P.normalize response.text ≠ [])

theorem share_full {xs : List Bool} (hne : xs ≠ []) :
    1 ≤ (share id xs).getD 0 ↔ ∀ x ∈ xs, x = true := by
  have hpos : (0 : ℚ) < xs.length := by
    rw [Nat.cast_pos]
    exact List.length_pos_iff.mpr hne
  have hall : xs.countP id = xs.length ↔ ∀ x ∈ xs, x = true := List.countP_eq_length
  rw [share, if_neg hne, Option.getD_some, one_le_div hpos, Nat.cast_le, ← hall]
  exact ⟨fun h => le_antisymm List.countP_le_length h, fun h => h.ge⟩

theorem quality_full {P : Platform} {case : EvaluationCase} {response : GatewayResponse} :
    1 ≤ P.quality case response ↔ P.Meets case response := by
  unfold Platform.quality Platform.Meets
  dsimp only
  split_ifs with hchecks
  · -- Without checks there is the one on the text itself.
    rw [share_full (by simp)]
    obtain ⟨htext, hcontains⟩ := List.append_eq_nil_iff.mp hchecks
    have htext : case.expectedText = none := by
      cases h : case.expectedText with
      | none => rfl
      | some t =>
        rw [h] at htext
        cases htext
    have hcontains : case.expectedContains = [] := List.map_eq_nil_iff.mp hcontains
    simp [htext, hcontains]
  · rw [share_full hchecks]
    cases htext : case.expectedText with
    | none =>
      have hcontains : case.expectedContains ≠ [] := by
        rintro h
        rw [htext, h] at hchecks
        exact hchecks rfl
      simp [hcontains]
    | some t => simp

/-! ## The runner -/

/-- `uuid4` gives a text of 36 characters. -/
def UuidText (e : GatewayEvent) : Prop := ∀ id, e = ev .uuid4 id → id.length = 36

def zeroUuid : String := "00000000-0000-0000-0000-000000000000"

theorem zeroUuid_length : zeroUuid.length = 36 := by decide +kernel

theorem uuidText_uuid4 {id : String} (hid : id.length = 36) : UuidText (ev .uuid4 id) := by
  rintro _ ⟨⟩
  exact hid

theorem uuidText_possible : ∀ o, ∃ a, UuidText ⟨o, a⟩ := by
  intro o
  by_cases ho : o = .uuid4
  · subst ho
    exact ⟨zeroUuid, uuidText_uuid4 zeroUuid_length⟩
  · refine ⟨Classical.arbitrary (Ans o), fun id h => ?_⟩
    exact absurd (congrArg Sigma.fst h) ho

/-- What `GatewayRequest` asks of the messages. -/
def Sendable (case : EvaluationCase) : Prop :=
  1 ≤ case.messages.length ∧ case.messages.length ≤ 256

theorem evaluationRequest_ok_iff {case : EvaluationCase} {id : String}
    (hmessages : case.messages.all Message.fieldsValid = true) (hid : id.length = 36) :
    (∃ q, evaluationRequest case id = .ok q) ↔ Sendable case := by
  have hname : lengthWithin 8 128 s!"eval-{id}" = true := by
    have hlength : (s!"eval-{id}").length = 41 := by
      simp [toString, String.length_append, hid]
      rfl
    simp [lengthWithin, hlength]
  have htenant : lengthWithin 1 128 "offline-evaluation" = true ∧
      "offline-evaluation".toList.all isIdChar = true ∧
        "gateway_response".toList.all isSchemaNameChar = true := by decide +kernel
  rw [evaluationRequest, GatewayRequest.validate]
  constructor
  · rintro ⟨q, hq⟩
    split_ifs at hq with hvalid
    simp only [GatewayRequest.fieldsValid, Bool.and_eq_true, decide_eq_true_eq] at hvalid
    tauto
  · rintro ⟨hlow, hhigh⟩
    refine ⟨_, if_pos ?_⟩
    have hschema : 1 ≤ "gateway_response".length := by decide
    simp only [GatewayRequest.fieldsValid, Bool.and_eq_true, decide_eq_true_eq, hname, htenant,
      hlow, hhigh, hmessages, hschema, Option.all_none, true_and, and_true]
    norm_num

namespace Service

variable (svc : Service) (generate : GatewayRequest → GatewayM GatewayResponse)

/-- The loop over the cases, with any `generate`. -/
def runCasesBy (routeId : String) : List EvaluationCase → GatewayM (List EvaluationCaseResult)
  | [] => pure []
  | case :: cases => do
    let id ← perform .uuid4
    let request ← Prog.ofExcept (evaluationRequest case id)
    let outcome ← (generate request).attempt
    let result ← svc.caseOutcome case routeId outcome
    let results ← runCasesBy routeId cases
    pure (result :: results)

/-- What `runEvaluationBy` does once it has its data set. -/
def finishBy (artifact : Artifact) (routeId : String) : GatewayM EvaluationRun := do
  let cases ← Prog.ofExcept (svc.platform.datasetCases artifact.content)
  let results ← svc.runCasesBy generate routeId cases
  let id ← perform .uuid4
  let createdAt ← perform .datetimeNow
  let run := evaluationRun artifact routeId id results createdAt
  perform (.putEvaluation run)
  pure run

def runEvaluationBy (datasetName : String) (datasetVersion : Option String) (routeId : String) :
    GatewayM EvaluationRun := do
  let artifact ← getArtifact .dataset datasetName datasetVersion
  svc.finishBy generate artifact routeId

theorem runCasesBy_generate (routeId : String) (cases : List EvaluationCase) :
    svc.runCasesBy (fun request =>
      svc.generate { request, forcedRouteId := some routeId, evaluation := true }) routeId cases =
        svc.runCases routeId cases := by
  induction cases with
  | nil => rfl
  | cons case cases ih => rw [runCasesBy, runCases, ih]

/-- The gateway's runner is the one with the gateway's own `generate`. -/
theorem runEvaluationBy_generate (datasetName : String) (datasetVersion : Option String)
    (routeId : String) : svc.runEvaluationBy (fun request =>
      svc.generate { request, forcedRouteId := some routeId, evaluation := true })
        datasetName datasetVersion routeId =
          svc.runEvaluation datasetName datasetVersion routeId := by
  simp only [runEvaluationBy, finishBy, runEvaluation, runCasesBy_generate]

/-! ## What a case comes to -/

def Caught (outcome : Except PyExc GatewayResponse) : Prop :=
  ∀ e, outcome = .error e → e.isException = true

/-- Whatever `generate` does with the case, the loop can go on. -/
def Catchable (case : EvaluationCase) : Prop :=
  ∀ id q tr outcome, id.length = 36 → evaluationRequest case id = .ok q →
    Prog.Run (generate q) tr outcome → (∀ e ∈ tr, UuidText e) → Caught outcome

structure Judged (P : Platform) (routeId : String) (case : EvaluationCase)
    (outcome : Except PyExc GatewayResponse) (result : EvaluationCaseResult) : Prop where
  caseId : result.caseId = case.id
  routeId : result.routeId = routeId
  passed : result.passed = true ↔ ∃ response, outcome = .ok response ∧
    P.Meets case response ∧ response.schemaValid ≠ some false
  error : ∀ e, outcome = .error e → result.error = some e.className

/-- The cases have been answered one after the other, and each result is the one of its case. -/
inductive Diagnosed (routeId : String) :
    List EvaluationCase → GatewayTrace → List EvaluationCaseResult → Prop
  | nil : Diagnosed routeId [] [] []
  | cons {case : EvaluationCase} {cases : List EvaluationCase} {id : String} {q : GatewayRequest}
      {tr tr' : GatewayTrace} {outcome : Except PyExc GatewayResponse}
      {result : EvaluationCaseResult} {results : List EvaluationCaseResult}
      (hq : evaluationRequest case id = .ok q) (hrun : Prog.Run (generate q) tr outcome)
      (hresult : Judged svc.platform routeId case outcome result)
      (hrest : Diagnosed routeId cases tr' results) :
      Diagnosed routeId (case :: cases) (ev .uuid4 id :: (tr ++ tr')) (result :: results)

variable {svc generate} {routeId : String}

theorem Diagnosed.caseIds {cases : List EvaluationCase} {tr : GatewayTrace}
    {results : List EvaluationCaseResult} (h : Diagnosed svc generate routeId cases tr results) :
    results.map (·.caseId) = cases.map (·.id) := by
  induction h with
  | nil => rfl
  | cons _ _ hresult _ ih => rw [List.map_cons, List.map_cons, ih, hresult.caseId]

theorem caseOutcome_caught {case : EvaluationCase} {outcome : Except PyExc GatewayResponse}
    (h : Caught outcome) : ∃ result, svc.caseOutcome case routeId outcome = pure result ∧
      Judged svc.platform routeId case outcome result := by
  cases outcome with
  | ok response =>
    refine ⟨caseResult svc.platform case routeId response, rfl, rfl, rfl, ?_, by simp⟩
    simp [caseResult, quality_full]
  | error e =>
    exact ⟨caseFailure case routeId e, if_pos (h e rfl), rfl, rfl, by simp [caseFailure],
      by simp [caseFailure]⟩

theorem caseOutcome_raised {case : EvaluationCase} {outcome : Except PyExc GatewayResponse}
    (h : ¬ Caught outcome) : ∃ e, svc.caseOutcome case routeId outcome = raise e := by
  rw [Caught] at h
  push Not at h
  obtain ⟨e, rfl, he⟩ := h
  exact ⟨e, if_neg he⟩

/-! ## A whole run -/

theorem allRuns_runCasesBy_cons {case : EvaluationCase} {cases : List EvaluationCase}
    {Post : GatewayTrace → Except PyExc (List EvaluationCaseResult) → Prop} :
    (svc.runCasesBy generate routeId (case :: cases)).AllRuns Post ↔ ∀ id,
      (∀ e, evaluationRequest case id = .error e → Post [ev .uuid4 id] (.error e)) ∧
      ∀ q, evaluationRequest case id = .ok q → ∀ tr outcome, Prog.Run (generate q) tr outcome →
        (∀ e, svc.caseOutcome case routeId outcome = raise e →
          Post (ev .uuid4 id :: tr) (.error e)) ∧
        ∀ result, svc.caseOutcome case routeId outcome = pure result →
          (svc.runCasesBy generate routeId cases).AllRuns fun tr' out =>
            Post (ev .uuid4 id :: (tr ++ tr')) (out.map (result :: ·)) := by
  rw [runCasesBy, Prog.allRuns_bind, Prog.allRuns_perform]
  refine forall_congr' fun id => ?_
  rw [Prog.then_ok, Prog.allRuns_bind, Prog.allRuns_ofExcept]
  cases evaluationRequest case id with
  | error e => simp
  | ok q =>
    simp only [reduceCtorEq, false_implies, implies_true, true_and, Except.ok.injEq, forall_eq',
      Prog.then_ok, Prog.allRuns_bind, Prog.allRuns_attempt]
    rw [Prog.allRuns_iff]
    refine forall_congr' fun tr => forall_congr' fun outcome => forall_congr' fun _ => ?_
    by_cases hcaught : Caught outcome
    · -- The loop makes a result of it and comes to the next case.
      obtain ⟨result, hresult, -⟩ := @caseOutcome_caught svc routeId case outcome hcaught
      rw [hresult]
      have hraise : ∀ e, (pure result : GatewayM EvaluationCaseResult) ≠ raise e := by
        intro e he
        cases he
      have hpure : ∀ r, (pure result : GatewayM EvaluationCaseResult) = pure r ↔ result = r := by
        intro r
        exact ⟨fun h => Prog.pure.inj h, fun h => congrArg _ h⟩
      simp only [Prog.then_ok, Prog.allRuns_bind, Prog.allRuns_pure, hraise, hpure,
        false_implies, implies_true, true_and, forall_eq']
      rw [← Prog.allRuns_bind, Prog.allRuns_map]
      rfl
    · -- Not even the loop catches it.
      obtain ⟨e, he⟩ := @caseOutcome_raised svc routeId case outcome hcaught
      rw [he]
      have hpure : ∀ r, (raise e : GatewayM EvaluationCaseResult) ≠ pure r := by
        intro r hr
        cases hr
      have hraise : ∀ e', (raise e : GatewayM EvaluationCaseResult) = raise e' ↔ e = e' := by
        intro e'
        exact ⟨fun h => Prog.throw.inj h, fun h => congrArg _ h⟩
      simp only [Prog.allRuns_throw, hraise, hpure, false_implies, implies_true, and_true,
        forall_eq', Prog.then_error, List.append_nil, List.nil_append, List.singleton_append]

section

variable {cases : List EvaluationCase}
  (hmessages : ∀ case ∈ cases, case.messages.all Message.fieldsValid = true)

include hmessages

theorem runCasesBy_ok (h : ∀ case ∈ cases, Sendable case ∧ Catchable generate case) :
    (svc.runCasesBy generate routeId cases).AllRuns fun tr out => (∀ e ∈ tr, UuidText e) →
      ∃ results, out = .ok results ∧ Diagnosed svc generate routeId cases tr results := by
  induction cases with
  | nil => exact fun _ => ⟨[], rfl, .nil⟩
  | cons case cases ih =>
    obtain ⟨hcase, hcases⟩ := List.forall_mem_cons.mp hmessages
    obtain ⟨⟨hsend, hcatch⟩, hrest⟩ := List.forall_mem_cons.mp h
    rw [allRuns_runCasesBy_cons]
    refine fun id => ⟨fun e he huuid => ?_, fun q hq tr outcome hrun => ⟨?_, ?_⟩⟩
    · obtain ⟨q, hq⟩ := (evaluationRequest_ok_iff hcase (huuid _ (by simp) id rfl)).mpr hsend
      rw [he] at hq
      cases hq
    · intro e he huuid
      obtain ⟨hid, htr⟩ := List.forall_mem_cons.mp huuid
      obtain ⟨result, hresult, -⟩ := @caseOutcome_caught svc routeId case outcome
        (hcatch id q tr outcome (hid id rfl) hq hrun htr)
      rw [he] at hresult
      cases hresult
    · intro result hresult
      apply (ih hcases hrest).mono
      intro tr' out hout huuid
      obtain ⟨hid, htrace⟩ := List.forall_mem_cons.mp huuid
      obtain ⟨htr, htr'⟩ := List.forall_mem_append.mp htrace
      obtain ⟨results, rfl, hdiagnosed⟩ := hout htr'
      obtain ⟨result', hresult', hjudged⟩ := @caseOutcome_caught svc routeId case outcome
        (hcatch id q tr outcome (hid id rfl) hq hrun htr)
      obtain rfl : result = result' := Prog.pure.inj (hresult.symm.trans hresult')
      exact ⟨result :: results, rfl, .cons hq hrun hjudged hdiagnosed⟩

theorem sendable_of_runCasesBy (h : (svc.runCasesBy generate routeId cases).AllRuns fun tr out =>
    (∀ e ∈ tr, UuidText e) → ∀ e, out ≠ .error e) :
    ∀ case ∈ cases, Sendable case ∧ Catchable generate case := by
  induction cases with
  | nil => simp
  | cons case cases ih =>
    obtain ⟨hcase, hcases⟩ := List.forall_mem_cons.mp hmessages
    rw [allRuns_runCasesBy_cons] at h
    have hid := zeroUuid_length
    -- The environment may answer the first case as it likes, and the loop comes to the others.
    obtain ⟨q, hq⟩ : ∃ q, evaluationRequest case zeroUuid = .ok q := by
      cases hrequest : evaluationRequest case zeroUuid with
      | error e =>
        exact absurd rfl ((h _).1 e hrequest (List.forall_mem_singleton.mpr (uuidText_uuid4 hid)) e)
      | ok q => exact ⟨q, rfl⟩
    have hcatch : Catchable generate case := by
      intro id q tr outcome hid hq hrun htr
      by_contra hcaught
      obtain ⟨e, he⟩ := @caseOutcome_raised svc routeId case outcome hcaught
      exact ((h id).2 q hq tr outcome hrun).1 e he
        (List.forall_mem_cons.mpr ⟨uuidText_uuid4 hid, htr⟩) e rfl
    obtain ⟨tr, outcome, hrun, htr⟩ := Prog.exists_run uuidText_possible (generate q)
    obtain ⟨result, hresult, -⟩ := @caseOutcome_caught svc routeId case outcome
      (hcatch _ q tr outcome hid hq hrun htr)
    have hrest := ((h _).2 q hq tr outcome hrun).2 result hresult
    refine List.forall_mem_cons.mpr ⟨⟨(evaluationRequest_ok_iff hcase hid).mp ⟨q, hq⟩, hcatch⟩,
      ih hcases (hrest.mono fun tr' out hout htr' e he => ?_)⟩
    rw [he] at hout
    exact hout (List.forall_mem_cons.mpr ⟨uuidText_uuid4 hid,
      List.forall_mem_append.mpr ⟨htr, htr'⟩⟩) e rfl

end

variable {datasetName : String} {datasetVersion : Option String} {artifact : Artifact}
  {cases : List EvaluationCase}

/-- What is left of an evaluation when its data set is there. -/
theorem run_dataset_iff (hcases : svc.platform.datasetCases artifact.content = .ok cases)
    {Post : GatewayTrace → Except PyExc EvaluationRun → Prop} :
    (∀ tr out, Prog.Run (svc.runEvaluationBy generate datasetName datasetVersion routeId)
      (ev (.getArtifact .dataset datasetName datasetVersion) (.ok artifact) :: tr) out →
        Post tr out) ↔
    (svc.runCasesBy generate routeId cases).AllRuns fun tr out =>
      (∀ e, out = .error e → Post tr (.error e)) ∧
      ∀ results, out = .ok results → ∀ id createdAt,
        let run := evaluationRun artifact routeId id results createdAt
        Post (tr ++ [ev .uuid4 id, ev .datetimeNow createdAt, ev (.putEvaluation run) ()])
          (.ok run) := by
  have hrest : ∀ tr out, Prog.Run (svc.runEvaluationBy generate datasetName datasetVersion routeId)
      (ev (.getArtifact .dataset datasetName datasetVersion) (.ok artifact) :: tr) out ↔
        Prog.Run (svc.finishBy generate artifact routeId) tr out := by
    intro tr out
    constructor
    · intro h
      cases h with
      | op _ _ _ h => exact h
    · intro h
      change Prog.Run (.op (.getArtifact .dataset datasetName datasetVersion) fun a =>
        (raising .artifactNotFound a).bind fun artifact =>
          svc.finishBy generate artifact routeId) _ _
      exact .op _ _ _ h
  simp only [hrest]
  rw [← Prog.allRuns_iff, finishBy, hcases, Prog.allRuns_bind, Prog.allRuns_ofExcept, Prog.then_ok,
    Prog.allRuns_bind, Prog.allRuns_iff, Prog.allRuns_iff]
  refine forall_congr' fun tr => forall_congr' fun out => forall_congr' fun _ => ?_
  cases out with
  | error e => simp
  | ok results =>
    simp only [Prog.then_ok, Prog.allRuns_bind, Prog.allRuns_perform, Prog.allRuns_pure,
      reduceCtorEq, false_implies, implies_true, true_and, Except.ok.injEq, forall_eq',
      List.singleton_append]
    exact ⟨fun h id createdAt => h id createdAt (), fun h id createdAt _ => h id createdAt⟩

/-- An evaluation completes, stores its run and has one result for each case, whatever `generate`
does, exactly if a request can be made of every case and nothing but an `Exception` is raised. -/
theorem one_result_per_case (svc : Service) (generate : GatewayRequest → GatewayM GatewayResponse)
    (datasetName : String) (datasetVersion : Option String) (routeId : String)
    {artifact : Artifact} {cases : List EvaluationCase}
    (hcases : svc.platform.datasetCases artifact.content = .ok cases)
    (hmessages : ∀ case ∈ cases, case.messages.all Message.fieldsValid = true) :
    (∀ tr out, Prog.Run (svc.runEvaluationBy generate datasetName datasetVersion routeId)
        (ev (.getArtifact .dataset datasetName datasetVersion) (.ok artifact) :: tr) out →
      (∀ e ∈ tr, UuidText e) → ∃ run mid id, out = .ok run ∧
        tr = mid ++ [ev .uuid4 id, ev .datetimeNow run.createdAt, ev (.putEvaluation run) ()] ∧
        run.results.map (·.caseId) = cases.map (·.id) ∧
        Diagnosed svc generate routeId cases mid run.results) ↔
    ∀ case ∈ cases, (1 ≤ case.messages.length ∧ case.messages.length ≤ 256) ∧
      Catchable generate case := by
  rw [run_dataset_iff hcases]
  constructor
  · intro h
    refine @sendable_of_runCasesBy svc generate routeId cases hmessages
      (h.mono fun tr out hpost huuid e he => ?_)
    obtain ⟨run, -, -, hout, -⟩ := hpost.1 e he huuid
    cases hout
  · intro h
    refine (@runCasesBy_ok svc generate routeId cases hmessages h).mono
      fun tr out hout => ⟨fun e he huuid => ?_, fun results hresults id createdAt huuid => ?_⟩
    · obtain ⟨results, hresults, -⟩ := hout huuid
      rw [he] at hresults
      cases hresults
    · obtain ⟨results', hresults', hdiagnosed⟩ := hout (List.forall_mem_append.mp huuid).1
      obtain rfl : results = results' := Except.ok.inj (hresults.symm.trans hresults')
      exact ⟨_, tr, id, rfl, rfl, hdiagnosed.caseIds, hdiagnosed⟩

def dataset (item : Json) : Artifact where
  kind := .dataset
  name := "golden"
  version := "1"
  content := [("cases", .arr [item])]
  contentHash := ""
  createdAt := 0

/-! Two cases, of which the first fails upstream. -/

def caseItem (id content : String) : Json :=
  .obj [("id", .str id),
    ("messages", .arr [.obj [("role", .str "user"), ("content", .str content)]])]

def caseOf (id content : String) : EvaluationCase := { id, messages := [⟨.user, content, none⟩] }

def twoCases : Artifact :=
  { dataset .null with
    content := [("cases", .arr [caseItem "case-1" "hello", caseItem "case-2" "good bye"])] }

def readingService : Service :=
  { Sample.service with
    platform := { Sample.platform with
      validateCase
        | .obj [(_, .str id), (_, .arr [.obj [_, (_, .str content)]])] => .ok (caseOf id content)
        | _ => .error invalidModel } }

def parting : GatewayResponse where
  requestId := "request-0001"
  routeId := "primary"
  provider := "openai"
  model := "model-a"
  text := "good bye"
  usage := ⟨1, 1, 0⟩
  ttftMs := 1
  latencyMs := 1
  createdAt := 0

def moody (q : GatewayRequest) : GatewayM GatewayResponse :=
  if q.messages.any (·.content = "hello") then raise .timeoutError else pure parting

theorem moody_catchable (case : EvaluationCase) : Catchable moody case := by
  rintro id q tr outcome - - hrun -
  unfold moody at hrun
  split_ifs at hrun
  · cases hrun
    rintro e ⟨⟩
    rfl
  · cases hrun
    rintro e ⟨⟩

theorem one_result_per_case_raised :
    readingService.platform.datasetCases twoCases.content =
      .ok [caseOf "case-1" "hello", caseOf "case-2" "good bye"] ∧
    ∀ tr out, Prog.Run (readingService.runEvaluationBy moody "golden" none "primary")
        (ev (.getArtifact .dataset "golden" none) (.ok twoCases) :: tr) out →
      (∀ e ∈ tr, UuidText e) → ∃ run mid id, out = .ok run ∧
        tr = mid ++ [ev .uuid4 id, ev .datetimeNow run.createdAt, ev (.putEvaluation run) ()] ∧
        run.results.map (·.caseId) = ["case-1", "case-2"] ∧
        Diagnosed readingService moody "primary"
          [caseOf "case-1" "hello", caseOf "case-2" "good bye"] mid run.results := by
  refine ⟨rfl, (@one_result_per_case readingService _ "golden" none "primary" twoCases
    [caseOf "case-1" "hello", caseOf "case-2" "good bye"] rfl (by decide +kernel)).mpr ?_⟩
  intro case hcase
  refine ⟨?_, moody_catchable case⟩
  revert case
  decide +kernel

/-! A case without messages is a case, and no request. -/

def silentCase : Json := .obj [("id", .str "case-1"), ("messages", .arr [])]

def silentService : Service :=
  { Sample.service with
    platform := { Sample.platform with
      validateCase := fun _ => .ok { id := "case-1", messages := [] } } }

theorem silent_case_aborts : ∃ cases tr,
    silentService.platform.datasetCases (dataset silentCase).content = .ok cases ∧
    (∀ case ∈ cases, case.messages.all Message.fieldsValid = true) ∧
    Prog.Run (silentService.runEvaluation "golden" none "primary")
      (ev (.getArtifact .dataset "golden" none) (.ok (dataset silentCase)) :: tr)
        (.error invalidModel) ∧
    (∀ e ∈ tr, UuidText e) ∧ ∀ run, ev (.putEvaluation run) () ∉ tr := by
  refine ⟨[{ id := "case-1", messages := [] }], [ev .uuid4 zeroUuid], rfl, by simp, ?_, ?_, by simp⟩
  · have hrequest : evaluationRequest { id := "case-1", messages := [] } zeroUuid =
        .error invalidModel := by
      rw [evaluationRequest, GatewayRequest.validate]
      exact if_neg (by decide +kernel)
    refine .op _ _ _ (.op _ _ _ ?_)
    change Prog.Run (((Prog.ofExcept (evaluationRequest _ zeroUuid)).bind _).bind _) _ _
    rw [hrequest]
    exact .throw _
  · exact List.forall_mem_singleton.mpr (uuidText_uuid4 zeroUuid_length)

end Service

end AegisGateway
