import AegisGateway.Lifecycle

/-!
# The gate in front of a canary

`start-canary` writes nothing before an evaluation of the candidate has passed the gate.
It is the only call that makes a release a candidate, but for a `create` that brings the
state with it.
-/

open Coroutine

namespace AegisGateway

namespace Service

variable {svc : Service}

/-! ## What a trace shows -/

/-- The release has been read, and an evaluation of its candidate has passed its gate. -/
def Passed (tr : GatewayTrace) (id : String) : Prop :=
  ∃ release run, ev (.getRelease id) (.ok release) ∈ tr ∧ ev (.putEvaluation run) () ∈ tr ∧
    run.routeId = release.candidateRouteId ∧ enforceReleaseGate release run = .ok ()

theorem Passed.mono {tr tr' : GatewayTrace} {id : String} (h : Passed tr id) (ht : tr ⊆ tr') :
    Passed tr' id := by
  obtain ⟨release, run, hread, hput, hroute, hgate⟩ := h
  exact ⟨release, run, ht hread, ht hput, hroute, hgate⟩

def GateFirst (tr : GatewayTrace) : Prop :=
  ∀ pre e post id, tr = pre ++ e :: post → e.1 = .setState id .candidate → Passed pre id

theorem GateFirst.prefix {tr tr' : GatewayTrace} (h : GateFirst (tr ++ tr')) : GateFirst tr :=
  fun pre e post id htr he => h pre e (post ++ tr') id (by simp [htr]) he

theorem closed_gateFirst : Prog.Closed GateFirst where
  nil := fun pre e post id htr => by simp at htr
  append := by
    intro tr tr' h h' pre e post id htr he
    rcases Prog.split_append htr with ⟨mid, rfl, rfl⟩ | ⟨mid, rfl, rfl⟩
    · exact h pre e mid id rfl he
    · exact (h' mid e post id rfl he).mono (List.subset_append_right _ _)

theorem gateFirst_of_forall {tr : GatewayTrace}
    (h : ∀ e ∈ tr, ∀ id, e.1 ≠ .setState id .candidate) : GateFirst tr := by
  rintro pre e post id rfl he
  exact absurd he (h e (by simp) id)

theorem gateFirst_of_serving {tr : GatewayTrace} (h : ∀ e ∈ tr, serving e.1 = true) :
    GateFirst tr := by
  apply gateFirst_of_forall
  intro e he id hset
  have hserving := h e he
  rw [hset] at hserving
  cases hserving

/-! ## The evaluation -/

def neutral (e : GatewayEvent) : Prop := releaseWrite e.1 = false

theorem neutral_of_serving {e : GatewayEvent} (h : serving e.1 = true) : neutral e := by
  rcases e with ⟨o, a⟩
  cases o <;> first | rfl | cases h

theorem neutral_of_evaluating {e : GatewayEvent} (h : evaluating e.1 = true) : neutral e := by
  rcases e with ⟨o, a⟩
  cases o <;> first | rfl | cases h

theorem runEvaluation_neutral (datasetName : String) (datasetVersion : Option String)
    (routeId : String) : (svc.runEvaluation datasetName datasetVersion routeId).Emits neutral :=
  runEvaluation_leaves (Prog.closed_forall _)
    (fun _ _ => (generate_serving _).mono fun _ h e he => neutral_of_serving (h e he))
    (fun _ he => List.forall_mem_singleton.mpr (neutral_of_evaluating he)) _ _ _

theorem runEvaluation_stores (datasetName : String) (datasetVersion : Option String)
    (routeId : String) : (svc.runEvaluation datasetName datasetVersion routeId).AllRuns
      fun tr out => ∀ run, out = .ok run → ev (.putEvaluation run) () ∈ tr ∧
        run.routeId = routeId := by
  have htrue : ∀ {α : Type} (p : GatewayM α), p.AllRuns fun _ _ => True :=
    fun p => (Prog.allRuns_iff p _).mpr fun _ _ _ => trivial
  rw [runEvaluation, Prog.allRuns_bind]
  apply (htrue _).mono
  intro tr out _
  cases out with
  | error e => simp
  | ok artifact =>
    rw [Prog.then_ok, Prog.allRuns_bind, Prog.allRuns_ofExcept]
    cases svc.platform.datasetCases artifact.content with
    | error e => simp
    | ok cases =>
      rw [Prog.then_ok, Prog.allRuns_bind]
      apply (htrue _).mono
      intro tr' out _
      cases out with
      | error e => simp
      | ok results =>
        simp only [Prog.then_ok, Prog.allRuns_bind, Prog.allRuns_perform, Prog.allRuns_pure]
        intro id createdAt _ run hrun
        cases hrun
        exact ⟨by simp, rfl⟩

/-! ## `start-canary` -/

inductive StartCanaryRun (id : String) : GatewayTrace → Prop
  /-- The release is missing, or the evaluation fails, or the gate. -/
  | stopped {tr : GatewayTrace} (h : ∀ e ∈ tr, neutral e) : StartCanaryRun id tr
  | passed {tr : GatewayTrace} (h : ∀ e ∈ tr, neutral e) (hp : Passed tr id)
      (a : Except String Release) :
      StartCanaryRun id (tr ++ [ev (.setState id .candidate) a])

theorem apiStartCanary_runs (id datasetName : String) (datasetVersion : Option String) :
    (svc.apiStartCanary id datasetName datasetVersion).Leaves (StartCanaryRun id) := by
  rw [Prog.Leaves, apiStartCanary, Prog.allRuns_bind, getRelease, Prog.allRuns_op]
  intro a
  rw [allRuns_raising]
  cases a with
  | error m => exact .stopped (by simp [neutral, releaseWrite])
  | ok release =>
    have hread : ∀ e ∈ [ev (.getRelease id) (.ok release)], neutral e := by
      simp [neutral, releaseWrite]
    simp only [Except.mapError, Prog.then_ok, Prog.allRuns_bind]
    refine ((runEvaluation_neutral datasetName datasetVersion release.candidateRouteId).and
      (runEvaluation_stores datasetName datasetVersion release.candidateRouteId)).mono ?_
    rintro tr out ⟨hneutral, hstores⟩
    have hquiet := List.forall_mem_append.mpr ⟨hread, hneutral⟩
    cases out with
    | error e => exact .stopped hquiet
    | ok run =>
      obtain ⟨hput, hroute⟩ := hstores run rfl
      rw [Prog.then_ok, Prog.allRuns_bind, Prog.allRuns_ofExcept]
      cases hgate : enforceReleaseGate release run with
      | error e =>
        rw [Prog.then_error]
        simpa using StartCanaryRun.stopped hquiet
      | ok _ =>
        have hpassed : Passed ([ev (.getRelease id) (.ok release)] ++ tr) id :=
          ⟨release, run, by simp, List.mem_append_right _ hput, hroute, hgate⟩
        simp only [Prog.then_ok, startCanary, setState, Prog.allRuns_bind, Prog.allRuns_op,
          allRuns_raising]
        intro a
        cases a with
        | error m => simpa [Except.mapError] using StartCanaryRun.passed hquiet hpassed (.error m)
        | ok r => simpa [Except.mapError] using StartCanaryRun.passed hquiet hpassed (.ok r)

theorem StartCanaryRun.writes {id : String} {tr : GatewayTrace} (h : StartCanaryRun id tr)
    {pre post : GatewayTrace} {e : GatewayEvent} (htr : tr = pre ++ e :: post)
    (he : releaseWrite e.1 = true) : e.1 = .setState id .candidate ∧ Passed pre id := by
  have hquiet : ∀ {tr : GatewayTrace}, (∀ e ∈ tr, neutral e) → e ∉ tr := by
    intro tr h hmem
    have hneutral := h e hmem
    rw [neutral, he] at hneutral
    cases hneutral
  cases h with
  | stopped h => exact absurd (by simp [htr]) (hquiet h)
  | passed h hp a =>
    rcases Prog.split_append htr with ⟨mid, rfl, -⟩ | ⟨mid, rfl, hlast⟩
    · exact absurd (by simp) (hquiet h)
    · obtain ⟨rfl, rfl⟩ : mid = [] ∧ post = [] := by
        cases mid <;> simp_all
      cases hlast
      exact ⟨rfl, by simpa using hp⟩

theorem body_gateFirst (call : Call) : (svc.body call).Leaves GateFirst := by
  by_cases hcall : writtenState call = some .candidate
  · cases call with
    | startCanary id datasetName datasetVersion =>
      refine Prog.leaves_map ?_ _
      apply (apiStartCanary_runs id datasetName datasetVersion).mono
      intro tr h pre e post id' htr he
      obtain ⟨heq, hpassed⟩ := h.writes htr (by rw [he]; rfl)
      rw [he] at heq
      cases heq
      exact hpassed
    | _ => cases hcall
  · refine body_leaves closed_gateFirst
      (fun args _ => (generate_serving args).mono fun _ h => gateFirst_of_serving h)
      (fun q forced _ => (stream_serving q forced).mono fun _ h => gateFirst_of_serving h) ?_
    intro e he
    refine gateFirst_of_forall (List.forall_mem_singleton.mpr fun id hset => hcall ?_)
    rw [hset] at he
    exact of_decide_eq_true he

/-! ## All runs -/

/-- The release has been a candidate since a call that had evaluated its candidate route and had
passed its gate made it one. -/
def Entered (c : State) (r : Release) : Prop :=
  ∃ pre i a post run, c.log = pre ++ (i, ev (.setState r.id .candidate) a) :: post ∧
    (∀ e ∈ post, ∀ state, e.2.1 ≠ .setState r.id state) ∧
    (i, ev (.putEvaluation run) ()) ∈ pre ∧ run.routeId = r.candidateRouteId ∧
    enforceReleaseGate r run = .ok ()

def Gated (c : State) : Prop := ∀ r ∈ table c, r.state = .candidate → Entered c r

def Uncanaried (_ : List Release) (body : Release) : Prop := body.state ≠ .candidate

theorem Entered.snoc {c c' : State} {r : Release} (h : Entered c r) {i : Nat} {e : GatewayEvent}
    (hlog : c'.log = c.log ++ [(i, e)]) (he : ∀ state, e.1 ≠ .setState r.id state) :
    Entered c' r := by
  obtain ⟨pre, j, a, post, run, hpre, hpost, hput, hroute, hgate⟩ := h
  refine ⟨pre, j, a, post ++ [(i, e)], run, by simp [hlog, hpre], ?_, hput, hroute, hgate⟩
  rw [List.forall_mem_append]
  exact ⟨hpost, List.forall_mem_singleton.mpr he⟩

section Reach

variable {Ok : State → Move Input Call → Prop} {c c' : State}

theorem gateFirst_of_reach (h : svc.machine.Reach Ok initial c) (i : Nat) :
    GateFirst (c.trace i) := by
  rcases Nat.lt_or_ge i c.tasks.length with hi | hi
  · exact Prog.Leaves.steps (fun _ _ => GateFirst.prefix) (body_gateFirst _)
      (h.onTheWay.2 i _ (List.getElem?_eq_getElem hi))
  · rw [h.onTheWay.1 i hi]
    exact closed_gateFirst.nil

theorem Passed.row (h : svc.machine.Reach Ok initial c) {i : Nat} {id : String}
    (hp : Passed (c.trace i) id) : ∃ r ∈ table c, r.id = id ∧ ∃ run,
      (i, ev (.putEvaluation run) ()) ∈ c.log ∧ run.routeId = r.candidateRouteId ∧
        enforceReleaseGate r run = .ok () := by
  obtain ⟨release, run, hread, hput, hroute, hgate⟩ := hp
  obtain ⟨hid, r, hr, hfixed⟩ := known_of_reach h (Pool.mem_trace.mp hread)
  have hsame : r.fixed.id = release.fixed.id := by rw [hfixed]
  have hcandidate : r.fixed.candidateRouteId = release.fixed.candidateRouteId := by rw [hfixed]
  -- The gate looks at nothing that can change.
  have hgate' : enforceReleaseGate r.fixed run = .ok () := by
    rw [hfixed]
    exact hgate
  exact ⟨r, hr, hsame.trans hid, run, Pool.mem_trace.mp hput, hroute.trans hcandidate.symm, hgate'⟩

theorem gated_step (h : svc.machine.Reach Ok initial c) (hgated : Gated c) {m : Move Input Call}
    (hs : svc.machine.step? c m = some c') (h' : svc.machine.Reachable initial c') :
    Gated c' ↔ OnCreate Uncanaried c m := by
  have hkeyed := keyed_of_reach h
  rcases step_releases hs with ⟨hm, htable, hlog⟩ | ⟨i, x, call, o, k, a, rfl, ht, hlog, -, hstep⟩
  · -- Time passes or a call begins, or it is no operation on the releases.
    have hsame : Gated c' ↔ Gated c := by simp only [Gated, Entered, htable, hlog]
    exact ⟨fun _ => onCreate_still hm, fun _ => hsame.mpr hgated⟩
  rw [onCreate_run ht]
  have hkeep : ∀ r ∈ table c, r.state = .candidate → (∀ state, o ≠ .setState r.id state) →
      Entered c' r := fun r hr hstate ho => (hgated r hr hstate).snoc hlog ho
  generalize hrs : table c' = rs at hstep
  cases hstep with
  | other hother =>
    refine ⟨fun _ body hbody => ?_, fun _ r hr hstate => ?_⟩
    · subst hbody
      cases hother
    · rw [hrs] at hr
      apply hkeep r hr hstate
      intro state ho
      subst ho
      cases hother
  | @created r₀ hfresh =>
    constructor
    · -- What has passed a gate was in the table by then, and this release is new.
      rintro hgated' body ⟨⟩ - hstate
      obtain ⟨pre, j, a, post, run, hpre, -, -, -, -⟩ := hgated' r₀ (by simp [hrs]) hstate
      have hmem : (j, ev (.setState r₀.id .candidate) a) ∈ c.log := by
        have hmem : (j, ev (.setState r₀.id .candidate) a) ∈ c'.log := by simp [hpre]
        rw [hlog, List.mem_append, List.mem_singleton] at hmem
        apply hmem.resolve_right
        intro heq
        cases heq
      obtain ⟨pre', post', htr⟩ := List.append_of_mem (Pool.mem_trace.mpr hmem)
      have hpassed : Passed (c.trace j) r₀.id :=
        (gateFirst_of_reach h j _ _ _ _ htr rfl).mono (by simp [htr])
      obtain ⟨r, hr, hid, -⟩ := hpassed.row h
      exact hfresh r hr hid
    · intro hbody r hr hstate
      rw [hrs] at hr
      rcases List.mem_append.mp hr with hr | hr
      · exact hkeep r hr hstate (by simp)
      · rw [List.mem_singleton] at hr
        subst hr
        exact absurd hstate (hbody r rfl hfresh)
  | @taken r₀ r' e hr' hid =>
    refine ⟨fun _ body hbody hfresh => ?_, fun _ r hr hstate => ?_⟩
    · cases hbody
      exact absurd hid (hfresh r' hr')
    · rw [hrs] at hr
      exact hkeep r hr hstate (by simp)
  | @missing id m state hget =>
    refine ⟨fun _ body hbody => absurd hbody (by simp), fun _ r hr hstate => ?_⟩
    rw [hrs] at hr
    apply hkeep r hr hstate
    intro state ho
    cases ho
    exact Database.getRelease_error hget r hr rfl
  | @written id state current hget =>
    refine ⟨fun _ body hbody => absurd hbody (by simp), fun _ r' hr' hstate => ?_⟩
    obtain ⟨hcurrent, hid⟩ := Database.mem_of_getRelease hget
    rw [hrs] at hr'
    obtain ⟨r, hr, rfl⟩ := List.mem_map.mp hr'
    -- The release that is written has been through the gate of its call.
    by_cases hrid : r.id = current.id
    · obtain rfl := hkeyed.eq_of_id hr hcurrent hrid
      rw [restated_self _ _ rfl] at hstate ⊢
      obtain rfl : state = .candidate := hstate
      have hgate := gateFirst_of_reach h' i
      rw [Pool.trace_of_log hlog i, if_pos rfl] at hgate
      obtain ⟨r₁, hr₁, hid₁, run, hput, hroute, hpass⟩ := (hgate _ _ [] id rfl rfl).row h
      obtain rfl := hkeyed.eq_of_id hr₁ hr (hid₁.trans hid.symm)
      exact ⟨c.log, i, _, [], run, by rw [hlog, ← hid], by simp, hput, hroute, hpass⟩
    · -- Any other row stays, or is demoted and no candidate any more.
      rcases restated_other _ state hrid with hsame | ⟨-, -, -, hback⟩
      · rw [hsame] at hstate ⊢
        refine hkeep r hr hstate fun state ho => hrid ?_
        cases ho
        exact hid.symm
      · rw [hback] at hstate
        cases hstate

end Reach

/-- Writes of `start-canary` come after its release has passed, also of one that has not ended. -/
def WritesPassed (id : String) (tr : GatewayTrace) : Prop :=
  ∀ pre e post, tr = pre ++ e :: post → releaseWrite e.1 = true → Passed pre id

theorem writesPassed_of_reach {c : State} (h : svc.machine.Reachable initial c) {i : Nat}
    {t : Task Op Ans PyExc Outcome Call} (ht : c.tasks[i]? = some t)
    {id datasetName : String} {datasetVersion : Option String}
    (hcall : t.call = .startCanary id datasetName datasetVersion) :
    WritesPassed id (c.trace i) := by
  have hbody : (svc.body t.call).Leaves (WritesPassed id) := by
    rw [hcall]
    refine Prog.leaves_map ?_ _
    exact (apiStartCanary_runs id datasetName datasetVersion).mono
      fun tr hrun pre e post htr he => (hrun.writes htr he).2
  refine Prog.Leaves.steps (fun tr tr' hw pre e post htr he => ?_) hbody (h.onTheWay.2 i t ht)
  exact hw pre e (post ++ tr') (by simp [htr]) he

/-- In every run, each step keeps all canaries behind the gate exactly if it is no `create` whose
body is a candidate already; so a run without any such `create` has no ungated canary. And a
step of `start-canary` leaves every row as it is until an evaluation of the release has passed. -/
theorem canaries_gated :
    (∀ c, svc.machine.Reach (OnCreate Uncanaried) initial c → Gated c) ∧
    (∀ c m c', svc.machine.Reachable initial c → Gated c → svc.machine.step? c m = some c' →
      (Gated c' ↔ OnCreate Uncanaried c m)) ∧
    ∀ c i x c' t id datasetName datasetVersion, svc.machine.Reachable initial c →
      svc.machine.step? c (.run i x) = some c' → c.tasks[i]? = some t →
        t.call = .startCanary id datasetName datasetVersion →
          table c' = table c ∨ Passed (c.trace i) id := by
  refine ⟨fun c h => ?_, fun c m c' h hgated hs => ?_, fun c i x c' t id datasetName
    datasetVersion h hs ht hcall => ?_⟩
  · have hstart : Gated initial := fun r hr => by cases hr
    apply h.invariant Gated hstart
    intro c m c' hreach hgated hok hs
    exact (gated_step hreach hgated hs (.next hreach.weaken trivial hs)).mpr hok
  · exact gated_step h hgated hs (.next h trivial hs)
  · rcases step_releases hs with ⟨hm, -, -⟩ | ⟨j, y, call, o, k, a, hm, ht', hlog, -, hstep⟩
    · exact absurd rfl (hm i x)
    cases hm
    rw [ht] at ht'
    cases ht'
    obtain ⟨t', ht'', hcall'⟩ : ∃ t', c'.tasks[i]? = some t' ∧ t'.call = call := by
      obtain ⟨new, hnew⟩ := Machine.calls_step hs
      have hget : (c'.tasks.map (·.call))[i]? = some call := by
        rw [← hnew, List.getElem?_append_left (by
          simpa using (List.getElem?_eq_some_iff.mp ht).1), List.getElem?_map, ht]
        rfl
      rw [List.getElem?_map, Option.map_eq_some_iff] at hget
      exact hget
    have hwrites := writesPassed_of_reach (.next h trivial hs) ht'' (hcall'.trans hcall)
    rw [Pool.trace_of_log hlog i, if_pos rfl] at hwrites
    generalize table c' = rs at hstep
    cases hw : releaseWrite o with
    | true => exact .inr (hwrites _ _ [] rfl hw)
    | false =>
      cases hstep with
      | other => exact .inl rfl
      | _ => cases hw

/-! A draft that passes its gate, and a release that is created a candidate. -/

def casePlatform : Platform :=
  { Sample.platform with
    validateCase := fun _ => .ok { id := "case-1", messages := [⟨.user, "hello", none⟩] } }

def caseService : Service := { Sample.service with platform := casePlatform }

def canaryMoves : List (Move Input Call) :=
  [.start (.createRelease Sample.release), .run 0 .go,
    .start (.createArtifact .dataset "golden" "1" [("cases", .arr [.null])]), .run 1 .go,
    .start (.startCanary "release-1" "golden" (some "1")), .run 2 .go, .run 2 .go,
    .run 2 (.uuid "case")] ++ Sample.goes 2 5 ++ [.run 2 (Sample.completion "hello")] ++
  Sample.goes 2 4 ++ [.run 2 (.uuid "run"), .run 2 .go, .run 2 .go]

def stateWrite : Op → Bool
  | .setState _ _ => true
  | _ => false

def nextWritesState : GatewayM Outcome → Bool
  | .op o _ => stateWrite o
  | _ => false

theorem canaries_gated_draft : ∃ c c' : State, caseService.machine.Reachable initial c ∧
    caseService.machine.step? c (.run 2 .go) = some c' ∧
    (table c).map (·.state) = [.draft] ∧ (table c').map (·.state) = [.candidate] ∧ Gated c' := by
  obtain ⟨c, hm, c', hs, hdraft, hcandidate, hset⟩ :
      ∃ c ∈ caseService.machine.moves? initial canaryMoves,
        ∃ c' ∈ caseService.machine.step? c (.run 2 .go),
          (table c).map (·.state) = [.draft] ∧ (table c').map (·.state) = [.candidate] ∧
          c.tasks[2]?.any (fun t => nextWritesState t.rest) = true := by decide +kernel
  have hreach := Machine.reachable_of_moves _ .start hm
  have hgated : Gated c := by
    intro r hr hstate
    have hmem : r.state ∈ [ReleaseState.draft] := hdraft ▸ List.mem_map_of_mem hr
    rw [hstate] at hmem
    simp at hmem
  have hok : OnCreate Uncanaried c (.run 2 .go) := by
    rintro _ _ call body k ⟨⟩ ht
    rw [ht] at hset
    cases hset
  exact ⟨c, c', hreach, hs, hdraft, hcandidate,
    (canaries_gated.2.1 c _ c' hreach hgated hs).mpr hok⟩

def createdCandidate : List (Move Input Call) :=
  [.start (.createRelease { Sample.release with state := .candidate }), .run 0 .go]

/-- Nothing has been evaluated, and the release is a candidate. -/
theorem ungated_canary : ∃ c : State, Sample.service.machine.Reachable initial c ∧
    (∀ r ∈ table c, r.Accepted) ∧ (table c).map (·.state) = [.candidate] ∧
    c.world.database.evaluationRuns = [] ∧ ¬ Gated c := by
  obtain ⟨c, hm, htable, hruns, hlog⟩ :
      ∃ c ∈ Sample.service.machine.moves? initial createdCandidate,
        table c = [{ Sample.release with state := .candidate }] ∧
        c.world.database.evaluationRuns = [] ∧
        (∀ e ∈ c.log, stateWrite e.2.1 = false) := by
    decide +kernel
  refine ⟨c, Machine.reachable_of_moves _ .start hm, ?_, by rw [htable]; rfl, hruns, ?_⟩
  · rw [htable]
    refine List.forall_mem_singleton.mpr ?_
    constructor <;> decide +kernel
  · intro hgated
    obtain ⟨pre, i, a, post, run, hpre, -⟩ := hgated _ (by rw [htable]; exact List.mem_cons_self) rfl
    cases hlog (i, ev (.setState "release-1" .candidate) a) (by rw [hpre]; simp [Sample.release])

end Service

end AegisGateway
