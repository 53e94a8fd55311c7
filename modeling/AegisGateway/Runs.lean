import AegisGateway.Lib.Monitor
import AegisGateway.System

/-!
# What a call can do

One relation for each coroutine of the data plane, with one constructor for each way
it can go. A relation holds the whole trace and the outcome, so that later proofs are
about cases and never about the coroutines.
-/

open Coroutine JsonText

namespace AegisGateway

abbrev ev (o : Op) (a : Ans o) : GatewayEvent := ⟨o, a⟩

/-! ## Traces of straight lines -/

namespace Exchange

variable (x : Exchange)

def shadowEvents : GatewayTrace :=
  x.assignment.shadowRouteId.elim [] fun routeId =>
    [ev (.createTask (.shadow x.shadowRequest routeId x.assignment.releaseId)) ()]

def assessEvents : GatewayTrace :=
  match x.assignment.canary, x.assignment.releaseId with
  | true, some releaseId => [ev (.createTask (.assess releaseId)) ()]
  | _, _ => []

def launchEvents : GatewayTrace :=
  if x.shadow then [] else x.shadowEvents ++ x.assessEvents

def rowEvents (response : GatewayResponse) (createdAt : Int) : GatewayTrace :=
  [ev .datetimeNow createdAt, ev (.recordMetric (x.responseRow response createdAt)) ()]

def putEvents (response : GatewayResponse) : GatewayTrace :=
  if x.cacheAllowed ∧ x.request.cacheMode ≠ .bypass then
    [ev (.cachePut x.request response x.ns) ()]
  else []

def keepEvents (response : GatewayResponse) (createdAt : Int) : GatewayTrace :=
  (if x.evaluation then [] else x.rowEvents response createdAt) ++
    (x.putEvents response ++ x.launchEvents)

def errorEvents (route : ModelRoute) (error : AegisError) (fallbackCount : Nat) (now : ℚ)
    (createdAt : Int) : GatewayTrace :=
  [ev .monotonic now, ev .datetimeNow createdAt,
    ev (.recordMetric
      (x.errorRow route error fallbackCount ((now - x.started) * 1000) createdAt)) ()] ++
  x.assessEvents

theorem launchReleaseAssessment_runs :
    x.launchReleaseAssessment.AllRuns fun tr out => tr = x.assessEvents ∧ out = .ok () := by
  unfold launchReleaseAssessment assessEvents
  split <;> simp_all

theorem launchPostResponse_runs :
    x.launchPostResponse.AllRuns fun tr out => tr = x.launchEvents ∧ out = .ok () := by
  unfold launchPostResponse launchEvents
  refine .when (fun h => ?_) (fun h => by simp_all)
  rw [Prog.allRuns_bind]
  cases hs : x.assignment.shadowRouteId with
  | none =>
    simp only [launchShadow, hs, Prog.allRuns_pure, Prog.then_ok]
    exact x.launchReleaseAssessment_runs.mono fun tr out ht => by simp_all [shadowEvents]
  | some routeId =>
    simp only [launchShadow, hs, Prog.allRuns_perform, Prog.then_ok]
    exact fun _ => x.launchReleaseAssessment_runs.mono fun tr out ht => by simp_all [shadowEvents]

theorem recordResponse_runs (response : GatewayResponse) :
    (x.recordResponse response).AllRuns fun tr out =>
      ∃ t, tr = x.rowEvents response t ∧ out = .ok () := by
  simp [recordResponse, rowEvents]

theorem recordError_runs (route : ModelRoute) (error : AegisError) (n : Nat) :
    (do x.recordError route error n; x.launchReleaseAssessment : GatewayM Unit).AllRuns
      fun tr out => ∃ now t, tr = x.errorEvents route error n now t ∧ out = .ok () := by
  simp only [recordError, Prog.allRuns_bind, Prog.allRuns_perform, Prog.then_ok]
  intro now t _
  refine x.launchReleaseAssessment_runs.mono fun tr out h => ⟨now, t, ?_⟩
  simp [errorEvents, h]

end Exchange

namespace Service

theorem keep_runs (x : Exchange) (response : GatewayResponse) :
    (keep x response).AllRuns fun tr out => ∃ t, tr = x.keepEvents response t ∧ out = .ok () := by
  have hrow : (Prog.when (!x.evaluation) (x.recordResponse response)).AllRuns fun tr out =>
      ∃ t, tr = (if x.evaluation then [] else x.rowEvents response t) ∧ out = .ok () := by
    refine .when (fun h => ?_) (fun h => ⟨0, by simp_all⟩)
    exact (x.recordResponse_runs response).mono fun tr out ⟨t, ht⟩ => ⟨t, by simp_all⟩
  have hput : (Prog.when (x.cacheAllowed ∧ x.request.cacheMode ≠ .bypass)
      (perform (.cachePut x.request response x.ns))).AllRuns fun tr out =>
      tr = x.putEvents response ∧ out = .ok () := by
    unfold Exchange.putEvents
    exact .when (fun h => by simp [h]) (fun h => by simp [h])
  rw [keep, Prog.allRuns_bind]
  apply hrow.mono
  rintro _ _ ⟨t, rfl, rfl⟩
  rw [Prog.then_ok, Prog.allRuns_bind]
  apply hput.mono
  rintro _ _ ⟨rfl, rfl⟩
  exact x.launchPostResponse_runs.mono fun tr out h => ⟨t, by simp [Exchange.keepEvents, h]⟩

/-! ## Up to the routing decision -/

/-- What a call does before its request is resolved, paid for and assigned. -/
def preliminary : Op → Bool
  | .monotonic | .getArtifact _ _ _ | .consume _ | .getLive _ => true
  | _ => false

variable (svc : Service)

/-- How the request of a call relates to the one it was given, by the trace so far. -/
def Resolved (q : GatewayRequest) (tr : GatewayTrace) (q' : GatewayRequest) : Prop :=
  q.prompt = none ∧ q' = q ∨
    ∃ ref artifact, q.prompt = some ref ∧
      ev (.getArtifact .prompt ref.name ref.version) (.ok artifact) ∈ tr ∧
      svc.platform.applyTemplate q artifact.content = .ok q'

def Assigned (args : Arguments) (q' : GatewayRequest) (tr : GatewayTrace)
    (assignment : ReleaseAssignment) : Prop :=
  args.assignmentOverride = some assignment ∨
    args.assignmentOverride = none ∧
      ((args.evaluation ∨ args.shadow ∨ args.forcedRouteId.isSome) ∧ assignment = {} ∨
        ¬ (args.evaluation ∨ args.shadow ∨ args.forcedRouteId.isSome) ∧
          ∃ live, ev (.getLive "default") live ∈ tr ∧
            assignment = live.elim {} (svc.platform.assignTo q'))

structure Begun (args : Arguments) (tr : GatewayTrace) (x : Exchange) : Prop where
  preliminary : ∀ e ∈ tr, preliminary e.1
  forcedRouteId : x.forcedRouteId = args.forcedRouteId
  evaluation : x.evaluation = args.evaluation
  shadow : x.shadow = args.shadow
  resolved : svc.Resolved args.request tr x.request
  assigned : svc.Assigned args x.request tr x.assignment

theorem resolvePrompt_runs (q : GatewayRequest) :
    (svc.resolvePrompt q).AllRuns fun tr out => (∀ e ∈ tr, preliminary e.1) ∧
      ∀ q', out = .ok q' → svc.Resolved q tr q' := by
  unfold resolvePrompt
  split
  next h => simp [Resolved, h]
  next ref h =>
    simp only [getArtifact, Prog.allRuns_bind, Prog.allRuns_op, allRuns_raising]
    intro a
    cases a with
    | error m => simp [Except.mapError, preliminary]
    | ok artifact =>
      simp only [Except.mapError, Prog.then_ok, Prog.allRuns_ofExcept]
      refine ⟨by simp [preliminary], fun q' hq' => .inr ⟨ref, artifact, h, by simp, hq'⟩⟩

theorem assignmentFor_runs (args : Arguments) (q' : GatewayRequest) :
    (svc.assignmentFor args q').AllRuns fun tr out =>
      (∀ e ∈ tr, preliminary e.1) ∧ ∀ a, out = .ok a → svc.Assigned args q' tr a := by
  unfold assignmentFor Assigned
  split
  next assignment h => simp [h]
  next h =>
    split_ifs with hc
    · simp [h, hc]
    · simp only [assignment, Prog.allRuns_bind, Prog.allRuns_perform, Prog.then_ok,
        Prog.allRuns_pure]
      intro live
      refine ⟨by simp [preliminary], fun a ha => .inr ⟨h, .inr ⟨hc, live, by simp, ?_⟩⟩⟩
      exact (Except.ok.inj ha).symm

theorem consume_runs (c : Prop) [Decidable c] (key : String) :
    (Prog.when c (consume key)).AllRuns fun tr _ => ∀ e ∈ tr, preliminary e.1 := by
  refine .when (fun _ => ?_) (fun _ => by simp)
  simp [consume, preliminary]

variable {svc} in
theorem Resolved.mono {q q' : GatewayRequest} {tr tr' : GatewayTrace} (h : svc.Resolved q tr q')
    (ht : tr ⊆ tr') : svc.Resolved q tr' q' := by
  rcases h with h | ⟨ref, artifact, hp, he, ha⟩
  · exact .inl h
  · exact .inr ⟨ref, artifact, hp, ht he, ha⟩

variable {svc} in
theorem Assigned.mono {args : Arguments} {q : GatewayRequest} {tr tr' : GatewayTrace}
    {a : ReleaseAssignment} (h : svc.Assigned args q tr a) (ht : tr ⊆ tr') :
    svc.Assigned args q tr' a := by
  rcases h with h | ⟨hn, h | ⟨hc, live, he, ha⟩⟩
  · exact .inl h
  · exact .inr ⟨hn, .inl h⟩
  · exact .inr ⟨hn, .inr ⟨hc, live, ht he, ha⟩⟩

theorem begin_runs (args : Arguments) :
    (svc.begin args).AllRuns fun tr out =>
      (∀ e ∈ tr, preliminary e.1) ∧ ∀ x, out = .ok x → svc.Begun args tr x := by
  simp only [begin, Prog.allRuns_bind, Prog.allRuns_perform, Prog.then_ok]
  intro started
  apply (svc.resolvePrompt_runs args.request).mono
  intro tr₁ out hresolved
  obtain ⟨p₁, h₁⟩ := hresolved
  cases out with
  | error e => exact ⟨by simpa [preliminary] using p₁, by simp⟩
  | ok q' =>
    rw [Prog.then_ok, Prog.allRuns_bind]
    apply (consume_runs _ _).mono
    intro tr₂ out p₂
    cases out with
    | error e => exact ⟨by simpa [preliminary, or_imp, forall_and] using ⟨p₁, p₂⟩, by simp⟩
    | ok u =>
      rw [Prog.then_ok, Prog.allRuns_bind]
      apply (svc.assignmentFor_runs args q').mono
      intro tr₃ out hassigned
      obtain ⟨p₃, h₃⟩ := hassigned
      have hp : ∀ e ∈ [ev .monotonic started] ++ (tr₁ ++ (tr₂ ++ tr₃)), preliminary e.1 := by
        simpa [preliminary, or_imp, forall_and] using ⟨p₁, p₂, p₃⟩
      cases out with
      | error e => exact ⟨hp, by simp⟩
      | ok a =>
        rw [Prog.then_ok, Prog.allRuns_pure]
        simp only [List.append_nil]
        refine ⟨hp, fun x hx => ?_⟩
        obtain rfl := Except.ok.inj hx
        exact ⟨hp, rfl, rfl, rfl, (h₁ q' rfl).mono fun e he => by simp [he],
          (h₃ a rfl).mono fun e he => by simp [he]⟩

/-! ## The decision -/

/-- The questions that `decide` asks the breakers, with the answers it got. -/
def asked (xs : List (ModelRoute × Bool)) : GatewayTrace :=
  xs.map fun a => ev (.isAvailable a.1.id) a.2

def passed (q : GatewayRequest) (opts : RoutingOptions) (xs : List (ModelRoute × Bool)) :
    List RoutingCandidate :=
  xs.filterMap fun a =>
    if rejectReasons q opts a.1 a.2 = [] then some (svc.toCandidate q a.1) else none

def turnedDown (q : GatewayRequest) (opts : RoutingOptions) (xs : List (ModelRoute × Bool)) :
    List RejectedRoute :=
  xs.filterMap fun a =>
    if rejectReasons q opts a.1 a.2 = [] then none
    else some ⟨a.1.id, rejectReasons q opts a.1 a.2⟩

theorem screen_runs (q : GatewayRequest) (opts : RoutingOptions) (routes : List ModelRoute) :
    (svc.screen q opts routes).AllRuns fun tr out => ∃ xs, xs.map Prod.fst = routes ∧
      tr = asked xs ∧ out = .ok (svc.passed q opts xs, turnedDown q opts xs) := by
  induction routes with
  | nil => exact ⟨[], rfl, rfl, rfl⟩
  | cons route routes ih =>
    simp only [screen, Prog.allRuns_bind, Prog.allRuns_perform, Prog.then_ok]
    intro available
    apply ih.mono
    rintro _ _ ⟨xs, hxs, rfl, rfl⟩
    rw [Prog.then_ok]
    split_ifs with h
    all_goals
      rw [Prog.allRuns_pure]
      refine ⟨(route, available) :: xs, by simp [hxs], by simp [asked], ?_⟩
      simp [passed, turnedDown, h]

theorem decide_runs (q : GatewayRequest) (opts : RoutingOptions) :
    (svc.decide q opts).AllRuns fun tr out => ∃ xs, xs.map Prod.fst = svc.routes ∧
      tr = asked xs ∧ out = svc.conclude q opts (svc.passed q opts xs) (turnedDown q opts xs) := by
  rw [decide, Prog.allRuns_bind]
  apply (svc.screen_runs q opts svc.routes).mono
  rintro _ _ ⟨xs, hxs, rfl, rfl⟩
  rw [Prog.then_ok, Prog.allRuns_ofExcept]
  exact ⟨xs, hxs, by simp, rfl⟩

def missEvents (x : Exchange) : GatewayTrace :=
  if x.cacheAllowed ∧ x.request.cacheMode = .default then [ev (.cacheGet x.request x.ns) none]
  else []

inductive ApproachRun (args : Arguments) : GatewayTrace → Except PyExc (Exchange × Origin) → Prop
  | stopped {tr : GatewayTrace} {e : PyExc} (h : ∀ e ∈ tr, preliminary e.1) :
      ApproachRun args tr (.error e)
  | hit {tr : GatewayTrace} {x : Exchange} {hit : GatewayResponse} (hb : svc.Begun args tr x)
      (hc : x.cacheAllowed = true) (hm : x.request.cacheMode = .default) :
      ApproachRun args (tr ++ [ev (.cacheGet x.request x.ns) (some hit)]) (.ok (x, .cache hit))
  | unroutable {tr : GatewayTrace} {x : Exchange} {xs : List (ModelRoute × Bool)} {e : PyExc}
      (hb : svc.Begun args tr x) (hxs : xs.map Prod.fst = svc.routes)
      (hd : svc.conclude x.request x.options (svc.passed x.request x.options xs)
        (turnedDown x.request x.options xs) = .error e) :
      ApproachRun args (tr ++ (missEvents x ++ asked xs)) (.error e)
  | decided {tr : GatewayTrace} {x : Exchange} {xs : List (ModelRoute × Bool)}
      {d : RoutingDecision} (hb : svc.Begun args tr x) (hxs : xs.map Prod.fst = svc.routes)
      (hd : svc.conclude x.request x.options (svc.passed x.request x.options xs)
        (turnedDown x.request x.options xs) = .ok d) :
      ApproachRun args (tr ++ (missEvents x ++ asked xs)) (.ok (x, .decision d))

theorem cached_runs (x : Exchange) :
    (cached x).AllRuns fun tr out => (tr = missEvents x ∧ out = .ok none) ∨
      ∃ hit, x.cacheAllowed = true ∧ x.request.cacheMode = .default ∧
        tr = [ev (.cacheGet x.request x.ns) (some hit)] ∧ out = .ok (some hit) := by
  unfold cached missEvents
  split_ifs with h
  · rw [Prog.allRuns_perform]
    intro a
    cases a with
    | none => exact .inl ⟨rfl, rfl⟩
    | some hit => exact .inr ⟨hit, h.1, h.2, rfl, rfl⟩
  · exact .inl ⟨rfl, rfl⟩

theorem approach_runs (args : Arguments) :
    (svc.approach args).AllRuns (svc.ApproachRun args) := by
  rw [approach, Prog.allRuns_bind]
  refine (svc.begin_runs args).mono fun tr out ⟨hp, hb⟩ => ?_
  cases out with
  | error e => exact .stopped hp
  | ok x =>
    rw [Prog.then_ok, Prog.allRuns_bind]
    apply (cached_runs x).mono
    rintro _ _ (⟨rfl, rfl⟩ | ⟨hit, hc, hm, rfl, rfl⟩)
    · rw [Prog.then_ok, Prog.allRuns_bind]
      apply (svc.decide_runs x.request x.options).mono
      rintro _ _ ⟨xs, hxs, rfl, rfl⟩
      cases hd : svc.conclude x.request x.options (svc.passed x.request x.options xs)
          (turnedDown x.request x.options xs) with
      | error e => exact .unroutable (hb x rfl) hxs hd
      | ok d =>
        rw [Prog.then_ok, Prog.allRuns_pure, List.append_nil]
        exact .decided (hb x rfl) hxs hd
    · exact .hit (hb x rfl) hc hm

/-! ## The loop over the candidates -/

inductive GaveUp {α : Type} (x : Exchange) (st : LoopState) : GatewayTrace → Except PyExc α → Prop
  | unrecorded {e : AegisError} {route : ModelRoute} (he : st.lastError = some e)
      (hr : st.lastErrorRoute = some route) (hx : x.evaluation = true) :
      GaveUp x st [] (.error (.aegis e))
  | recorded {e : AegisError} {route : ModelRoute} (now : ℚ) (t : Int)
      (he : st.lastError = some e) (hr : st.lastErrorRoute = some route)
      (hx : x.evaluation = false) :
      GaveUp x st (x.errorEvents route e st.fallbackCount now t) (.error (.aegis e))
  | assertion (h : st.lastError = none ∨ st.lastErrorRoute = none) :
      GaveUp x st [] (.error (.other "AssertionError"))

theorem giveUp_runs {α : Type} (x : Exchange) (st : LoopState) :
    (giveUp x st : GatewayM α).AllRuns (GaveUp x st) := by
  unfold giveUp
  split
  next e route he hr =>
    rw [Prog.allRuns_bind]
    refine .when (fun h => ?_) (fun h => ?_)
    · apply (x.recordError_runs route e st.fallbackCount).mono
      rintro _ _ ⟨now, t, rfl, rfl⟩
      rw [Prog.then_ok, Prog.allRuns_throw, List.append_nil]
      exact .recorded now t he hr (by simpa using h)
    · rw [Prog.then_ok, Prog.allRuns_throw]
      exact .unrecorded he hr (by simpa using h)
  next h =>
    rw [Prog.allRuns_throw]
    refine .assertion ?_
    cases he : st.lastError with
    | none => exact .inl rfl
    | some e =>
      cases hr : st.lastErrorRoute with
      | none => exact .inr rfl
      | some route => exact absurd hr (h e route he)

/-- What an attempt on one candidate can do: a trace, and how the candidate leaves the loop. -/
abbrev PassRel (α : Type) : Type :=
  RoutingCandidate → ModelRoute → LoopState → GatewayTrace → Except PyExc (Pass α) → Prop

inductive LoopRun {α : Type} (x : Exchange) (R : PassRel α) :
    List RoutingCandidate → LoopState → GatewayTrace → Except PyExc α → Prop
  | exhausted {st : LoopState} {tr : GatewayTrace} {out : Except PyExc α}
      (h : GaveUp x st tr out) : LoopRun x R [] st tr out
  | unknown {c : RoutingCandidate} {cs : List RoutingCandidate} {st : LoopState} {e : PyExc}
      (hr : svc.getRoute c.routeId = .error e) : LoopRun x R (c :: cs) st [] (.error e)
  | raised {c : RoutingCandidate} {cs : List RoutingCandidate} {st : LoopState} {tr : GatewayTrace}
      {route : ModelRoute} {e : PyExc} (hr : svc.getRoute c.routeId = .ok route)
      (hp : R c route st tr (.error e)) : LoopRun x R (c :: cs) st tr (.error e)
  | returned {c : RoutingCandidate} {cs : List RoutingCandidate} {st : LoopState}
      {tr : GatewayTrace} {route : ModelRoute} {a : α} (hr : svc.getRoute c.routeId = .ok route)
      (hp : R c route st tr (.ok (.returned a))) : LoopRun x R (c :: cs) st tr (.ok a)
  | broke {c : RoutingCandidate} {cs : List RoutingCandidate} {st st' : LoopState}
      {tr tr' : GatewayTrace} {route : ModelRoute} {out : Except PyExc α}
      (hr : svc.getRoute c.routeId = .ok route) (hp : R c route st tr (.ok (.broke st')))
      (h : GaveUp x st' tr' out) : LoopRun x R (c :: cs) st (tr ++ tr') out
  | next {c : RoutingCandidate} {cs : List RoutingCandidate} {st st' : LoopState}
      {tr tr' : GatewayTrace} {route : ModelRoute} {out : Except PyExc α}
      (hr : svc.getRoute c.routeId = .ok route) (hp : R c route st tr (.ok (.next st')))
      (h : LoopRun x R cs st' tr' out) : LoopRun x R (c :: cs) st (tr ++ tr') out

theorem candidateLoop_runs {α : Type} (x : Exchange) {R : PassRel α}
    {pass : RoutingCandidate → ModelRoute → LoopState → GatewayM (Pass α)}
    (hpass : ∀ c route st, (pass c route st).AllRuns (R c route st))
    (cs : List RoutingCandidate) (st : LoopState) :
    (svc.candidateLoop x pass cs st).AllRuns (svc.LoopRun x R cs st) := by
  induction cs generalizing st with
  | nil => exact (giveUp_runs x st).mono fun _ _ => .exhausted
  | cons c cs ih =>
    rw [candidateLoop, Prog.allRuns_bind, Prog.allRuns_ofExcept]
    cases hr : svc.getRoute c.routeId with
    | error e => exact .unknown hr
    | ok route =>
      simp only [Prog.then_ok, List.nil_append]
      rw [Prog.allRuns_bind]
      apply (hpass c route st).mono
      intro tr out hp
      cases out with
      | error e => exact .raised hr hp
      | ok p =>
        cases p with
        | returned a =>
          rw [Prog.then_ok, Prog.allRuns_pure, List.append_nil]
          exact .returned hr hp
        | broke st' => exact (giveUp_runs x st').mono fun _ _ h => .broke hr hp h
        | next st' => exact (ih st').mono fun _ _ h => .next hr hp h

/-! ## Entering an attempt -/

def admitted (route : ModelRoute) (t : ℚ) (state : CircuitState) : GatewayTrace :=
  [ev .monotonic t, ev (.beforeRequest route.id) (.ok state),
    ev (.setCircuitState route.id state) ()]

def successEvents (route : ModelRoute) (state : CircuitState) : GatewayTrace :=
  [ev (.recordSuccess route.id) state, ev (.setCircuitState route.id state) ()]

def failureEvents (route : ModelRoute) (state : CircuitState) : GatewayTrace :=
  [ev (.recordFailure route.id) state, ev (.setCircuitState route.id state) ()]

inductive EnterRun (x : Exchange) (route : ModelRoute) :
    GatewayTrace → Except PyExc (Option ℚ) → Prop
  | deadline {t : ℚ} (ht : remainingSeconds x.started x.request t ≤ 0) :
      EnterRun x route [ev .monotonic t] (.ok none)
  | refused {t : ℚ} {m : String} (ht : 0 < remainingSeconds x.started x.request t) :
      EnterRun x route [ev .monotonic t, ev (.beforeRequest route.id) (.error m)]
        (.error (.aegis (.circuitOpen m)))
  | unconfigured {t : ℚ} {state : CircuitState}
      (ht : 0 < remainingSeconds x.started x.request t) (hr : route.provider ∉ svc.adapters) :
      EnterRun x route (admitted route t state)
        (.error (.aegis (.provider (notConfigured route.provider))))
  | entered {t : ℚ} {state : CircuitState} (ht : 0 < remainingSeconds x.started x.request t)
      (hr : route.provider ∈ svc.adapters) :
      EnterRun x route (admitted route t state) (.ok (some (remainingSeconds x.started x.request t)))

theorem enter_runs (x : Exchange) (route : ModelRoute) :
    (svc.enter x route).AllRuns (svc.EnterRun x route) := by
  simp only [enter, Prog.allRuns_bind, Prog.allRuns_perform, Prog.then_ok]
  intro t
  split_ifs with ht
  · exact .deadline ht
  · rw [not_le] at ht
    simp only [beforeRequest, Prog.allRuns_bind, Prog.allRuns_op, allRuns_raising]
    intro a
    cases a with
    | error m => exact .refused ht
    | ok state =>
      simp only [Except.mapError, Prog.then_ok, Prog.allRuns_bind, Prog.allRuns_perform]
      intro _
      unfold adapter
      split_ifs with hr
      · exact .entered ht hr
      · exact .unconfigured ht hr

theorem recordSuccess_runs (route : ModelRoute) :
    (recordSuccess route.id).AllRuns fun tr out =>
      ∃ state, tr = successEvents route state ∧ out = .ok () := by
  simp [recordSuccess, successEvents]

theorem recordFailure_runs (route : ModelRoute) :
    (recordFailure route.id).AllRuns fun tr out =>
      ∃ state, tr = failureEvents route state ∧ out = .ok () := by
  simp [recordFailure, failureEvents]

/-! ## Handlers -/

/-- The handlers of either loop, as long as the consumer has seen no output. -/
inductive Handled {α : Type} (timeout : String) (route : ModelRoute) (st : LoopState) :
    PyExc → GatewayTrace → Except PyExc (Pass α) → Prop
  | schemaViolation (m : String) :
      Handled timeout route st (.aegis (.schemaViolation m)) []
        (.ok (.next (st.failed route (.schemaViolation m))))
  | circuitOpen (m : String) :
      Handled timeout route st (.aegis (.circuitOpen m))
        [ev (.setCircuitState route.id .isOpen) ()]
        (.ok (.next (st.failed route (.circuitOpen m))))
  | timeout (state : CircuitState) :
      Handled timeout route st .timeoutError (failureEvents route state)
        (.ok (.next (st.failed route (.provider (providerTimeoutError timeout route.provider)))))
  | provider (e : ProviderError) (state : CircuitState)
      (he : e.code ≠ "invalid_provider_request") :
      Handled timeout route st (.aegis (.provider e)) (failureEvents route state)
        (.ok (.next (st.failed route (.provider e))))
  | invalidRequest (e : ProviderError) (state : CircuitState)
      (he : e.code = "invalid_provider_request") :
      Handled timeout route st (.aegis (.provider e)) (failureEvents route state)
        (.ok (.broke (st.failed route (.provider e))))
  | unhandled {e : PyExc} (he : e.handled = false) : Handled timeout route st e [] (.error e)

/-- The handlers of `stream` once the consumer has seen output. -/
inductive Interrupted {α : Type} (x : Exchange) (route : ModelRoute) (st : LoopState) :
    PyExc → GatewayTrace → Except PyExc (Pass α) → Prop
  | schemaViolation (m : String) (now : ℚ) (t : Int) :
      Interrupted x route st (.aegis (.schemaViolation m))
        (x.errorEvents route (.schemaViolation m) st.fallbackCount now t)
        (.error (.aegis (.schemaViolation m)))
  | circuitOpen (m : String) :
      Interrupted x route st (.aegis (.circuitOpen m))
        [ev (.setCircuitState route.id .isOpen) ()]
        (.ok (.next (st.failed route (.circuitOpen m))))
  | timeout (state : CircuitState) (now : ℚ) (t : Int) :
      Interrupted x route st .timeoutError
        (failureEvents route state ++ x.errorEvents route
          (.provider (streamInterruptedError streamTimeout route.provider)) st.fallbackCount now t)
        (.error (.aegis (.provider (streamInterruptedError streamTimeout route.provider))))
  | provider (e : ProviderError) (state : CircuitState) (now : ℚ) (t : Int) :
      Interrupted x route st (.aegis (.provider e))
        (failureEvents route state ++ x.errorEvents route
          (.provider (streamInterruptedError e.message route.provider)) st.fallbackCount now t)
        (.error (.aegis (.provider (streamInterruptedError e.message route.provider))))
  | unhandled {e : PyExc} (he : e.handled = false) : Interrupted x route st e [] (.error e)

theorem handleComplete_runs (route : ModelRoute) (st : LoopState) (e : PyExc) :
    (handleComplete route st (.error e)).AllRuns (Handled completeTimeout route st e) := by
  unfold handleComplete
  split
  next h => cases h
  next h => cases h
  next m h =>
    cases h
    exact .schemaViolation m
  next m h =>
    cases h
    exact fun _ => .circuitOpen m
  next h =>
    cases h
    rw [Prog.allRuns_bind]
    apply (recordFailure_runs route).mono
    rintro _ _ ⟨state, rfl, rfl⟩
    rw [Prog.then_ok, Prog.allRuns_pure, List.append_nil]
    exact .timeout state
  next e' h =>
    cases h
    rw [Prog.allRuns_bind]
    apply (recordFailure_runs route).mono
    rintro _ _ ⟨state, rfl, rfl⟩
    rw [Prog.then_ok]
    split_ifs with hc <;> rw [Prog.allRuns_pure, List.append_nil]
    · exact .invalidRequest e' state hc
    · exact .provider e' state hc
  next e' h₁ h₂ h₃ h₄ h =>
    cases h
    refine .unhandled ?_
    unfold PyExc.handled
    split <;> simp_all

theorem interrupt_runs {α : Type} (x : Exchange) (route : ModelRoute) (e : AegisError) (n : Nat) :
    (interrupt x route e n : GatewayM α).AllRuns fun tr out =>
      ∃ now t, tr = x.errorEvents route e n now t ∧ out = .error (.aegis e) := by
  have h : (interrupt x route e n : GatewayM α) =
      (do x.recordError route e n; x.launchReleaseAssessment) >>= fun _ => raise (.aegis e) := by
    simp [interrupt]
  rw [h, Prog.allRuns_bind]
  apply (x.recordError_runs route e n).mono
  rintro _ _ ⟨now, t, rfl, rfl⟩
  exact ⟨now, t, by simp, rfl⟩

theorem handleStream_runs (x : Exchange) (route : ModelRoute) (st : LoopState) (e : PyExc) :
    (handleStream x route st false (.error e)).AllRuns (Handled streamTimeout route st e) := by
  unfold handleStream
  split
  next h => cases h
  next h => cases h
  next m h =>
    cases h
    exact .schemaViolation m
  next m h =>
    cases h
    exact fun _ => .circuitOpen m
  next h =>
    cases h
    rw [Prog.allRuns_bind]
    apply (recordFailure_runs route).mono
    rintro _ _ ⟨state, rfl, rfl⟩
    simp only [Prog.then_ok, Bool.false_eq_true, if_false, Prog.allRuns_pure, List.append_nil]
    exact .timeout state
  next e' h =>
    cases h
    rw [Prog.allRuns_bind]
    apply (recordFailure_runs route).mono
    rintro _ _ ⟨state, rfl, rfl⟩
    simp only [Prog.then_ok, Bool.false_eq_true, if_false]
    split_ifs with hc <;> rw [Prog.allRuns_pure, List.append_nil]
    · exact .invalidRequest e' state hc
    · exact .provider e' state hc
  next e' h₁ h₂ h₃ h₄ h =>
    cases h
    refine .unhandled ?_
    unfold PyExc.handled
    split <;> simp_all

theorem handleEmitted_runs (x : Exchange) (route : ModelRoute) (st : LoopState) (e : PyExc) :
    (handleStream x route st true (.error e)).AllRuns (Interrupted x route st e) := by
  unfold handleStream
  split
  next h => cases h
  next h => cases h
  next m h =>
    cases h
    apply (interrupt_runs x route _ _).mono
    rintro _ _ ⟨now, t, rfl, rfl⟩
    exact .schemaViolation m now t
  next m h =>
    cases h
    exact fun _ => .circuitOpen m
  next h =>
    cases h
    rw [Prog.allRuns_bind]
    apply (recordFailure_runs route).mono
    rintro _ _ ⟨state, rfl, rfl⟩
    rw [Prog.then_ok, if_pos rfl]
    apply (interrupt_runs x route _ _).mono
    rintro _ _ ⟨now, t, rfl, rfl⟩
    exact .timeout state now t
  next e' h =>
    cases h
    rw [Prog.allRuns_bind]
    apply (recordFailure_runs route).mono
    rintro _ _ ⟨state, rfl, rfl⟩
    rw [Prog.then_ok, if_pos rfl]
    apply (interrupt_runs x route _ _).mono
    rintro _ _ ⟨now, t, rfl, rfl⟩
    exact .provider e' state now t
  next e' h₁ h₂ h₃ h₄ h =>
    cases h
    refine .unhandled ?_
    unfold PyExc.handled
    split <;> simp_all

/-! ## One attempt of `generate` -/

/-- What the answer of a provider comes to: the schema is checked before it counts. -/
def judge (q : GatewayRequest) (a : Except PyExc ProviderResult) :
    Except PyExc (ProviderResult × Json × Option Bool) := do
  let result ← a
  let (parsed, schemaValid) ← svc.platform.validateSchema q result.text
  pure (result, parsed, schemaValid)

inductive GeneratePassRun (x : Exchange) : PassRel GatewayResponse
  | deadline {c : RoutingCandidate} {route : ModelRoute} {st : LoopState} {t : ℚ}
      (ht : remainingSeconds x.started x.request t ≤ 0) :
      GeneratePassRun x c route st [ev .monotonic t] (.ok (.broke (st.deadline route)))
  | refused {c : RoutingCandidate} {route : ModelRoute} {st : LoopState} {t : ℚ} {m : String}
      (ht : 0 < remainingSeconds x.started x.request t) :
      GeneratePassRun x c route st
        [ev .monotonic t, ev (.beforeRequest route.id) (.error m),
          ev (.setCircuitState route.id .isOpen) ()]
        (.ok (.next (st.failed route (.circuitOpen m))))
  | unconfigured {c : RoutingCandidate} {route : ModelRoute} {st : LoopState} {t : ℚ}
      {state : CircuitState} {tr : GatewayTrace} {out : Except PyExc (Pass GatewayResponse)}
      (ht : 0 < remainingSeconds x.started x.request t) (hr : route.provider ∉ svc.adapters)
      (hh : Handled completeTimeout route st (.aegis (.provider (notConfigured route.provider)))
        tr out) :
      GeneratePassRun x c route st (admitted route t state ++ tr) out
  | failed {c : RoutingCandidate} {route : ModelRoute} {st : LoopState} {t : ℚ}
      {state : CircuitState} {a : Except PyExc ProviderResult} {e : PyExc} {tr : GatewayTrace}
      {out : Except PyExc (Pass GatewayResponse)}
      (ht : 0 < remainingSeconds x.started x.request t) (hr : route.provider ∈ svc.adapters)
      (he : svc.judge x.request a = .error e) (hh : Handled completeTimeout route st e tr out) :
      GeneratePassRun x c route st
        (admitted route t state ++ (ev (.complete (attemptRequest x.request
          (remainingSeconds x.started x.request t)) route) a :: tr)) out
  | succeeded {c : RoutingCandidate} {route : ModelRoute} {st : LoopState} {t : ℚ}
      {state state' : CircuitState} {a : Except PyExc ProviderResult} {result : ProviderResult}
      {parsed : Json} {schemaValid : Option Bool} {now : ℚ} {createdAt createdAt' : Int}
      (ht : 0 < remainingSeconds x.started x.request t) (hr : route.provider ∈ svc.adapters)
      (ha : svc.judge x.request a = .ok (result, parsed, schemaValid)) :
      GeneratePassRun x c route st
        (admitted route t state ++ (ev (.complete (attemptRequest x.request
          (remainingSeconds x.started x.request t)) route) a ::
          (successEvents route state' ++ (ev .monotonic now :: ev .datetimeNow createdAt ::
            x.keepEvents (completeResponse x route c st.fallbackCount result parsed schemaValid
              now createdAt) createdAt'))))
        (.ok (.returned (completeResponse x route c st.fallbackCount result parsed schemaValid
          now createdAt)))

theorem generatePass_runs (x : Exchange) (c : RoutingCandidate) (route : ModelRoute)
    (st : LoopState) :
    (svc.generatePass x c route st).AllRuns (svc.GeneratePassRun x c route st) := by
  rw [generatePass, Prog.allRuns_bind, Prog.allRuns_attempt, tryComplete, Prog.allRuns_bind]
  apply (svc.enter_runs x route).mono
  intro tr out h
  cases h with
  | deadline ht => exact .deadline ht
  | refused ht => exact fun _ => .refused ht
  | unconfigured ht hr =>
    exact (handleComplete_runs route st _).mono fun _ _ hh => .unconfigured ht hr hh
  | entered ht hr =>
    simp only [Prog.then_ok, complete, Prog.allRuns_bind, Prog.allRuns_op]
    intro a
    cases a with
    | error e =>
      apply (handleComplete_runs route st e).mono
      intro _ _ hh
      simp only [List.append_assoc, List.cons_append, List.nil_append]
      exact .failed (a := .error e) ht hr rfl hh
    | ok result =>
      rw [Prog.allRuns_ofExcept, Prog.then_ok, Prog.allRuns_bind, Prog.allRuns_ofExcept]
      cases hv : svc.platform.validateSchema x.request result.text with
      | error e =>
        apply (handleComplete_runs route st e).mono
        intro _ _ hh
        simp only [List.append_assoc, List.cons_append, List.nil_append]
        exact .failed (a := .ok result) ht hr (by simp [judge, hv, bind, Except.bind]) hh
      | ok v =>
        -- The answer is accepted: the success is reported, and the response kept.
        rw [Prog.then_ok, Prog.allRuns_bind]
        apply (recordSuccess_runs route).mono
        rintro _ _ ⟨state', rfl, rfl⟩
        simp only [Prog.then_ok, Prog.allRuns_bind, Prog.allRuns_perform]
        intro now createdAt
        apply (keep_runs x _).mono
        rintro _ _ ⟨t', rfl, rfl⟩
        simp only [Prog.then_ok, Prog.allRuns_pure, handleComplete, List.append_assoc,
          List.cons_append, List.nil_append, List.append_nil]
        exact .succeeded (a := .ok result) ht hr
          (by simp [judge, hv, bind, Except.bind, pure, Except.pure])

/-! ## One attempt of `stream` -/

def Relay.delta (r : Relay) (at_ : Option ℚ) (text : String) : Relay :=
  { r with emitted := true, firstDeltaAt := at_, textParts := r.textParts ++ [text] }

def Relay.usage (r : Relay) (e : ProviderStreamEvent) : Relay :=
  { r with inputTokens := e.inputTokens.getD 0, outputTokens := e.outputTokens.getD 0 }

/-- Relaying the events of a provider, from the variables `r` to the variables `r'`. At the end
`left` says whether the consumer has left on the way. -/
inductive RelayRun (x : Exchange) (route : ModelRoute) :
    List ProviderStreamEvent → Relay → GatewayTrace → Relay → Bool → Prop
  | nil {r : Relay} : RelayRun x route [] r [] r false
  | start {e : ProviderStreamEvent} {es : List ProviderStreamEvent} {r r' : Relay}
      {tr : GatewayTrace} {left : Bool} (he : e.type = .start)
      (h : RelayRun x route es r tr r' left) :
      RelayRun x route (e :: es) r
        (ev (.yieldEvent (streamEvent x route .start "" none)) .resumes :: tr) r' left
  | startLeft {e : ProviderStreamEvent} {es : List ProviderStreamEvent} {r : Relay}
      (he : e.type = .start) :
      RelayRun x route (e :: es) r
        [ev (.yieldEvent (streamEvent x route .start "" none)) .leaves] r true
  | delta {e : ProviderStreamEvent} {es : List ProviderStreamEvent} {r r' : Relay}
      {tr timed : GatewayTrace} {at_ : Option ℚ} {left : Bool} (he : e.type = .delta)
      (ht : timed = [] ∨ ∃ t, timed = [ev .monotonic t])
      (h : RelayRun x route es (r.delta at_ e.delta) tr r' left) :
      RelayRun x route (e :: es) r
        (timed ++ ev (.yieldEvent (streamEvent x route .delta e.delta none)) .resumes :: tr) r' left
  | deltaLeft {e : ProviderStreamEvent} {es : List ProviderStreamEvent} {r : Relay}
      {timed : GatewayTrace} {at_ : Option ℚ} (he : e.type = .delta)
      (ht : timed = [] ∨ ∃ t, timed = [ev .monotonic t]) :
      RelayRun x route (e :: es) r
        (timed ++ [ev (.yieldEvent (streamEvent x route .delta e.delta none)) .leaves])
        (r.delta at_ e.delta) true
  | usage {e : ProviderStreamEvent} {es : List ProviderStreamEvent} {r r' : Relay}
      {tr : GatewayTrace} {left : Bool} (he : e.type = .usage)
      (h : RelayRun x route es (r.usage e) tr r' left) : RelayRun x route (e :: es) r tr r' left
  | other {e : ProviderStreamEvent} {es : List ProviderStreamEvent} {r r' : Relay}
      {tr : GatewayTrace} {left : Bool} (he : e.type = .done ∨ e.type = .error)
      (h : RelayRun x route es r tr r' left) : RelayRun x route (e :: es) r tr r' left

theorem deltaTime_runs (r : Relay) :
    (deltaTime r).AllRuns fun tr out =>
      (tr = [] ∨ ∃ t, tr = [ev .monotonic t]) ∧ ∃ at_, out = .ok at_ := by
  unfold deltaTime
  split_ifs
  · simp
  · simp only [Prog.allRuns_bind, Prog.allRuns_perform, Prog.then_ok, Prog.allRuns_pure]
    exact fun t => ⟨.inr ⟨t, rfl⟩, some t, rfl⟩

theorem yieldEvent_runs (e : GatewayStreamEvent) :
    (yieldEvent e).AllRuns fun tr out =>
      (tr = [ev (.yieldEvent e) .resumes] ∧ out = .ok ()) ∨
        (tr = [ev (.yieldEvent e) .leaves] ∧ out = .error .generatorExit) := by
  rw [yieldEvent, Prog.allRuns_op]
  intro c
  cases c with
  | resumes => exact .inl ⟨rfl, rfl⟩
  | leaves => exact .inr ⟨rfl, rfl⟩

theorem relay_runs (x : Exchange) (route : ModelRoute) (ending : Option PyExc)
    (es : List ProviderStreamEvent) (r : Relay) :
    (relay x route ending es r).AllRuns fun tr out => ∃ r' left, RelayRun x route es r tr r' left ∧
      out = .ok (r', if left then some .generatorExit else ending) := by
  -- The consumer may leave at each event that it is given.
  induction es generalizing r with
  | nil => exact ⟨r, false, .nil, rfl⟩
  | cons e es ih =>
    unfold relay
    split
    next he =>
      rw [Prog.allRuns_bind, Prog.allRuns_attempt]
      apply (yieldEvent_runs _).mono
      rintro _ _ (⟨rfl, rfl⟩ | ⟨rfl, rfl⟩)
      · rw [Prog.then_ok]
        apply (ih r).mono
        rintro tr _ ⟨r', left, h, rfl⟩
        exact ⟨r', left, .start he h, rfl⟩
      · exact ⟨r, true, .startLeft he, rfl⟩
    next he =>
      rw [Prog.allRuns_bind]
      apply (deltaTime_runs r).mono
      rintro timed _ ⟨ht, at_, rfl⟩
      rw [Prog.then_ok, Prog.allRuns_bind, Prog.allRuns_attempt]
      apply (yieldEvent_runs _).mono
      rintro _ _ (⟨rfl, rfl⟩ | ⟨rfl, rfl⟩)
      · rw [Prog.then_ok]
        apply (ih (r.delta at_ e.delta)).mono
        rintro tr _ ⟨r', left, h, rfl⟩
        exact ⟨r', left, .delta he ht h, rfl⟩
      · exact ⟨r.delta at_ e.delta, true, .deltaLeft he ht, rfl⟩
    next he =>
      apply (ih (r.usage e)).mono
      rintro tr _ ⟨r', left, h, rfl⟩
      exact ⟨r', left, .usage he h, rfl⟩
    next he =>
      apply (ih r).mono
      rintro tr _ ⟨r', left, h, rfl⟩
      exact ⟨r', left, .other (.inl he) h, rfl⟩
    next he =>
      apply (ih r).mono
      rintro tr _ ⟨r', left, h, rfl⟩
      exact ⟨r', left, .other (.inr he) h, rfl⟩

def streamVerdict (q : GatewayRequest) (script : Script) (r : Relay) :
    Except PyExc (Json × Option Bool) :=
  match script.ending with
  | some e => .error e
  | none => svc.platform.validateSchema q (String.join r.textParts)

/-- The handlers of `stream`, by whether output has reached the consumer. -/
def StreamHandled (x : Exchange) (route : ModelRoute) (st : LoopState) (emitted : Bool)
    (e : PyExc) (tr : GatewayTrace) (out : Except PyExc (Pass Unit)) : Prop :=
  if emitted then Interrupted x route st e tr out else Handled streamTimeout route st e tr out

inductive StreamPassRun (x : Exchange) : PassRel Unit
  | deadline {c : RoutingCandidate} {route : ModelRoute} {st : LoopState} {t : ℚ}
      (ht : remainingSeconds x.started x.request t ≤ 0) :
      StreamPassRun x c route st [ev .monotonic t] (.ok (.broke (st.deadline route)))
  | refused {c : RoutingCandidate} {route : ModelRoute} {st : LoopState} {t : ℚ} {m : String}
      (ht : 0 < remainingSeconds x.started x.request t) :
      StreamPassRun x c route st
        [ev .monotonic t, ev (.beforeRequest route.id) (.error m),
          ev (.setCircuitState route.id .isOpen) ()]
        (.ok (.next (st.failed route (.circuitOpen m))))
  | unconfigured {c : RoutingCandidate} {route : ModelRoute} {st : LoopState} {t : ℚ}
      {state : CircuitState} {tr : GatewayTrace} {out : Except PyExc (Pass Unit)}
      (ht : 0 < remainingSeconds x.started x.request t) (hr : route.provider ∉ svc.adapters)
      (hh : Handled streamTimeout route st (.aegis (.provider (notConfigured route.provider)))
        tr out) :
      StreamPassRun x c route st (admitted route t state ++ tr) out
  | left {c : RoutingCandidate} {route : ModelRoute} {st : LoopState} {t : ℚ}
      {state : CircuitState} {script : Script} {tr : GatewayTrace} {r : Relay}
      (ht : 0 < remainingSeconds x.started x.request t) (hr : route.provider ∈ svc.adapters)
      (h : RelayRun x route script.events {} tr r true) :
      StreamPassRun x c route st
        (admitted route t state ++ (ev (.openStream (attemptRequest x.request
          (remainingSeconds x.started x.request t)) route) script :: tr)) (.error .generatorExit)
  | failed {c : RoutingCandidate} {route : ModelRoute} {st : LoopState} {t : ℚ}
      {state : CircuitState} {script : Script} {tr tr' : GatewayTrace} {r : Relay} {e : PyExc}
      {out : Except PyExc (Pass Unit)}
      (ht : 0 < remainingSeconds x.started x.request t) (hr : route.provider ∈ svc.adapters)
      (h : RelayRun x route script.events {} tr r false)
      (he : svc.streamVerdict x.request script r = .error e)
      (hh : StreamHandled x route st r.emitted e tr' out) :
      StreamPassRun x c route st
        (admitted route t state ++ (ev (.openStream (attemptRequest x.request
          (remainingSeconds x.started x.request t)) route) script :: (tr ++ tr'))) out
  | succeeded {c : RoutingCandidate} {route : ModelRoute} {st : LoopState} {t : ℚ}
      {state state' : CircuitState} {script : Script} {tr : GatewayTrace} {r : Relay}
      {parsed : Json} {schemaValid : Option Bool} {now : ℚ} {createdAt createdAt' : Int}
      {consumer : Consumer}
      (ht : 0 < remainingSeconds x.started x.request t) (hr : route.provider ∈ svc.adapters)
      (h : RelayRun x route script.events {} tr r false)
      (hv : svc.streamVerdict x.request script r = .ok (parsed, schemaValid)) :
      StreamPassRun x c route st
        (admitted route t state ++ (ev (.openStream (attemptRequest x.request
          (remainingSeconds x.started x.request t)) route) script :: (tr ++
          (successEvents route state' ++ (ev .monotonic now :: ev .datetimeNow createdAt ::
            (x.keepEvents (streamResponse x route c st.fallbackCount r parsed schemaValid now
              createdAt) createdAt' ++
            [ev (.yieldEvent (streamEvent x route .done "" (some (streamResponse x route c
              st.fallbackCount r parsed schemaValid now createdAt)))) consumer]))))))
        (match consumer with
          | .resumes => .ok (.returned ())
          | .leaves => .error .generatorExit)

theorem finishStream_runs (x : Exchange) (c : RoutingCandidate) (route : ModelRoute) (n : Nat)
    (r : Relay) :
    (svc.finishStream x c route n r).AllRuns fun tr out =>
      (∃ e, svc.platform.validateSchema x.request (String.join r.textParts) = .error e ∧
        tr = [] ∧ out = .error e) ∨
      ∃ parsed valid state now t t' consumer,
        svc.platform.validateSchema x.request (String.join r.textParts) = .ok (parsed, valid) ∧
        tr = successEvents route state ++ (ev .monotonic now :: ev .datetimeNow t ::
          (x.keepEvents (streamResponse x route c n r parsed valid now t) t' ++
            [ev (.yieldEvent (streamEvent x route .done "" (some
              (streamResponse x route c n r parsed valid now t)))) consumer])) ∧
        out = match consumer with
          | .resumes => .ok (.done ())
          | .leaves => .error .generatorExit := by
  rw [finishStream, Prog.allRuns_bind, Prog.allRuns_ofExcept]
  cases hv : svc.platform.validateSchema x.request (String.join r.textParts) with
  | error e => exact .inl ⟨e, rfl, rfl, rfl⟩
  | ok v =>
    obtain ⟨parsed, valid⟩ := v
    rw [Prog.then_ok, Prog.allRuns_bind]
    apply (recordSuccess_runs route).mono
    rintro _ _ ⟨state, rfl, rfl⟩
    simp only [Prog.then_ok, Prog.allRuns_bind, Prog.allRuns_perform]
    intro now t
    apply (keep_runs x _).mono
    rintro _ _ ⟨t', rfl, rfl⟩
    rw [Prog.then_ok, Prog.allRuns_bind]
    apply (yieldEvent_runs _).mono
    rintro _ _ (⟨rfl, rfl⟩ | ⟨rfl, rfl⟩)
    · refine .inr ⟨parsed, valid, state, now, t, t', .resumes, rfl, ?_, rfl⟩
      simp
    · refine .inr ⟨parsed, valid, state, now, t, t', .leaves, rfl, ?_, rfl⟩
      simp

theorem streamPass_runs (x : Exchange) (c : RoutingCandidate) (route : ModelRoute)
    (st : LoopState) :
    (svc.streamPass x c route st).AllRuns (svc.StreamPassRun x c route st) := by
  rw [streamPass, Prog.allRuns_bind, tryStream, Prog.allRuns_bind, Prog.allRuns_attempt]
  apply (svc.enter_runs x route).mono
  intro tr out h
  cases h with
  | deadline ht => exact .deadline ht
  | refused ht => exact fun _ => .refused ht
  | unconfigured ht hr =>
    exact (handleStream_runs x route st _).mono fun _ _ hh => .unconfigured ht hr hh
  | @entered t state₀ ht hr =>
    simp only [Prog.then_ok, Prog.allRuns_bind, Prog.allRuns_perform]
    intro script
    apply (relay_runs x route script.ending script.events {}).mono
    rintro tr _ ⟨r, left, hrelay, rfl⟩
    cases left with
    | true =>
      simp only [if_true, Prog.then_ok, Prog.allRuns_pure, List.append_nil, List.append_assoc,
        List.cons_append, List.nil_append]
      -- `GeneratorExit` has no handler, with or without output.
      have hleft : (handleStream x route st r.emitted (.error .generatorExit)).AllRuns
          fun tr out => tr = [] ∧ out = .error .generatorExit := ⟨rfl, rfl⟩
      apply hleft.mono
      rintro _ _ ⟨rfl, rfl⟩
      simpa using StreamPassRun.left ht hr hrelay
    | false =>
      have hfail : ∀ e, svc.streamVerdict x.request script r = .error e →
          (handleStream x route st r.emitted (.error e)).AllRuns fun tr' out =>
            svc.StreamPassRun x c route st (admitted route t state₀ ++ (ev (.openStream
              (attemptRequest x.request (remainingSeconds x.started x.request t)) route) script ::
              (tr ++ tr'))) out := by
        intro e he
        cases hem : r.emitted with
        | true =>
          exact (handleEmitted_runs x route st e).mono fun _ _ hh =>
            .failed ht hr hrelay he (by simpa [StreamHandled, hem] using hh)
        | false =>
          exact (handleStream_runs x route st e).mono fun _ _ hh =>
            .failed ht hr hrelay he (by simpa [StreamHandled, hem] using hh)
      cases hend : script.ending with
      | some e =>
        simp only [Prog.then_ok, Prog.allRuns_pure, List.append_nil, List.append_assoc,
          List.cons_append, List.nil_append, Bool.false_eq_true, if_false]
        exact hfail e (by simp [streamVerdict, hend])
      | none =>
        simp only [Prog.then_ok, Bool.false_eq_true, if_false]
        rw [Prog.allRuns_bind, Prog.allRuns_attempt]
        apply (svc.finishStream_runs x c route st.fallbackCount r).mono
        rintro _ _ (⟨e, he, rfl, rfl⟩ | ⟨parsed, valid, state, now, t₁, t', consumer, hv, rfl, rfl⟩)
        · simp only [Prog.then_ok, Prog.allRuns_pure, List.append_nil, List.append_assoc,
            List.cons_append, List.nil_append]
          exact hfail e (by simp [streamVerdict, hend, he])
        · have hv' : svc.streamVerdict x.request script r = .ok (parsed, valid) := by
            simp [streamVerdict, hend, hv]
          cases consumer with
          | resumes =>
            have h := @StreamPassRun.succeeded svc x c route st _ state₀ state script tr r parsed
              valid now t₁ t' .resumes ht hr hrelay hv'
            simpa [handleStream] using h
          | leaves =>
            have h := @StreamPassRun.succeeded svc x c route st _ state₀ state script tr r parsed
              valid now t₁ t' .leaves ht hr hrelay hv'
            simpa [handleStream, raise] using h

/-! ## Whole calls -/

/-- A call, by the way it finds its answer. -/
inductive CallRun {α : Type} (args : Arguments)
    (served : Exchange → GatewayResponse → GatewayTrace → Except PyExc α → Prop)
    (R : Exchange → PassRel α) : GatewayTrace → Except PyExc α → Prop
  | stopped {tr : GatewayTrace} {e : PyExc} (h : svc.ApproachRun args tr (.error e)) :
      CallRun args served R tr (.error e)
  | served {tr tr' : GatewayTrace} {x : Exchange} {hit : GatewayResponse} {out : Except PyExc α}
      (h : svc.ApproachRun args tr (.ok (x, .cache hit))) (hs : served x hit tr' out) :
      CallRun args served R (tr ++ tr') out
  | looped {tr tr' : GatewayTrace} {x : Exchange} {d : RoutingDecision} {out : Except PyExc α}
      (h : svc.ApproachRun args tr (.ok (x, .decision d)))
      (hl : svc.LoopRun x (R x) (orderedCandidates d) {} tr' out) :
      CallRun args served R (tr ++ tr') out

def cachedResponse (x : Exchange) (hit : GatewayResponse) (now : ℚ) (createdAt : Int) :
    GatewayResponse :=
  { x.servedFromCache hit ((now - x.started) * 1000) with createdAt }

inductive ServedRun (x : Exchange) (hit : GatewayResponse) :
    GatewayTrace → Except PyExc GatewayResponse → Prop
  | served (now : ℚ) (t t' : Int) :
      ServedRun x hit
        (ev .monotonic now :: ev .datetimeNow t ::
          (x.rowEvents (cachedResponse x hit now t) t' ++ x.launchEvents))
        (.ok (cachedResponse x hit now t))

theorem serveCached_runs (x : Exchange) (hit : GatewayResponse) :
    (serveCached x hit).AllRuns (ServedRun x hit) := by
  simp only [serveCached, Prog.allRuns_bind, Prog.allRuns_perform, Prog.then_ok]
  intro now t
  apply (x.recordResponse_runs _).mono
  rintro _ _ ⟨t', rfl, rfl⟩
  rw [Prog.then_ok, Prog.allRuns_bind]
  apply x.launchPostResponse_runs.mono
  rintro _ _ ⟨rfl, rfl⟩
  simpa [cachedResponse] using ServedRun.served now t t'

def streamedHit (x : Exchange) (hit : GatewayResponse) (now : ℚ) : GatewayResponse :=
  x.servedFromCache hit ((now - x.started) * 1000)

def hitEvent (x : Exchange) (hit : GatewayResponse) (type : GatewayEventType) (delta : String)
    (response : Option GatewayResponse) (consumer : Consumer) : GatewayEvent :=
  ev (.yieldEvent (cachedEvent x hit type delta response)) consumer

/-- The consumer may leave at each of the three events. -/
inductive StreamServedRun (x : Exchange) (hit : GatewayResponse) :
    GatewayTrace → Except PyExc Unit → Prop
  | leftAtStart (now : ℚ) :
      StreamServedRun x hit
        [ev .monotonic now, hitEvent x (streamedHit x hit now) .start "" none .leaves]
        (.error .generatorExit)
  | leftAtDelta (now : ℚ) :
      StreamServedRun x hit
        [ev .monotonic now, hitEvent x (streamedHit x hit now) .start "" none .resumes,
          hitEvent x (streamedHit x hit now) .delta (streamedHit x hit now).text none .leaves]
        (.error .generatorExit)
  | served (now : ℚ) (t : Int) (consumer : Consumer) :
      StreamServedRun x hit
        (ev .monotonic now :: hitEvent x (streamedHit x hit now) .start "" none .resumes ::
          hitEvent x (streamedHit x hit now) .delta (streamedHit x hit now).text none .resumes ::
          (x.rowEvents (streamedHit x hit now) t ++ (x.launchEvents ++
            [hitEvent x (streamedHit x hit now) .done "" (some (streamedHit x hit now)) consumer])))
        (match consumer with
          | .resumes => .ok ()
          | .leaves => .error .generatorExit)

theorem streamCached_runs (x : Exchange) (hit : GatewayResponse) :
    (streamCached x hit).AllRuns (StreamServedRun x hit) := by
  simp only [streamCached, Prog.allRuns_bind, Prog.allRuns_perform, Prog.then_ok]
  intro now
  apply (yieldEvent_runs _).mono
  rintro _ _ (⟨rfl, rfl⟩ | ⟨rfl, rfl⟩)
  swap
  · exact .leftAtStart now
  rw [Prog.then_ok, Prog.allRuns_bind]
  apply (yieldEvent_runs _).mono
  rintro _ _ (⟨rfl, rfl⟩ | ⟨rfl, rfl⟩)
  swap
  · exact .leftAtDelta now
  rw [Prog.then_ok, Prog.allRuns_bind]
  apply (x.recordResponse_runs _).mono
  rintro _ _ ⟨t, rfl, rfl⟩
  rw [Prog.then_ok, Prog.allRuns_bind]
  apply x.launchPostResponse_runs.mono
  rintro _ _ ⟨rfl, rfl⟩
  rw [Prog.then_ok]
  apply (yieldEvent_runs _).mono
  rintro _ _ (⟨rfl, rfl⟩ | ⟨rfl, rfl⟩)
  all_goals simp only [List.cons_append, List.nil_append]
  · exact .served now t .resumes
  · exact .served now t .leaves

theorem generate_runs (args : Arguments) :
    (svc.generate args).AllRuns (svc.CallRun args ServedRun svc.GeneratePassRun) := by
  rw [generate, Prog.allRuns_bind]
  apply (svc.approach_runs args).mono
  intro tr out h
  cases out with
  | error e => exact .stopped h
  | ok a =>
    obtain ⟨x, origin⟩ := a
    cases origin with
    | cache hit =>
      rw [Prog.then_ok]
      exact (serveCached_runs x hit).mono fun _ _ hs => .served h hs
    | decision d =>
      rw [Prog.then_ok]
      exact (svc.candidateLoop_runs x (svc.generatePass_runs x) _ _).mono fun _ _ hl =>
        .looped h hl

theorem stream_runs (q : GatewayRequest) (forced : Option String) :
    (svc.stream q forced).AllRuns
      (svc.CallRun { request := q, forcedRouteId := forced } StreamServedRun
        svc.StreamPassRun) := by
  rw [stream, Prog.allRuns_bind]
  apply (svc.approach_runs _).mono
  intro tr out h
  cases out with
  | error e => exact .stopped h
  | ok a =>
    obtain ⟨x, origin⟩ := a
    cases origin with
    | cache hit =>
      rw [Prog.then_ok]
      exact (streamCached_runs x hit).mono fun _ _ hs => .served h hs
    | decision d =>
      rw [Prog.then_ok]
      exact (svc.candidateLoop_runs x (svc.streamPass_runs x) _ _).mono fun _ _ hl =>
        .looped h hl

/-! ## Kinds of operations -/

/-- What a call does up to its routing decision. -/
def approaching (o : Op) : Bool :=
  preliminary o || match o with
    | .cacheGet _ _ | .isAvailable _ => true
    | _ => false

def bookkeeping : Op → Bool
  | .monotonic | .datetimeNow | .recordMetric _ | .cachePut _ _ _ | .createTask _ => true
  | _ => false

def settling : Op → Bool
  | .recordFailure _ | .setCircuitState _ _ | .monotonic | .datetimeNow | .recordMetric _
  | .createTask _ => true
  | _ => false

def relaying : Op → Bool
  | .monotonic | .yieldEvent _ => true
  | _ => false

def controlling : Op → Bool
  | .monotonic | .datetimeNow | .uuid4 | .snapshots | .cacheClear | .getArtifact _ _ _
  | .putArtifact _ _ _ _ | .createRelease _ | .getRelease _ | .setState _ _
  | .recordRollback _ _ _ | .metrics _ _ _ _ | .putEvaluation _ => true
  | _ => false

def writtenState : Call → Option ReleaseState
  | .assess _ | .rollback _ _ => some .rolledBack
  | .promote _ => some .active
  | .startCanary _ _ _ => some .candidate
  | _ => none

def createdBody : Call → Option Release
  | .createRelease body => some body
  | _ => none

def controls (call : Call) : Op → Bool
  | .setState _ state => writtenState call = some state
  | .createRelease body => createdBody call = some body
  | o => controlling o

theorem controlling_of_controls {call : Call} {o : Op} (h : controls call o = true) :
    controlling o = true := by
  cases o <;> first | rfl | exact h

/-- What a call of the data plane may do: everything but to write to the registries. -/
def serving : Op → Bool
  | .putArtifact _ _ _ _ | .createRelease _ | .setState _ _ | .recordRollback _ _ _
  | .putEvaluation _ => false
  | _ => true

theorem serving_of_approaching {o : Op} (h : approaching o = true) : serving o = true := by
  cases o <;> first | rfl | cases h

theorem serving_of_settling {o : Op} (h : settling o = true) : serving o = true := by
  cases o <;> first | rfl | cases h

def evaluating : Op → Bool
  | .uuid4 | .datetimeNow | .getArtifact _ _ _ | .putEvaluation _ => true
  | _ => false

theorem controls_of_evaluating {call : Call} {o : Op} (h : evaluating o = true) :
    controls call o = true := by
  cases o <;> first | rfl | cases h

def yieldOf : Op → Option GatewayStreamEvent
  | .yieldEvent v => some v
  | _ => none

theorem yieldOf_of_settling {o : Op} (h : settling o = true) : yieldOf o = none := by
  cases o <;> first | rfl | cases h

theorem yieldOf_of_bookkeeping {o : Op} (h : bookkeeping o = true) : yieldOf o = none := by
  cases o <;> first | rfl | cases h

theorem yieldOf_of_approaching {o : Op} (h : approaching o = true) : yieldOf o = none := by
  cases o <;> first | rfl | cases h

variable {svc}

theorem missEvents_approaching (x : Exchange) : ∀ e ∈ missEvents x, approaching e.1 := by
  unfold missEvents
  split_ifs <;> simp [approaching]

theorem asked_approaching (xs : List (ModelRoute × Bool)) : ∀ e ∈ asked xs, approaching e.1 := by
  intro e he
  obtain ⟨a, -, rfl⟩ := List.mem_map.mp he
  simp [approaching]

theorem Begun.approaching {args : Arguments} {tr : GatewayTrace} {x : Exchange}
    (h : svc.Begun args tr x) : ∀ e ∈ tr, approaching e.1 :=
  fun e he => by simp [Service.approaching, h.preliminary e he]

theorem ApproachRun.approaching {args : Arguments} {tr : GatewayTrace}
    {out : Except PyExc (Exchange × Origin)} (h : svc.ApproachRun args tr out) :
    ∀ e ∈ tr, approaching e.1 := by
  intro e he
  cases h with
  | stopped h => simp [Service.approaching, h e he]
  | hit hb =>
    rcases List.mem_append.mp he with he | he
    · exact hb.approaching e he
    · rw [List.mem_singleton] at he
      subst he
      simp [Service.approaching]
  | unroutable hb | decided hb =>
    rcases List.mem_append.mp he with he | he
    · exact hb.approaching e he
    · rcases List.mem_append.mp he with he | he
      · exact missEvents_approaching _ e he
      · exact asked_approaching _ e he

theorem ApproachRun.begun {args : Arguments} {tr : GatewayTrace} {x : Exchange} {origin : Origin}
    (h : svc.ApproachRun args tr (.ok (x, origin))) :
    ∃ tr₀, tr₀ ⊆ tr ∧ svc.Begun args tr₀ x := by
  cases h with
  | hit hb | decided hb => exact ⟨_, List.subset_append_left _ _, hb⟩

theorem LoopRun.returns {α : Type} {x : Exchange} {R : PassRel α} {cs : List RoutingCandidate}
    {st : LoopState} {tr : GatewayTrace} {a : α} (h : svc.LoopRun x R cs st tr (.ok a)) :
    ∃ c ∈ cs, ∃ route st' tr₀ tr', svc.getRoute c.routeId = .ok route ∧ tr = tr₀ ++ tr' ∧
      R c route st' tr' (.ok (.returned a)) := by
  generalize hout : (Except.ok a : Except PyExc α) = out at h
  induction h with
  | exhausted h | broke _ _ h => cases h <;> cases hout
  | unknown | raised => cases hout
  | returned hr hp =>
    cases hout
    exact ⟨_, List.mem_cons_self, _, _, [], _, hr, rfl, hp⟩
  | next _ _ _ ih =>
    obtain ⟨c, hc, route, st', tr₀, tr', hr, rfl, hp⟩ := ih hout
    exact ⟨c, List.mem_cons_of_mem _ hc, route, st', _ ++ tr₀, tr', hr,
      (List.append_assoc _ _ _).symm, hp⟩

theorem assessEvents_tasks (x : Exchange) :
    ∀ e ∈ x.assessEvents, ∃ call, e = ev (.createTask call) () := by
  unfold Exchange.assessEvents
  split <;> simp

theorem launchEvents_tasks (x : Exchange) :
    ∀ e ∈ x.launchEvents, ∃ call, e = ev (.createTask call) () := by
  have h := assessEvents_tasks x
  unfold Exchange.launchEvents Exchange.shadowEvents
  cases x.assignment.shadowRouteId <;> split_ifs <;> simp_all

theorem bookkeeping_of_task {e : GatewayEvent} (h : ∃ call, e = ev (.createTask call) ()) :
    bookkeeping e.1 = true := by
  obtain ⟨call, rfl⟩ := h
  rfl

theorem errorEvents_bookkeeping (x : Exchange) (route : ModelRoute) (error : AegisError) (n : Nat)
    (now : ℚ) (t : Int) : ∀ e ∈ x.errorEvents route error n now t, bookkeeping e.1 := by
  have h := fun e he => bookkeeping_of_task (assessEvents_tasks x e he)
  simpa [Exchange.errorEvents, bookkeeping] using h

theorem settling_of_task {e : GatewayEvent} (h : ∃ call, e = ev (.createTask call) ()) :
    settling e.1 = true := by
  obtain ⟨call, rfl⟩ := h
  rfl

theorem errorEvents_settling (x : Exchange) (route : ModelRoute) (error : AegisError) (n : Nat)
    (now : ℚ) (t : Int) : ∀ e ∈ x.errorEvents route error n now t, settling e.1 := by
  have h := fun e he => settling_of_task (assessEvents_tasks x e he)
  simpa [Exchange.errorEvents, settling] using h

theorem Handled.settling {α : Type} {timeout : String} {route : ModelRoute} {st : LoopState}
    {e : PyExc} {tr : GatewayTrace} {out : Except PyExc (Pass α)}
    (h : Handled timeout route st e tr out) : ∀ e ∈ tr, settling e.1 := by
  cases h <;> simp [failureEvents, Service.settling]

theorem StreamHandled.settling {x : Exchange} {route : ModelRoute} {st : LoopState}
    {emitted : Bool} {e : PyExc} {tr : GatewayTrace} {out : Except PyExc (Pass Unit)}
    (h : StreamHandled x route st emitted e tr out) : ∀ e ∈ tr, settling e.1 := by
  cases emitted with
  | false => exact Handled.settling h
  | true =>
    have h : Interrupted x route st e tr out := h
    cases h with
    | schemaViolation m now t => exact errorEvents_settling x route _ _ now t
    | circuitOpen => simp [Service.settling]
    | timeout state now t | provider e state now t =>
      simpa [failureEvents, Service.settling] using errorEvents_settling x route _ _ now t
    | unhandled => simp

theorem GaveUp.settling {α : Type} {x : Exchange} {st : LoopState} {tr : GatewayTrace}
    {out : Except PyExc α} (h : GaveUp x st tr out) : ∀ e ∈ tr, settling e.1 := by
  cases h with
  | unrecorded | assertion => simp
  | recorded now t => exact errorEvents_settling x _ _ _ now t

/-- Every event of the loop belongs to one of its attempts, or comes when it has given up. -/
theorem LoopRun.events {α : Type} {x : Exchange} {R : PassRel α} {ψ : GatewayEvent → Prop}
    {φ : ModelRoute → GatewayEvent → Prop}
    (hG : ∀ st tr (out : Except PyExc α), GaveUp x st tr out → ∀ e ∈ tr, ψ e)
    (hR : ∀ c route st tr out, R c route st tr out → ∀ e ∈ tr, φ route e)
    {cs : List RoutingCandidate} {st : LoopState} {tr : GatewayTrace} {out : Except PyExc α}
    (h : svc.LoopRun x R cs st tr out) : ∀ e ∈ tr, ψ e ∨
      ∃ c ∈ cs, ∃ route, svc.getRoute c.routeId = .ok route ∧ φ route e := by
  induction h with
  | exhausted h => exact fun e he => .inl (hG _ _ _ h e he)
  | unknown => simp
  | raised hr hp | returned hr hp =>
    exact fun e he => .inr ⟨_, List.mem_cons_self, _, hr, hR _ _ _ _ _ hp e he⟩
  | broke hr hp h =>
    intro e he
    rcases List.mem_append.mp he with he | he
    · exact .inr ⟨_, List.mem_cons_self, _, hr, hR _ _ _ _ _ hp e he⟩
    · exact .inl (hG _ _ _ h e he)
  | next hr hp h ih =>
    intro e he
    rcases List.mem_append.mp he with he | he
    · exact .inr ⟨_, List.mem_cons_self, _, hr, hR _ _ _ _ _ hp e he⟩
    · rcases ih e he with ha | ⟨c, hc, route, hroute, hφ⟩
      · exact .inl ha
      · exact .inr ⟨c, List.mem_cons_of_mem _ hc, route, hroute, hφ⟩

theorem LoopRun.keeps {α : Type} {x : Exchange} {R : PassRel α} {P : GatewayTrace → Prop}
    (hP : Prog.Closed P) (hG : ∀ st tr (out : Except PyExc α), GaveUp x st tr out → P tr)
    (hR : ∀ c route st tr out, R c route st tr out → P tr) {cs : List RoutingCandidate}
    {st : LoopState} {tr : GatewayTrace} {out : Except PyExc α} (h : svc.LoopRun x R cs st tr out) :
    P tr := by
  induction h with
  | exhausted h => exact hG _ _ _ h
  | unknown => exact hP.nil
  | raised hr hp | returned hr hp => exact hR _ _ _ _ _ hp
  | broke hr hp h => exact hP.append (hR _ _ _ _ _ hp) (hG _ _ _ h)
  | next hr hp h ih => exact hP.append (hR _ _ _ _ _ hp) ih

theorem CallRun.keeps {α : Type} {args : Arguments}
    {served : Exchange → GatewayResponse → GatewayTrace → Except PyExc α → Prop}
    {R : Exchange → PassRel α} {P : GatewayTrace → Prop} (hP : Prog.Closed P)
    (happroach : ∀ tr out, svc.ApproachRun args tr out → P tr)
    (hserved : ∀ x hit tr out, served x hit tr out → P tr)
    (hG : ∀ x st tr (out : Except PyExc α), GaveUp x st tr out → P tr)
    (hR : ∀ x c route st tr out, R x c route st tr out → P tr)
    {tr : GatewayTrace} {out : Except PyExc α} (h : svc.CallRun args served R tr out) : P tr := by
  cases h with
  | stopped h => exact happroach _ _ h
  | served h hs => exact hP.append (happroach _ _ h) (hserved _ _ _ _ hs)
  | looped h hl => exact hP.append (happroach _ _ h) (hl.keeps hP (hG _) (hR _))

theorem keepEvents_bookkeeping (x : Exchange) (response : GatewayResponse) (t : Int) :
    ∀ e ∈ x.keepEvents response t, bookkeeping e.1 := by
  have h := fun e he => bookkeeping_of_task (launchEvents_tasks x e he)
  unfold Exchange.keepEvents Exchange.putEvents Exchange.rowEvents
  split_ifs <;> simpa [bookkeeping] using h

theorem RelayRun.relaying {x : Exchange} {route : ModelRoute} {es : List ProviderStreamEvent}
    {r r' : Relay} {tr : GatewayTrace} {left : Bool} (h : RelayRun x route es r tr r' left) :
    ∀ e ∈ tr, relaying e.1 := by
  induction h with
  | nil => simp
  | start _ _ ih => simpa [Service.relaying] using ih
  | startLeft => simp [Service.relaying]
  | delta _ ht _ ih => rcases ht with rfl | ⟨t, rfl⟩ <;> simpa [Service.relaying] using ih
  | deltaLeft _ ht => rcases ht with rfl | ⟨t, rfl⟩ <;> simp [Service.relaying]
  | usage _ _ ih | other _ _ ih => exact ih

def Relayed (x : Exchange) (route : ModelRoute) (v : GatewayStreamEvent) : Prop :=
  ∃ type delta, type ≠ .done ∧ v = streamEvent x route type delta none

theorem RelayRun.yields {x : Exchange} {route : ModelRoute} {es : List ProviderStreamEvent}
    {r r' : Relay} {tr : GatewayTrace} {left : Bool} (h : RelayRun x route es r tr r' left) :
    ∀ e ∈ tr, ∀ v, e.1 = .yieldEvent v → Relayed x route v := by
  have hstart : Relayed x route (streamEvent x route .start "" none) := ⟨_, _, by simp, rfl⟩
  have hdelta : ∀ delta, Relayed x route (streamEvent x route .delta delta none) :=
    fun delta => ⟨_, _, by simp, rfl⟩
  induction h with
  | nil => simp
  | start _ _ ih => simpa using ⟨hstart, ih⟩
  | startLeft => simpa using hstart
  | delta _ ht _ ih => rcases ht with rfl | ⟨t, rfl⟩ <;> simpa using ⟨hdelta _, ih⟩
  | deltaLeft _ ht => rcases ht with rfl | ⟨t, rfl⟩ <;> simpa using hdelta _
  | usage _ _ ih | other _ _ ih => exact ih

theorem RelayRun.leaves {x : Exchange} {route : ModelRoute} {es : List ProviderStreamEvent}
    {r r' : Relay} {tr : GatewayTrace} {left : Bool} (h : RelayRun x route es r tr r' left) :
    left = true ↔ ∃ e, ev (.yieldEvent e) .leaves ∈ tr := by
  induction h with
  | nil => simp
  | start _ _ ih => simpa using ih
  | startLeft => simp
  | delta _ ht _ ih => rcases ht with rfl | ⟨t, rfl⟩ <;> simpa using ih
  | deltaLeft _ ht => rcases ht with rfl | ⟨t, rfl⟩ <;> simp
  | usage _ _ ih | other _ _ ih => exact ih

def deltaTexts (es : List ProviderStreamEvent) : List String :=
  (es.filter (·.type = .delta)).map (·.delta)

theorem RelayRun.textParts {x : Exchange} {route : ModelRoute} {es : List ProviderStreamEvent}
    {r r' : Relay} {tr : GatewayTrace} (h : RelayRun x route es r tr r' false) :
    r'.textParts = r.textParts ++ deltaTexts es := by
  generalize hl : false = left at h
  induction h with
  | nil => simp [deltaTexts]
  | start he _ ih | usage he _ ih => simp [ih hl, deltaTexts, he, Relay.usage]
  | startLeft | deltaLeft => cases hl
  | delta he _ _ ih => simp [ih hl, deltaTexts, he, Relay.delta]
  | other he _ ih => rcases he with he | he <;> simp [ih hl, deltaTexts, he]

def usageAfter (used : Nat × Nat) (e : ProviderStreamEvent) : Nat × Nat :=
  if e.type = .usage then (e.inputTokens.getD 0, e.outputTokens.getD 0) else used

def lastUsage (events : List ProviderStreamEvent) : Nat × Nat := events.foldl usageAfter (0, 0)

def scriptVerdict (svc : Service) (q : GatewayRequest) (script : Script) :
    Except PyExc (Json × Option Bool) :=
  match script.ending with
  | some e => .error e
  | none => svc.platform.validateSchema q (String.join (deltaTexts script.events))

theorem RelayRun.verdict {x : Exchange} {route : ModelRoute} {script : Script} {r : Relay}
    {tr : GatewayTrace} (h : RelayRun x route script.events {} tr r false) (q : GatewayRequest) :
    svc.streamVerdict q script r = svc.scriptVerdict q script := by
  cases hs : script.ending <;> simp [streamVerdict, scriptVerdict, hs, h.textParts]

/-! ## All calls -/

/-- The arguments that a call of the data plane runs under. -/
def callArguments : Call → Option Arguments
  | .generate request forced | .stream request forced =>
    some { request, forcedRouteId := forced }
  | .shadow request routeId releaseId =>
    some
      { request, forcedRouteId := some routeId, shadow := true
        assignmentOverride := some { releaseId } }
  | _ => none

section Bodies

variable {P : GatewayTrace → Prop} (hP : Prog.Closed P)

include hP

theorem runCases_leaves (hg : ∀ request forcedRouteId,
      (svc.generate { request, forcedRouteId, evaluation := true }).Leaves P)
    (hc : ∀ e, evaluating e.1 → P [e]) (routeId : String)
    (cases : List EvaluationCase) : (svc.runCases routeId cases).Leaves P := by
  induction cases with
  | nil => exact Prog.leaves_pure hP _
  | cons case cases ih =>
    rw [runCases]
    apply Prog.leaves_bind hP (Prog.leaves_perform fun a => hc _ rfl)
    intro id
    apply Prog.leaves_bind hP (Prog.leaves_ofExcept hP _)
    intro request
    apply Prog.leaves_bind hP (Prog.leaves_attempt (hg _ _))
    intro out
    refine Prog.leaves_bind hP ?_ fun result => ?_
    · cases out with
      | ok response => exact Prog.leaves_pure hP _
      | error e =>
        simp only [caseOutcome]
        split_ifs
        · exact Prog.leaves_pure hP _
        · exact Prog.leaves_throw hP _
    · exact Prog.leaves_bind hP ih fun results => Prog.leaves_pure hP _

theorem runEvaluation_leaves (hg : ∀ request forcedRouteId,
      (svc.generate { request, forcedRouteId, evaluation := true }).Leaves P)
    (hc : ∀ e, evaluating e.1 → P [e]) (datasetName : String)
    (datasetVersion : Option String) (routeId : String) :
    (svc.runEvaluation datasetName datasetVersion routeId).Leaves P := by
  rw [runEvaluation]
  refine Prog.leaves_bind hP (Prog.leaves_op hP (fun a => hc _ rfl) fun a => ?_) fun artifact => ?_
  · exact Prog.leaves_ofExcept hP _
  apply Prog.leaves_bind hP (Prog.leaves_ofExcept hP _)
  intro cases
  apply Prog.leaves_bind hP (runCases_leaves hP hg hc routeId cases)
  intro results
  apply Prog.leaves_bind hP (Prog.leaves_perform fun a => hc _ rfl)
  intro id
  apply Prog.leaves_bind hP (Prog.leaves_perform fun a => hc _ rfl)
  intro createdAt
  exact Prog.leaves_bind hP (Prog.leaves_perform fun a => hc _ rfl) fun _ => Prog.leaves_pure hP _

/-- What the two coroutines of the data plane keep, and the control plane does not touch, is kept
by every call. -/
theorem body_leaves_cases {call : Call}
    (hg : ∀ args, callArguments call = some args ∨
      (∃ request forcedRouteId, args = { request, forcedRouteId, evaluation := true }) →
        (svc.generate args).Leaves P)
    (hs : ∀ q forced, call = .stream q forced → (svc.stream q forced).Leaves P)
    (hc : ∀ e, controls call e.1 → P [e]) : (svc.body call).Leaves P := by
  have hrun : ∀ datasetName datasetVersion routeId,
      (svc.runEvaluation datasetName datasetVersion routeId).Leaves P :=
    runEvaluation_leaves hP (fun _ _ => hg _ (.inr ⟨_, _, rfl⟩)) fun e he =>
      hc e (controls_of_evaluating he)
  have hset : ∀ releaseId state, writtenState call = some state →
      (setState releaseId state).Leaves P := fun _ _ hstate =>
    Prog.leaves_op hP (fun a => hc _ (decide_eq_true hstate)) fun a => Prog.leaves_ofExcept hP _
  have hget : ∀ releaseId, (getRelease releaseId).Leaves P := fun _ =>
    Prog.leaves_op hP (fun a => hc _ rfl) fun a => Prog.leaves_ofExcept hP _
  have hroll : writtenState call = some .rolledBack →
      ∀ releaseId reason, (rollbackWith releaseId reason).Leaves P := by
    intro hstate releaseId reason
    rw [rollbackWith]
    apply Prog.leaves_bind hP (Prog.leaves_perform fun a => hc _ rfl)
    intro started
    apply Prog.leaves_bind hP (hset _ _ hstate)
    intro _
    apply Prog.leaves_bind hP (Prog.leaves_perform fun a => hc _ rfl)
    intro now
    exact Prog.leaves_bind hP (Prog.leaves_perform fun a => hc _ rfl) fun _ => Prog.leaves_pure hP _
  have hsum : ∀ releaseId routeId canary, (summary releaseId routeId canary).Leaves P := by
    intro releaseId routeId canary
    rw [summary]
    exact Prog.leaves_bind hP (Prog.leaves_perform fun a => hc _ rfl) fun _ => Prog.leaves_pure hP _
  cases call with
  | generate q forced | shadow q routeId releaseId =>
    exact Prog.leaves_bind hP (hg _ (.inl rfl)) fun _ => Prog.leaves_pure hP _
  | stream q forced => exact Prog.leaves_bind hP (hs q forced rfl) fun _ => Prog.leaves_pure hP _
  | assess releaseId =>
    refine Prog.leaves_bind hP ?_ fun _ => Prog.leaves_pure hP _
    rw [assess]
    apply Prog.leaves_bind hP (hget releaseId)
    intro release
    split_ifs
    · exact Prog.leaves_pure hP _
    apply Prog.leaves_bind hP (hsum _ _ _)
    intro snapshot
    split_ifs
    · exact Prog.leaves_pure hP _
    · exact Prog.leaves_pure hP _
    · -- The one branch that writes: a candidate in breach.
      exact hroll rfl _ _
  | createArtifact kind name version content =>
    exact Prog.leaves_bind hP (Prog.leaves_op hP (fun a => hc _ rfl) fun a => Prog.leaves_ofExcept hP _)
      fun _ => Prog.leaves_pure hP _
  | createRelease release =>
    refine Prog.leaves_bind hP ?_ fun _ => Prog.leaves_pure hP _
    rw [apiCreateRelease]
    apply Prog.leaves_bind hP (Prog.leaves_ofExcept hP _)
    intro _
    apply Prog.leaves_bind hP (Prog.leaves_ofExcept hP _)
    intro _
    exact Prog.leaves_op hP (fun a => hc _ (decide_eq_true rfl)) fun a => Prog.leaves_ofExcept hP _
  | startCanary releaseId datasetName datasetVersion =>
    refine Prog.leaves_bind hP ?_ fun _ => Prog.leaves_pure hP _
    rw [apiStartCanary]
    apply Prog.leaves_bind hP (hget releaseId)
    intro release
    apply Prog.leaves_bind hP (hrun _ _ _)
    intro run
    apply Prog.leaves_bind hP (Prog.leaves_ofExcept hP _)
    intro _
    exact Prog.leaves_bind hP (hset _ _ rfl) fun _ => Prog.leaves_pure hP _
  | promote releaseId => exact Prog.leaves_bind hP (hset _ _ rfl) fun _ => Prog.leaves_pure hP _
  | rollback releaseId reason =>
    exact Prog.leaves_bind hP (hroll rfl _ _) fun _ => Prog.leaves_pure hP _
  | runEvaluation datasetName datasetVersion routeId =>
    exact Prog.leaves_bind hP (hrun _ _ _) fun _ => Prog.leaves_pure hP _
  | metricSummary releaseId routeId canary =>
    exact Prog.leaves_bind hP (hsum _ _ _) fun _ => Prog.leaves_pure hP _
  | circuits =>
    exact Prog.leaves_bind hP (Prog.leaves_perform fun a => hc _ rfl) fun _ => Prog.leaves_pure hP _
  | clearCache =>
    exact Prog.leaves_bind hP (Prog.leaves_perform fun a => hc _ rfl) fun _ => Prog.leaves_pure hP _

theorem body_leaves {call : Call}
    (hg : ∀ args, callArguments call = some args ∨ args.evaluation = true →
      (svc.generate args).Leaves P)
    (hs : ∀ q forced, call = .stream q forced → (svc.stream q forced).Leaves P)
    (hc : ∀ e, controls call e.1 → P [e]) : (svc.body call).Leaves P := by
  refine body_leaves_cases hP (fun args hargs => hg args ?_) hs hc
  rcases hargs with hargs | ⟨request, forcedRouteId, rfl⟩
  · exact .inl hargs
  · exact .inr rfl

end Bodies

end Service

end AegisGateway
