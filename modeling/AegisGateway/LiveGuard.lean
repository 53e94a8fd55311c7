import AegisGateway.Lanes
import AegisGateway.Quiescence

/-!
# What the live guard sees

A call leaves one row, whatever it has tried before. A candidate that fails counts as an error
if no other route has answered in its place.
-/

open Coroutine

namespace AegisGateway

namespace Service

variable {svc : Service}

/-! ## Answers in front of rows -/

/-- The provider has failed: an error of its own, a timeout or an answer against the schema. -/
def failed (svc : Service) (e : GatewayEvent) : Bool :=
  match svc.callVerdict e with
  | some (.error err) => err.handled
  | _ => false

theorem not_answers_of_failed {e : GatewayEvent} (h : svc.failed e = true) :
    svc.answers e = false := by
  unfold failed at h
  unfold answers
  split at h
  next hverdict => rw [hverdict]
  · cases h

theorem expected_of_failed {e : GatewayEvent}
    (h : (providerCall e.1).isSome = true → svc.failed e = true) : svc.expected e = true := by
  rcases e with ⟨o, a⟩
  cases o with
  | complete q route =>
    have hfailed := h rfl
    simp only [failed, callVerdict] at hfailed
    cases hjudge : svc.judge q a <;> simp_all [expected, Except.map]
  | openStream q route =>
    have hfailed := h rfl
    simp only [failed, callVerdict] at hfailed
    cases hverdict : svc.scriptVerdict q a <;> simp_all [expected, Except.map]
  | _ => rfl

def Backed (svc : Service) (tr : GatewayTrace) : Prop :=
  ∀ pre m post, tr = pre ++ ev (.recordMetric m) () :: post → m.success = true →
    ∃ e ∈ pre, svc.answers e = true

theorem closed_backed : Prog.Closed svc.Backed where
  nil := fun pre m post h => by simp at h
  append := by
    intro tr tr' h h' pre m post htr hm
    rcases Prog.split_append htr with ⟨mid, hleft, rfl⟩ | ⟨mid, rfl, hright⟩
    · exact h pre m mid hleft hm
    · obtain ⟨e, he, hanswered⟩ := h' mid m post hright hm
      exact ⟨e, List.mem_append_right _ he, hanswered⟩

theorem Backed.prefix {tr tr' : GatewayTrace} (h : svc.Backed (tr ++ tr')) : svc.Backed tr := by
  rintro pre m post rfl hm
  exact h pre m (post ++ tr') (by simp) hm

theorem backed_of_failures {tr : GatewayTrace} (h : ∀ m ∈ rows tr, m.success = false) :
    svc.Backed tr := by
  rintro pre m post rfl hm
  have hfailure := h m (by simp [rows, rowOf])
  rw [hm] at hfailure
  cases hfailure

theorem backed_of_rowless {tr : GatewayTrace} (h : rows tr = []) : svc.Backed tr :=
  backed_of_failures (by simp [h])

theorem backed_of_answer {e : GatewayEvent} (he : svc.answers e = true) (hrow : rowOf e.1 = none)
    (tr : GatewayTrace) : svc.Backed (e :: tr) := by
  intro pre m post htr hm
  cases pre with
  | nil =>
    obtain ⟨rfl, -⟩ := List.cons.inj htr
    cases hrow
  | cons e' pre =>
    obtain ⟨rfl, -⟩ := List.cons.inj htr
    exact ⟨e, List.mem_cons_self, he⟩

theorem errorEvents_backed (x : Exchange) (route : ModelRoute) (error : AegisError) (n : Nat)
    (now : ℚ) (t : Int) : svc.Backed (x.errorEvents route error n now t) := by
  apply backed_of_failures
  rw [rows_errorEvents]
  simp [Exchange.errorRow]

theorem GaveUp.backed {α : Type} {x : Exchange} {st : LoopState} {tr : GatewayTrace}
    {out : Except PyExc α} (h : GaveUp x st tr out) : svc.Backed tr := by
  cases h with
  | unrecorded | assertion => exact closed_backed.nil
  | recorded now t => exact errorEvents_backed x _ _ _ now t

theorem StreamHandled.backed {x : Exchange} {route : ModelRoute} {st : LoopState} {emitted : Bool}
    {e : PyExc} {tr : GatewayTrace} {out : Except PyExc (Pass Unit)}
    (h : StreamHandled x route st emitted e tr out) : svc.Backed tr := by
  cases emitted with
  | false => exact backed_of_rowless (rows_handled h)
  | true =>
    have h : Interrupted x route st e tr out := h
    have hfailure : ∀ state, svc.Backed (failureEvents route state) := fun state =>
      backed_of_rowless (rows_failureEvents route state)
    cases h with
    | schemaViolation m now t => exact errorEvents_backed x route _ _ now t
    | circuitOpen => exact backed_of_rowless rfl
    | timeout state now t | provider e state now t =>
      exact closed_backed.append (hfailure state) (errorEvents_backed x route _ _ now t)
    | unhandled => exact closed_backed.nil

theorem GeneratePassRun.backed {x : Exchange} {c : RoutingCandidate} {route : ModelRoute}
    {st : LoopState} {tr : GatewayTrace} {out : Except PyExc (Pass GatewayResponse)}
    (h : svc.GeneratePassRun x c route st tr out) : svc.Backed tr := by
  have hadmitted : ∀ t state, svc.Backed (admitted route t state) := fun t state =>
    backed_of_rowless (rows_admitted route t state)
  cases h with
  | deadline | refused => exact backed_of_rowless rfl
  | unconfigured ht hr hh =>
    exact closed_backed.append (hadmitted _ _) (backed_of_rowless (rows_handled hh))
  | @failed _ _ _ t state a e tr out ht hr he hh =>
    have hcall : svc.Backed [ev (.complete (attemptRequest x.request
        (remainingSeconds x.started x.request t)) route) a] := backed_of_rowless rfl
    exact closed_backed.append (hadmitted t state)
      (closed_backed.append hcall (backed_of_rowless (rows_handled hh)))
  | @succeeded _ _ _ t state _ a _ _ _ _ _ _ ht hr ha =>
    refine closed_backed.append (hadmitted t state) (backed_of_answer ?_ rfl _)
    have hjudge : svc.judge (attemptRequest x.request (remainingSeconds x.started x.request t)) a =
      svc.judge x.request a := rfl
    simp only [answers, callVerdict, hjudge, ha, Except.map]

theorem StreamPassRun.backed {x : Exchange} {c : RoutingCandidate} {route : ModelRoute}
    {st : LoopState} {tr : GatewayTrace} {out : Except PyExc (Pass Unit)}
    (h : svc.StreamPassRun x c route st tr out) : svc.Backed tr := by
  have hadmitted : ∀ t state, svc.Backed (admitted route t state) := fun t state =>
    backed_of_rowless (rows_admitted route t state)
  have hcall : ∀ (q : GatewayRequest) (script : Script),
      svc.Backed [ev (.openStream q route) script] := fun _ _ => backed_of_rowless rfl
  have hrelay : ∀ {es r tr r' left}, RelayRun x route es r tr r' left → svc.Backed tr := fun h =>
    backed_of_rowless (rows_eq_nil fun e he => rowOf_of_relaying (h.relaying e he))
  cases h with
  | deadline | refused => exact backed_of_rowless rfl
  | unconfigured ht hr hh =>
    exact closed_backed.append (hadmitted _ _) (backed_of_rowless (rows_handled hh))
  | left ht hr hl =>
    exact closed_backed.append (hadmitted _ _) (closed_backed.append (hcall _ _) (hrelay hl))
  | failed ht hr hl he hh =>
    exact closed_backed.append (hadmitted _ _) (closed_backed.append (hcall _ _)
      (closed_backed.append (hrelay hl) hh.backed))
  | @succeeded _ _ _ t state _ script _ r _ _ _ _ _ _ ht hr hl hv =>
    refine closed_backed.append (hadmitted t state) (backed_of_answer ?_ rfl _)
    have hverdict : svc.scriptVerdict (attemptRequest x.request
        (remainingSeconds x.started x.request t)) script = svc.scriptVerdict x.request script := rfl
    simp only [answers, callVerdict, hverdict, ← hl.verdict, hv, Except.map]

theorem CallRun.backed {α : Type} {args : Arguments}
    {served : Exchange → GatewayResponse → GatewayTrace → Except PyExc α → Prop}
    {R : Exchange → PassRel α}
    (hserved : ∀ x hit tr out, served x hit tr out → ∀ e ∈ tr, aside e.1 = true)
    (hR : ∀ x c route st tr out, R x c route st tr out → svc.Backed tr)
    {tr : GatewayTrace} {out : Except PyExc α} (h : svc.CallRun args served R tr out) :
    svc.Backed tr ∨ ∀ e ∈ tr, providerCall e.1 = none := by
  have hsilent : ∀ {tr out}, svc.ApproachRun args tr out → ∀ e ∈ tr, providerCall e.1 = none :=
    fun h e he => providerCall_of_approaching (h.approaching e he)
  cases h with
  | stopped h => exact .inr (hsilent h)
  | served h hs =>
    refine .inr (List.forall_mem_append.mpr ⟨hsilent h, fun e he => ?_⟩)
    exact providerCall_of_aside (hserved _ _ _ _ hs e he)
  | looped h hl =>
    have happroach : svc.Backed _ :=
      backed_of_rowless (rows_eq_nil fun e he => rowOf_of_approaching (h.approaching e he))
    have hloop := hl.keeps closed_backed (fun _ _ _ => GaveUp.backed) (hR _)
    exact .inl (closed_backed.append happroach hloop)

theorem body_backed {call : Call} {args : Arguments} (h : callArguments call = some args) :
    (svc.body call).Leaves fun tr => svc.Backed tr ∨ ∀ e ∈ tr, providerCall e.1 = none := by
  have hgenerate : ∀ args, (svc.generate args).Leaves fun tr =>
      svc.Backed tr ∨ ∀ e ∈ tr, providerCall e.1 = none := fun args =>
    (svc.generate_runs args).mono fun _ _ h =>
      h.backed (fun _ _ _ _ hs => hs.aside) fun _ _ _ _ _ _ => GeneratePassRun.backed
  cases call with
  | generate q forced | shadow q routeId releaseId =>
    cases h
    exact Prog.leaves_map (hgenerate _) _
  | stream q forced =>
    cases h
    refine Prog.leaves_map ?_ _
    exact (svc.stream_runs q forced).mono fun _ _ h =>
      h.backed (fun _ _ _ _ hs => hs.aside) fun _ _ _ _ _ _ => StreamPassRun.backed
  | _ => cases h

/-! ## Whose row it is -/

theorem concerns_get {x : Exchange} {a : Option GatewayResponse} :
    Concerns x (ev (.cacheGet x.request x.ns) a) := by
  constructor <;> simp [providerCall]

theorem generate_concernsOwn (args : Arguments) :
    (svc.generate args).Leaves (svc.Own Concerns args) :=
  approach_own args (fun _ _ _ => concerns_get) (fun _ _ _ => concerns_of_impersonal rfl)
    (fun x hit hx => (serveCached_runs x hit).mono fun _ _ h => h.concern hx)
    fun x _ _ => candidateLoop_emits (svc.generatePass_runs x) (fun _ _ _ => GaveUp.concern)
      (fun _ _ _ _ _ h => h.concern) _ _

theorem stream_concernsOwn (q : GatewayRequest) (forced : Option String) :
    (svc.stream q forced).Leaves (svc.Own Concerns { request := q, forcedRouteId := forced }) :=
  approach_own _ (fun _ _ _ => concerns_get) (fun _ _ _ => concerns_of_impersonal rfl)
    (fun x hit hx => (streamCached_runs x hit).mono fun _ _ h => h.concern hx)
    fun x _ hx => candidateLoop_emits (svc.streamPass_runs x) (fun _ _ _ => GaveUp.concern)
      (fun _ _ _ _ _ h => h.concern hx) _ _

theorem rowOf_exchange {c : State} (h : svc.machine.Reachable initial c) {i : Nat}
    {t : Task Op Ans PyExc Outcome Call} (ht : c.tasks[i]? = some t) {args : Arguments}
    (hargs : callArguments t.call = some args) {m : RequestMetric}
    (hm : (i, ev (.recordMetric m) ()) ∈ c.log) : ∃ x, svc.Exchanges c i x ∧ RowOf x m := by
  have hmem := Pool.mem_trace.mpr hm
  rcases Prog.Leaves.steps (fun _ _ => Own.prefix)
    (body_own generate_concernsOwn stream_concernsOwn hargs) (h.onTheWay.2 i t ht) with
    hp | ⟨tr₀, tr₁, x, htr, hrun, hb, hx⟩
  · cases hp _ hmem
  · refine ⟨x, ⟨t, args, tr₀, tr₁, ht, hargs, htr, hrun, hb⟩, ?_⟩
    rw [htr] at hmem
    rcases List.mem_append.mp hmem with hmem | hmem
    · cases hb.preliminary _ hmem
    · exact (hx _ hmem).row m rfl

/-! ## A candidate that fails -/

/-- The call has been assigned to the canary of the release. -/
def CanaryCall (svc : Service) (c : State) (i : Nat) (id : String) : Prop :=
  ∃ x, svc.Exchanges c i x ∧ x.assignment.canary = true ∧ x.assignment.releaseId = some id

def callsRoute (routeId : String) (e : GatewayEvent) : Bool :=
  (providerCall e.1).any (·.2.id = routeId)

/-- A call of the canary during which the candidate route has been called, and each provider that
has been called has failed: none has answered, and no caller has left its stream. -/
structure Unanswered (svc : Service) (c : State) (i : Nat) (r : Release) : Prop where
  canary : svc.CanaryCall c i r.id
  called : ∃ e ∈ c.trace i, callsRoute r.candidateRouteId e = true
  failed : ∀ e ∈ c.trace i, (providerCall e.1).isSome = true → svc.failed e = true
  followed : Followed (c.trace i)

/-- A call that nobody has answered has left the row. -/
def LeftUnanswered (svc : Service) (c : State) (r : Release) (m : RequestMetric) : Prop :=
  ∃ i, (i, ev (.recordMetric m) ()) ∈ c.log ∧ svc.Unanswered c i r

section Rows

variable {c : State} {i : Nat} {r : Release}

theorem Unanswered.row_failed (h : svc.machine.Reachable initial c) (hu : svc.Unanswered c i r)
    {m : RequestMetric} (hm : (i, ev (.recordMetric m) ()) ∈ c.log) : m.success = false := by
  obtain ⟨x, ⟨t, args, -, -, ht, hargs, -⟩, -⟩ := hu.canary
  obtain ⟨e, he, hcall⟩ := hu.called
  rcases Prog.Leaves.steps (fun tr tr' hb => hb.imp Backed.prefix fun hnone e he =>
    hnone e (List.mem_append_left _ he)) (body_backed hargs) (h.onTheWay.2 i t ht) with
    hbacked | hnone
  · by_contra hsuccess
    obtain ⟨pre, post, htr⟩ := List.append_of_mem (Pool.mem_trace.mpr hm)
    obtain ⟨e', he', hanswered⟩ := hbacked pre m post htr (by simpa using hsuccess)
    have hmem : e' ∈ c.trace i := by
      rw [htr]
      exact List.mem_append_left _ he'
    have hprovider : (providerCall e'.1).isSome = true := by
      rcases e' with ⟨o, a⟩
      cases o <;> first | rfl | cases hanswered
    rw [not_answers_of_failed (hu.failed e' hmem hprovider)] at hanswered
    cases hanswered
  · rw [callsRoute, hnone e he] at hcall
    cases hcall

theorem rows_mem {tr : GatewayTrace} {m : RequestMetric} :
    m ∈ rows tr ↔ ev (.recordMetric m) () ∈ tr := by
  constructor
  · intro hm
    obtain ⟨⟨o, a⟩, he, ho⟩ := List.mem_filterMap.mp hm
    cases o with
    | recordMetric m' =>
      cases ho
      exact he
    | _ => cases ho
  · exact fun he => List.mem_filterMap.mpr ⟨_, he, rfl⟩

theorem canaryRow_mem (h : svc.machine.Reachable initial c) (hc : svc.CanaryCall c i r.id)
    {m : RequestMetric} (hm : (i, ev (.recordMetric m) ()) ∈ c.log) :
    m ∈ canaryRows c.world.database r.id := by
  obtain ⟨x, hx, hcanary, hid⟩ := hc
  have hexchange := hx
  obtain ⟨t, args, -, -, ht, hargs, -⟩ := hexchange
  obtain ⟨x', hx', hrow⟩ := rowOf_exchange h ht hargs hm
  obtain rfl := hx'.unique hx
  refine List.mem_filter.mpr ⟨List.mem_reverse.mpr ?_, ?_⟩
  · rw [table_of_reach h]
    exact List.mem_filterMap.mpr ⟨_, hm, rfl⟩
  · simp [Database.metricMatches, hrow.releaseId, hrow.canary, hcanary, hid]

theorem Unanswered.row (h : svc.machine.Reachable initial c) (hu : svc.Unanswered c i r)
    {call : Call} {out : Except PyExc Outcome} (hfinished : c.Finished i call out) :
    ∃ m ∈ canaryRows c.world.database r.id,
      (i, ev (.recordMetric m) ()) ∈ c.log ∧ m.success = false := by
  obtain ⟨x, ⟨t, args, -, -, ht, hargs, -⟩, -⟩ := hu.canary
  obtain rfl : t = ⟨call, .ofExcept out⟩ := Option.some.inj (ht.symm.trans hfinished)
  obtain ⟨e, he, hcall⟩ := hu.called
  have hattempt : ∃ e ∈ c.trace i, approaching e.1 = false := by
    refine ⟨e, he, ?_⟩
    by_contra happroach
    rw [callsRoute, providerCall_of_approaching (by simpa using happroach)] at hcall
    cases hcall
  have hobtained := Prog.AllRuns.run (obtained_of_attempt hargs) (h.finished hfinished) hattempt
  have hexpected : ∀ e ∈ c.trace i, svc.expected e = true := fun e he =>
    expected_of_failed (hu.failed e he)
  have haccounted := (accounted_iff h hfinished hargs hobtained).mpr ⟨hexpected, hu.followed⟩
  obtain ⟨m, hm⟩ := List.exists_mem_of_ne_nil _ haccounted.evidenced.rows_ne_nil
  have hlog := Pool.mem_trace.mp (rows_mem.mp hm)
  exact ⟨m, canaryRow_mem h hu.canary hlog, hlog, hu.row_failed h hlog⟩

theorem LeftUnanswered.failed (h : svc.machine.Reachable initial c) {m : RequestMetric}
    (hm : svc.LeftUnanswered c r m) : m.success = false := by
  obtain ⟨i, hlog, hu⟩ := hm
  exact hu.row_failed h hlog

end Rows

/-! ## Assessments -/

theorem breached_of_failures {r : Release} {ms : List RequestMetric}
    (hmin : r.minCanarySamples ≤ ms.length) (hms : ∀ m ∈ ms, m.success = false)
    (herror : r.maxErrorRate < 1) : Breached r ms := by
  have hcount : ms.countP (·.success) = 0 := List.countP_eq_zero.mpr fun m hm => by simp [hms m hm]
  have hrate : (summarizeMetrics ms).successRate = 0 := by
    change (share (·.success) ms).getD 0 = 0
    unfold share
    split_ifs <;> simp [hcount]
  refine ⟨hmin, ?_⟩
  unfold breaches
  rw [hrate, if_pos (by simpa using herror)]
  simp

section Assessing

variable {c : State} {j : Nat} {id : String}

theorem write_ok (h : svc.machine.Reachable initial c) {t : Task Op Ans PyExc Outcome Call}
    (ht : c.tasks[j]? = some t) (hcall : t.call = .assess id) {id' : String}
    {state : ReleaseState} {a : Except String Release}
    (he : ev (.setState id' state) a ∈ c.trace j) :
    ∃ r, a = .ok r ∧ r.id = id ∧ r.state = state := by
  obtain ⟨pre, post, hlog⟩ := List.append_of_mem (Pool.mem_trace.mp he)
  obtain ⟨c₁, x, c₂, h₁, rfl, -, hs, hlog₂, h₂⟩ := h.at hlog (by simp [initial, Pool.empty])
  rcases step_releases hs with ⟨hm, -, -⟩ | ⟨i, y, call, o, k, a', hm, ht₁, hlog₁, -, hstep⟩
  · exact absurd rfl (hm j x)
  cases hm
  rw [hlog₂] at hlog₁
  cases List.append_cancel_left hlog₁
  have hrun : svc.machine.Reachable c₁ c := (Machine.Reach.start.next trivial hs).trans h₂
  obtain rfl : call = .assess id := (hrun.call_eq ht₁ ht).trans hcall
  obtain ⟨rfl, -, r, -, -, pre, mid, hr, -, -, hread⟩ := writing h₁ ht₁
  obtain ⟨r₁, hr₁, hid₁, -⟩ := candidate_iff h₁ hread hr
  generalize table c₂ = rs at hstep
  cases hstep with
  | other hother => cases hother
  | missing hget => exact absurd hid₁ (Database.getRelease_error hget r₁ hr₁)
  | @written _ _ current hget =>
    refine ⟨_, rfl, ?_, ?_⟩
    · rw [restated_id, (Database.mem_of_getRelease hget).2]
    · rw [restated_self _ _ rfl]

theorem assessed_failures (h : svc.machine.Reachable initial c) {out : Except PyExc Outcome}
    (hfinished : c.Finished j (.assess id) out) {r : Release} {ms : List RequestMetric}
    (hread : ev (.getRelease id) (.ok r) ∈ c.trace j) (hr : r.state = .candidate)
    (hrows : ev (.metrics (some r.id) none (some true) 100000) ms ∈ c.trace j)
    (hbreach : Breached r ms) :
    ∃ r', ev (.setState r.id .rolledBack) (.ok r') ∈ c.trace j ∧ r'.id = r.id ∧
      r'.state = .rolledBack := by
  have hid := (known_of_reach h (Pool.mem_trace.mp hread)).1
  have hbody : (svc.body (.assess id)).AllRuns fun tr _ => ∃ out, AssessRun id tr out :=
    Prog.leaves_map ((assess_runs id).mono fun tr out h => ⟨out, h⟩) _
  obtain ⟨out', hrun⟩ := hbody.run (h.finished hfinished)
  have hwrite : ∀ {a}, ev (.setState id .rolledBack) a ∈ c.trace j →
      ∃ r, a = .ok r ∧ r.id = id ∧ r.state = .rolledBack := fun he =>
    write_ok h hfinished rfl he
  subst hid
  generalize c.trace j = tr at hrun hread hrows hwrite ⊢
  -- The five ways an assessment can go. Those without a write contradict what it has read.
  cases hrun with
  | missing m => simp at hread
  | idle hidle =>
    obtain rfl : r = _ := by simpa using hread
    exact absurd hr hidle
  | kept hcandidate hkept =>
    obtain rfl : r = _ := by simpa [assessed] using hread
    obtain ⟨-, rfl⟩ : r.id = r.id ∧ ms = _ := by simpa [assessed] using hrows
    exact absurd hbreach hkept
  | vanished hcandidate hb t m =>
    obtain rfl : r = _ := by simpa [assessed] using hread
    obtain ⟨r', hr', -⟩ := hwrite (a := .error m) (by simp)
    cases hr'
  | rolledBack hcandidate hb t t' r' =>
    obtain rfl : r = _ := by simpa [assessed] using hread
    obtain ⟨r₁, hr₁, hid₁, hstate₁⟩ := hwrite (a := .ok r') (by simp)
    cases hr₁
    exact ⟨r', by simp, hid₁, hstate₁⟩

/-- Nobody but the assessments of the release writes its state. -/
def OnlyAssessed (id : String) (c : State) (m : Move Input Call) : Prop :=
  ∀ i x call state k, m = .run i x → c.tasks[i]? = some ⟨call, .op (.setState id state) k⟩ →
    call = .assess id

theorem restated_candidate (h : svc.machine.Reachable initial c) {m : Move Input Call}
    (hm : OnlyAssessed id c m) {c' : State} (hs : svc.machine.step? c m = some c') {r : Release}
    (hr : r ∈ table c) (hid : r.id = id) :
    ∃ r' ∈ table c', r'.id = id ∧ (r'.state = r.state ∨ r'.state = .rolledBack) := by
  rcases step_releases hs with ⟨-, htable, -⟩ | ⟨i, x, call, o, k, a, rfl, ht, -, -, hstep⟩
  · rw [htable]
    exact ⟨r, hr, hid, .inl rfl⟩
  generalize table c' = rs at hstep
  cases hstep with
  | other | taken | missing => exact ⟨r, hr, hid, .inl rfl⟩
  | created => exact ⟨r, List.mem_append_left _ hr, hid, .inl rfl⟩
  | @written id' state current hget =>
    obtain ⟨-, hid'⟩ := Database.mem_of_getRelease hget
    refine ⟨_, List.mem_map_of_mem hr, by rw [restated_id, hid], ?_⟩
    by_cases hrid : r.id = current.id
    · obtain rfl : id' = id := by rw [← hid', ← hrid, hid]
      obtain rfl := hm i x call state k rfl ht
      obtain ⟨-, rfl, -⟩ := writing h ht
      rw [restated_self _ _ hrid]
      exact .inr rfl
    · rcases restated_other c.world.utc state hrid with hsame | ⟨-, -, -, hback⟩
      · rw [hsame]
        exact .inl rfl
      · exact .inr hback

/-- Under its assessments alone, a candidate stays one until it is rolled back. -/
theorem staysCandidate_or_rolledBack {c₀ : State} (h₀ : svc.machine.Reachable initial c₀)
    (hc₀ : Candidate c₀ id) (h : svc.machine.Reach (OnlyAssessed id) c₀ c) :
    svc.StaysCandidate id c₀ c ∨ ∃ r ∈ table c, r.id = id ∧ r.state = .rolledBack := by
  refine h.invariant (fun c => svc.StaysCandidate id c₀ c ∨
    ∃ r ∈ table c, r.id = id ∧ r.state = .rolledBack) (.inl ⟨.start, hc₀⟩)
    fun c m c' hreach ih hm hs => ?_
  have hc := h₀.trans hreach.weaken
  rcases ih with hstays | ⟨r, hr, hid, hback⟩
  · obtain ⟨r, hr, hid, hstate⟩ := hstays.last
    obtain ⟨r', hr', hid', hkept | hback⟩ := restated_candidate hc hm hs hr hid
    · exact .inl ⟨hstays.run.next hstays.last hs, r', hr', hid', hkept.trans hstate⟩
    · exact .inr ⟨r', hr', hid', hback⟩
  · obtain ⟨r', hr', hid', hkept | hback'⟩ := restated_candidate hc hm hs hr hid
    · exact .inr ⟨r', hr', hid', hkept.trans hback⟩
    · exact .inr ⟨r', hr', hid', hback'⟩

end Assessing

/-- A call of the canary that has called the candidate route, and whose providers have all failed,
leaves a row that counts as an error. An assessment that has read enough rows, each left
by such a call, has rolled its candidate back; and once nothing runs any more, the release is rolled
back, whatever share of errors below all of them its thresholds allow. -/
theorem live_guard :
    (∀ c i call out r, svc.machine.Reachable initial c → c.Finished i call out →
      svc.Unanswered c i r → ∃ m ∈ canaryRows c.world.database r.id,
        (i, ev (.recordMetric m) ()) ∈ c.log ∧ m.success = false) ∧
    (∀ c j id out r ms, svc.machine.Reachable initial c → c.Finished j (.assess id) out →
      ev (.getRelease id) (.ok r) ∈ c.trace j → r.state = .candidate →
      ev (.metrics (some r.id) none (some true) 100000) ms ∈ c.trace j →
      r.minCanarySamples ≤ ms.length → (∀ m ∈ ms, svc.LeftUnanswered c r m) →
      r.maxErrorRate < 1 →
        ∃ r', ev (.setState r.id .rolledBack) (.ok r') ∈ c.trace j ∧ r'.id = r.id ∧
          r'.state = .rolledBack) ∧
    ∀ c₀ c r, svc.machine.Reachable initial c₀ → Candidate c₀ r.id →
      svc.machine.Reach (OnlyAssessed r.id) c₀ c → c.quiet = true → r ∈ table c →
      (∃ e ∈ c.log.drop c₀.log.length, isCanaryRow r.id e.2.1 = true) →
      (∀ m ∈ canaryRows c.world.database r.id, svc.LeftUnanswered c r m) →
      r.minCanarySamples ≤ (canaryRows c.world.database r.id).length →
      r.minCanarySamples ≤ 100000 → r.maxErrorRate < 1 → r.state = .rolledBack := by
  refine ⟨fun c i call out r h hfinished hu => hu.row h hfinished,
    fun c j id out r ms h hfinished hread hr hrows hmin hms herror => ?_,
    fun c₀ c r h₀ hc₀ hreach hquiet hr hrow hms hmin hbound herror => ?_⟩
  · exact assessed_failures h hfinished hread hr hrows
      (breached_of_failures hmin (fun m hm => (hms m hm).failed h) herror)
  · have h := h₀.trans hreach.weaken
    rcases staysCandidate_or_rolledBack h₀ hc₀ hreach with hstays | ⟨r', hr', hid', hback⟩
    · obtain ⟨r', hr', hid', -, hkept⟩ := last_assessed h₀ hstays hquiet hrow
      obtain rfl := (keyed_of_reach h).eq_of_id hr' hr hid'
      refine absurd (breached_of_failures ?_ (fun m hm => ?_) herror) hkept
      · rw [List.length_take]
        exact le_min hbound hmin
      · exact (hms m (List.mem_of_mem_take hm)).failed h
    · obtain rfl := (keyed_of_reach h).eq_of_id hr' hr hid'
      exact hback

/-! ## Two runs -/

theorem canaryCall_of_row {c : State} (h : svc.machine.Reachable initial c) {i : Nat}
    {t : Task Op Ans PyExc Outcome Call} (ht : c.tasks[i]? = some t) {args : Arguments}
    (hargs : callArguments t.call = some args) {m : RequestMetric}
    (hm : m ∈ rows (c.trace i)) (hcanary : m.canary = true) {id : String}
    (hid : m.releaseId = some id) : svc.CanaryCall c i id := by
  obtain ⟨x, hx, hrow⟩ := rowOf_exchange h ht hargs (Pool.mem_trace.mp (rows_mem.mp hm))
  exact ⟨x, hx, hrow.canary.symm.trans hcanary, hrow.releaseId.symm.trans hid⟩

/-! Two routes, and a canary on the first of them. -/

def backup : ModelRoute := { Sample.route with id := "backup" }

theorem backup_distinct : ([Sample.route, backup].map (·.id)).Nodup := by decide

def backedService : Service :=
  { Sample.service with
    routes := [Sample.route, backup]
    routes_nodup := backup_distinct }

def outage : Input :=
  .completion (.error (.aegis (.provider
    { message := "unavailable", provider := "openai", code := "provider_unavailable" })))

def rescuedMoves : List (Move Input Call) :=
  [.start (.createRelease live), .run 0 .go, .start (.generate Sample.request none)] ++
  Sample.goes 1 8 ++ [.run 1 outage] ++ Sample.goes 1 5 ++
  [.run 1 (Sample.completion "hello")] ++ Sample.goes 1 7 ++ Sample.goes 2 2

/-- The candidate has failed, the other route has answered in its place, and the guard sees a
success. -/
theorem rescued_unseen : ∃ (c : State) (r : Release),
    backedService.machine.Reachable initial c ∧ c.quiet = true ∧ r ∈ table c ∧
    r.state = .candidate ∧ r.maxErrorRate < 1 ∧ 0 < r.minSchemaCompliance ∧
    r.minCanarySamples ≤ (canaryRows c.world.database r.id).length ∧
    backedService.CanaryCall c 1 r.id ∧
    (∃ e ∈ c.trace 1, callsRoute r.candidateRouteId e = true ∧ backedService.failed e = true) ∧
    ∀ m ∈ canaryRows c.world.database r.id,
      (1, ev (.recordMetric m) ()) ∈ c.log ∧ m.success = true ∧ m.schemaValid ≠ some false := by
  obtain ⟨c, hm, r, hr, hcandidate, herror, hschema, hquiet, hmin, hfailed, hrows, m, hm', hcanary,
      hid, t, ht, args, hargs⟩ :
      ∃ c ∈ backedService.machine.moves? initial rescuedMoves, ∃ r ∈ table c,
        r.state = .candidate ∧ r.maxErrorRate < 1 ∧ 0 < r.minSchemaCompliance ∧ c.quiet = true ∧
        r.minCanarySamples ≤ (canaryRows c.world.database r.id).length ∧
        (∃ e ∈ c.trace 1, callsRoute r.candidateRouteId e = true ∧
          backedService.failed e = true) ∧
        (∀ m ∈ canaryRows c.world.database r.id,
          m ∈ rows (c.trace 1) ∧ m.success = true ∧ m.schemaValid ≠ some false) ∧
        ∃ m ∈ rows (c.trace 1), m.canary = true ∧ m.releaseId = some r.id ∧
          ∃ t ∈ c.tasks[1]?, ∃ args ∈ callArguments t.call, args.evaluation = false := by
    decide +kernel
  have h := Machine.reachable_of_moves _ .start hm
  refine ⟨c, r, h, hquiet, hr, hcandidate, herror, hschema, hmin,
    canaryCall_of_row h ht hargs.1 hm' hcanary hid, hfailed, fun m hm => ?_⟩
  obtain ⟨hmem, hrest⟩ := hrows m hm
  exact ⟨Pool.mem_trace.mp (rows_mem.mp hmem), hrest⟩

/-! One canary that fails, and its assessment. -/

def assessesOnly (id : String) (c : State) : Bool :=
  c.tasks.all fun t =>
    match t.rest with
    | .op (.setState _ _) _ => assesses id t.call
    | _ => true

theorem onlyAssessed_of_assessesOnly {id : String} {c : State} (h : assessesOnly id c = true)
    (m : Move Input Call) : OnlyAssessed id c m := by
  intro i x call state k _ ht
  exact eq_of_assesses (List.all_eq_true.mp h _ (List.mem_of_getElem? ht))

def releaseRead (id : String) : GatewayEvent → Option Release
  | ⟨.getRelease id', .ok r⟩ => if id' = id then some r else none
  | _ => none

theorem eq_of_releaseRead {id : String} {e : GatewayEvent} {r : Release}
    (h : releaseRead id e = some r) : e = ev (.getRelease id) (.ok r) := by
  unfold releaseRead at h
  split at h
  · split_ifs at h with hid
    obtain rfl := Option.some.inj h
    rw [hid]
  · cases h

def rowsRead (id : String) : GatewayEvent → Option (List RequestMetric)
  | ⟨.metrics releaseId routeId canary limit, ms⟩ =>
    if releaseId = some id ∧ routeId = none ∧ canary = some true ∧ limit = 100000 then some ms
    else none
  | _ => none

theorem eq_of_rowsRead {id : String} {e : GatewayEvent} {ms : List RequestMetric}
    (h : rowsRead id e = some ms) : e = ev (.metrics (some id) none (some true) 100000) ms := by
  unfold rowsRead at h
  split at h
  · split_ifs at h with hargs
    obtain ⟨rfl, rfl, rfl, rfl⟩ := hargs
    obtain rfl := Option.some.inj h
    rfl
  · cases h

def Refused (c : State) (r : Release) : Prop :=
  (∃ e ∈ c.trace 1, callsRoute r.candidateRouteId e = true) ∧
  (∀ e ∈ c.trace 1, (providerCall e.1).isSome = true → Sample.service.failed e = true) ∧
  (∀ e ∈ c.trace 1, stays e = true) ∧
  (∃ m ∈ rows (c.trace 1), m.canary = true ∧ m.releaseId = some r.id) ∧
  ∃ t ∈ c.tasks[1]?, t.rest.ended = true ∧ (callArguments t.call).isSome = true

instance (c : State) (r : Release) : Decidable (Refused c r) := inferInstanceAs (Decidable (_ ∧ _))

def HasRead (c : State) (r : Release) : Prop :=
  (∃ e ∈ c.trace 2, ∃ r₀ ∈ releaseRead r.id e, r₀.state = .candidate ∧ r₀.fixed = r.fixed) ∧
  (∃ e ∈ c.trace 2, ∃ ms ∈ rowsRead r.id e, r.minCanarySamples ≤ ms.length ∧
    ∀ m ∈ ms, m ∈ rows (c.trace 1)) ∧
  ∃ t ∈ c.tasks[2]?, assesses r.id t.call = true ∧ t.rest.ended = true

instance (c : State) (r : Release) : Decidable (HasRead c r) := inferInstanceAs (Decidable (_ ∧ _))

theorem live_guard_refusal : ∃ (c : State) (r r' : Release),
    Sample.service.machine.Reachable initial c ∧ r ∈ table c ∧ r.maxErrorRate < 1 ∧
    Sample.service.Unanswered c 1 r ∧ r.state = .rolledBack ∧
    (∃ m ∈ canaryRows c.world.database r.id,
      (1, ev (.recordMetric m) ()) ∈ c.log ∧ m.success = false) ∧
    ev (.setState r.id .rolledBack) (.ok r') ∈ c.trace 2 ∧ r'.state = .rolledBack := by
  obtain ⟨c₀, hm₀, c, hm, r, hr, hid, hcandidate, herror, hquiet, hlast, hmin, hbound, hrows,
      ⟨hcalled, hfailed, hstays, ⟨m, hmem, hcanary, hmid⟩, ⟨call, rest⟩, ht, hended, hargs⟩,
      ⟨e, he, r₀, hr₀, hstate₀, hfixed⟩, ⟨e', he', ms, hms, hlen, hread⟩, ⟨call', rest'⟩, ht',
      hassess, hended'⟩ :
      ∃ c₀ ∈ Sample.service.machine.moves? initial (breachMoves.take 2),
        ∃ c ∈ Sample.service.machine.movesWhile? (assessesOnly "release-1") c₀
            (breachMoves.drop 2 ++ Sample.goes 2 3),
          ∃ r ∈ table c, r.id = "release-1" ∧ Candidate c₀ r.id ∧ r.maxErrorRate < 1 ∧
            c.quiet = true ∧
            (∃ e ∈ c.log.drop c₀.log.length, isCanaryRow r.id e.2.1 = true) ∧
            r.minCanarySamples ≤ (canaryRows c.world.database r.id).length ∧
            r.minCanarySamples ≤ 100000 ∧
            (∀ m ∈ canaryRows c.world.database r.id, m ∈ rows (c.trace 1)) ∧
            Refused c r ∧ HasRead c r := by decide +kernel
  have h₀ := Machine.reachable_of_moves _ .start hm₀
  have hreach := (Machine.reach_of_movesWhile _ .start hm).mono fun _ m hp =>
    hid ▸ onlyAssessed_of_assessesOnly hp m
  have h : Sample.service.machine.Reachable initial c := h₀.trans hreach.weaken
  obtain ⟨args, hargs⟩ := Option.isSome_iff_exists.mp hargs
  obtain ⟨out, rfl⟩ := Prog.eq_ofExcept_of_ended (p := rest) hended
  obtain rfl := eq_of_assesses hassess
  obtain ⟨out', rfl⟩ := Prog.eq_ofExcept_of_ended (p := rest') hended'
  obtain rfl := eq_of_releaseRead hr₀
  obtain rfl := eq_of_rowsRead hms
  have hu : Sample.service.Unanswered c 1 r :=
    ⟨canaryCall_of_row h ht hargs hmem hcanary hmid, hcalled, hfailed, followed_iff.mpr hstays⟩
  have hleft : ∀ m ∈ rows (c.trace 1), Sample.service.LeftUnanswered c r m := fun m hm =>
    ⟨1, Pool.mem_trace.mp (rows_mem.mp hm), hu⟩
  -- The release as it was read differs from what it is now in its state only.
  have hid₀ : r₀.id = r.id := congrArg (·.id) hfixed
  have hmin₀ : r₀.minCanarySamples = r.minCanarySamples := congrArg (·.minCanarySamples) hfixed
  have herror₀ : r₀.maxErrorRate = r.maxErrorRate := congrArg (·.maxErrorRate) hfixed
  have hroute₀ : r₀.candidateRouteId = r.candidateRouteId := congrArg (·.candidateRouteId) hfixed
  have hu₀ : Sample.service.Unanswered c 1 r₀ := ⟨hid₀ ▸ hu.canary, hroute₀ ▸ hcalled,
    hfailed, hu.followed⟩
  have hleft₀ : ∀ m ∈ ms, Sample.service.LeftUnanswered c r₀ m := fun m hm =>
    ⟨1, Pool.mem_trace.mp (rows_mem.mp (hread m hm)), hu₀⟩
  obtain ⟨r', hset, -, hback⟩ := live_guard.2.1 c 2 r.id out' r₀ ms h ht' he hstate₀
    (hid₀ ▸ he') (hmin₀ ▸ hlen) hleft₀ (herror₀ ▸ herror)
  refine ⟨c, r, r', h, hr, herror, hu, ?_, ?_, hid₀ ▸ hset, hback⟩
  · exact live_guard.2.2 c₀ c r h₀ hcandidate hreach hquiet hr hlast
      (fun m hm => hleft m (hrows m hm)) hmin hbound herror
  · exact live_guard.1 c 1 call out r h ht hu

end Service

end AegisGateway
