import AegisGateway.Assessment
import AegisGateway.Evidence

/-!
# A gateway at rest

Behind each canary row an assessment is started, and it reads the rows once it runs. When
nothing runs any more, the last row has been assessed.
-/

open Coroutine

namespace AegisGateway

namespace Service

variable {svc : Service}

/-! ## Rows and assessments -/

/-- Behind each canary row an assessment of its release is started. -/
def Assesses (tr : GatewayTrace) : Prop :=
  ∀ pre m post, tr = pre ++ ev (.recordMetric m) () :: post → m.canary = true →
    ∀ id, m.releaseId = some id → ev (.createTask (.assess id)) () ∈ post

theorem closed_assesses : Prog.Closed Assesses where
  nil := fun pre m post h => by simp at h
  append := by
    intro tr tr' h h' pre m post htr hc id hid
    rcases Prog.split_append htr with ⟨mid, hleft, rfl⟩ | ⟨mid, rfl, hright⟩
    · exact List.mem_append_left _ (h pre m mid hleft hc id hid)
    · exact h' mid m post hright hc id hid

theorem assesses_of_rowless {tr : GatewayTrace} (h : ∀ e ∈ tr, rowOf e.1 = none) :
    Assesses tr := by
  rintro pre m post rfl
  have hrow := h (ev (.recordMetric m) ()) (by simp)
  cases hrow

theorem assesses_row {m : RequestMetric} {tr : GatewayTrace} (hrest : ∀ e ∈ tr, rowOf e.1 = none)
    (h : m.canary = true → ∀ id, m.releaseId = some id → ev (.createTask (.assess id)) () ∈ tr) :
    Assesses (ev (.recordMetric m) () :: tr) := by
  intro pre m' post htr hc id hid
  cases pre with
  | nil =>
    obtain ⟨hm, rfl⟩ := List.cons.inj htr
    cases hm
    exact h hc id hid
  | cons e pre =>
    obtain ⟨-, rfl⟩ := List.cons.inj htr
    have hrow := hrest (ev (.recordMetric m') ()) (by simp)
    cases hrow

theorem assessEvents_rowless (x : Exchange) : ∀ e ∈ x.assessEvents, rowOf e.1 = none :=
  fun e he => rowOf_of_task (assessEvents_tasks x e he)

theorem launchEvents_rowless (x : Exchange) : ∀ e ∈ x.launchEvents, rowOf e.1 = none :=
  fun e he => rowOf_of_task (launchEvents_tasks x e he)

theorem assess_mem {x : Exchange} (hc : x.assignment.canary = true) {id : String}
    (hid : x.assignment.releaseId = some id) : ev (.createTask (.assess id)) () ∈ x.assessEvents := by
  simp [Exchange.assessEvents, hc, hid]

theorem errorEvents_assesses (x : Exchange) (route : ModelRoute) (error : AegisError) (n : Nat)
    (now : ℚ) (t : Int) : Assesses (x.errorEvents route error n now t) := by
  change Assesses ([ev .monotonic now, ev .datetimeNow t] ++ (ev (.recordMetric
    (x.errorRow route error n ((now - x.started) * 1000) t)) () :: x.assessEvents))
  apply closed_assesses.append (assesses_of_rowless (by simp [rowOf]))
  exact assesses_row (assessEvents_rowless x) fun hc id hid => assess_mem hc hid

def Unmixed (x : Exchange) : Prop := x.shadow = true → x.assignment.canary = false

theorem rowEvents_assesses {x : Exchange} (hx : Unmixed x) (response : GatewayResponse) (t : Int)
    (mid : GatewayTrace) (hmid : ∀ e ∈ mid, rowOf e.1 = none) :
    Assesses (x.rowEvents response t ++ (mid ++ x.launchEvents)) := by
  change Assesses ([ev .datetimeNow t] ++ (ev (.recordMetric (x.responseRow response t)) () ::
    (mid ++ x.launchEvents)))
  refine closed_assesses.append (assesses_of_rowless (by simp [rowOf])) (assesses_row ?_ ?_)
  · exact List.forall_mem_append.mpr ⟨hmid, launchEvents_rowless x⟩
  · intro hc id hid
    have hshadow : x.shadow = false := by
      by_contra hs
      have hno := hx (by simpa using hs)
      rw [show x.assignment.canary = true from hc] at hno
      cases hno
    apply List.mem_append_right _
    unfold Exchange.launchEvents
    rw [if_neg (by simp [hshadow])]
    exact List.mem_append_right _ (assess_mem hc hid)

theorem putEvents_rowless (x : Exchange) (response : GatewayResponse) :
    ∀ e ∈ x.putEvents response, rowOf e.1 = none := by
  unfold Exchange.putEvents
  split_ifs <;> simp [rowOf]

theorem keepEvents_assesses {x : Exchange} (hx : x.evaluation = false → Unmixed x)
    (response : GatewayResponse) (t : Int) : Assesses (x.keepEvents response t) := by
  unfold Exchange.keepEvents
  split_ifs with heval
  · apply assesses_of_rowless
    rw [List.nil_append]
    exact List.forall_mem_append.mpr ⟨putEvents_rowless x response, launchEvents_rowless x⟩
  · exact rowEvents_assesses (hx (by simpa using heval)) response t _ (putEvents_rowless x response)

theorem GaveUp.assesses {α : Type} {x : Exchange} {st : LoopState} {tr : GatewayTrace}
    {out : Except PyExc α} (h : GaveUp x st tr out) : Assesses tr := by
  cases h with
  | unrecorded | assertion => exact closed_assesses.nil
  | recorded now t => exact errorEvents_assesses x _ _ _ now t

theorem Handled.rowless {α : Type} {timeout : String} {route : ModelRoute} {st : LoopState}
    {e : PyExc} {tr : GatewayTrace} {out : Except PyExc (Pass α)}
    (h : Handled timeout route st e tr out) : ∀ e ∈ tr, rowOf e.1 = none := by
  cases h <;> simp [failureEvents, rowOf]

theorem StreamHandled.assesses {x : Exchange} {route : ModelRoute} {st : LoopState}
    {emitted : Bool} {e : PyExc} {tr : GatewayTrace} {out : Except PyExc (Pass Unit)}
    (h : StreamHandled x route st emitted e tr out) : Assesses tr := by
  cases emitted with
  | false => exact assesses_of_rowless (Handled.rowless h)
  | true =>
    have h : Interrupted x route st e tr out := h
    have hfailure : ∀ state, Assesses (failureEvents route state) := fun state =>
      assesses_of_rowless (by simp [failureEvents, rowOf])
    cases h with
    | schemaViolation m now t => exact errorEvents_assesses x route _ _ now t
    | circuitOpen => exact assesses_of_rowless (by simp [rowOf])
    | timeout state now t | provider e state now t =>
      exact closed_assesses.append (hfailure state) (errorEvents_assesses x route _ _ now t)
    | unhandled => exact closed_assesses.nil

theorem admitted_rowless (route : ModelRoute) (t : ℚ) (state : CircuitState) :
    ∀ e ∈ admitted route t state, rowOf e.1 = none := by
  simp [admitted, rowOf]

theorem successEvents_rowless (route : ModelRoute) (state : CircuitState) :
    ∀ e ∈ successEvents route state, rowOf e.1 = none := by
  simp [successEvents, rowOf]

theorem GeneratePassRun.assesses {x : Exchange} (hx : x.evaluation = false → Unmixed x)
    {c : RoutingCandidate} {route : ModelRoute} {st : LoopState} {tr : GatewayTrace}
    {out : Except PyExc (Pass GatewayResponse)} (h : svc.GeneratePassRun x c route st tr out) :
    Assesses tr := by
  have hquiet : ∀ (o : Op) (a : Ans o), rowOf o = none → Assesses [ev o a] := fun o a ho =>
    assesses_of_rowless (by simpa using ho)
  have hadmitted : ∀ t state, Assesses (admitted route t state) := fun t state =>
    assesses_of_rowless (admitted_rowless route t state)
  cases h with
  | deadline | refused => exact assesses_of_rowless (by simp [rowOf])
  | unconfigured ht hr hh =>
    exact closed_assesses.append (hadmitted _ _) (assesses_of_rowless hh.rowless)
  | failed ht hr he hh =>
    exact closed_assesses.append (hadmitted _ _)
      (closed_assesses.append (hquiet _ _ rfl) (assesses_of_rowless hh.rowless))
  | succeeded ht hr ha =>
    refine closed_assesses.append (hadmitted _ _) (closed_assesses.append (hquiet _ _ rfl) ?_)
    apply closed_assesses.append (assesses_of_rowless (successEvents_rowless route _))
    refine closed_assesses.append (hquiet _ _ rfl) (closed_assesses.append (hquiet _ _ rfl) ?_)
    exact keepEvents_assesses hx _ _

theorem StreamPassRun.assesses {x : Exchange} (hx : x.evaluation = false → Unmixed x)
    {c : RoutingCandidate} {route : ModelRoute} {st : LoopState} {tr : GatewayTrace}
    {out : Except PyExc (Pass Unit)} (h : svc.StreamPassRun x c route st tr out) :
    Assesses tr := by
  have hquiet : ∀ (o : Op) (a : Ans o), rowOf o = none → Assesses [ev o a] := fun o a ho =>
    assesses_of_rowless (by simpa using ho)
  have hadmitted : ∀ t state, Assesses (admitted route t state) := fun t state =>
    assesses_of_rowless (admitted_rowless route t state)
  have hrelay : ∀ {es r tr r' left}, RelayRun x route es r tr r' left → Assesses tr := fun h =>
    assesses_of_rowless fun e he => rowOf_of_relaying (h.relaying e he)
  cases h with
  | deadline | refused => exact assesses_of_rowless (by simp [rowOf])
  | unconfigured ht hr hh =>
    exact closed_assesses.append (hadmitted _ _) (assesses_of_rowless hh.rowless)
  | left ht hr hl =>
    exact closed_assesses.append (hadmitted _ _) (closed_assesses.append (hquiet _ _ rfl) (hrelay hl))
  | failed ht hr hl he hh =>
    exact closed_assesses.append (hadmitted _ _) (closed_assesses.append (hquiet _ _ rfl)
      (closed_assesses.append (hrelay hl) hh.assesses))
  | succeeded ht hr hl hv =>
    refine closed_assesses.append (hadmitted _ _) (closed_assesses.append (hquiet _ _ rfl) ?_)
    apply closed_assesses.append (hrelay hl)
    apply closed_assesses.append (assesses_of_rowless (successEvents_rowless route _))
    refine closed_assesses.append (hquiet _ _ rfl) (closed_assesses.append (hquiet _ _ rfl) ?_)
    exact closed_assesses.append (keepEvents_assesses hx _ _) (hquiet _ _ rfl)

/-! ## Calls -/

theorem CallRun.assesses {α : Type} {args : Arguments}
    {served : Exchange → GatewayResponse → GatewayTrace → Except PyExc α → Prop}
    {R : Exchange → PassRel α}
    (hbegun : ∀ tr x, svc.Begun args tr x → x.evaluation = false → Unmixed x)
    (hserved : ∀ x hit tr out, Unmixed x → served x hit tr out → Assesses tr)
    (hR : ∀ x, (x.evaluation = false → Unmixed x) → ∀ c route st tr out, R x c route st tr out →
      Assesses tr)
    {tr : GatewayTrace} {out : Except PyExc α} (h : svc.CallRun args served R tr out) :
    Assesses tr := by
  have happroach : ∀ {tr out}, svc.ApproachRun args tr out → Assesses tr := fun h =>
    assesses_of_rowless fun e he => rowOf_of_approaching (h.approaching e he)
  cases h with
  | stopped h => exact happroach h
  | @served _ _ x _ _ h hs =>
    have hx : x.evaluation = false := by
      cases h with
      | hit hb hc => simp_all [Exchange.cacheAllowed]
    obtain ⟨tr₀, -, hb⟩ := h.begun
    exact closed_assesses.append (happroach h) (hserved _ _ _ _ (hbegun _ _ hb hx) hs)
  | looped h hl =>
    obtain ⟨tr₀, -, hb⟩ := h.begun
    exact closed_assesses.append (happroach h) (hl.keeps closed_assesses
      (fun _ _ _ => GaveUp.assesses) (hR _ (hbegun _ _ hb)))

theorem ServedRun.assesses {x : Exchange} (hx : Unmixed x) {hit : GatewayResponse}
    {tr : GatewayTrace} {out : Except PyExc GatewayResponse} (h : ServedRun x hit tr out) :
    Assesses tr := by
  cases h with
  | served now t t' =>
    change Assesses ([ev .monotonic now, ev .datetimeNow t] ++
      (x.rowEvents (cachedResponse x hit now t) t' ++ ([] ++ x.launchEvents)))
    exact closed_assesses.append (assesses_of_rowless (by simp [rowOf]))
      (rowEvents_assesses hx _ _ [] (by simp))

theorem StreamServedRun.assesses {x : Exchange} (hx : Unmixed x) {hit : GatewayResponse}
    {tr : GatewayTrace} {out : Except PyExc Unit} (h : StreamServedRun x hit tr out) :
    Assesses tr := by
  cases h with
  | leftAtStart now | leftAtDelta now => exact assesses_of_rowless (by simp [hitEvent, rowOf])
  | served now t consumer =>
    have hrow := rowEvents_assesses hx (streamedHit x hit now) t [] (by simp)
    have hdone : Assesses [hitEvent x (streamedHit x hit now) .done ""
        (some (streamedHit x hit now)) consumer] := assesses_of_rowless (by simp [hitEvent, rowOf])
    have hstart : Assesses [ev .monotonic now, hitEvent x (streamedHit x hit now) .start "" none
        .resumes, hitEvent x (streamedHit x hit now) .delta (streamedHit x hit now).text none
        .resumes] := assesses_of_rowless (by simp [hitEvent, rowOf])
    simpa using closed_assesses.append hstart (closed_assesses.append hrow hdone)

theorem unmixed_of_begun {call : Call} {args : Arguments}
    (hargs : callArguments call = some args ∨ args.evaluation = true) {tr : GatewayTrace}
    {x : Exchange} (hb : svc.Begun args tr x) (hx : x.evaluation = false) : Unmixed x := by
  intro hshadow
  rw [hb.shadow] at hshadow
  rw [hb.evaluation] at hx
  rcases hargs with hargs | heval
  · cases call with
    | shadow q routeId releaseId =>
      cases hargs
      rcases hb.assigned with hover | ⟨hnone, -⟩
      · rw [← Option.some.inj hover]
      · cases hnone
    | _ => cases hargs <;> cases hshadow
  · rw [hx] at heval
    cases heval

theorem rowOf_of_controls {call : Call} {o : Op} (h : controls call o = true) :
    rowOf o = none := by
  cases o <;> first | rfl | cases h

theorem body_assesses (call : Call) : (svc.body call).Leaves Assesses := by
  refine body_leaves closed_assesses (fun args hargs => ?_) (fun q forced hcall => ?_)
    fun e he => assesses_of_rowless (by simpa using rowOf_of_controls he)
  · exact (svc.generate_runs args).mono fun _ _ h =>
      h.assesses (fun _ _ hb => unmixed_of_begun hargs hb) (fun _ _ _ _ hx hs => hs.assesses hx)
        fun _ hx _ _ _ _ _ hp => hp.assesses hx
  · have hargs : callArguments call = some { request := q, forcedRouteId := forced } := by
      rw [hcall]
      rfl
    exact (svc.stream_runs q forced).mono fun _ _ h =>
      h.assesses (fun _ _ hb => unmixed_of_begun (.inl hargs) hb)
        (fun _ _ _ _ hx hs => hs.assesses hx) fun _ hx _ _ _ _ _ hp => hp.assesses hx

/-! ## At rest -/

/-- The rows of the canary of a release, the last one first. -/
def canaryRows (db : Database) (id : String) : List RequestMetric :=
  db.requestMetrics.reverse.filter (Database.metricMatches (some id) none (some true))

def Candidate (c : State) (id : String) : Prop :=
  ∃ r ∈ table c, r.id = id ∧ r.state = .candidate

/-- The thresholds that an assessment compares the evidence with. -/
structure MeetsThresholds (r : Release) (s : MetricsSnapshot) : Prop where
  errorRate : 1 - s.successRate ≤ r.maxErrorRate
  p99LatencyMs : ∀ p99, s.p99LatencyMs = some p99 → p99 ≤ r.maxP99LatencyMs
  schemaCompliance : ∀ k, s.schemaCompliance = some k → r.minSchemaCompliance ≤ k

theorem meetsThresholds_of_breaches {r : Release} {s : MetricsSnapshot}
    (h : breaches r s = []) : MeetsThresholds r s := by
  unfold breaches at h
  simp only [List.append_eq_nil_iff] at h
  obtain ⟨⟨herror, hp99⟩, hschema⟩ := h
  refine ⟨?_, fun p99 hp => ?_, fun k hk => ?_⟩
  · split_ifs at herror with hlt
    exact not_lt.mp hlt
  · rw [hp] at hp99
    dsimp only at hp99
    split_ifs at hp99 with hlt
    exact not_lt.mp hlt
  · rw [hk] at hschema
    dsimp only at hschema
    split_ifs at hschema with hlt
    exact not_lt.mp hlt

/-- A row of the canary of the release. -/
def isCanaryRow (id : String) (o : Op) : Bool :=
  (rowOf o).any (Database.metricMatches (some id) none (some true))

theorem exists_last {α : Type} {p : α → Bool} {l : List α} (h : ∃ a ∈ l, p a = true) :
    ∃ pre a post, l = pre ++ a :: post ∧ p a = true ∧ ∀ b ∈ post, p b = false := by
  obtain ⟨a, hfind⟩ : ∃ a, l.reverse.find? p = some a :=
    Option.isSome_iff_exists.mp (List.find?_isSome.mpr (by simpa using h))
  obtain ⟨ha, front, back, hsplit, hfront⟩ := List.find?_eq_some_iff_append.mp hfind
  refine ⟨back.reverse, a, front.reverse, ?_, ha, by simpa using hfront⟩
  simpa using congrArg List.reverse hsplit

theorem canaryRows_eq {c c' : State} (h : svc.machine.Reachable initial c)
    (h' : svc.machine.Reachable initial c') {id : String} {later : List (Nat × GatewayEvent)}
    (hlog : c'.log = c.log ++ later) (hlater : ∀ e ∈ later, isCanaryRow id e.2.1 = false) :
    canaryRows c'.world.database id = canaryRows c.world.database id := by
  have hnone : (later.filterMap fun e => rowOf e.2.1).reverse.filter
      (Database.metricMatches (some id) none (some true)) = [] := by
    apply List.filter_eq_nil_iff.mpr
    intro m hm
    obtain ⟨e, he, hrow⟩ := List.mem_filterMap.mp (List.mem_reverse.mp hm)
    have hno := hlater e he
    rw [isCanaryRow, hrow] at hno
    simpa using hno
  unfold canaryRows
  rw [table_of_reach h, table_of_reach h', hlog, List.filterMap_append, List.reverse_append,
    List.filter_append, hnone, List.nil_append]

theorem exec_metrics {w w' : World} {releaseId routeId : Option String} {canary : Option Bool}
    {limit : Nat} {x : Input} {a : List RequestMetric}
    (h : svc.exec w (.metrics releaseId routeId canary limit) x = some (a, w')) :
    a = w.database.metrics releaseId routeId canary limit := by
  cases x with
  | go => exact (Prod.mk.inj (Option.some.inj h)).1.symm
  | _ => cases h

theorem candidate_read {c : State} {id : String} (h : svc.machine.Reachable initial c)
    (hc : Candidate c id) {w : World} {x : Input} {a : Except String Release}
    (hexec : svc.exec c.world (.getRelease id) x = some (a, w)) :
    ∃ r ∈ table c, a = .ok r ∧ r.id = id ∧ r.state = .candidate := by
  obtain ⟨r, hr, rfl, hstate⟩ := hc
  refine ⟨r, hr, ?_, rfl, hstate⟩
  rw [exec_getRelease hexec]
  exact Database.getRelease_eq (keyed_of_reach h) hr

theorem not_candidate_of_rollback {c c' : State} {id : String} (hc : Candidate c id) {i : Nat}
    {x : Input} {a : Except String Release}
    (hs : svc.machine.step? c (.run i x) = some c')
    (hlog : c'.log = c.log ++ [(i, ev (.setState id .rolledBack) a)]) : ¬ Candidate c' id := by
  rcases step_releases hs with ⟨hm, -, -⟩ | ⟨j, y, call, o, k, a', hm, -, hlog', -, hstep⟩
  · exact absurd rfl (hm i x)
  rw [hlog] at hlog'
  obtain ⟨-, hevent⟩ := Prod.mk.inj (List.singleton_inj.mp (List.append_cancel_left hlog'))
  rintro ⟨r', hr', hid', hstate'⟩
  generalize table c' = rs at hstep hr'
  cases hstep with
  | other hother =>
    cases hevent
    cases hother
  | created | taken => cases hevent
  | missing hget =>
    cases hevent
    obtain ⟨r, hr, hid, -⟩ := hc
    exact Database.getRelease_error hget r hr hid
  | written hget =>
    cases hevent
    obtain ⟨r, hr, rfl⟩ := List.mem_map.mp hr'
    have hcurrent := (Database.mem_of_getRelease hget).2
    rw [restated_id] at hid'
    rw [restated_self _ _ (hid'.trans hcurrent.symm)] at hstate'
    cases hstate'

/-- The release has been a candidate from the first state to the second. -/
structure StaysCandidate (svc : Service) (id : String) (c₀ c : State) : Prop where
  run : svc.machine.Reach (fun c _ => Candidate c id) c₀ c
  last : Candidate c id

theorem StaysCandidate.at {id : String} {c₀ c : State} (h : svc.StaysCandidate id c₀ c)
    {pre post : List (Nat × GatewayEvent)} {j : Nat} {e : GatewayEvent}
    (hlog : c.log = pre ++ (j, e) :: post) (hlen : c₀.log.length ≤ pre.length) :
    ∃ c₁ x c₂, svc.machine.Reachable c₀ c₁ ∧ c₁.log = pre ∧ Candidate c₁ id ∧
      svc.machine.step? c₁ (.run j x) = some c₂ ∧ c₂.log = c₁.log ++ [(j, e)] ∧
      Candidate c₂ id := by
  obtain ⟨c₁, x, c₂, h₁, rfl, hc₁, hs, hlog₂, h₂⟩ := h.run.at hlog hlen
  refine ⟨c₁, x, c₂, h₁.weaken, rfl, hc₁, hs, hlog₂, ?_⟩
  rcases h₂.head with rfl | ⟨_, hc₂⟩
  · exact h.last
  · exact hc₂

/-- An assessment that has run while the release was a candidate, and behind its last row, has
found nothing to roll back. It reads no more than a hundred thousand rows. -/
theorem assessed_at_rest {id : String} {c₀ c : State} (h₀ : svc.machine.Reachable initial c₀)
    (hstays : svc.StaysCandidate id c₀ c)
    {front back : List (Nat × GatewayEvent)} (hlog : c.log = front ++ back)
    (hfront : c₀.log.length ≤ front.length)
    (hback : ∀ e ∈ back, isCanaryRow id e.2.1 = false) {j : Nat}
    (hevents : ∀ e, (j, e) ∈ c.log → (j, e) ∈ back) {out : Except PyExc RollbackDecision}
    (hrun : AssessRun id (c.trace j) out) :
    ∃ r, (∃ r' ∈ table c, r'.fixed = r.fixed) ∧ r.id = id ∧
      ¬ Breached r ((canaryRows c.world.database id).take 100000) := by
  have h : svc.machine.Reachable initial c := h₀.trans hstays.run.weaken
  -- Each event of the task is one of a candidate, with all the rows in front of it.
  have hat : ∀ e ∈ c.trace j, ∃ c₁ x c₂, svc.machine.Reachable initial c₁ ∧ Candidate c₁ id ∧
      svc.machine.step? c₁ (.run j x) = some c₂ ∧ c₂.log = c₁.log ++ [(j, e)] ∧
      Candidate c₂ id ∧ canaryRows c₁.world.database id = canaryRows c.world.database id := by
    intro e he
    obtain ⟨mid, post, rfl⟩ := List.append_of_mem (hevents e (Pool.mem_trace.mp he))
    have hsplit : c.log = (front ++ mid) ++ (j, e) :: post := by simpa using hlog
    obtain ⟨c₁, x, c₂, h₁, hpre, hc₁, hs, hlog₂, hc₂⟩ := hstays.at hsplit (by simp; omega)
    have hreach := h₀.trans h₁
    refine ⟨c₁, x, c₂, hreach, hc₁, hs, hlog₂, hc₂, ?_⟩
    refine (canaryRows_eq hreach h (hpre ▸ hsplit) fun e' he' => ?_).symm
    exact hback e' (List.mem_append_right _ he')
  have hread : ∀ {a}, ev (.getRelease id) a ∈ c.trace j → ∃ r, a = .ok r ∧ r.state = .candidate := by
    intro a he
    obtain ⟨c₁, x, c₂, h₁, hc₁, hs, hlog₂, -⟩ := hat _ he
    obtain ⟨call, o, k, a', w, -, hexec, rfl⟩ := Machine.step_run hs
    cases List.append_cancel_left hlog₂
    obtain ⟨r, -, ha, -, hstate⟩ := candidate_read h₁ hc₁ hexec
    exact ⟨r, ha, hstate⟩
  have hwrite : ∀ {a}, ev (.setState id .rolledBack) a ∉ c.trace j := by
    intro a he
    obtain ⟨c₁, x, c₂, -, hc₁, hs, hlog₂, hc₂, -⟩ := hat _ he
    exact not_candidate_of_rollback hc₁ hs hlog₂ hc₂
  have hknown : ∀ {r}, ev (.getRelease id) (.ok r) ∈ c.trace j →
      r.id = id ∧ ∃ r' ∈ table c, r'.fixed = r.fixed := fun he =>
    known_of_reach h (Pool.mem_trace.mp he)
  generalize htr : c.trace j = tr at hrun hat hread hwrite hknown
  cases hrun with
  | missing m =>
    obtain ⟨r, hr, -⟩ := hread List.mem_cons_self
    cases hr
  | idle hidle =>
    obtain ⟨r, hr, hstate⟩ := hread List.mem_cons_self
    cases hr
    exact absurd hstate hidle
  | @kept r ms hcandidate hbreach =>
    obtain ⟨hid, hr⟩ := hknown List.mem_cons_self
    refine ⟨r, hr, hid, ?_⟩
    obtain ⟨c₁, x, c₂, -, -, hs, hlog₂, -, hrows⟩ :=
      hat (ev (.metrics (some r.id) none (some true) 100000) ms) (by simp [assessed])
    obtain ⟨call, o, k, a', w, -, hexec, rfl⟩ := Machine.step_run hs
    cases List.append_cancel_left hlog₂
    have hms : ms = (canaryRows c.world.database id).take 100000 := by
      rw [← hrows, exec_metrics hexec, Database.metrics, hid]
      rfl
    rwa [← hms]
  | @vanished r _ _ _ t m =>
    obtain ⟨hid, -⟩ := hknown (r := r) (by simp [assessed])
    exact absurd (by simp [hid]) (hwrite (a := .error m))
  | @rolledBack r _ _ _ t t' r' =>
    obtain ⟨hid, -⟩ := hknown (r := r) (by simp [assessed])
    exact absurd (by simp [hid]) (hwrite (a := .ok r'))

theorem Breached.of_fixed {r r' : Release} {ms : List RequestMetric} (hr : r.fixed = r'.fixed)
    (h : Breached r ms) : Breached r' ms := by
  have hmin : r.minCanarySamples = r'.minCanarySamples := congrArg (·.minCanarySamples) hr
  refine ⟨hmin ▸ h.1, fun hnone => h.2 ?_⟩
  have herror : r.maxErrorRate = r'.maxErrorRate := congrArg (·.maxErrorRate) hr
  have hp99 : r.maxP99LatencyMs = r'.maxP99LatencyMs := congrArg (·.maxP99LatencyMs) hr
  have hschema : r.minSchemaCompliance = r'.minSchemaCompliance :=
    congrArg (·.minSchemaCompliance) hr
  unfold breaches at hnone ⊢
  rwa [herror, hp99, hschema]

/-- When nothing runs any more, the last canary row of a release that has been a candidate since
before it has been assessed, and nothing was found to roll back. -/
theorem last_assessed {id : String} {c₀ c : State} (h₀ : svc.machine.Reachable initial c₀)
    (hstays : svc.StaysCandidate id c₀ c) (hquiet : c.quiet = true)
    (hrow : ∃ e ∈ c.log.drop c₀.log.length, isCanaryRow id e.2.1 = true) :
    ∃ r ∈ table c, r.id = id ∧ r.state = .candidate ∧
      ¬ Breached r ((canaryRows c.world.database id).take 100000) := by
  have h : svc.machine.Reachable initial c := h₀.trans hstays.run.weaken
  -- The last row, and the assessment that its task has started behind it.
  obtain ⟨pre, ⟨i, e⟩, post, hdrop, he, hpost⟩ := exists_last hrow
  have hlog : c.log = (c.log.take c₀.log.length ++ pre) ++ (i, e) :: post := by
    rw [List.append_assoc, ← hdrop, List.take_append_drop]
  have hlen : c₀.log.length ≤ (c.log.take c₀.log.length ++ pre).length := by
    have hlt : c₀.log.length < c.log.length := by
      have hpos := congrArg List.length hdrop
      simp at hpos
      omega
    simp
    omega
  generalize c.log.take c₀.log.length ++ pre = pre at hlog hlen
  obtain ⟨m, rfl, hm⟩ : ∃ m, e = ev (.recordMetric m) () ∧
      Database.metricMatches (some id) none (some true) m = true := by
    rcases e with ⟨o, a⟩
    cases o with
    | recordMetric m => exact ⟨m, rfl, by simpa [isCanaryRow, rowOf] using he⟩
    | _ => cases he
  simp only [Database.metricMatches, Option.all_some, Option.all_none, Bool.and_true,
    Bool.and_eq_true, decide_eq_true_eq] at hm
  obtain ⟨hid, hcanary⟩ := hm
  obtain ⟨t, ht⟩ := h.task_of_mem (i := i) (e := ev (.recordMetric m) ()) (by simp [hlog])
  obtain ⟨out, hrun⟩ := h.run_of_quiet hquiet ht
  obtain ⟨tr, tr', htrace, htr'⟩ := Pool.trace_split hlog
  have hlaunched := (body_assesses t.call).run hrun tr m tr' htrace hcanary.symm id hid
  obtain ⟨mid, back, rfl⟩ := List.append_of_mem (htr' _ hlaunched)
  have hlog' : c.log = (pre ++ (i, ev (.recordMetric m) ()) :: mid) ++
      (i, ev (.createTask (.assess id)) ()) :: back := by simpa using hlog
  have hspawn : Call.assess id ∈ svc.machine.spawn (.createTask (.assess id)) :=
    List.mem_singleton_self _
  obtain ⟨j, t', ht', hcall, hevents⟩ := h.spawned_at hlog' hspawn
  obtain ⟨out', hrun'⟩ := h.run_of_quiet hquiet ht'
  have hbody : (svc.body (.assess id)).AllRuns fun tr _ => ∃ out, AssessRun id tr out :=
    Prog.leaves_map ((assess_runs id).mono fun tr out h => ⟨out, h⟩) _
  rw [hcall] at hrun'
  obtain ⟨decision, hassess⟩ := hbody.run hrun'
  have hfront : c.log = (pre ++ (i, ev (.recordMetric m) ()) :: mid ++
      [(i, ev (.createTask (.assess id)) ())]) ++ back := by simpa using hlog'
  obtain ⟨r, ⟨r', hr', hfixed⟩, hrid, hbreach⟩ := assessed_at_rest h₀ hstays hfront
    (by simp; omega) (fun e he => hpost e (by simp [he])) hevents hassess
  -- What the assessment has read is the release as it still is.
  obtain ⟨r₁, hr₁, hid₁, hstate₁⟩ := hstays.last
  have hid' : r'.id = id := (congrArg (·.id) hfixed).trans hrid
  obtain rfl := (keyed_of_reach h).eq_of_id hr' hr₁ (hid'.trans hid₁.symm)
  exact ⟨r', hr', hid', hstate₁, fun h => hbreach (h.of_fixed hfixed)⟩

/-- When nothing runs any more, a release that has been a candidate since before its last canary
row has too few rows to tell, or its rows meet its thresholds. -/
theorem no_breach_at_rest {id : String} {c₀ c : State} (h₀ : svc.machine.Reachable initial c₀)
    (hstays : svc.StaysCandidate id c₀ c) (hquiet : c.quiet = true)
    (hrow : ∃ e ∈ c.log.drop c₀.log.length, isCanaryRow id e.2.1 = true)
    (hbound : (canaryRows c.world.database id).length ≤ 100000) :
    ∃ r ∈ table c, r.id = id ∧ r.state = .candidate ∧
      ((canaryRows c.world.database id).length < r.minCanarySamples ∨
        MeetsThresholds r (summarizeMetrics (canaryRows c.world.database id))) := by
  obtain ⟨r, hr, hid, hstate, hbreach⟩ := last_assessed h₀ hstays hquiet hrow
  rw [List.take_of_length_le hbound] at hbreach
  refine ⟨r, hr, hid, hstate, ?_⟩
  rcases Nat.lt_or_ge (canaryRows c.world.database id).length r.minCanarySamples with hlt | hge
  · exact .inl hlt
  · refine .inr (meetsThresholds_of_breaches ?_)
    by_contra hne
    exact hbreach ⟨hge, hne⟩

/-! One canary that has succeeded, and its assessment. -/

instance (c : State) (id : String) : Decidable (Candidate c id) :=
  inferInstanceAs (Decidable (∃ r ∈ table c, _))

def settledMoves : List (Move Input Call) :=
  .start (.generate Sample.request none) :: (Sample.goes 1 7 ++
    [.run 1 (Sample.completion "hello")] ++ Sample.goes 1 7 ++ Sample.goes 2 2)

theorem no_breach_at_rest_success : ∃ (c : State) (r : Release),
    Sample.service.machine.Reachable initial c ∧ c.quiet = true ∧ r ∈ table c ∧
    r.state = .candidate ∧ (canaryRows c.world.database "release-1").length = 1 ∧
    ((canaryRows c.world.database "release-1").length < r.minCanarySamples ∨
      MeetsThresholds r (summarizeMetrics (canaryRows c.world.database "release-1"))) := by
  obtain ⟨c₀, hm₀, c, hm, hquiet, hlast, hrow, hlen⟩ :
      ∃ c₀ ∈ Sample.service.machine.moves? initial
          [.start (.createRelease live), .run 0 .go],
        ∃ c ∈ Sample.service.machine.movesWhile?
            (fun c => Decidable.decide (Candidate c "release-1")) c₀ settledMoves,
          c.quiet = true ∧ Candidate c "release-1" ∧
          (∃ e ∈ c.log.drop c₀.log.length, isCanaryRow "release-1" e.2.1 = true) ∧
          (canaryRows c.world.database "release-1").length = 1 := by decide +kernel
  have h₀ := Machine.reachable_of_moves _ .start hm₀
  have hrun := Machine.reach_of_movesWhile _ .start hm
  simp only [decide_eq_true_eq] at hrun
  obtain ⟨r, hr, -, hstate, hverdict⟩ :=
    no_breach_at_rest h₀ ⟨hrun, hlast⟩ hquiet hrow (by rw [hlen]; decide)
  exact ⟨c, r, h₀.trans hrun.weaken, hquiet, hr, hstate, hlen, hverdict⟩

end Service

end AegisGateway
