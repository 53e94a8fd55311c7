import AegisGateway.Policy

/-!
# One exchange for each call

Once a call has resolved its request and has its assignment, everything it does is done for
that one exchange: what it asks the providers and the cache, the tasks it starts and the
rows it writes.
-/

open Coroutine JsonText

namespace AegisGateway

namespace Service

variable {svc : Service}

/-! ## The request -/

theorem applyTemplate_ok {P : Platform} {q q' : GatewayRequest} {content : Object}
    (h : P.applyTemplate q content = .ok q') :
    ∃ template, content.lookup "template" = some (.str template) ∧
      q' = { q with messages :=
        ⟨.developer, render q.promptVariables (pieces P.isSpace template), none⟩ :: q.messages } := by
  unfold Platform.applyTemplate at h
  split at h
  next template htemplate =>
    split_ifs at h
    dsimp only at h
    split_ifs at h
    cases hm : Message.validate _ with
    | error e =>
      rw [hm] at h
      cases h
    | ok message =>
      rw [hm] at h
      cases h
      unfold Message.validate at hm
      split_ifs at hm
      cases hm
      exact ⟨template, htemplate, rfl⟩
  next => cases h

theorem Resolved.messages {q q' : GatewayRequest} {tr : GatewayTrace} (h : svc.Resolved q tr q') :
    ∃ added, q' = { q with messages := added ++ q.messages } ∧ (added = [] ↔ q.prompt = none) := by
  rcases h with ⟨hp, rfl⟩ | ⟨ref, artifact, hp, -, ha⟩
  · exact ⟨[], rfl, by simp [hp]⟩
  · obtain ⟨template, -, rfl⟩ := applyTemplate_ok ha
    exact ⟨[_], rfl, by simp [hp]⟩

/-! ## What belongs to an exchange -/

inductive Launches (x : Exchange) : Call → Prop
  | shadow {routeId : String} (hx : x.shadow = false)
      (h : x.assignment.shadowRouteId = some routeId) :
      Launches x (.shadow x.shadowRequest routeId x.assignment.releaseId)
  | assess {releaseId : String} (hc : x.assignment.canary = true)
      (h : x.assignment.releaseId = some releaseId) : Launches x (.assess releaseId)

structure RowOf (x : Exchange) (m : RequestMetric) : Prop where
  requestId : m.requestId = x.request.requestId
  canary : m.canary = x.assignment.canary
  releaseId : m.releaseId = x.assignment.releaseId
  shadow : m.shadow = x.shadow
  online : x.evaluation = false

structure Concerns (x : Exchange) (e : GatewayEvent) : Prop where
  call : ∀ q route, providerCall e.1 = some (q, route) →
    ∃ remaining, q = attemptRequest x.request remaining
  get : ∀ q ns, e.1 = .cacheGet q ns → q = x.request ∧ ns = x.ns
  task : ∀ call, e.1 = .createTask call → Launches x call
  row : ∀ m, e.1 = .recordMetric m → RowOf x m

/-- Operations without any of this. -/
def impersonal : Op → Bool
  | .complete _ _ | .openStream _ _ | .cacheGet _ _ | .createTask _ | .recordMetric _ => false
  | _ => true

theorem concerns_of_impersonal {x : Exchange} {e : GatewayEvent} (h : impersonal e.1 = true) :
    Concerns x e := by
  rcases e with ⟨o, a⟩
  constructor
  · intro q route hcall
    cases o <;> simp [providerCall, impersonal] at hcall h
  all_goals
    intros
    subst_vars
    cases h

theorem concerns_of_forall {x : Exchange} {tr : GatewayTrace}
    (h : ∀ e ∈ tr, impersonal e.1 = true) : ∀ e ∈ tr, Concerns x e :=
  fun e he => concerns_of_impersonal (h e he)

theorem concerns_call {x : Exchange} {e : GatewayEvent} {route : ModelRoute} (remaining : ℚ)
    (h : providerCall e.1 = some (attemptRequest x.request remaining, route)) : Concerns x e := by
  rcases e with ⟨o, a⟩
  constructor
  · intro q r hcall
    rw [h] at hcall
    cases hcall
    exact ⟨remaining, rfl⟩
  all_goals
    intros
    subst_vars
    cases h

theorem concerns_task {x : Exchange} {call : Call} (h : Launches x call) :
    Concerns x (ev (.createTask call) ()) := by
  constructor <;> simp [providerCall, h]

theorem concerns_row {x : Exchange} {m : RequestMetric} (h : RowOf x m) :
    Concerns x (ev (.recordMetric m) ()) := by
  constructor <;> simp [providerCall, h]

/-! ## Straight lines -/

theorem assessEvents_concern (x : Exchange) : ∀ e ∈ x.assessEvents, Concerns x e := by
  unfold Exchange.assessEvents
  split
  next hc hr => exact List.forall_mem_singleton.mpr (concerns_task (.assess hc hr))
  next => simp

theorem launchEvents_concern (x : Exchange) : ∀ e ∈ x.launchEvents, Concerns x e := by
  unfold Exchange.launchEvents
  split_ifs with hx
  · simp
  · rw [List.forall_mem_append]
    refine ⟨?_, assessEvents_concern x⟩
    unfold Exchange.shadowEvents
    cases h : x.assignment.shadowRouteId with
    | none => simp
    | some routeId =>
      exact List.forall_mem_singleton.mpr (concerns_task (.shadow (by simpa using hx) h))

theorem rowEvents_concern {x : Exchange} (hx : x.evaluation = false) (response : GatewayResponse)
    (t : Int) : ∀ e ∈ x.rowEvents response t, Concerns x e := by
  have hrow : RowOf x (x.responseRow response t) := ⟨rfl, rfl, rfl, rfl, hx⟩
  unfold Exchange.rowEvents
  simp only [List.forall_mem_cons]
  exact ⟨concerns_of_impersonal rfl, concerns_row hrow, by simp⟩

theorem errorEvents_concern {x : Exchange} (hx : x.evaluation = false) (route : ModelRoute)
    (error : AegisError) (n : Nat) (now : ℚ) (t : Int) :
    ∀ e ∈ x.errorEvents route error n now t, Concerns x e := by
  have hrow : RowOf x (x.errorRow route error n ((now - x.started) * 1000) t) :=
    ⟨rfl, rfl, rfl, rfl, hx⟩
  unfold Exchange.errorEvents
  simp only [List.forall_mem_append, List.forall_mem_cons]
  exact ⟨⟨concerns_of_impersonal rfl, concerns_of_impersonal rfl, concerns_row hrow, by simp⟩,
    assessEvents_concern x⟩

theorem keepEvents_concern (x : Exchange) (response : GatewayResponse) (t : Int) :
    ∀ e ∈ x.keepEvents response t, Concerns x e := by
  have hrow : ∀ e ∈ (if x.evaluation then [] else x.rowEvents response t), Concerns x e := by
    split_ifs with hx
    · simp
    · exact rowEvents_concern (by simpa using hx) response t
  have hput : ∀ e ∈ x.putEvents response, Concerns x e := by
    apply concerns_of_forall
    unfold Exchange.putEvents
    split_ifs <;> simp [impersonal]
  simp only [Exchange.keepEvents, List.forall_mem_append]
  exact ⟨hrow, hput, launchEvents_concern x⟩

theorem GaveUp.concern {α : Type} {x : Exchange} {st : LoopState} {tr : GatewayTrace}
    {out : Except PyExc α} (h : GaveUp x st tr out) : ∀ e ∈ tr, Concerns x e := by
  cases h with
  | unrecorded | assertion => simp
  | recorded now t he hr hx => exact errorEvents_concern hx _ _ _ now t

theorem Handled.concern {α : Type} {x : Exchange} {timeout : String} {route : ModelRoute}
    {st : LoopState} {e : PyExc} {tr : GatewayTrace} {out : Except PyExc (Pass α)}
    (h : Handled timeout route st e tr out) : ∀ e ∈ tr, Concerns x e := by
  apply concerns_of_forall
  cases h <;> simp [failureEvents, impersonal]

theorem failureEvents_concern (x : Exchange) (route : ModelRoute) (state : CircuitState) :
    ∀ e ∈ failureEvents route state, Concerns x e :=
  concerns_of_forall (by simp [failureEvents, impersonal])

theorem StreamHandled.concern {x : Exchange} (hx : x.evaluation = false) {route : ModelRoute}
    {st : LoopState} {emitted : Bool} {e : PyExc} {tr : GatewayTrace}
    {out : Except PyExc (Pass Unit)} (h : StreamHandled x route st emitted e tr out) :
    ∀ e ∈ tr, Concerns x e := by
  cases emitted with
  | false => exact Handled.concern h
  | true =>
    have h : Interrupted x route st e tr out := h
    cases h with
    | schemaViolation m now t => exact errorEvents_concern hx route _ _ now t
    | circuitOpen => exact concerns_of_forall (by simp [impersonal])
    | timeout state now t | provider e state now t =>
      rw [List.forall_mem_append]
      exact ⟨failureEvents_concern x route state, errorEvents_concern hx route _ _ now t⟩
    | unhandled => simp

/-! ## Attempts -/

theorem admitted_concern (x : Exchange) (route : ModelRoute) (t : ℚ) (state : CircuitState) :
    ∀ e ∈ admitted route t state, Concerns x e :=
  concerns_of_forall (by simp [admitted, impersonal])

theorem successEvents_concern (x : Exchange) (route : ModelRoute) (state : CircuitState) :
    ∀ e ∈ successEvents route state, Concerns x e :=
  concerns_of_forall (by simp [successEvents, impersonal])

theorem impersonal_of_relaying {o : Op} (h : relaying o = true) : impersonal o = true := by
  cases o <;> first | rfl | cases h

theorem GeneratePassRun.concern {x : Exchange} {c : RoutingCandidate} {route : ModelRoute}
    {st : LoopState} {tr : GatewayTrace} {out : Except PyExc (Pass GatewayResponse)}
    (h : svc.GeneratePassRun x c route st tr out) : ∀ e ∈ tr, Concerns x e := by
  cases h with
  | deadline | refused => exact concerns_of_forall (by simp [impersonal])
  | unconfigured ht hr hh =>
    rw [List.forall_mem_append]
    exact ⟨admitted_concern x _ _ _, hh.concern⟩
  | failed ht hr he hh =>
    simp only [List.forall_mem_append, List.forall_mem_cons]
    exact ⟨admitted_concern x _ _ _, concerns_call _ rfl, hh.concern⟩
  | succeeded ht hr ha =>
    simp only [List.forall_mem_append, List.forall_mem_cons]
    exact ⟨admitted_concern x _ _ _, concerns_call _ rfl, successEvents_concern x _ _,
      concerns_of_impersonal rfl, concerns_of_impersonal rfl, keepEvents_concern x _ _⟩

theorem StreamPassRun.concern {x : Exchange} (hx : x.evaluation = false) {c : RoutingCandidate}
    {route : ModelRoute} {st : LoopState} {tr : GatewayTrace} {out : Except PyExc (Pass Unit)}
    (h : svc.StreamPassRun x c route st tr out) : ∀ e ∈ tr, Concerns x e := by
  have hrelay : ∀ {es r tr r' left}, RelayRun x route es r tr r' left → ∀ e ∈ tr, Concerns x e :=
    fun h => concerns_of_forall fun e he => impersonal_of_relaying (h.relaying e he)
  cases h with
  | deadline | refused => exact concerns_of_forall (by simp [impersonal])
  | unconfigured ht hr hh =>
    rw [List.forall_mem_append]
    exact ⟨admitted_concern x _ _ _, hh.concern⟩
  | left ht hr hl =>
    simp only [List.forall_mem_append, List.forall_mem_cons]
    exact ⟨admitted_concern x _ _ _, concerns_call _ rfl, hrelay hl⟩
  | failed ht hr hl he hh =>
    simp only [List.forall_mem_append, List.forall_mem_cons]
    exact ⟨admitted_concern x _ _ _, concerns_call _ rfl, hrelay hl, hh.concern hx⟩
  | succeeded ht hr hl hv =>
    simp only [List.forall_mem_append, List.forall_mem_cons]
    exact ⟨admitted_concern x _ _ _, concerns_call _ rfl, hrelay hl, successEvents_concern x _ _,
      concerns_of_impersonal rfl, concerns_of_impersonal rfl, keepEvents_concern x _ _,
      concerns_of_impersonal rfl, by simp⟩

theorem ServedRun.concern {x : Exchange} (hx : x.evaluation = false) {hit : GatewayResponse}
    {tr : GatewayTrace} {out : Except PyExc GatewayResponse} (h : ServedRun x hit tr out) :
    ∀ e ∈ tr, Concerns x e := by
  cases h with
  | served now t t' =>
    simp only [List.forall_mem_append, List.forall_mem_cons]
    exact ⟨concerns_of_impersonal rfl, concerns_of_impersonal rfl, rowEvents_concern hx _ _,
      launchEvents_concern x⟩

theorem StreamServedRun.concern {x : Exchange} (hx : x.evaluation = false) {hit : GatewayResponse}
    {tr : GatewayTrace} {out : Except PyExc Unit} (h : StreamServedRun x hit tr out) :
    ∀ e ∈ tr, Concerns x e := by
  cases h with
  | leftAtStart now | leftAtDelta now =>
    exact concerns_of_forall (by simp [hitEvent, impersonal])
  | served now t consumer =>
    simp only [List.forall_mem_append, List.forall_mem_cons]
    exact ⟨concerns_of_impersonal rfl, concerns_of_impersonal rfl, concerns_of_impersonal rfl,
      rowEvents_concern hx _ _, launchEvents_concern x, concerns_of_impersonal rfl, by simp⟩

/-! ## Calls -/

/-- A call that is still finding its request, or one that is about the exchange `x`. -/
def OneExchange (svc : Service) (args : Arguments) (tr : GatewayTrace) : Prop :=
  (∀ e ∈ tr, preliminary e.1) ∨ ∃ tr₀ tr₁ x, tr = tr₀ ++ tr₁ ∧ svc.Begun args tr₀ x ∧
    ∀ e ∈ tr₁, Concerns x e

theorem OneExchange.prefix {args : Arguments} {tr tr' : GatewayTrace}
    (h : svc.OneExchange args (tr ++ tr')) : svc.OneExchange args tr := by
  rcases h with hp | ⟨tr₀, tr₁, x, htr, hb, hx⟩
  · exact .inl fun e he => hp e (List.mem_append_left _ he)
  · rcases List.append_eq_append_iff.mp htr with ⟨mid, rfl, -⟩ | ⟨mid, rfl, rfl⟩
    · exact .inl fun e he => hb.preliminary e (List.mem_append_left _ he)
    · exact .inr ⟨tr₀, mid, x, rfl, hb, fun e he => hx e (List.mem_append_left _ he)⟩

theorem missEvents_concern {x : Exchange} (xs : List (ModelRoute × Bool)) :
    ∀ e ∈ missEvents x ++ asked xs, Concerns x e := by
  have hask : ∀ e ∈ asked xs, impersonal e.1 = true := by
    intro e he
    obtain ⟨a, -, rfl⟩ := List.mem_map.mp he
    rfl
  rw [List.forall_mem_append]
  refine ⟨?_, concerns_of_forall hask⟩
  unfold missEvents
  split_ifs
  · rw [List.forall_mem_singleton]
    constructor <;> simp [providerCall]
  · simp

theorem ApproachRun.concern {args : Arguments} {tr : GatewayTrace} {x : Exchange} {origin : Origin}
    (h : svc.ApproachRun args tr (.ok (x, origin))) :
    ∃ tr₀ tr₁, tr = tr₀ ++ tr₁ ∧ svc.Begun args tr₀ x ∧ ∀ e ∈ tr₁, Concerns x e := by
  cases h with
  | hit hb =>
    refine ⟨_, _, rfl, hb, List.forall_mem_singleton.mpr ?_⟩
    constructor <;> simp [providerCall]
  | decided hb => exact ⟨_, _, rfl, hb, missEvents_concern _⟩

theorem ApproachRun.oneExchange {args : Arguments} {tr : GatewayTrace}
    {out : Except PyExc (Exchange × Origin)} (h : svc.ApproachRun args tr out) :
    svc.OneExchange args tr := by
  cases out with
  | ok a =>
    obtain ⟨tr₀, tr₁, htr, hb, hx⟩ := h.concern
    exact .inr ⟨tr₀, tr₁, a.1, htr, hb, hx⟩
  | error e =>
    cases h with
    | stopped hp => exact .inl hp
    | unroutable hb => exact .inr ⟨_, _, _, rfl, hb, missEvents_concern _⟩

theorem CallRun.oneExchange {α : Type} {args : Arguments}
    {served : Exchange → GatewayResponse → GatewayTrace → Except PyExc α → Prop}
    {R : Exchange → PassRel α}
    (hserved : ∀ x, x.evaluation = false → ∀ hit tr out, served x hit tr out →
      ∀ e ∈ tr, Concerns x e)
    (hR : ∀ x, x.evaluation = args.evaluation → ∀ c route st tr out, R x c route st tr out →
      ∀ e ∈ tr, Concerns x e)
    {tr : GatewayTrace} {out : Except PyExc α} (h : svc.CallRun args served R tr out) :
    svc.OneExchange args tr := by
  cases h with
  | stopped h => exact h.oneExchange
  | @served tr tr' x hit _ h hs =>
    have hx : x.evaluation = false := by
      cases h with
      | hit hb hc => simp_all [Exchange.cacheAllowed]
    obtain ⟨tr₀, tr₁, rfl, hb, htr₁⟩ := h.concern
    refine .inr ⟨tr₀, tr₁ ++ tr', x, List.append_assoc _ _ _, hb, ?_⟩
    exact List.forall_mem_append.mpr ⟨htr₁, hserved x hx _ _ _ hs⟩
  | @looped tr tr' x d _ h hl =>
    obtain ⟨tr₀, tr₁, rfl, hb, htr₁⟩ := h.concern
    refine .inr ⟨tr₀, tr₁ ++ tr', x, List.append_assoc _ _ _, hb, ?_⟩
    refine List.forall_mem_append.mpr ⟨htr₁, fun e he => ?_⟩
    rcases hl.events (fun _ _ _ => GaveUp.concern) (hR x hb.evaluation) e he with
      hx | ⟨_, _, _, _, hx⟩
    · exact hx
    · exact hx

theorem generate_oneExchange (args : Arguments) :
    (svc.generate args).Leaves (svc.OneExchange args) :=
  (svc.generate_runs args).mono fun _ _ h =>
    h.oneExchange (fun _ hx _ _ _ => ServedRun.concern hx) fun _ _ _ _ _ _ _ =>
      GeneratePassRun.concern

theorem stream_oneExchange (q : GatewayRequest) (forced : Option String) :
    (svc.stream q forced).Leaves (svc.OneExchange { request := q, forcedRouteId := forced }) :=
  (svc.stream_runs q forced).mono fun _ _ h =>
    h.oneExchange (fun _ hx _ _ _ => StreamServedRun.concern hx) fun _ hx _ _ _ _ _ =>
      StreamPassRun.concern hx

theorem body_oneExchange {call : Call} {args : Arguments} (h : callArguments call = some args) :
    (svc.body call).Leaves (svc.OneExchange args) := by
  cases call with
  | generate q forced | shadow q routeId releaseId =>
    cases h
    exact Prog.leaves_map (generate_oneExchange _) _
  | stream q forced =>
    cases h
    exact Prog.leaves_map (stream_oneExchange q forced) _
  | _ => cases h

/-- What a task that runs a call of the data plane has done so far is about one exchange. -/
theorem oneExchange_of_reachable {c : State} (h : svc.machine.Reachable initial c) {i : Nat}
    {t : Task Op Ans PyExc Outcome Call} (ht : c.tasks[i]? = some t) {args : Arguments}
    (hargs : callArguments t.call = some args) : svc.OneExchange args (c.trace i) :=
  Prog.Leaves.steps (fun _ _ => OneExchange.prefix) (body_oneExchange hargs)
    (h.onTheWay.2 i t ht)

end Service

end AegisGateway
