import AegisGateway.CacheIdentity
import AegisGateway.Runs

/-!
# Policy

A provider is called for a request only on a route that the request is eligible for, and
a cached answer comes from a route that the request allows.
-/

open Coroutine JsonText

namespace AegisGateway

/-! ## Eligibility -/

/-- The constraints of a request that do not depend on its size or its budget. -/
structure MeetsPolicy (q : GatewayRequest) (forced : Option String) (route : ModelRoute) :
    Prop where
  capabilities : q.requiredCapabilities ⊆ route.capabilities
  privacy : requiredPrivacy q ∈ route.privacyModes
  region : q.allowedRegions = [] ∨ ∃ region ∈ q.allowedRegions, region ∈ route.regions
  forced : ∀ id, forced = some id → route.id = id

structure Eligible (q : GatewayRequest) (forced : Option String) (route : ModelRoute) : Prop
    extends MeetsPolicy q forced route where
  enabled : route.enabled = true
  contextWindow : requestInputTokens q + q.maxOutputTokens ≤ route.contextWindow
  cost : requestCost route q ≤ q.maxCostUsd
  latency : route.expectedP95LatencyMs ≤ q.maxLatencyMs

theorem missingCapabilities_eq_nil {q : GatewayRequest} {route : ModelRoute} :
    missingCapabilities q route = [] ↔ q.requiredCapabilities ⊆ route.capabilities := by
  simp [missingCapabilities, List.filter_eq_nil_iff, List.subset_def]

theorem regionAllowed_iff {q : GatewayRequest} {route : ModelRoute} :
    regionAllowed q route = true ↔
      q.allowedRegions = [] ∨ ∃ region ∈ q.allowedRegions, region ∈ route.regions := by
  simp [regionAllowed]

theorem rejectReasons_eq_nil {q : GatewayRequest} {opts : RoutingOptions} {route : ModelRoute}
    {available : Bool} : rejectReasons q opts route available = [] ↔
      Eligible q opts.forcedRouteId route ∧ route.id ∉ opts.excludedRouteIds ∧
        available = true := by
  have hif : ∀ (c : Prop) [Decidable c] (reason : String),
      (if c then [] else [reason]) = [] ↔ c := by
    intro c _ reason
    split_ifs with h <;> simp [h]
  have hif' : ∀ (c : Prop) [Decidable c] (reason : String),
      (if c then [reason] else []) = [] ↔ ¬ c := by
    intro c _ reason
    split_ifs with h <;> simp [h]
  have hforced : opts.forcedRouteId.all (· = route.id) = true ↔
      ∀ id, opts.forcedRouteId = some id → route.id = id := by
    cases opts.forcedRouteId <;> simp [eq_comm]
  simp only [rejectReasons, List.append_eq_nil_iff, hif, hif', missingCapabilities_eq_nil,
    regionAllowed_iff, hforced]
  constructor
  · rintro ⟨⟨⟨⟨⟨⟨⟨⟨⟨henabled, hexcluded⟩, hforced⟩, hcaps⟩, hprivacy⟩, hregion⟩, hwindow⟩, hcost⟩,
      hlatency⟩, havailable⟩
    exact ⟨⟨⟨hcaps, hprivacy, hregion, hforced⟩, henabled, hwindow, hcost, hlatency⟩, hexcluded,
      havailable⟩
  · rintro ⟨⟨⟨hcaps, hprivacy, hregion, hforced⟩, henabled, hwindow, hcost, hlatency⟩, hexcluded,
      havailable⟩
    exact ⟨⟨⟨⟨⟨⟨⟨⟨⟨henabled, hexcluded⟩, hforced⟩, hcaps⟩, hprivacy⟩, hregion⟩, hwindow⟩, hcost⟩,
      hlatency⟩, havailable⟩

namespace Service

variable {svc : Service}

/-! ## From the candidates to the routes -/

theorem getRoute_ok {routeId : String} {route : ModelRoute} (h : svc.getRoute routeId = .ok route) :
    route ∈ svc.routes ∧ route.id = routeId := by
  unfold getRoute at h
  split at h
  next found hfind =>
    cases h
    have hid := List.find?_some hfind
    exact ⟨List.mem_of_find?_eq_some hfind, by simpa using hid⟩
  next => cases h

theorem mem_of_conclude {q : GatewayRequest} {opts : RoutingOptions} {cs : List RoutingCandidate}
    {rejected : List RejectedRoute} {d : RoutingDecision}
    (hd : svc.conclude q opts cs rejected = .ok d) {c : RoutingCandidate} (hc : c ∈ d.candidates) :
    ∃ c₀ ∈ cs, c₀.routeId = c.routeId := by
  unfold conclude at hd
  split at hd
  next => cases hd
  next best rest hsort =>
    cases hd
    obtain ⟨c₀, hc₀, rfl⟩ := List.mem_map.mp hc
    rw [← hsort, List.mem_insertionSort] at hc₀
    exact ⟨c₀, hc₀, rfl⟩

theorem orderedCandidates_subset (d : RoutingDecision) : orderedCandidates d ⊆ d.candidates := by
  unfold orderedCandidates
  split
  next selected hfind =>
    exact List.cons_subset.mpr ⟨List.mem_of_find?_eq_some hfind, List.eraseP_subset⟩
  next => exact List.nil_subset _

theorem getRoute_of_mem {route : ModelRoute} (h : route ∈ svc.routes) :
    ∃ r, svc.getRoute route.id = .ok r := by
  unfold getRoute
  cases hfind : svc.routes.find? (·.id = route.id) with
  | none =>
    have hall := List.find?_eq_none.mp hfind route h
    simp at hall
  | some r => exact ⟨r, rfl⟩

theorem getRoute_of_candidate {q : GatewayRequest} {opts : RoutingOptions}
    {xs : List (ModelRoute × Bool)} {d : RoutingDecision} (hxs : xs.map Prod.fst = svc.routes)
    (hd : svc.conclude q opts (svc.passed q opts xs) (turnedDown q opts xs) = .ok d)
    {c : RoutingCandidate} (hc : c ∈ orderedCandidates d) :
    ∃ route, svc.getRoute c.routeId = .ok route := by
  obtain ⟨c₀, hc₀, hid⟩ := mem_of_conclude hd (orderedCandidates_subset d hc)
  obtain ⟨⟨r, available⟩, hr, hpass⟩ := List.mem_filterMap.mp hc₀
  split_ifs at hpass
  have hmem : r ∈ svc.routes := hxs ▸ List.mem_map_of_mem hr
  have hrid : r.id = c.routeId := by
    rw [← hid, ← Option.some.inj hpass]
    rfl
  rw [← hrid]
  exact getRoute_of_mem hmem

theorem orderedCandidates_ne_nil {q : GatewayRequest} {opts : RoutingOptions}
    {cs : List RoutingCandidate} {rejected : List RejectedRoute} {d : RoutingDecision}
    (hd : svc.conclude q opts cs rejected = .ok d) : orderedCandidates d ≠ [] := by
  unfold conclude at hd
  split at hd
  next => cases hd
  next best rest hsort =>
    cases hd
    set ranked := (best :: rest).map fun c =>
      { c with routingRegret := max 0 (best.utility - c.utility) } with hranked
    have hbest : ∃ c ∈ ranked, c.routeId = best.routeId := by
      refine ⟨{ best with routingRegret := max 0 (best.utility - best.utility) }, ?_, rfl⟩
      simp [hranked]
    have hselected : ∃ c ∈ ranked, c.routeId =
        ((opts.preferredRouteId.bind fun id => ranked.find? (·.routeId = id)).getD best).routeId := by
      cases hpref : opts.preferredRouteId.bind fun id => ranked.find? (·.routeId = id) with
      | none => exact hbest
      | some c =>
        obtain ⟨id, -, hfind⟩ := Option.bind_eq_some_iff.mp hpref
        exact ⟨c, List.mem_of_find?_eq_some hfind, rfl⟩
    obtain ⟨c, hc, hid⟩ := hselected
    unfold orderedCandidates
    dsimp only
    split
    next => simp
    next hnone =>
      have hall := List.find?_eq_none.mp hnone c hc
      simp [hid] at hall

theorem eligible_of_candidate {x : Exchange} {xs : List (ModelRoute × Bool)} {d : RoutingDecision}
    (hxs : xs.map Prod.fst = svc.routes)
    (hd : svc.conclude x.request x.options (svc.passed x.request x.options xs)
      (turnedDown x.request x.options xs) = .ok d) {c : RoutingCandidate}
    (hc : c ∈ orderedCandidates d) {route : ModelRoute} (hr : svc.getRoute c.routeId = .ok route) :
    Eligible x.request x.forcedRouteId route ∧ ev (.isAvailable route.id) true ∈ asked xs := by
  obtain ⟨c₀, hc₀, hid⟩ := mem_of_conclude hd (orderedCandidates_subset d hc)
  obtain ⟨⟨r, available⟩, hr₀, hpass⟩ := List.mem_filterMap.mp hc₀
  split_ifs at hpass with hreasons
  obtain ⟨heligible, -, rfl⟩ := rejectReasons_eq_nil.mp hreasons
  -- The catalogue has one route for an id.
  have hroutes : r ∈ svc.routes := hxs ▸ List.mem_map_of_mem hr₀
  obtain ⟨hroute, hrid⟩ := getRoute_ok hr
  have hsame : r.id = route.id := by
    rw [hrid, ← hid, ← Option.some.inj hpass]
    rfl
  obtain rfl := List.inj_on_of_nodup_map svc.routes_nodup hroutes hroute hsame
  exact ⟨heligible, List.mem_map.mpr ⟨_, hr₀, rfl⟩⟩

/-! ## What an attempt does with its route -/

def providerCall : Op → Option (GatewayRequest × ModelRoute)
  | .complete q route | .openStream q route => some (q, route)
  | _ => none

structure OnRoute (x : Exchange) (route : ModelRoute) (e : GatewayEvent) : Prop where
  call : ∀ q r, providerCall e.1 = some (q, r) →
    r = route ∧ ∃ remaining, q = attemptRequest x.request remaining
  put : ∀ q response ns, e.1 = .cachePut q response ns →
    q = x.request ∧ response.routeId = route.id ∧ ns = x.ns
  serving : serving e.1 = true

def aside : Op → Bool
  | .complete _ _ | .openStream _ _ | .cacheGet _ _ | .cachePut _ _ _ | .putArtifact _ _ _ _
  | .createRelease _ | .setState _ _ | .recordRollback _ _ _ | .putEvaluation _ => false
  | _ => true

theorem serving_of_aside {o : Op} (h : aside o = true) : serving o = true := by
  cases o <;> first | rfl | cases h

theorem onRoute_of_aside {x : Exchange} {r : ModelRoute} {e : GatewayEvent}
    (h : aside e.1 = true) : OnRoute x r e := by
  rcases e with ⟨o, a⟩
  constructor
  · intro q r' hcall
    cases o <;> simp [providerCall, aside] at hcall h
  · rintro q response ns rfl
    cases h
  · exact serving_of_aside h

theorem aside_of_settling {o : Op} (h : settling o = true) : aside o = true := by
  cases o <;> first | rfl | cases h

theorem aside_of_relaying {o : Op} (h : relaying o = true) : aside o = true := by
  cases o <;> first | rfl | cases h

theorem onRoute_of_forall {x : Exchange} {r : ModelRoute} {tr : GatewayTrace}
    (h : ∀ e ∈ tr, aside e.1 = true) : ∀ e ∈ tr, OnRoute x r e :=
  fun e he => onRoute_of_aside (h e he)

theorem admitted_onRoute {x : Exchange} {r : ModelRoute} (route : ModelRoute) (t : ℚ)
    (state : CircuitState) : ∀ e ∈ admitted route t state, OnRoute x r e :=
  onRoute_of_forall (by simp [admitted, aside])

theorem successEvents_onRoute {x : Exchange} {r : ModelRoute} (route : ModelRoute)
    (state : CircuitState) : ∀ e ∈ successEvents route state, OnRoute x r e :=
  onRoute_of_forall (by simp [successEvents, aside])

theorem complete_onRoute {x : Exchange} {route : ModelRoute} (remaining : ℚ)
    (a : Except PyExc ProviderResult) :
    OnRoute x route (ev (.complete (attemptRequest x.request remaining) route) a) := by
  constructor <;> simp [providerCall, serving]

theorem openStream_onRoute {x : Exchange} {route : ModelRoute} (remaining : ℚ) (script : Script) :
    OnRoute x route (ev (.openStream (attemptRequest x.request remaining) route) script) := by
  constructor <;> simp [providerCall, serving]

theorem keepEvents_onRoute {x : Exchange} {route : ModelRoute} {response : GatewayResponse}
    (h : response.routeId = route.id) (t : Int) :
    ∀ e ∈ x.keepEvents response t, OnRoute x route e := by
  have hlaunch : ∀ e ∈ x.launchEvents, OnRoute x route e :=
    onRoute_of_forall fun e he => aside_of_settling (settling_of_task (launchEvents_tasks x e he))
  have hput : ∀ e ∈ x.putEvents response, OnRoute x route e := by
    unfold Exchange.putEvents
    split_ifs
    · rw [List.forall_mem_singleton]
      constructor <;> simp [providerCall, h, serving]
    · simp
  have hrow : ∀ e ∈ (if x.evaluation then [] else x.rowEvents response t), OnRoute x route e := by
    apply onRoute_of_forall
    unfold Exchange.rowEvents
    split_ifs <;> simp [aside]
  simp only [Exchange.keepEvents, List.forall_mem_append]
  exact ⟨hrow, hput, hlaunch⟩

theorem GeneratePassRun.onRoute {x : Exchange} {c : RoutingCandidate} {route : ModelRoute}
    {st : LoopState} {tr : GatewayTrace} {out : Except PyExc (Pass GatewayResponse)}
    (h : svc.GeneratePassRun x c route st tr out) : ∀ e ∈ tr, OnRoute x route e := by
  cases h with
  | deadline | refused => exact onRoute_of_forall (by simp [aside])
  | unconfigured ht hr hh =>
    simp only [List.forall_mem_append]
    exact ⟨admitted_onRoute _ _ _,
      onRoute_of_forall fun e he => aside_of_settling (hh.settling e he)⟩
  | failed ht hr he hh =>
    simp only [List.forall_mem_append, List.forall_mem_cons]
    exact ⟨admitted_onRoute _ _ _, complete_onRoute _ _,
      onRoute_of_forall fun e he => aside_of_settling (hh.settling e he)⟩
  | succeeded ht hr ha =>
    simp only [List.forall_mem_append, List.forall_mem_cons]
    exact ⟨admitted_onRoute _ _ _, complete_onRoute _ _, successEvents_onRoute _ _,
      onRoute_of_aside rfl, onRoute_of_aside rfl, keepEvents_onRoute rfl _⟩

theorem StreamPassRun.onRoute {x : Exchange} {c : RoutingCandidate} {route : ModelRoute}
    {st : LoopState} {tr : GatewayTrace} {out : Except PyExc (Pass Unit)}
    (h : svc.StreamPassRun x c route st tr out) : ∀ e ∈ tr, OnRoute x route e := by
  cases h with
  | deadline | refused => exact onRoute_of_forall (by simp [aside])
  | unconfigured ht hr hh =>
    simp only [List.forall_mem_append]
    exact ⟨admitted_onRoute _ _ _,
      onRoute_of_forall fun e he => aside_of_settling (hh.settling e he)⟩
  | left ht hr hl =>
    have hl := onRoute_of_forall (x := x) (r := route) fun e he => aside_of_relaying (hl.relaying e he)
    simp only [List.forall_mem_append, List.forall_mem_cons]
    exact ⟨admitted_onRoute _ _ _, openStream_onRoute _ _, hl⟩
  | failed ht hr hl he hh =>
    have hl := onRoute_of_forall (x := x) (r := route) fun e he => aside_of_relaying (hl.relaying e he)
    simp only [List.forall_mem_append, List.forall_mem_cons]
    exact ⟨admitted_onRoute _ _ _, openStream_onRoute _ _, hl,
      onRoute_of_forall fun e he => aside_of_settling (hh.settling e he)⟩
  | succeeded ht hr hl hv =>
    have hl := onRoute_of_forall (x := x) (r := route) fun e he => aside_of_relaying (hl.relaying e he)
    simp only [List.forall_mem_append, List.forall_mem_cons]
    exact ⟨admitted_onRoute _ _ _, openStream_onRoute _ _, hl, successEvents_onRoute _ _,
      onRoute_of_aside rfl, onRoute_of_aside rfl, keepEvents_onRoute rfl _, onRoute_of_aside rfl,
      by simp⟩

/-! ## Provider calls -/

/-- What has been made sure of before a provider is called with `q` on behalf of `args`. -/
structure Vetted (svc : Service) (args : Arguments) (pre : GatewayTrace) (q : GatewayRequest)
    (route : ModelRoute) : Prop where
  inCatalogue : route ∈ svc.routes
  eligible : ∃ q', svc.Resolved args.request pre q' ∧ Eligible q' args.forcedRouteId route ∧
    ∃ remaining, q = attemptRequest q' remaining
  available : ev (.isAvailable route.id) true ∈ pre

/-- Each provider call of the trace is vetted by the events in front of it. -/
def CallsVetted (svc : Service) (args : Arguments) (tr : GatewayTrace) : Prop :=
  ∀ pre e post q route, tr = pre ++ e :: post → providerCall e.1 = some (q, route) →
    svc.Vetted args pre q route

theorem providerCall_of_approaching {o : Op} (h : approaching o = true) : providerCall o = none := by
  cases o <;> first | rfl | cases h

theorem providerCall_of_aside {o : Op} (h : aside o = true) : providerCall o = none := by
  cases o <;> first | rfl | cases h

theorem callsVetted_of_none {args : Arguments} {tr : GatewayTrace}
    (h : ∀ e ∈ tr, providerCall e.1 = none) : svc.CallsVetted args tr := by
  rintro pre e post q route rfl hcall
  rw [h e (by simp)] at hcall
  cases hcall

theorem ApproachRun.vetted {args : Arguments} {tr : GatewayTrace} {x : Exchange}
    {d : RoutingDecision} (h : svc.ApproachRun args tr (.ok (x, .decision d)))
    {c : RoutingCandidate} (hc : c ∈ orderedCandidates d) {route : ModelRoute}
    (hr : svc.getRoute c.routeId = .ok route) (remaining : ℚ) (mid : GatewayTrace) :
    svc.Vetted args (tr ++ mid) (attemptRequest x.request remaining) route := by
  cases h with
  | decided hb hxs hd =>
    obtain ⟨heligible, havailable⟩ := eligible_of_candidate hxs hd hc hr
    rw [hb.forcedRouteId] at heligible
    refine ⟨(getRoute_ok hr).1, ⟨x.request, hb.resolved.mono ?_, heligible, remaining, rfl⟩, ?_⟩
    · simp only [List.append_assoc]
      exact List.subset_append_left _ _
    · simp [havailable]

theorem CallRun.vetted {α : Type} {args : Arguments}
    {served : Exchange → GatewayResponse → GatewayTrace → Except PyExc α → Prop}
    {R : Exchange → PassRel α}
    (hserved : ∀ x hit tr out, served x hit tr out → ∀ e ∈ tr, aside e.1 = true)
    (hR : ∀ x c route st tr out, R x c route st tr out → ∀ e ∈ tr, OnRoute x route e)
    {tr : GatewayTrace} {out : Except PyExc α} (h : svc.CallRun args served R tr out) :
    svc.CallsVetted args tr := by
  cases h with
  | stopped h =>
    exact callsVetted_of_none fun e he => providerCall_of_approaching (h.approaching e he)
  | served h hs =>
    apply callsVetted_of_none
    intro e he
    rcases List.mem_append.mp he with he | he
    · exact providerCall_of_approaching (h.approaching e he)
    · exact providerCall_of_aside (hserved _ _ _ _ hs e he)
  | @looped tr tr' x d _ h hl =>
    intro pre e post q route htr hcall
    rcases Prog.split_append htr with ⟨mid, rfl, -⟩ | ⟨mid, rfl, rfl⟩
    · rw [providerCall_of_approaching (h.approaching e (by simp))] at hcall
      cases hcall
    · rcases hl.events (fun _ _ _ => GaveUp.settling) (hR x) e (by simp) with
        haside | ⟨c, hc, r, hr, hon⟩
      · rw [providerCall_of_aside (aside_of_settling haside)] at hcall
        cases hcall
      · obtain ⟨rfl, remaining, rfl⟩ := hon.call q route hcall
        exact h.vetted hc hr remaining mid

theorem ServedRun.aside {x : Exchange} {hit : GatewayResponse} {tr : GatewayTrace}
    {out : Except PyExc GatewayResponse} (h : ServedRun x hit tr out) :
    ∀ e ∈ tr, aside e.1 = true := by
  cases h with
  | served now t t' =>
    have hl := fun e he => aside_of_settling (settling_of_task (launchEvents_tasks x e he))
    simpa [Exchange.rowEvents, Service.aside] using hl

theorem StreamServedRun.aside {x : Exchange} {hit : GatewayResponse} {tr : GatewayTrace}
    {out : Except PyExc Unit} (h : StreamServedRun x hit tr out) : ∀ e ∈ tr, aside e.1 = true := by
  cases h with
  | leftAtStart now | leftAtDelta now => simp [Service.aside, hitEvent]
  | served now t consumer =>
    have hl := fun e he => aside_of_settling (settling_of_task (launchEvents_tasks x e he))
    simp only [Exchange.rowEvents, hitEvent, List.forall_mem_cons, List.forall_mem_append]
    exact ⟨rfl, rfl, rfl, ⟨rfl, rfl, by simp⟩, hl, rfl, by simp⟩

theorem generate_vetted (args : Arguments) : (svc.generate args).Leaves (svc.CallsVetted args) :=
  (svc.generate_runs args).mono fun _ _ h =>
    h.vetted (fun _ _ _ _ => ServedRun.aside) fun _ _ _ _ _ _ => GeneratePassRun.onRoute

theorem stream_vetted (q : GatewayRequest) (forced : Option String) :
    (svc.stream q forced).Leaves (svc.CallsVetted { request := q, forcedRouteId := forced }) :=
  (svc.stream_runs q forced).mono fun _ _ h =>
    h.vetted (fun _ _ _ _ => StreamServedRun.aside) fun _ _ _ _ _ _ => StreamPassRun.onRoute

/-! ## All tasks -/

theorem body_vetted {call : Call} {args : Arguments} (h : callArguments call = some args) :
    (svc.body call).Leaves (svc.CallsVetted args) := by
  cases call with
  | generate q forced | shadow q routeId releaseId =>
    cases h
    exact Prog.leaves_map (generate_vetted _) _
  | stream q forced =>
    cases h
    exact Prog.leaves_map (stream_vetted q forced) _
  | _ => cases h

/-- As `CallsVetted`, for a trace that may hold several calls of the data plane. -/
def AllVetted (svc : Service) (tr : GatewayTrace) : Prop :=
  ∀ pre e post q route, tr = pre ++ e :: post → providerCall e.1 = some (q, route) →
    ∃ args pre₁ pre₂, pre = pre₁ ++ pre₂ ∧ svc.Vetted args pre₂ q route

theorem closed_allVetted : Prog.Closed svc.AllVetted where
  nil := by simp [AllVetted]
  append := by
    intro tr tr' h h' pre e post q route htr hcall
    rcases Prog.split_append htr with ⟨mid, rfl, -⟩ | ⟨mid, rfl, rfl⟩
    · exact h pre e mid q route rfl hcall
    · obtain ⟨args, pre₁, pre₂, rfl, hv⟩ := h' mid e post q route rfl hcall
      exact ⟨args, tr ++ pre₁, pre₂, by simp, hv⟩

theorem CallsVetted.all {args : Arguments} {tr : GatewayTrace} (h : svc.CallsVetted args tr) :
    svc.AllVetted tr :=
  fun pre e post q route htr hcall => ⟨args, [], pre, rfl, h pre e post q route htr hcall⟩

theorem allVetted_of_none {tr : GatewayTrace} (h : ∀ e ∈ tr, providerCall e.1 = none) :
    svc.AllVetted tr := by
  rintro pre e post q route rfl hcall
  rw [h e (by simp)] at hcall
  cases hcall

theorem providerCall_of_controlling {o : Op} (h : controlling o = true) : providerCall o = none := by
  cases o <;> first | rfl | cases h

theorem body_allVetted (call : Call) : (svc.body call).Leaves svc.AllVetted :=
  body_leaves closed_allVetted (fun args _ => (generate_vetted args).mono fun _ h => h.all)
    (fun q forced _ => (stream_vetted q forced).mono fun _ h => h.all)
    fun e he =>
      allVetted_of_none (by simpa using providerCall_of_controlling (controlling_of_controls he))

end Service

end AegisGateway
