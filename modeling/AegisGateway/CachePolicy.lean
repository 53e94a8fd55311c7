import AegisGateway.Exchanges

/-!
# Policy of cached answers

An entry of the cache has been computed for a request that its route met the policy of.
Whoever finds the entry has the same scope, and a scope settles the policy.
-/

open Coroutine JsonText

namespace AegisGateway

/-! ## Scopes settle the policy -/

theorem cacheNamespace_cases (a : ReleaseAssignment) (forced : Option String) :
    (∃ id, forced = some id ∧ cacheNamespace a forced = "forced-route:" ++ id) ∨
      forced = none ∧ (cacheNamespace a forced).toList.head? ≠ some 'f' := by
  unfold cacheNamespace
  cases forced with
  | some id => exact .inl ⟨id, rfl, rfl⟩
  | none =>
    refine .inr ⟨rfl, ?_⟩
    cases a.releaseId with
    | none => simp
    | some id => simp [toString]

theorem forced_of_namespace {a a' : ReleaseAssignment} {forced forced' : Option String}
    (h : cacheNamespace a forced = cacheNamespace a' forced') : forced = forced' := by
  rcases cacheNamespace_cases a forced with ⟨id, rfl, hid⟩ | ⟨rfl, hhead⟩ <;>
  rcases cacheNamespace_cases a' forced' with ⟨id', rfl, hid'⟩ | ⟨rfl, hhead'⟩
  · rw [hid, hid', String.append_right_inj] at h
    rw [h]
  · rw [← h, hid] at hhead'
    simp at hhead'
  · rw [h, hid'] at hhead
    simp at hhead
  · rfl

theorem MeetsPolicy.of_scope {q q' : GatewayRequest} {a a' : ReleaseAssignment}
    {forced forced' : Option String} {route : ModelRoute}
    (hs : SameScope q q' (cacheNamespace a forced) (cacheNamespace a' forced'))
    (h : MeetsPolicy q forced route) : MeetsPolicy q' forced' route where
  capabilities := fun _ hc => h.capabilities (hs.capabilities.mem_iff.mpr hc)
  privacy := by
    have hp := h.privacy
    rwa [requiredPrivacy, hs.dataClassification, hs.privacyMode] at hp
  region := by
    rcases h.region with hn | ⟨region, hr, hin⟩
    · left
      exact (hn ▸ hs.allowedRegions).nil_eq.symm
    · exact .inr ⟨region, hs.allowedRegions.mem_iff.mp hr, hin⟩
  forced := forced_of_namespace hs.ns ▸ h.forced

namespace Service

variable {svc : Service}

/-! ## What is stored -/

/-- The route of an answer, with a request and a namespace that it is stored under. -/
def Storable (svc : Service) (q : GatewayRequest) (ns routeId : String) : Prop :=
  ∃ assignment forced route, ns = cacheNamespace assignment forced ∧ route ∈ svc.routes ∧
    route.id = routeId ∧ MeetsPolicy q forced route

def PutStorable (svc : Service) (e : GatewayEvent) : Prop :=
  ∀ q response ns, e.1 = .cachePut q response ns → svc.Storable q ns response.routeId

def readsCache : Op → Bool
  | .cachePut _ _ _ => false
  | _ => true

theorem putStorable_of_reads {e : GatewayEvent} (h : readsCache e.1 = true) :
    svc.PutStorable e := by
  intro q response ns hput
  rw [hput] at h
  cases h

theorem readsCache_of_approaching {o : Op} (h : approaching o = true) : readsCache o = true := by
  cases o <;> first | rfl | cases h

theorem readsCache_of_aside {o : Op} (h : aside o = true) : readsCache o = true := by
  cases o <;> first | rfl | cases h

theorem readsCache_of_controlling {o : Op} (h : controlling o = true) : readsCache o = true := by
  cases o <;> first | rfl | cases h

theorem ApproachRun.storable {args : Arguments} {tr : GatewayTrace} {x : Exchange}
    {d : RoutingDecision} (h : svc.ApproachRun args tr (.ok (x, .decision d)))
    {c : RoutingCandidate} (hc : c ∈ orderedCandidates d) {route : ModelRoute}
    (hr : svc.getRoute c.routeId = .ok route) : svc.Storable x.request x.ns route.id := by
  cases h with
  | decided hb hxs hd =>
    have heligible := (eligible_of_candidate hxs hd hc hr).1
    exact ⟨x.assignment, x.forcedRouteId, route, rfl, (getRoute_ok hr).1, rfl,
      heligible.toMeetsPolicy⟩

theorem CallRun.storable {α : Type} {args : Arguments}
    {served : Exchange → GatewayResponse → GatewayTrace → Except PyExc α → Prop}
    {R : Exchange → PassRel α}
    (hserved : ∀ x hit tr out, served x hit tr out → ∀ e ∈ tr, aside e.1 = true)
    (hR : ∀ x c route st tr out, R x c route st tr out → ∀ e ∈ tr, OnRoute x route e)
    {tr : GatewayTrace} {out : Except PyExc α} (h : svc.CallRun args served R tr out) :
    ∀ e ∈ tr, svc.PutStorable e := by
  have happroach : ∀ {tr out}, svc.ApproachRun args tr out → ∀ e ∈ tr, svc.PutStorable e :=
    fun h e he => putStorable_of_reads (readsCache_of_approaching (h.approaching e he))
  intro e he
  cases h with
  | stopped h => exact happroach h e he
  | served h hs =>
    rcases List.mem_append.mp he with he | he
    · exact happroach h e he
    · exact putStorable_of_reads (readsCache_of_aside (hserved _ _ _ _ hs e he))
  | looped h hl =>
    rcases List.mem_append.mp he with he | he
    · exact happroach h e he
    · rcases hl.events (fun _ _ _ => GaveUp.settling) (hR _) e he with
      hsettling | ⟨c, hc, route, hr, hon⟩
      · exact putStorable_of_reads (readsCache_of_aside (aside_of_settling hsettling))
      · intro q response ns hput
        obtain ⟨rfl, hid, rfl⟩ := hon.put q response ns hput
        rw [hid]
        exact h.storable hc hr

theorem body_storable (call : Call) : (svc.body call).Emits svc.PutStorable :=
  body_leaves (Prog.closed_forall _)
    (fun args _ => (svc.generate_runs args).mono fun _ _ h =>
      h.storable (fun _ _ _ _ => ServedRun.aside) fun _ _ _ _ _ _ => GeneratePassRun.onRoute)
    (fun q forced _ => (svc.stream_runs q forced).mono fun _ _ h =>
      h.storable (fun _ _ _ _ => StreamServedRun.aside) fun _ _ _ _ _ _ => StreamPassRun.onRoute)
    fun _ he => List.forall_mem_singleton.mpr
      (putStorable_of_reads (readsCache_of_controlling (controlling_of_controls he)))

/-! ## What the cache holds -/

def Stored (svc : Service) (e : Entry) : Prop :=
  ∃ q ns, e.scope = svc.platform.scope q ns ∧ svc.Storable q ns e.response.routeId

theorem exec_cache {w w' : World} {o : Op} {x : Input} {a : Ans o}
    (h : svc.exec w o x = some (a, w')) {s : Entries.Slot} (hs : s ∈ w'.cache.entries) :
    s ∈ w.cache.entries ∨ ∃ q response ns, o = .cachePut q response ns ∧
      s.1 = svc.platform.fingerprint q ns ∧ s.2.scope = svc.platform.scope q ns ∧
        s.2.response = { response with cacheHit := false } := by
  unfold exec at h
  split at h
  all_goals simp only [Option.some.injEq, reduceCtorEq] at h
  all_goals obtain ⟨rfl, rfl⟩ := Prod.mk.inj h
  case h_11 => exact .inl (Entries.mem_get hs)
  case h_12 =>
    rcases Entries.mem_put hs with ⟨hs, -⟩ | ⟨hkey, hscope, hresponse, -⟩
    · exact .inl hs
    · exact .inr ⟨_, _, _, rfl, hkey, hscope, hresponse⟩
  case h_13 => cases hs
  all_goals exact .inl hs

def CacheStored (svc : Service) (w : World) : Prop := ∀ s ∈ w.cache.entries, svc.Stored s.2

theorem cacheStored_exec {w w' : World} {o : Op} {x : Input} {a : Ans o} (hw : svc.CacheStored w)
    (h : svc.exec w o x = some (a, w')) (hput : svc.PutStorable ⟨o, a⟩) : svc.CacheStored w' := by
  intro s hs
  rcases exec_cache h hs with hs | ⟨q, response, ns, rfl, -, hscope, hresponse⟩
  · exact hw s hs
  · refine ⟨q, ns, hscope, ?_⟩
    rw [hresponse]
    exact hput q response ns rfl

theorem cacheStored_drift {w w' : World} {x : Input} (hw : svc.CacheStored w)
    (h : drift w x = some w') : svc.CacheStored w' := by
  obtain ⟨clock, utc, -, rfl⟩ := drift_eq h
  exact hw

theorem cacheStored {c : State} (h : svc.machine.Reachable initial c) :
    svc.CacheStored c.world :=
  Machine.Reach.world_invariant svc.CacheStored svc.PutStorable (fun s hs => by cases hs)
    body_storable (fun _ _ _ _ _ => cacheStored_exec) (fun _ _ _ => cacheStored_drift) h

/-! ## What is answered -/

def Checked (svc : Service) (q : GatewayRequest) (r : GatewayResponse) : Prop :=
  svc.platform.validateSchema q r.text = .ok (r.parsed, r.schemaValid)

theorem checked_of_judge {q : GatewayRequest} {a : Except PyExc ProviderResult}
    {result : ProviderResult} {parsed : Json} {schemaValid : Option Bool}
    (h : svc.judge q a = .ok (result, parsed, schemaValid)) :
    svc.platform.validateSchema q result.text = .ok (parsed, schemaValid) := by
  unfold judge at h
  cases a with
  | error e => cases h
  | ok result' =>
    simp only [bind, Except.bind] at h
    cases hv : svc.platform.validateSchema q result'.text with
    | error e =>
      rw [hv] at h
      cases h
    | ok v =>
      rw [hv] at h
      cases h
      exact hv

theorem checked_of_streamVerdict {q : GatewayRequest} {script : Script} {r : Relay}
    {parsed : Json} {schemaValid : Option Bool}
    (h : svc.streamVerdict q script r = .ok (parsed, schemaValid)) :
    svc.platform.validateSchema q (String.join r.textParts) = .ok (parsed, schemaValid) := by
  unfold streamVerdict at h
  split at h
  · cases h
  · exact h

theorem checked_of_resolved {q q' : GatewayRequest} {tr : GatewayTrace}
    (hq : svc.Resolved q tr q') {r : GatewayResponse} (h : svc.Checked q' r) :
    svc.Checked q r := by
  obtain ⟨added, rfl, -⟩ := hq.messages
  exact h

/-- The answer is the hit, as it is served to a call. -/
def ServedFrom (hit r : GatewayResponse) : Prop :=
  ∃ (x : Exchange) (elapsed : ℚ) (createdAt : Int),
    r = { x.servedFromCache hit elapsed with createdAt }

theorem ServedFrom.routeId {hit r : GatewayResponse} (h : ServedFrom hit r) :
    r.routeId = hit.routeId := by
  obtain ⟨x, elapsed, createdAt, rfl⟩ := h
  rfl

def CachedFrom (tr : GatewayTrace) (r : GatewayResponse) : Prop :=
  ∃ q ns hit, ev (.cacheGet q ns) (some hit) ∈ tr ∧ ServedFrom hit r

/-- An answer of a provider that has been checked against the schema. -/
def Fresh (svc : Service) (q : GatewayRequest) (r : GatewayResponse) : Prop :=
  r.cacheHit = false ∧ svc.Checked q r

/-- Where the answer to a request comes from. -/
def Answers (svc : Service) (q : GatewayRequest) (tr : GatewayTrace) (r : GatewayResponse) : Prop :=
  svc.Fresh q r ∨ CachedFrom tr r

theorem Answers.cached {q : GatewayRequest} {tr : GatewayTrace} {r : GatewayResponse}
    (h : svc.Answers q tr r) (hhit : r.cacheHit = true) : CachedFrom tr r := by
  rcases h with ⟨hfresh, -⟩ | h
  · rw [hhit] at hfresh
    cases hfresh
  · exact h

theorem ApproachRun.cachedFrom {args : Arguments} {tr : GatewayTrace} {x : Exchange}
    {hit r : GatewayResponse} (h : svc.ApproachRun args tr (.ok (x, .cache hit)))
    (hr : ServedFrom hit r) (tr' : GatewayTrace) : CachedFrom (tr ++ tr') r := by
  cases h with
  | hit => exact ⟨x.request, x.ns, hit, by simp, hr⟩

theorem generate_answers (args : Arguments) : (svc.generate args).AllRuns fun tr out =>
    ∀ r, out = .ok r → svc.Answers args.request tr r := by
  apply (svc.generate_runs args).mono
  intro tr out h r hout
  cases h with
  | stopped h => cases hout
  | @served _ _ x _ _ h hs =>
    cases hs with
    | served now t t' =>
      cases hout
      exact .inr (h.cachedFrom ⟨x, _, t, rfl⟩ _)
  | looped h hl =>
    subst hout
    obtain ⟨tr₀, -, hb⟩ := h.begun
    obtain ⟨c, -, route, st, tr₁, tr', -, -, hp⟩ := hl.returns
    cases hp with
    | unconfigured _ _ hh | failed _ _ _ hh => cases hh
    | succeeded _ _ ha => exact .inl ⟨rfl, checked_of_resolved hb.resolved (checked_of_judge ha)⟩

def Carries (φ : GatewayResponse → Prop) (e : GatewayEvent) : Prop :=
  ∀ v, e.1 = .yieldEvent v → ∀ r, v.response = some r → φ r

section Carries

variable {φ : GatewayResponse → Prop}

theorem carries_of_silent {e : GatewayEvent} (h : yieldOf e.1 = none) : Carries φ e := by
  intro v hv
  rw [hv] at h
  cases h

theorem carries_of_quiet {tr : GatewayTrace} (h : ∀ e ∈ tr, yieldOf e.1 = none) :
    ∀ e ∈ tr, Carries φ e := fun e he => carries_of_silent (h e he)

theorem carries_none {v : GatewayStreamEvent} (h : v.response = none) (consumer : Consumer) :
    Carries φ (ev (.yieldEvent v) consumer) := by
  intro v' hv r hr
  obtain rfl := Op.yieldEvent.inj hv
  rw [h] at hr
  cases hr

theorem carries_some {v : GatewayStreamEvent} {r : GatewayResponse} (h : v.response = some r)
    (hr : φ r) (consumer : Consumer) : Carries φ (ev (.yieldEvent v) consumer) := by
  intro v' hv r' hr'
  obtain rfl := Op.yieldEvent.inj hv
  rw [h] at hr'
  cases hr'
  exact hr

theorem RelayRun.carries {x : Exchange} {route : ModelRoute} {es : List ProviderStreamEvent}
    {r r' : Relay} {tr : GatewayTrace} {left : Bool} (h : RelayRun x route es r tr r' left) :
    ∀ e ∈ tr, Carries φ e := by
  intro e he v hv response hr
  obtain ⟨type, delta, -, rfl⟩ := h.yields e he v hv
  cases hr

end Carries

theorem StreamPassRun.carries {x : Exchange} {c : RoutingCandidate} {route : ModelRoute}
    {st : LoopState} {tr : GatewayTrace} {out : Except PyExc (Pass Unit)}
    (h : svc.StreamPassRun x c route st tr out) : ∀ e ∈ tr, Carries (svc.Fresh x.request) e := by
  have hadmitted : ∀ t state, ∀ e ∈ admitted route t state, Carries (svc.Fresh x.request) e :=
    fun t state => carries_of_quiet (by simp [admitted, yieldOf])
  have hquiet : ∀ (o : Op) (a : Ans o), yieldOf o = none → Carries (svc.Fresh x.request) (ev o a) :=
    fun o a ho => carries_of_silent ho
  cases h with
  | deadline | refused => exact carries_of_quiet (by simp [yieldOf])
  | unconfigured ht hr hh =>
    simp only [List.forall_mem_append]
    exact ⟨hadmitted _ _, carries_of_quiet fun e he => yieldOf_of_settling (hh.settling e he)⟩
  | left ht hr hl =>
    simp only [List.forall_mem_append, List.forall_mem_cons]
    exact ⟨hadmitted _ _, hquiet _ _ rfl, hl.carries⟩
  | failed ht hr hl he hh =>
    simp only [List.forall_mem_append, List.forall_mem_cons]
    exact ⟨hadmitted _ _, hquiet _ _ rfl, hl.carries,
      carries_of_quiet fun e he => yieldOf_of_settling (hh.settling e he)⟩
  | succeeded ht hr hl hv =>
    simp only [List.forall_mem_append, List.forall_mem_cons]
    refine ⟨hadmitted _ _, hquiet _ _ rfl, hl.carries,
      carries_of_quiet (by simp [successEvents, yieldOf]), hquiet _ _ rfl, hquiet _ _ rfl,
      carries_of_quiet fun e he => yieldOf_of_bookkeeping (keepEvents_bookkeeping _ _ _ e he),
      carries_some rfl ?_ _, by simp⟩
    exact ⟨rfl, checked_of_streamVerdict hv⟩

theorem StreamServedRun.carries {x : Exchange} {hit : GatewayResponse} {tr : GatewayTrace}
    {out : Except PyExc Unit} (h : StreamServedRun x hit tr out) :
    ∀ e ∈ tr, Carries (ServedFrom hit) e := by
  have htime : ∀ now, Carries (ServedFrom hit) (ev .monotonic now) := by
    intro now v hv
    cases hv
  cases h with
  | leftAtStart now =>
    simp only [List.forall_mem_cons]
    exact ⟨htime now, carries_none rfl _, by simp⟩
  | leftAtDelta now =>
    simp only [List.forall_mem_cons]
    exact ⟨htime now, carries_none rfl _, carries_none rfl _, by simp⟩
  | served now t consumer =>
    simp only [List.forall_mem_cons, List.forall_mem_append]
    exact ⟨htime now, carries_none rfl _, carries_none rfl _,
      carries_of_quiet (by simp [Exchange.rowEvents, yieldOf]),
      carries_of_quiet fun e he =>
        yieldOf_of_settling (settling_of_task (launchEvents_tasks x e he)),
      carries_some rfl ⟨x, _, _, rfl⟩ _, by simp⟩

/-- Every answer that a stream has yielded, by what came before it. -/
def YieldsAnswers (svc : Service) (q : GatewayRequest) (tr : GatewayTrace) : Prop :=
  ∀ pre v a post r, tr = pre ++ ev (.yieldEvent v) a :: post → v.response = some r →
    svc.Answers q pre r

theorem yieldsAnswers_of_carries {q : GatewayRequest} {tr : GatewayTrace}
    (h : ∀ e ∈ tr, Carries (svc.Fresh q) e) : svc.YieldsAnswers q tr := by
  rintro pre v a post r rfl hr
  exact .inl (h (ev (.yieldEvent v) a) (by simp) v rfl r hr)

theorem stream_yieldsAnswers (q : GatewayRequest) (forced : Option String) :
    (svc.stream q forced).Leaves (svc.YieldsAnswers q) := by
  apply (svc.stream_runs q forced).mono
  intro tr out h
  cases h with
  | stopped h =>
    exact yieldsAnswers_of_carries (carries_of_quiet fun e he =>
      yieldOf_of_approaching (h.approaching e he))
  | served h hs =>
    intro pre v a post r htr hr
    rcases Prog.split_append htr with ⟨mid, rfl, -⟩ | ⟨mid, rfl, rfl⟩
    · have hs := yieldOf_of_approaching (h.approaching _ (List.mem_append_right _ List.mem_cons_self))
      cases hs
    · have hserved := hs.carries (ev (.yieldEvent v) a) (by simp) v rfl r hr
      exact .inr (h.cachedFrom hserved mid)
  | looped h hl =>
    obtain ⟨tr₀, -, hb⟩ := h.begun
    apply yieldsAnswers_of_carries
    intro e he
    rcases List.mem_append.mp he with he | he
    · exact carries_of_quiet (fun e he => yieldOf_of_approaching (h.approaching e he)) e he
    · rcases hl.events (fun _ _ _ => GaveUp.settling) (fun _ _ _ _ _ => StreamPassRun.carries) e he
        with hs | ⟨c, hc, route, hr, hf⟩
      · exact carries_of_silent (yieldOf_of_settling hs)
      · exact fun v hv r hresponse =>
          ⟨(hf v hv r hresponse).1, checked_of_resolved hb.resolved (hf v hv r hresponse).2⟩

/-! ## Every answer -/

theorem hit_storable (hsha : Function.Injective svc.platform.sha256)
    (hfloat : FloatText svc.platform.floatRepr) {c : State}
    (h : svc.machine.Reachable initial c) {i : Nat} {q : GatewayRequest} {ns : String}
    {hit : GatewayResponse} (he : ev (.cacheGet q ns) (some hit) ∈ c.trace i) :
    ∃ assignment forced route, ns = cacheNamespace assignment forced ∧ route ∈ svc.routes ∧
      route.id = hit.routeId ∧ MeetsPolicy q forced route := by
  obtain ⟨c₁, x, w', hc₁, hexec⟩ := h.answered he
  have hget : (Entries.get svc.platform svc.cache c₁.world.clock c₁.world.cache q ns).1 =
      some hit := by
    cases x with
    | go => exact (Prod.mk.inj (Option.some.inj hexec)).1
    | _ => cases hexec
  obtain ⟨s, hs, -, hscope, rfl⟩ := Entries.get_hit hget
  obtain ⟨q₀, ns₀, hscope₀, assignment, forced, route, rfl, hroute, hid, hmeets⟩ :=
    cacheStored hc₁ s hs
  have hsame := scope_inj hsha hfloat (hscope₀.symm.trans hscope)
  obtain rfl := hsame.ns
  exact ⟨assignment, forced, route, rfl, hroute, hid, hmeets.of_scope hsame⟩

theorem meetsPolicy_of_resolved {q q' : GatewayRequest} {tr : GatewayTrace}
    {forced : Option String} {route : ModelRoute} (hq : svc.Resolved q tr q')
    (h : MeetsPolicy q' forced route) : MeetsPolicy q forced route := by
  obtain ⟨added, rfl, -⟩ := hq.messages
  exact ⟨h.capabilities, h.privacy, h.region, h.forced⟩

/-- A route of the catalogue that the call allows. -/
def Allowed (svc : Service) (args : Arguments) (routeId : String) : Prop :=
  ∃ route ∈ svc.routes, route.id = routeId ∧ MeetsPolicy args.request args.forcedRouteId route

theorem CachedFrom.mono {tr tr' : GatewayTrace} {r : GatewayResponse} (h : CachedFrom tr r)
    (ht : tr ⊆ tr') : CachedFrom tr' r := by
  obtain ⟨q, ns, hit, hmem, hid⟩ := h
  exact ⟨q, ns, hit, ht hmem, hid⟩

theorem allowed_of_cachedFrom (hsha : Function.Injective svc.platform.sha256)
    (hfloat : FloatText svc.platform.floatRepr) {c : State}
    (h : svc.machine.Reachable initial c) {i : Nat} {t : Task Op Ans PyExc Outcome Call}
    (ht : c.tasks[i]? = some t) {args : Arguments} (hargs : callArguments t.call = some args)
    {r : GatewayResponse} (hr : CachedFrom (c.trace i) r) : svc.Allowed args r.routeId := by
  obtain ⟨q, ns, hit, he, hserved⟩ := hr
  obtain ⟨assignment, forced, route, hns, hroute, hid', hmeets⟩ := hit_storable hsha hfloat h he
  rcases oneExchange_of_reachable h ht hargs with hp | ⟨tr₀, tr₁, x, htr, hb, hx⟩
  · exact absurd (hp _ he) (by simp [preliminary])
  rw [htr] at he
  rcases List.mem_append.mp he with he | he
  · exact absurd (hb.preliminary _ he) (by simp [preliminary])
  obtain ⟨rfl, rfl⟩ := (hx _ he).get q ns rfl
  have hforced := forced_of_namespace hns.symm
  rw [hb.forcedRouteId] at hforced
  rw [hforced] at hmeets
  exact ⟨route, hroute, hid'.trans hserved.routeId.symm,
    meetsPolicy_of_resolved hb.resolved hmeets⟩

/-! ## Shadows -/

theorem requestInputTokens_le (q : GatewayRequest) (added : List Message) :
    requestInputTokens q ≤ requestInputTokens { q with messages := added ++ q.messages } := by
  simp [requestInputTokens]

theorem requestCost_le (q : GatewayRequest) (added : List Message) (route : ModelRoute) :
    requestCost route q ≤ requestCost route { q with messages := added ++ q.messages } := by
  have htokens : (requestInputTokens q : ℚ) ≤
      requestInputTokens { q with messages := added ++ q.messages } :=
    Nat.cast_le.mpr (requestInputTokens_le q added)
  have hinput := mul_le_mul_of_nonneg_right htokens route.inputCost_nonneg
  unfold requestCost predictedCost
  gcongr

theorem eligible_of_resolved {q q' : GatewayRequest} {tr : GatewayTrace}
    {forced : Option String} {route : ModelRoute} (hq : svc.Resolved q tr q')
    (h : Eligible q' forced route) : Eligible q forced route := by
  obtain ⟨added, rfl, -⟩ := hq.messages
  have htokens := requestInputTokens_le q added
  exact
    { toMeetsPolicy := ⟨h.capabilities, h.privacy, h.region, h.forced⟩
      enabled := h.enabled
      contextWindow := le_trans (Nat.add_le_add_right htokens _) h.contextWindow
      cost := (requestCost_le q added route).trans h.cost
      latency := h.latency }

theorem eligible_of_shadow {x : Exchange} {forced : Option String} {route : ModelRoute}
    (h : Eligible x.shadowRequest forced route) : Eligible x.request none route :=
  { toMeetsPolicy := ⟨h.capabilities, h.privacy, h.region, by simp⟩
    enabled := h.enabled
    contextWindow := h.contextWindow
    cost := h.cost
    latency := h.latency }

theorem Assigned.forced_of_shadow {call : Call} {args : Arguments}
    (hargs : callArguments call = some args) {q : GatewayRequest} {tr : GatewayTrace}
    {assignment : ReleaseAssignment} (h : svc.Assigned args q tr assignment)
    {routeId : String} (hs : assignment.shadowRouteId = some routeId) :
    args.forcedRouteId = none := by
  rcases h with h | ⟨-, ⟨-, rfl⟩ | ⟨hc, -⟩⟩
  · cases call <;> cases hargs <;> cases h
    cases hs
  · cases hs
  · simp only [not_or, Option.isSome_iff_ne_none, not_not] at hc
    exact hc.2.2

theorem callsVetted_of_reachable {c : State} (h : svc.machine.Reachable initial c) {i : Nat}
    {t : Task Op Ans PyExc Outcome Call} (ht : c.tasks[i]? = some t) {args : Arguments}
    (hargs : callArguments t.call = some args) : svc.CallsVetted args (c.trace i) := by
  refine Prog.Leaves.steps (fun tr tr' hv pre e post q route htr hcall => ?_) (body_vetted hargs)
    (h.onTheWay.2 i t ht)
  exact hv pre e (post ++ tr') q route (by simp [htr]) hcall

/-- A call on a shadow route is one that the shadowed call could have made itself. -/
def ShadowsEligible (svc : Service) (c : State) (args : Arguments) (i : Nat) : Prop :=
  ∀ q' routeId releaseId, ev (.createTask (.shadow q' routeId releaseId)) () ∈ c.trace i →
    ∃ q, svc.Resolved args.request (c.trace i) q ∧ ∀ j rest,
      c.tasks[j]? = some ⟨.shadow q' routeId releaseId, rest⟩ → ∀ e ∈ c.trace j, ∀ q₂ route,
        providerCall e.1 = some (q₂, route) →
          route.id = routeId ∧ Eligible q args.forcedRouteId route

theorem shadowsEligible {c : State} (h : svc.machine.Reachable initial c) {i : Nat}
    {t : Task Op Ans PyExc Outcome Call} (ht : c.tasks[i]? = some t) {args : Arguments}
    (hargs : callArguments t.call = some args) : svc.ShadowsEligible c args i := by
  intro q' routeId releaseId he
  rcases oneExchange_of_reachable h ht hargs with hp | ⟨tr₀, tr₁, x, htr, hb, hx⟩
  · exact absurd (hp _ he) (by simp [preliminary])
  have hresolved : svc.Resolved args.request (c.trace i) x.request :=
    hb.resolved.mono (htr ▸ List.subset_append_left _ _)
  rw [htr] at he
  rcases List.mem_append.mp he with he | he
  · exact absurd (hb.preliminary _ he) (by simp [preliminary])
  cases (hx _ he).task _ rfl with
  | shadow hxs hroute =>
    refine ⟨x.request, hresolved, fun j rest hj e hej q₂ route hcall => ?_⟩
    obtain ⟨pre, post, hsplit⟩ := List.append_of_mem hej
    have hv := callsVetted_of_reachable h hj rfl pre e post q₂ route hsplit hcall
    obtain ⟨q'', hq'', heligible, -⟩ := hv.eligible
    refine ⟨heligible.forced _ rfl, ?_⟩
    rw [hb.assigned.forced_of_shadow hargs hroute]
    exact eligible_of_shadow (eligible_of_resolved hq'' heligible)

theorem body_answers {call : Call} {args : Arguments} (hargs : callArguments call = some args) :
    (svc.body call).AllRuns fun tr out =>
      ∀ r, out = .ok (.response r) → svc.Answers args.request tr r := by
  cases call with
  | generate q forced | shadow q routeId releaseId =>
    apply (Prog.allRuns_map _ Outcome.response _).mpr
    cases hargs
    apply (generate_answers _).mono
    intro tr out hanswers r hr
    cases out with
    | error e => cases hr
    | ok r' =>
      cases hr
      exact hanswers r rfl
  | stream q forced =>
    apply (Prog.allRuns_map _ (fun _ => Outcome.streamed) _).mpr
    apply (svc.stream_runs q forced).mono
    intro tr out _ r hr
    cases out <;> cases hr
  | _ => cases hargs

theorem answers_of_reachable {c : State} (h : svc.machine.Reachable initial c) {i : Nat}
    {t : Task Op Ans PyExc Outcome Call} (ht : c.tasks[i]? = some t) {args : Arguments}
    (hargs : callArguments t.call = some args) {r : GatewayResponse}
    (hrest : t.rest = .pure (.response r)) : svc.Answers args.request (c.trace i) r := by
  obtain ⟨call, rest⟩ := t
  obtain rfl : rest = .pure (.response r) := hrest
  have hrun : Prog.Run (svc.body call) _ (.ok (.response r)) := h.finished ht
  exact (body_answers hargs).run hrun r rfl

theorem yieldsAnswers_of_reachable {c : State} (h : svc.machine.Reachable initial c) {i : Nat}
    {t : Task Op Ans PyExc Outcome Call} (ht : c.tasks[i]? = some t) {q : GatewayRequest}
    {forced : Option String} (hcall : t.call = .stream q forced) :
    svc.YieldsAnswers q (c.trace i) := by
  have hsteps := h.onTheWay.2 i t ht
  rw [hcall] at hsteps
  refine Prog.Leaves.steps (fun tr tr' hv pre v a post r htr => ?_)
    (Prog.leaves_map (stream_yieldsAnswers q forced) fun _ => Outcome.streamed) hsteps
  exact hv pre v a (post ++ tr') r (by simp [htr])

/-- Whatever way a route has been chosen, and whatever has been cached before: a provider is
called for a request only on an eligible route, and an answer from the cache comes from a
route that the request allows. -/
theorem policy_holds (hsha : Function.Injective svc.platform.sha256)
    (hfloat : FloatText svc.platform.floatRepr) {c : State}
    (h : svc.machine.Reachable initial c) {i : Nat} {t : Task Op Ans PyExc Outcome Call}
    (ht : c.tasks[i]? = some t) :
    svc.AllVetted (c.trace i) ∧
    (∀ q ns hit, ev (.cacheGet q ns) (some hit) ∈ c.trace i → svc.Storable q ns hit.routeId) ∧
    ∀ args, callArguments t.call = some args →
      svc.CallsVetted args (c.trace i) ∧ svc.ShadowsEligible c args i ∧
      (∀ r, t.rest = .pure (.response r) → r.cacheHit = true → svc.Allowed args r.routeId) ∧
      ∀ q forced, t.call = .stream q forced → ∀ v a r, ev (.yieldEvent v) a ∈ c.trace i →
        v.response = some r → r.cacheHit = true → svc.Allowed args r.routeId := by
  refine ⟨?_, fun q ns hit he => hit_storable hsha hfloat h he, fun args hargs =>
    ⟨callsVetted_of_reachable h ht hargs, shadowsEligible h ht hargs, ?_, ?_⟩⟩
  · refine Prog.Leaves.steps (fun tr tr' hv pre e post q route htr hcall => ?_)
      (body_allVetted t.call) (h.onTheWay.2 i t ht)
    exact hv pre e (post ++ tr') q route (by simp [htr]) hcall
  · intro r hrest hhit
    have hcached := (answers_of_reachable h ht hargs hrest).cached hhit
    exact allowed_of_cachedFrom hsha hfloat h ht hargs hcached
  · intro q forced hcall v a r he hr hhit
    obtain ⟨pre, post, htr⟩ := List.append_of_mem he
    have hcached := (yieldsAnswers_of_reachable h ht hcall pre v a post r htr hr).cached hhit
    have hsub : pre ⊆ c.trace i := htr ▸ List.subset_append_left _ _
    exact allowed_of_cachedFrom hsha hfloat h ht hargs (hcached.mono hsub)

/-- A call with a provider call of its own. -/
theorem policy_holds_call : ∃ (c : State) (e : GatewayEvent),
    Sample.service.machine.Reachable initial c ∧ e ∈ c.trace 0 ∧ (providerCall e.1).isSome = true ∧
    Sample.service.CallsVetted { request := Sample.request } (c.trace 0) := by
  obtain ⟨c, hm, e, he, hp⟩ : ∃ c ∈ Sample.service.machine.moves? initial
      (.start (.generate Sample.request none) :: (Sample.goes 0 7 ++
        .run 0 (Sample.completion "hello") :: Sample.goes 0 6)),
      ∃ e ∈ c.trace 0, (providerCall e.1).isSome = true := by decide +kernel
  have hc := Machine.reachable_of_moves _ .start hm
  obtain ⟨t, ht, hcall⟩ := Machine.task_of_moves hm
  have h := policy_holds Sample.sha256_injective Sample.floatText hc ht
  exact ⟨c, e, hc, he, hp, (h.2.2 _ (by rw [hcall]; rfl)).1⟩

end Service

end AegisGateway
