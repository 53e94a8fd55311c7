import AegisGateway.Evidence
import AegisGateway.Routing

/-!
# Bounded fallback

The loop of a call takes up the candidates in turn. Each provider that it calls comes with
the deadline check just in front of the call, and after a success or a request that the
provider calls invalid there is none.
-/

open Coroutine

namespace AegisGateway

namespace Service

variable {svc : Service}

/-! ## The calls of a trace -/

def calledRoutes (tr : GatewayTrace) : List String :=
  tr.filterMap fun e => (providerCall e.1).map (·.2.id)

@[simp]
theorem calledRoutes_append (tr tr' : GatewayTrace) :
    calledRoutes (tr ++ tr') = calledRoutes tr ++ calledRoutes tr' := List.filterMap_append

theorem calledRoutes_eq_nil {tr : GatewayTrace} :
    calledRoutes tr = [] ↔ ∀ e ∈ tr, providerCall e.1 = none := by
  simp [calledRoutes, List.filterMap_eq_nil_iff]

theorem calledRoutes_of_aside {tr : GatewayTrace} (h : ∀ e ∈ tr, aside e.1 = true) :
    calledRoutes tr = [] :=
  calledRoutes_eq_nil.mpr fun e he => providerCall_of_aside (h e he)

theorem calledRoutes_cons {e : GatewayEvent} {q : GatewayRequest} {route : ModelRoute}
    (h : providerCall e.1 = some (q, route)) (tr : GatewayTrace) :
    calledRoutes (e :: tr) = route.id :: calledRoutes tr := by
  simp [calledRoutes, h]

theorem calledRoutes_admitted (route : ModelRoute) (t : ℚ) (state : CircuitState) :
    calledRoutes (admitted route t state) = [] := rfl

def providerFailure : GatewayEvent → Option PyExc
  | ⟨.complete _ _, .error e⟩ => some e
  | ⟨.openStream _ _, script⟩ => script.ending
  | _ => none

/-- What no other provider is called after. -/
inductive Decisive : GatewayEvent → Prop
  | success (id : String) (state : CircuitState) : Decisive (ev (.recordSuccess id) state)
  | invalid {e : GatewayEvent} {err : ProviderError}
      (h : providerFailure e = some (.aegis (.provider err)))
      (hc : err.code = "invalid_provider_request") : Decisive e

theorem not_decisive {e : GatewayEvent} (hcall : providerCall e.1 = none)
    (hs : ∀ id, e.1 ≠ .recordSuccess id) : ¬ Decisive e := by
  intro h
  cases h with
  | success id state => exact hs id rfl
  | @invalid _ err h =>
    rcases e with ⟨o, a⟩
    cases o <;> first | cases h | cases hcall

/-! ## One attempt -/

/-- Every call has been checked against the deadline just before. -/
def CallsChecked (x : Exchange) (tr : GatewayTrace) : Prop :=
  ∀ pre e post q route, tr = pre ++ e :: post → providerCall e.1 = some (q, route) →
    ∃ pre' t state, pre = pre' ++ admitted route t state ∧
      0 < remainingSeconds x.started x.request t ∧
      q = attemptRequest x.request (remainingSeconds x.started x.request t)

theorem checked_of_none {x : Exchange} {tr : GatewayTrace} (h : calledRoutes tr = []) :
    CallsChecked x tr := by
  rintro pre e post q route rfl hcall
  rw [calledRoutes_eq_nil.mp h e (by simp)] at hcall
  cases hcall

theorem CallsChecked.append {x : Exchange} {tr tr' : GatewayTrace} (h : CallsChecked x tr)
    (h' : CallsChecked x tr') : CallsChecked x (tr ++ tr') := by
  intro pre e post q route htr hcall
  rcases Prog.split_append htr with ⟨mid, rfl, -⟩ | ⟨mid, rfl, rfl⟩
  · exact h pre e mid q route rfl hcall
  · obtain ⟨pre', t, state, rfl, hrest⟩ := h' mid e post q route rfl hcall
    exact ⟨tr ++ pre', t, state, (List.append_assoc ..).symm, hrest⟩

structure OneAttempt {α : Type} (svc : Service) (x : Exchange) (route : ModelRoute)
    (tr : GatewayTrace) (out : Except PyExc (Pass α)) : Prop where
  called : calledRoutes tr = [] ∨ calledRoutes tr = [route.id]
  passedOver : ∀ st, out = .ok (.next st) → calledRoutes tr = [route.id] ∨
    (∃ m, ev (.beforeRequest route.id) (.error m) ∈ tr) ∨ route.provider ∉ svc.adapters
  decided : ∀ pre e post, tr = pre ++ e :: post → Decisive e →
    calledRoutes post = [] ∧ ∀ st, out ≠ .ok (.next st)
  checked : CallsChecked x tr

theorem oneAttempt_of_aside {α : Type} {x : Exchange} {route : ModelRoute} {tr : GatewayTrace}
    {out : Except PyExc (Pass α)} (haside : ∀ e ∈ tr, aside e.1 = true)
    (hs : ∀ e ∈ tr, ∀ id, e.1 ≠ .recordSuccess id)
    (hpassed : ∀ st, out = .ok (.next st) →
      (∃ m, ev (.beforeRequest route.id) (.error m) ∈ tr) ∨ route.provider ∉ svc.adapters) :
    svc.OneAttempt x route tr out where
  called := .inl (calledRoutes_of_aside haside)
  passedOver st hout := .inr (hpassed st hout)
  decided := by
    rintro pre e post rfl hd
    have he : e ∈ pre ++ e :: post := by simp
    exact absurd hd (not_decisive (providerCall_of_aside (haside e he)) (hs e he))
  checked := checked_of_none (calledRoutes_of_aside haside)

theorem oneAttempt_of_call {α : Type} {x : Exchange} {route : ModelRoute} {t : ℚ}
    {state : CircuitState} {call : GatewayEvent} {tail : GatewayTrace}
    {out : Except PyExc (Pass α)} (ht : 0 < remainingSeconds x.started x.request t)
    (hcall : providerCall call.1 =
      some (attemptRequest x.request (remainingSeconds x.started x.request t), route))
    (htail : calledRoutes tail = [])
    (hinvalid : Decisive call → ∀ st, out ≠ .ok (.next st))
    (hsuccess : ∀ e ∈ tail, ∀ id, e.1 = .recordSuccess id → ∀ st, out ≠ .ok (.next st)) :
    svc.OneAttempt x route (admitted route t state ++ call :: tail) out where
  called := by
    rw [calledRoutes_append, calledRoutes_admitted, calledRoutes_cons hcall, htail]
    exact .inr rfl
  passedOver st _ := by
    rw [calledRoutes_append, calledRoutes_admitted, calledRoutes_cons hcall, htail]
    exact .inl rfl
  decided := by
    intro pre e post htr hd
    rcases Prog.split_append htr with ⟨mid, hadmitted, -⟩ | ⟨mid, rfl, hrest⟩
    · -- Nothing of the entry is decisive.
      have he : e ∈ admitted route t state := by simp [hadmitted]
      refine absurd hd (not_decisive ?_ ?_)
      · exact calledRoutes_eq_nil.mp (calledRoutes_admitted route t state) e he
      · simp only [admitted, List.mem_cons, List.not_mem_nil, or_false] at he
        rcases he with rfl | rfl | rfl <;> simp
    · cases mid with
      | nil =>
        obtain ⟨rfl, rfl⟩ := List.cons.inj hrest
        exact ⟨htail, hinvalid hd⟩
      | cons _ mid =>
        obtain ⟨rfl, rfl⟩ := List.cons.inj hrest
        have he : e ∈ mid ++ e :: post := by simp
        have hquiet := calledRoutes_eq_nil.mp htail
        refine ⟨calledRoutes_eq_nil.mpr fun e he => hquiet e (by simp [he]), ?_⟩
        cases hd with
        | success id state => exact hsuccess _ he id rfl
        | @invalid _ err h =>
          rcases e with ⟨o, a⟩
          have hnone := hquiet _ he
          cases o <;> first | cases h | cases hnone
  checked := by
    intro pre e post q r htr hq
    rcases Prog.split_append htr with ⟨mid, hadmitted, -⟩ | ⟨mid, rfl, hrest⟩
    · have he : e ∈ admitted route t state := by simp [hadmitted]
      rw [calledRoutes_eq_nil.mp (calledRoutes_admitted route t state) e he] at hq
      cases hq
    · cases mid with
      | nil =>
        obtain ⟨rfl, rfl⟩ := List.cons.inj hrest
        obtain ⟨rfl, rfl⟩ := Prod.mk.inj (Option.some.inj (hcall.symm.trans hq))
        exact ⟨[], t, state, by simp, ht, rfl⟩
      | cons _ mid =>
        obtain ⟨rfl, rfl⟩ := List.cons.inj hrest
        rw [calledRoutes_eq_nil.mp htail e (by simp)] at hq
        cases hq

theorem not_recordSuccess_of_settling {tr : GatewayTrace} (h : ∀ e ∈ tr, settling e.1) :
    ∀ e ∈ tr, ∀ id, e.1 ≠ .recordSuccess id := by
  intro e he id heq
  have hs := h e he
  rw [heq] at hs
  cases hs

theorem not_recordSuccess_of_relaying {tr : GatewayTrace} (h : ∀ e ∈ tr, relaying e.1) :
    ∀ e ∈ tr, ∀ id, e.1 ≠ .recordSuccess id := by
  intro e he id heq
  have hr := h e he
  rw [heq] at hr
  cases hr

theorem Handled.not_next {α : Type} {timeout : String} {route : ModelRoute} {st : LoopState}
    {err : ProviderError} {tr : GatewayTrace} {out : Except PyExc (Pass α)}
    (h : Handled timeout route st (.aegis (.provider err)) tr out)
    (hc : err.code = "invalid_provider_request") (st' : LoopState) : out ≠ .ok (.next st') := by
  cases h with
  | provider _ _ he => exact absurd hc he
  | _ => simp

theorem StreamHandled.not_next {x : Exchange} {route : ModelRoute} {st : LoopState}
    {emitted : Bool} {err : ProviderError} {tr : GatewayTrace} {out : Except PyExc (Pass Unit)}
    (h : StreamHandled x route st emitted (.aegis (.provider err)) tr out)
    (hc : err.code = "invalid_provider_request") (st' : LoopState) : out ≠ .ok (.next st') := by
  cases emitted with
  | false => exact Handled.not_next h hc st'
  | true =>
    have h : Interrupted x route st (.aegis (.provider err)) tr out := h
    cases h <;> simp

theorem calledRoutes_bookkeeping {tr : GatewayTrace} (h : ∀ e ∈ tr, bookkeeping e.1) :
    calledRoutes tr = [] := by
  apply calledRoutes_eq_nil.mpr
  intro e he
  rcases e with ⟨o, a⟩
  have hb := h _ he
  cases o <;> first | rfl | cases hb

theorem decisive_complete {q : GatewayRequest} {route : ModelRoute}
    {a : Except PyExc ProviderResult} (h : Decisive (ev (.complete q route) a)) :
    ∃ err : ProviderError, a = .error (.aegis (.provider err)) ∧
      err.code = "invalid_provider_request" := by
  cases h with
  | @invalid _ err h hc =>
    cases a with
    | ok result => cases h
    | error e => exact ⟨err, congrArg _ (Option.some.inj h), hc⟩

theorem decisive_openStream {q : GatewayRequest} {route : ModelRoute} {script : Script}
    (h : Decisive (ev (.openStream q route) script)) :
    ∃ err : ProviderError, script.ending = some (.aegis (.provider err)) ∧
      err.code = "invalid_provider_request" := by
  cases h with
  | @invalid _ err h hc => exact ⟨err, h, hc⟩

theorem GeneratePassRun.oneAttempt {x : Exchange} {c : RoutingCandidate} {route : ModelRoute}
    {st : LoopState} {tr : GatewayTrace} {out : Except PyExc (Pass GatewayResponse)}
    (h : svc.GeneratePassRun x c route st tr out) : svc.OneAttempt x route tr out := by
  cases h with
  | deadline => exact oneAttempt_of_aside (by simp [aside]) (by simp) (by simp)
  | @refused _ _ _ t m =>
    exact oneAttempt_of_aside (by simp [aside]) (by simp) fun _ _ => .inl ⟨m, by simp⟩
  | unconfigured ht hr hh =>
    have hset := hh.settling
    refine oneAttempt_of_aside ?_ ?_ fun _ _ => .inr hr
    · simpa [admitted, aside] using fun e he => aside_of_settling (hset e he)
    · simpa [admitted] using not_recordSuccess_of_settling hset
  | @failed _ _ _ t state a e tr _ ht hr he hh =>
    refine oneAttempt_of_call ht rfl
      (calledRoutes_of_aside fun e he => aside_of_settling (hh.settling e he))
      (fun hd st' => ?_)
      fun e he id hid => absurd hid (not_recordSuccess_of_settling hh.settling e he id)
    obtain ⟨err, rfl, hc⟩ := decisive_complete hd
    cases he
    exact hh.not_next hc st'
  | succeeded ht hr ha =>
    refine oneAttempt_of_call ht rfl ?_ (fun _ _ => by simp) fun _ _ _ _ _ => by simp
    change calledRoutes (x.keepEvents _ _) = []
    exact calledRoutes_bookkeeping (keepEvents_bookkeeping x _ _)

theorem StreamPassRun.oneAttempt {x : Exchange} {c : RoutingCandidate} {route : ModelRoute}
    {st : LoopState} {tr : GatewayTrace} {out : Except PyExc (Pass Unit)}
    (h : svc.StreamPassRun x c route st tr out) : svc.OneAttempt x route tr out := by
  cases h with
  | deadline => exact oneAttempt_of_aside (by simp [aside]) (by simp) (by simp)
  | @refused _ _ _ t m =>
    exact oneAttempt_of_aside (by simp [aside]) (by simp) fun _ _ => .inl ⟨m, by simp⟩
  | unconfigured ht hr hh =>
    have hset := hh.settling
    refine oneAttempt_of_aside ?_ ?_ fun _ _ => .inr hr
    · simpa [admitted, aside] using fun e he => aside_of_settling (hset e he)
    · simpa [admitted] using not_recordSuccess_of_settling hset
  | left ht hr hl =>
    exact oneAttempt_of_call ht rfl
      (calledRoutes_of_aside fun e he => aside_of_relaying (hl.relaying e he))
      (fun _ _ => by simp) fun _ _ _ _ _ => by simp
  | @failed _ _ _ t state script tr tr' r e _ ht hr hl he hh =>
    have hquiet : ∀ e ∈ tr ++ tr', aside e.1 = true := List.forall_mem_append.mpr
      ⟨fun e he => aside_of_relaying (hl.relaying e he),
        fun e he => aside_of_settling (hh.settling e he)⟩
    refine oneAttempt_of_call ht rfl (calledRoutes_of_aside hquiet) (fun hd st' => ?_)
      fun e he id hid => absurd hid ?_
    · -- Only an invalid request is decisive, and its handler ends the loop.
      obtain ⟨err, hend, hc⟩ := decisive_openStream hd
      rw [streamVerdict, hend] at he
      cases he
      exact hh.not_next hc st'
    · rcases List.mem_append.mp he with he | he
      · exact not_recordSuccess_of_relaying hl.relaying e he id
      · exact not_recordSuccess_of_settling hh.settling e he id
  | @succeeded _ _ _ t state state' script tr r parsed schemaValid now createdAt createdAt' consumer
      ht hr hl hv =>
    have hkept := calledRoutes_bookkeeping (keepEvents_bookkeeping x
      (streamResponse x route c st.fallbackCount r parsed schemaValid now createdAt) createdAt')
    have hrelayed := calledRoutes_of_aside fun e he => aside_of_relaying (hl.relaying e he)
    refine oneAttempt_of_call ht rfl ?_ (fun _ _ => ?_) fun _ _ _ _ _ => ?_
    · rw [calledRoutes_append, hrelayed]
      change calledRoutes (x.keepEvents _ _ ++ [ev (.yieldEvent _) consumer]) = []
      rw [calledRoutes_append, hkept]
      rfl
    all_goals cases consumer <;> simp

/-! ## The loop -/

def PassedOver (svc : Service) (tr : GatewayTrace) (id : String) : Prop :=
  (∃ m, ev (.beforeRequest id) (.error m) ∈ tr) ∨
    ∃ route ∈ svc.routes, route.id = id ∧ route.provider ∉ svc.adapters

/-- The providers of `order` in turn, up to one that settles the matter. -/
structure InTurn (svc : Service) (order : List String) (tr : GatewayTrace) : Prop where
  tried : ∃ tried, tried <+: order ∧ (calledRoutes tr).Sublist tried ∧
    ∀ id ∈ tried, id ∈ calledRoutes tr ∨ svc.PassedOver tr id
  decided : ∀ pre e post, tr = pre ++ e :: post → Decisive e → calledRoutes post = []

theorem PassedOver.mono {tr tr' : GatewayTrace} {id : String} (h : svc.PassedOver tr id)
    (hsub : tr ⊆ tr') : svc.PassedOver tr' id :=
  h.imp (fun h => h.elim fun m hm => ⟨m, hsub hm⟩) fun h => h

theorem InTurn.append {order : List String} {tr tr' : GatewayTrace} (h : svc.InTurn order tr)
    (hquiet : calledRoutes tr' = []) : svc.InTurn order (tr ++ tr') where
  tried := by
    obtain ⟨tried, hfront, hsub, hall⟩ := h.tried
    rw [calledRoutes_append, hquiet, List.append_nil]
    exact ⟨tried, hfront, hsub, fun id hid =>
      (hall id hid).imp_right fun hp => hp.mono (List.subset_append_left _ _)⟩
  decided := by
    intro pre e post htr hd
    rcases Prog.split_append htr with ⟨mid, rfl, rfl⟩ | ⟨mid, rfl, rfl⟩
    · rw [calledRoutes_append, hquiet, h.decided pre e mid rfl hd, List.append_nil]
    · apply calledRoutes_eq_nil.mpr
      intro e' he'
      exact calledRoutes_eq_nil.mp hquiet e' (by simp [he'])

theorem inTurn_nil (order : List String) : svc.InTurn order [] where
  tried := ⟨[], List.nil_prefix, .slnil, by simp⟩
  decided := by simp

theorem OneAttempt.inTurn {α : Type} {x : Exchange} {c : RoutingCandidate}
    {cs : List RoutingCandidate} {route : ModelRoute} {tr : GatewayTrace}
    {out : Except PyExc (Pass α)} (h : svc.OneAttempt x route tr out)
    (hid : route.id = c.routeId) : svc.InTurn ((c :: cs).map (·.routeId)) tr where
  tried := by
    rcases h.called with hcalled | hcalled
    · exact ⟨[], List.nil_prefix, by rw [hcalled], by simp⟩
    · refine ⟨[c.routeId], ⟨cs.map (·.routeId), rfl⟩, by rw [hcalled, hid], fun id hmem => .inl ?_⟩
      rwa [hcalled, hid]
  decided pre e post htr hd := (h.decided pre e post htr hd).1

theorem OneAttempt.inTurn_next {α : Type} {x : Exchange} {c : RoutingCandidate}
    {cs : List RoutingCandidate} {route : ModelRoute} {tr tr' : GatewayTrace} {st : LoopState}
    (h : svc.OneAttempt x route tr (.ok (.next st) : Except PyExc (Pass α)))
    (hroute : route ∈ svc.routes) (hid : route.id = c.routeId)
    (hrest : svc.InTurn (cs.map (·.routeId)) tr') :
    svc.InTurn ((c :: cs).map (·.routeId)) (tr ++ tr') where
  tried := by
    obtain ⟨tried, hfront, hsub, hall⟩ := hrest.tried
    refine ⟨c.routeId :: tried, (List.prefix_cons_inj _).mpr hfront, ?_, ?_⟩
    · rw [calledRoutes_append]
      rcases h.called with hcalled | hcalled
      · rw [hcalled]
        exact hsub.cons _
      · rw [hcalled, hid]
        exact hsub.cons_cons _
    · rw [List.forall_mem_cons, calledRoutes_append]
      constructor
      · rcases h.passedOver st rfl with hcalled | ⟨m, hm⟩ | hmissing
        · exact .inl (by simp [hcalled, hid])
        · exact .inr (.inl ⟨m, List.mem_append_left _ (hid ▸ hm)⟩)
        · exact .inr (.inr ⟨route, hroute, hid, hmissing⟩)
      · exact fun id hmem => (hall id hmem).imp (List.mem_append_right _)
          fun hpassed => hpassed.mono (List.subset_append_right _ _)
  decided := by
    intro pre e post htr hd
    rcases Prog.split_append htr with ⟨mid, rfl, rfl⟩ | ⟨mid, rfl, rfl⟩
    · exact absurd rfl ((h.decided pre e mid rfl hd).2 st)
    · exact hrest.decided mid e post rfl hd

theorem LoopRun.inTurn {α : Type} {x : Exchange} {R : PassRel α}
    (hR : ∀ {c route st tr out}, R c route st tr out → svc.OneAttempt x route tr out)
    {cs : List RoutingCandidate} {st : LoopState} {tr : GatewayTrace} {out : Except PyExc α}
    (h : svc.LoopRun x R cs st tr out) :
    svc.InTurn (cs.map (·.routeId)) tr ∧ CallsChecked x tr := by
  have hquiet : ∀ {st tr} {out : Except PyExc α}, GaveUp x st tr out → calledRoutes tr = [] :=
    fun hg => calledRoutes_of_aside fun e he => aside_of_settling (hg.settling e he)
  induction h with
  | exhausted hg => exact ⟨(inTurn_nil _).append (hquiet hg), checked_of_none (hquiet hg)⟩
  | unknown => exact ⟨inTurn_nil _, checked_of_none rfl⟩
  | raised hr hp | returned hr hp =>
    exact ⟨(hR hp).inTurn (getRoute_ok hr).2, (hR hp).checked⟩
  | broke hr hp hg =>
    exact ⟨((hR hp).inTurn (getRoute_ok hr).2).append (hquiet hg),
      (hR hp).checked.append (checked_of_none (hquiet hg))⟩
  | next hr hp h ih =>
    exact ⟨(hR hp).inTurn_next (getRoute_ok hr).1 (getRoute_ok hr).2 ih.1,
      (hR hp).checked.append ih.2⟩

/-! ## The order -/

/-- The selected route first, then the other candidates as they are ranked. -/
def turns (d : RoutingDecision) : List String :=
  d.selectedRouteId :: (d.candidates.map (·.routeId)).filter (· ≠ d.selectedRouteId)

theorem candidates_nodup {q : GatewayRequest} {opts : RoutingOptions}
    {xs : List (ModelRoute × Bool)} {d : RoutingDecision} (hxs : xs.map Prod.fst = svc.routes)
    (hd : svc.conclude q opts (svc.passed q opts xs) (turnedDown q opts xs) = .ok d) :
    (d.candidates.map (·.routeId)).Nodup := by
  obtain ⟨best, rest, hsort, hcands, -, -⟩ := conclude_ok hd
  have hperm : (best :: rest).Perm (svc.passed q opts xs) := hsort ▸ List.perm_insertionSort _ _
  have hids : d.candidates.map (·.routeId) = (best :: rest).map (·.routeId) := by
    rw [hcands, List.map_map]
    rfl
  have hall : ((svc.passed q opts xs).map (·.routeId) ++
      (turnedDown q opts xs).map (·.routeId)).Nodup := by
    rw [screened_perm.nodup_iff, hxs]
    exact svc.routes_nodup
  rw [hids, (hperm.map _).nodup_iff]
  exact hall.of_append_left

theorem map_orderedCandidates {q : GatewayRequest} {opts : RoutingOptions}
    {xs : List (ModelRoute × Bool)} {d : RoutingDecision} (hxs : xs.map Prod.fst = svc.routes)
    (hd : svc.conclude q opts (svc.passed q opts xs) (turnedDown q opts xs) = .ok d) :
    (orderedCandidates d).map (·.routeId) = turns d := by
  have hne := orderedCandidates_ne_nil hd
  have hnd := candidates_nodup hxs hd
  unfold orderedCandidates at hne ⊢
  cases hfind : d.candidates.find? (·.routeId = d.selectedRouteId) with
  | none => simp [hfind] at hne
  | some selected =>
    have hid : selected.routeId = d.selectedRouteId := by simpa using List.find?_some hfind
    have hothers : (d.candidates.eraseP (·.routeId = d.selectedRouteId)).map (·.routeId) =
        (d.candidates.map (·.routeId)).filter (· ≠ d.selectedRouteId) := by
      have herase := hnd.erase_eq_filter d.selectedRouteId
      rw [List.erase_eq_eraseP', List.eraseP_map] at herase
      have hkept : (d.candidates.map (·.routeId)).filter (· ≠ d.selectedRouteId) =
          (d.candidates.map (·.routeId)).filter (· != d.selectedRouteId) :=
        List.filter_congr fun id _ => by simp [bne, beq_eq_decide]
      rw [hkept, ← herase]
      congr 2
    rw [turns, ← hothers, ← hid]
    rfl

theorem turns_nodup {q : GatewayRequest} {opts : RoutingOptions}
    {xs : List (ModelRoute × Bool)} {d : RoutingDecision} (hxs : xs.map Prod.fst = svc.routes)
    (hd : svc.conclude q opts (svc.passed q opts xs) (turnedDown q opts xs) = .ok d) :
    (turns d).Nodup :=
  List.nodup_cons.mpr ⟨by simp, (candidates_nodup hxs hd).filter _⟩

/-! ## The end of the loop -/

/-- The loop over the candidates comes to its end, without a result, in the state `st'`. -/
inductive LoopEnds {α : Type} (svc : Service)
    (pass : RoutingCandidate → ModelRoute → LoopState → GatewayM (Pass α)) :
    List RoutingCandidate → LoopState → LoopState → Prop
  | exhausted (st : LoopState) : LoopEnds svc pass [] st st
  | broke {c : RoutingCandidate} {cs : List RoutingCandidate} {st st' : LoopState}
      {route : ModelRoute} {tr : GatewayTrace} (hr : svc.getRoute c.routeId = .ok route)
      (hp : Prog.Run (pass c route st) tr (.ok (.broke st'))) : LoopEnds svc pass (c :: cs) st st'
  | next {c : RoutingCandidate} {cs : List RoutingCandidate} {st st' st'' : LoopState}
      {route : ModelRoute} {tr : GatewayTrace} (hr : svc.getRoute c.routeId = .ok route)
      (hp : Prog.Run (pass c route st) tr (.ok (.next st'))) (h : LoopEnds svc pass cs st' st'') :
      LoopEnds svc pass (c :: cs) st st''

def LoopState.Failing (st : LoopState) : Prop :=
  st.lastError.isSome = true ∧ st.lastErrorRoute.isSome = true

theorem Handled.failing {α : Type} {timeout : String} {route : ModelRoute} {st st' : LoopState}
    {e : PyExc} {tr : GatewayTrace} {out : Except PyExc (Pass α)}
    (h : Handled timeout route st e tr out)
    (hout : out = .ok (.next st') ∨ out = .ok (.broke st')) : LoopState.Failing st' := by
  cases h <;> rcases hout with hout | hout <;> cases hout <;> exact ⟨rfl, rfl⟩

theorem StreamHandled.failing {x : Exchange} {route : ModelRoute} {st st' : LoopState}
    {emitted : Bool} {e : PyExc} {tr : GatewayTrace} {out : Except PyExc (Pass Unit)}
    (h : StreamHandled x route st emitted e tr out)
    (hout : out = .ok (.next st') ∨ out = .ok (.broke st')) : LoopState.Failing st' := by
  cases emitted with
  | false => exact Handled.failing h hout
  | true =>
    have h : Interrupted x route st e tr out := h
    cases h <;> rcases hout with hout | hout <;> cases hout
    exact ⟨rfl, rfl⟩

theorem deadline_failing {st : LoopState} (hst : LoopState.Noted st) (route : ModelRoute) :
    LoopState.Failing (st.deadline route) :=
  have h := deadline_noted hst route
  ⟨h.1, h.2 h.1⟩

theorem GeneratePassRun.failing {x : Exchange} {c : RoutingCandidate} {route : ModelRoute}
    {st st' : LoopState} {tr : GatewayTrace} {out : Except PyExc (Pass GatewayResponse)}
    (hst : LoopState.Noted st) (h : svc.GeneratePassRun x c route st tr out)
    (hout : out = .ok (.next st') ∨ out = .ok (.broke st')) : LoopState.Failing st' := by
  cases h with
  | deadline =>
    rcases hout with hout | hout <;> cases hout
    exact deadline_failing hst route
  | refused =>
    rcases hout with hout | hout <;> cases hout
    exact ⟨rfl, rfl⟩
  | unconfigured _ _ hh | failed _ _ _ hh => exact hh.failing hout
  | succeeded => rcases hout with hout | hout <;> cases hout

theorem StreamPassRun.failing {x : Exchange} {c : RoutingCandidate} {route : ModelRoute}
    {st st' : LoopState} {tr : GatewayTrace} {out : Except PyExc (Pass Unit)}
    (hst : LoopState.Noted st) (h : svc.StreamPassRun x c route st tr out)
    (hout : out = .ok (.next st') ∨ out = .ok (.broke st')) : LoopState.Failing st' := by
  cases h with
  | deadline =>
    rcases hout with hout | hout <;> cases hout
    exact deadline_failing hst route
  | refused =>
    rcases hout with hout | hout <;> cases hout
    exact ⟨rfl, rfl⟩
  | unconfigured _ _ hh => exact hh.failing hout
  | failed _ _ _ _ hh => exact hh.failing hout
  | left => rcases hout with hout | hout <;> cases hout
  | @succeeded _ _ _ _ _ _ _ _ _ _ _ _ _ _ consumer =>
    cases consumer <;> rcases hout with hout | hout <;> cases hout

theorem LoopEnds.failing {α : Type}
    {pass : RoutingCandidate → ModelRoute → LoopState → GatewayM (Pass α)}
    (hpass : ∀ c route st tr out, LoopState.Noted st → Prog.Run (pass c route st) tr out →
      ∀ st', out = .ok (.next st') ∨ out = .ok (.broke st') → LoopState.Failing st')
    {cs : List RoutingCandidate} {st st' : LoopState} (h : LoopEnds svc pass cs st st')
    (hst : LoopState.Noted st) (hany : cs ≠ [] ∨ LoopState.Failing st) :
    LoopState.Failing st' := by
  induction h with
  | exhausted st => exact hany.resolve_left (by simp)
  | broke hr hp => exact hpass _ _ _ _ _ hst hp _ (.inr rfl)
  | next hr hp h ih =>
    have hfailing := hpass _ _ _ _ _ hst hp _ (.inl rfl)
    exact ih (fun _ => hfailing.2) (.inr hfailing)

/-! ## The deadline -/

/-- `start + max_latency_ms`. -/
def deadline (x : Exchange) : ℚ := x.started + (x.request.maxLatencyMs : ℚ) / 1000

/-- `t` is what the clock was last read at. -/
def LastReading (tr : GatewayTrace) (t : ℚ) : Prop :=
  ∃ pre mid, tr = pre ++ ev .monotonic t :: mid ∧ ∀ e ∈ mid, e.1 ≠ .monotonic

/-- Times at which the provider calls of a trace begin and end, by their places in it. No time
passes between the deadline check and the call, and `asyncio.timeout` stops it at its bound. -/
structure Stopwatch (x : Exchange) (tr : GatewayTrace) (began ended : Nat → ℚ) : Prop where
  instant : ∀ pre e post t, tr = pre ++ e :: post → (providerCall e.1).isSome = true →
    LastReading pre t → began pre.length = t
  stopped : ∀ pre e post t, tr = pre ++ e :: post → (providerCall e.1).isSome = true →
    LastReading pre t →
      ended pre.length ≤ began pre.length + remainingSeconds x.started x.request t

/-- Each call begins before the deadline, ends by it, and has a budget to match. -/
def InTime (x : Exchange) (tr : GatewayTrace) : Prop :=
  ∀ began ended, Stopwatch x tr began ended →
    ∀ pre e post q route, tr = pre ++ e :: post → providerCall e.1 = some (q, route) →
      began pre.length < deadline x ∧ ended pre.length ≤ deadline x ∧
        (q.maxLatencyMs : ℚ) ≤ max 1 ((deadline x - began pre.length) * 1000)

theorem remainingSeconds_eq (x : Exchange) (t : ℚ) :
    remainingSeconds x.started x.request t = deadline x - t := by
  unfold remainingSeconds deadline
  ring

theorem attemptRequest_budget (q : GatewayRequest) {remaining : ℚ} (h : 0 < remaining) :
    ((attemptRequest q remaining).maxLatencyMs : ℚ) ≤ max 1 (remaining * 1000) := by
  have hnonneg : 0 ≤ (remaining * 1000).floor := Rat.le_floor_iff.mpr (by simpa using by linarith)
  have hfloor : (((remaining * 1000).floor.toNat : ℕ) : ℚ) ≤ remaining * 1000 := by
    have hcast : (((remaining * 1000).floor.toNat : ℕ) : ℚ) = ((remaining * 1000).floor : ℚ) := by
      exact_mod_cast congrArg (Int.cast : ℤ → ℚ) (Int.toNat_of_nonneg hnonneg)
    rw [hcast]
    exact Rat.floor_le _
  change ((max 1 (remaining * 1000).floor.toNat : ℕ) : ℚ) ≤ _
  rw [Nat.cast_max, Nat.cast_one]
  exact max_le_max le_rfl hfloor

theorem CallsChecked.inTime {x : Exchange} {tr : GatewayTrace} (h : CallsChecked x tr) :
    InTime x tr := by
  intro began ended hclock pre e post q route htr hcall
  obtain ⟨pre', t, state, hpre, hpos, rfl⟩ := h pre e post q route htr hcall
  have hread : LastReading pre t := by
    refine ⟨pre', [ev (.beforeRequest route.id) (.ok state), ev (.setCircuitState route.id state) ()],
      hpre, ?_⟩
    simp
  have hsome : (providerCall e.1).isSome = true := by rw [hcall]; rfl
  have hbegan := hclock.instant pre e post t htr hsome hread
  have hended := hclock.stopped pre e post t htr hsome hread
  have hbudget := attemptRequest_budget x.request hpos
  rw [remainingSeconds_eq] at hended hpos
  rw [hbegan] at hended ⊢
  refine ⟨by linarith, by linarith, ?_⟩
  rwa [remainingSeconds_eq] at hbudget ⊢

/-! ## Whole calls -/

/-- What holds of each call of the data plane: either it calls no provider, or it does so for the
decision that it has come to, in turn and in time. -/
def BoundedFallback (svc : Service) (args : Arguments) (tr : GatewayTrace) : Prop :=
  calledRoutes tr = [] ∨ ∃ pre x d post, tr = pre ++ post ∧
    Prog.Run (svc.approach args) pre (.ok (x, .decision d)) ∧ calledRoutes pre = [] ∧
    (calledRoutes post).Nodup ∧ svc.InTurn (turns d) post ∧ InTime x post

theorem calledRoutes_of_approaching {tr : GatewayTrace} (h : ∀ e ∈ tr, approaching e.1) :
    calledRoutes tr = [] :=
  calledRoutes_eq_nil.mpr fun e he => providerCall_of_approaching (h e he)

theorem BoundedFallback.of_loop {α : Type} {args : Arguments} {R : Exchange → PassRel α}
    (hR : ∀ x c route st tr out, R x c route st tr out → svc.OneAttempt x route tr out)
    {pre post : GatewayTrace} {x : Exchange} {d : RoutingDecision} {out : Except PyExc α}
    (hrun : Prog.Run (svc.approach args) pre (.ok (x, .decision d)))
    (ha : svc.ApproachRun args pre (.ok (x, .decision d)))
    (hl : svc.LoopRun x (R x) (orderedCandidates d) {} post out) :
    svc.BoundedFallback args (pre ++ post) := by
  obtain ⟨hturn, hentered⟩ := hl.inTurn (hR x _ _ _ _ _)
  have hpre := calledRoutes_of_approaching ha.approaching
  cases ha with
  | decided hb hxs hd =>
    rw [map_orderedCandidates hxs hd] at hturn
    obtain ⟨tried, hfront, hsub, -⟩ := hturn.tried
    have hnd := hsub.nodup (hfront.sublist.nodup (turns_nodup hxs hd))
    exact .inr ⟨_, x, d, post, rfl, hrun, hpre, hnd, hturn, hentered.inTime⟩

/-- Fallback is bounded in both calls, and their assertions hold when the loop ends. -/
theorem bounded_fallback (svc : Service) :
    (∀ args, (svc.generate args).Leaves (svc.BoundedFallback args)) ∧
    (∀ q forced, (svc.stream q forced).Leaves
      (svc.BoundedFallback { request := q, forcedRouteId := forced })) ∧
    (∀ x cs st, cs ≠ [] → LoopEnds svc (svc.generatePass x) cs {} st → LoopState.Failing st) ∧
    ∀ x cs st, cs ≠ [] → LoopEnds svc (svc.streamPass x) cs {} st → LoopState.Failing st := by
  have hnoted : LoopState.Noted {} := fun h => by cases h
  refine ⟨fun args => ?_, fun q forced => ?_, fun x cs st hcs h => ?_, fun x cs st hcs h => ?_⟩
  · rw [generate, Prog.Leaves, Prog.allRuns_bind]
    apply ((svc.approach_runs args).and (Prog.allRuns_run _)).mono
    intro pre out h
    obtain ⟨ha, hrun⟩ := h
    -- No provider is called in front of the decision.
    have hquiet := calledRoutes_of_approaching ha.approaching
    rcases out with e | ⟨x, hit | d⟩
    · exact .inl hquiet
    · rw [Prog.then_ok]
      refine (serveCached_runs x hit).mono fun post _ hs => .inl ?_
      rw [calledRoutes_append, hquiet, calledRoutes_of_aside hs.aside]
      rfl
    · exact (svc.candidateLoop_runs x (svc.generatePass_runs x) _ _).mono fun post _ hl =>
        .of_loop (fun _ _ _ _ _ _ h => h.oneAttempt) hrun ha hl
  · rw [stream, Prog.Leaves, Prog.allRuns_bind]
    apply ((svc.approach_runs _).and (Prog.allRuns_run _)).mono
    intro pre out h
    obtain ⟨ha, hrun⟩ := h
    have hquiet := calledRoutes_of_approaching ha.approaching
    rcases out with e | ⟨x, hit | d⟩
    · exact .inl hquiet
    · rw [Prog.then_ok]
      refine (streamCached_runs x hit).mono fun post _ hs => .inl ?_
      rw [calledRoutes_append, hquiet, calledRoutes_of_aside hs.aside]
      rfl
    · exact (svc.candidateLoop_runs x (svc.streamPass_runs x) _ _).mono fun post _ hl =>
        .of_loop (fun _ _ _ _ _ _ h => h.oneAttempt) hrun ha hl
  · refine h.failing (fun c route st tr out hst hrun st' hout => ?_) hnoted (.inl hcs)
    exact (Prog.AllRuns.run (svc.generatePass_runs x c route st) hrun).failing hst hout
  · refine h.failing (fun c route st tr out hst hrun st' hout => ?_) hnoted (.inl hcs)
    exact (Prog.AllRuns.run (svc.streamPass_runs x c route st) hrun).failing hst hout

/-! A route of a provider that the gateway has no adapter for. -/

def strayRoute : ModelRoute := { Sample.route with id := "elsewhere", provider := "azure" }

theorem strayRoute_distinct : ([strayRoute, Sample.route].map (·.id)).Nodup := by decide

def strayService : Service :=
  { Sample.service with
    routes := [strayRoute, Sample.route]
    adapters := ["mock", "openai", "anthropic", "ollama"]
    routes_nodup := strayRoute_distinct }

def decisionOf : Except PyExc (Exchange × Origin) → Option (Exchange × RoutingDecision)
  | .ok (x, .decision d) => some (x, d)
  | _ => none

theorem eq_of_decisionOf {out : Except PyExc (Exchange × Origin)} {x : Exchange}
    {d : RoutingDecision} (h : decisionOf out = some (x, d)) : out = .ok (x, .decision d) := by
  unfold decisionOf at h
  split at h
  next =>
    obtain ⟨rfl, rfl⟩ := Prod.mk.inj (Option.some.inj h)
    rfl
  next => cases h

def refusedRoute : GatewayEvent → Option String
  | ⟨.beforeRequest id, .error _⟩ => some id
  | _ => none

/-- It is passed over although its circuit has refused nothing. -/
theorem stray_passed : ∃ x d,
    (strayService.runs twoPieces (strayService.approach { request := Sample.request }) {}).outcome =
      .ok (x, .decision d) ∧
    ¬ ∃ tried, tried <+: turns d ∧
      (calledRoutes (strayService.runs twoPieces
        (strayService.generate { request := Sample.request }) {}).trace).Sublist tried ∧
      ∀ id ∈ tried,
        id ∈ calledRoutes (strayService.runs twoPieces
          (strayService.generate { request := Sample.request }) {}).trace ∨
        ∃ m, ev (.beforeRequest id) (.error m) ∈ (strayService.runs twoPieces
          (strayService.generate { request := Sample.request }) {}).trace := by
  obtain ⟨⟨x, d⟩, hdecision, hturns⟩ : ∃ xd ∈ decisionOf (strayService.runs twoPieces
      (strayService.approach { request := Sample.request }) {}).outcome,
      turns xd.2 = ["elsewhere", "primary"] := by
    decide +kernel
  have hcalled : calledRoutes (strayService.runs twoPieces
      (strayService.generate { request := Sample.request }) {}).trace = ["primary"] := by
    decide +kernel
  have hrefused : (strayService.runs twoPieces
      (strayService.generate { request := Sample.request }) {}).trace.filterMap refusedRoute = [] := by
    decide +kernel
  refine ⟨x, d, eq_of_decisionOf hdecision, ?_⟩
  rw [hcalled, hturns]
  rintro ⟨tried, ⟨rest, hrest⟩, hsub, hall⟩
  have hprimary : "primary" ∈ tried := hsub.subset (by simp)
  have hfirst : "elsewhere" ∈ tried := by
    cases tried with
    | nil => cases hprimary
    | cons id tried =>
      obtain ⟨rfl, -⟩ := List.cons.inj hrest
      exact List.mem_cons_self
  rcases hall _ hfirst with hmem | ⟨m, hm⟩
  · simp at hmem
  · have hnone := List.filterMap_eq_nil_iff.mp hrefused _ hm
    cases hnone

end Service

end AegisGateway
