import AegisGateway.Lib.Totals
import AegisGateway.Metering
import AegisGateway.Parity

/-!
# What a request may cost

The router checks a budget against an estimate, before anything is spent. What a call is charged
afterwards is the price of one answer, which goes over the budget by the tokens that its provider
has reported beyond that estimate, and by nothing else.
-/

open Coroutine JsonText

namespace AegisGateway

/-- What a request allows to be spent. Validation keeps `max_cost_usd` from being negative. -/
def allowance (q : GatewayRequest) : ℚ := max 0 q.maxCostUsd

/-- The price of the tokens that the routing of the request has not reckoned with. -/
def overrun (route : ModelRoute) (q : GatewayRequest) (used : Nat × Nat) : ℚ :=
  predictedCost route (used.1 - requestInputTokens q) (used.2 - q.maxOutputTokens)

theorem predictedCost_add (route : ModelRoute) (i i' o o' : Nat) :
    predictedCost route (i + i') (o + o') = predictedCost route i o + predictedCost route i' o' := by
  unfold predictedCost
  push_cast
  ring

theorem predictedCost_mono (route : ModelRoute) {i i' o o' : Nat} (hi : i ≤ i') (ho : o ≤ o') :
    predictedCost route i o ≤ predictedCost route i' o' := by
  obtain ⟨extra, rfl⟩ := Nat.exists_eq_add_of_le hi
  obtain ⟨extra', rfl⟩ := Nat.exists_eq_add_of_le ho
  rw [predictedCost_add]
  exact le_add_of_nonneg_right (predictedCost_nonneg route _ _)

theorem actualCost_le (route : ModelRoute) (q : GatewayRequest) (used : Nat × Nat) :
    actualCost route used.1 used.2 ≤ requestCost route q + overrun route q used := by
  rw [requestCost, overrun, ← predictedCost_add]
  exact predictedCost_mono route (by omega) (by omega)

namespace Service

variable {svc : Service}

/-! ## Charges -/

def charge (e : GatewayEvent) : ℚ := (rowOf e.1).elim 0 (·.costUsd)

def usedTokens : GatewayEvent → Nat × Nat
  | ⟨.complete _ _, .ok result⟩ => (result.inputTokens, result.outputTokens)
  | ⟨.openStream _ _, script⟩ => lastUsage script.events
  | _ => (0, 0)

/-- The answer stays within the estimate. -/
def Modest (e : GatewayEvent) : Prop :=
  ∀ call ∈ providerCall e.1,
    (usedTokens e).1 ≤ requestInputTokens call.1 ∧ (usedTokens e).2 ≤ call.1.maxOutputTokens

instance (e : GatewayEvent) : Decidable (Modest e) :=
  inferInstanceAs (Decidable (∀ call ∈ providerCall e.1,
    (usedTokens e).1 ≤ requestInputTokens call.1 ∧ (usedTokens e).2 ≤ call.1.maxOutputTokens))

structure PriceOf (svc : Service) (budget : ℚ) (m : RequestMetric) (e : GatewayEvent) : Prop where
  answers : svc.answers e = true
  route : ∃ q route, providerCall e.1 = some (q, route) ∧ route.id = m.routeId ∧
    m.costUsd = actualCost route (usedTokens e).1 (usedTokens e).2 ∧
    m.costUsd ≤ budget + overrun route q (usedTokens e)

/-- What a row charges, by what came before it. -/
structure Priced (svc : Service) (budget : ℚ) (pre : GatewayTrace) (m : RequestMetric) : Prop where
  unpaid : m.success = false ∨ m.cacheHit = true → m.costUsd = 0
  paid : m.success = true → m.cacheHit = false → ∃ e ∈ pre, svc.PriceOf budget m e

/-- A trace with at most one row, priced by what came before it. -/
inductive Spends (svc : Service) (budget : ℚ) (tr : GatewayTrace) : Prop
  | nothing (h : rows tr = [])
  | once {pre post : GatewayTrace} {m : RequestMetric}
    (heq : tr = pre ++ ev (.recordMetric m) () :: post) (hpre : rows pre = [])
    (hpost : rows post = []) (h : svc.Priced budget pre m)

theorem accrued_charge (tr : GatewayTrace) : accrued charge tr = ((rows tr).map (·.costUsd)).sum := by
  induction tr with
  | nil => rfl
  | cons e tr ih =>
    rw [accrued_cons, ih, rows, rows, List.filterMap_cons]
    cases hrow : rowOf e.1 with
    | none => simp [charge, hrow]
    | some m => simp [charge, hrow]

theorem split_row {tr : GatewayTrace} {m : RequestMetric} (h : rows tr = [m]) :
    ∃ pre post, tr = pre ++ ev (.recordMetric m) () :: post ∧ rows pre = [] ∧ rows post = [] := by
  have hm : m ∈ rows tr := by simp [h]
  obtain ⟨⟨o, a⟩, he, ho⟩ := List.mem_filterMap.mp hm
  obtain rfl : o = .recordMetric m := by
    cases o with
    | recordMetric m' =>
      cases ho
      rfl
    | _ => cases ho
  obtain ⟨pre, post, rfl⟩ := List.append_of_mem he
  have hsplit : rows pre ++ m :: rows post = [m] := by
    rw [← h, rows_append]
    rfl
  refine ⟨pre, post, rfl, ?_⟩
  rcases List.append_eq_singleton_iff.mp hsplit with ⟨hpre, hrest⟩ | ⟨-, hrest⟩
  · exact ⟨hpre, (List.cons.inj hrest).2⟩
  · cases hrest

theorem rows_single {m : RequestMetric} {post : GatewayTrace} (h : rows post = []) :
    rows (ev (.recordMetric m) () :: post) = [m] := congrArg (m :: ·) h

section Spending

variable {budget : ℚ} {tr tr' : GatewayTrace} {m : RequestMetric}

theorem priced_unpaid (hcost : m.costUsd = 0) (hm : m.success = false ∨ m.cacheHit = true)
    (pre : GatewayTrace) : svc.Priced budget pre m where
  unpaid _ := hcost
  paid hsuccess hmiss := by
    rcases hm with hm | hm
    · rw [hm] at hsuccess
      cases hsuccess
    · rw [hm] at hmiss
      cases hmiss

theorem spends_row (hrows : rows tr = []) (row : Option RequestMetric)
    (hrows' : rows tr' = row.toList) (h : ∀ m ∈ row, ∀ mid, svc.Priced budget (tr ++ mid) m) :
    svc.Spends budget (tr ++ tr') := by
  cases row with
  | none => exact .nothing (by rw [rows_append, hrows, hrows']; rfl)
  | some m =>
    obtain ⟨pre, post, rfl, hpre, hpost⟩ := split_row hrows'
    refine .once (List.append_assoc _ _ _).symm ?_ hpost (h m rfl pre)
    rw [rows_append, hrows, hpre, List.append_nil]

theorem spends_unpaid (h : rows tr = [m]) (hcost : m.costUsd = 0)
    (hm : m.success = false ∨ m.cacheHit = true) : svc.Spends budget tr := by
  rw [← List.nil_append tr]
  apply spends_row rfl (some m) h
  intro m' hm' pre
  obtain rfl := Option.some.inj hm'
  exact priced_unpaid hcost hm pre

theorem Spends.after (h : svc.Spends budget tr') (hrows : rows tr = []) :
    svc.Spends budget (tr ++ tr') := by
  cases h with
  | nothing h => exact .nothing (by rw [rows_append, hrows, h]; rfl)
  | once heq hpre hpost h =>
    subst heq
    refine .once (List.append_assoc _ _ _).symm (by rw [rows_append, hrows, hpre]; rfl) hpost
      ⟨h.unpaid, fun hsuccess hmiss => ?_⟩
    obtain ⟨e, he, hprice⟩ := h.paid hsuccess hmiss
    exact ⟨e, List.mem_append_right _ he, hprice⟩

theorem Spends.prefix (h : svc.Spends budget (tr ++ tr')) : svc.Spends budget tr := by
  cases h with
  | nothing h =>
    rw [rows_append] at h
    exact .nothing (List.append_eq_nil_iff.mp h).1
  | @once pre post m heq hpre hpost h =>
    rcases List.append_eq_append_iff.mp heq with ⟨mid, rfl, -⟩ | ⟨mid, rfl, hmid⟩
    · rw [rows_append] at hpre
      exact .nothing (List.append_eq_nil_iff.mp hpre).1
    · cases mid with
      | nil => exact .nothing (by rw [List.append_nil]; exact hpre)
      | cons e mid =>
        obtain ⟨rfl, rfl⟩ := List.cons.inj hmid
        have hrest : rows (mid ++ tr') = [] := hpost
        rw [rows_append] at hrest
        exact .once rfl hpre (List.append_eq_nil_iff.mp hrest).1 h

theorem Spends.unpaid (h : svc.Spends budget tr) :
    ∀ m ∈ rows tr, m.success = false ∨ m.cacheHit = true → m.costUsd = 0 := by
  cases h with
  | nothing h => simp [h]
  | once heq hpre hpost h =>
    subst heq
    rw [rows_append, hpre, rows_single hpost]
    exact List.forall_mem_singleton.mpr h.unpaid

theorem Spends.charge_le (h : svc.Spends budget tr) (hbudget : 0 ≤ budget)
    (hmodest : ∀ e ∈ tr, svc.answers e = true → Modest e) : accrued charge tr ≤ budget := by
  cases h with
  | nothing h =>
    rw [accrued_charge, h]
    exact hbudget
  | @once pre post m heq hpre hpost h =>
    subst heq
    rw [accrued_charge, rows_append, hpre, rows_single hpost]
    simp only [List.nil_append, List.map_cons, List.map_nil, List.sum_cons, List.sum_nil, add_zero]
    by_cases hm : m.success = false ∨ m.cacheHit = true
    · rw [h.unpaid hm]
      exact hbudget
    · obtain ⟨hsuccess, hmiss⟩ := not_or.mp hm
      obtain ⟨e, he, hprice⟩ := h.paid (by simpa using hsuccess) (by simpa using hmiss)
      obtain ⟨q, route, hcall, -, -, hle⟩ := hprice.route
      obtain ⟨hinput, houtput⟩ :=
        hmodest e (List.mem_append_left _ he) hprice.answers (q, route) hcall
      rw [overrun, Nat.sub_eq_zero_of_le hinput, Nat.sub_eq_zero_of_le houtput] at hle
      simpa [predictedCost] using hle

end Spending

/-! ## What an attempt charges -/

theorem spends_errorEvents {budget : ℚ} (x : Exchange) (route : ModelRoute) (error : AegisError)
    (n : Nat) (now : ℚ) (t : Int) : svc.Spends budget (x.errorEvents route error n now t) :=
  spends_unpaid (rows_errorEvents x route error n now t) rfl (.inl rfl)

theorem GaveUp.spends {α : Type} {budget : ℚ} {x : Exchange} {st : LoopState} {tr : GatewayTrace}
    {out : Except PyExc α} (h : GaveUp x st tr out) : svc.Spends budget tr := by
  cases h with
  | unrecorded | assertion => exact .nothing rfl
  | recorded now t => exact spends_errorEvents x _ _ _ now t

variable (svc) in
theorem StreamHandled.spends (budget : ℚ) {x : Exchange} {route : ModelRoute} {st : LoopState}
    {emitted : Bool} {e : PyExc} {tr : GatewayTrace} {out : Except PyExc (Pass Unit)}
    (h : StreamHandled x route st emitted e tr out) : svc.Spends budget tr ∧
      ∀ st', out = .ok (.next st') ∨ out = .ok (.broke st') → rows tr = [] := by
  cases emitted with
  | false => exact ⟨.nothing (rows_handled h), fun _ _ => rows_handled h⟩
  | true =>
    have h : Interrupted x route st e tr out := h
    cases h with
    | schemaViolation m now t => exact ⟨spends_errorEvents x route _ _ now t, by simp⟩
    | circuitOpen | unhandled => exact ⟨.nothing rfl, fun _ _ => rfl⟩
    | timeout state now t | provider e state now t =>
      exact ⟨(spends_errorEvents x route _ _ now t).after (rows_failureEvents route state), by simp⟩

theorem priced_kept {x : Exchange} {route : ModelRoute} {response : GatewayResponse} {t : Int}
    {e : GatewayEvent} {q : GatewayRequest} {pre : GatewayTrace} (he : e ∈ pre)
    (hanswers : svc.answers e = true) (hcall : providerCall e.1 = some (q, route))
    (hroute : response.routeId = route.id) (hmiss : response.cacheHit = false)
    (hcost : response.usage.costUsd = actualCost route (usedTokens e).1 (usedTokens e).2)
    (hq : requestCost route q ≤ x.request.maxCostUsd) :
    ∀ m ∈ keptRow x response t, svc.Priced (allowance x.request) pre m := by
  intro m hm
  unfold keptRow at hm
  split_ifs at hm
  · cases hm
  · cases hm
    refine ⟨fun hunpaid => ?_, fun _ _ => ⟨e, he, hanswers, q, route, hcall, hroute.symm, hcost, ?_⟩⟩
    · rcases hunpaid with hunpaid | hunpaid
      · cases hunpaid
      · exact absurd (hunpaid.symm.trans hmiss) (by decide)
    · change response.usage.costUsd ≤ _
      rw [hcost]
      have hle := actualCost_le route q (usedTokens e)
      have hallowance : x.request.maxCostUsd ≤ allowance x.request := le_max_right _ _
      linarith

theorem RelayRun.tokens {x : Exchange} {route : ModelRoute} {es : List ProviderStreamEvent}
    {r r' : Relay} {tr : GatewayTrace} (h : RelayRun x route es r tr r' false) :
    (r'.inputTokens, r'.outputTokens) = es.foldl usageAfter (r.inputTokens, r.outputTokens) := by
  generalize hl : false = left at h
  induction h with
  | nil => rfl
  | start he _ ih => simp [ih hl, usageAfter, he]
  | startLeft | deltaLeft => cases hl
  | delta he _ _ ih => simp [ih hl, usageAfter, he, Relay.delta]
  | usage he _ ih => simp [ih hl, usageAfter, he, Relay.usage]
  | other he _ ih => rcases he with he | he <;> simp [ih hl, usageAfter, he]

structure PassSpends {α : Type} (svc : Service) (budget : ℚ) (tr : GatewayTrace)
    (out : Except PyExc (Pass α)) : Prop where
  spends : svc.Spends budget tr
  goesOn : ∀ st, out = .ok (.next st) ∨ out = .ok (.broke st) → rows tr = []

theorem passSpends_rowless {α : Type} {budget : ℚ} {tr : GatewayTrace}
    {out : Except PyExc (Pass α)} (h : rows tr = []) : svc.PassSpends budget tr out :=
  ⟨.nothing h, fun _ _ => h⟩

theorem result_of_judge {q : GatewayRequest} {a : Except PyExc ProviderResult}
    {v : ProviderResult × Json × Option Bool} (h : svc.judge q a = .ok v) : a = .ok v.1 := by
  cases a with
  | error e => cases h
  | ok result =>
    cases hs : svc.platform.validateSchema q result.text with
    | error e => simp [judge, hs, bind, Except.bind] at h
    | ok parsed =>
      simp only [judge, hs, bind, Except.bind, pure, Except.pure, Except.ok.injEq] at h
      rw [← h]

theorem GeneratePassRun.spends {x : Exchange} {c : RoutingCandidate} {route : ModelRoute}
    (he : requestCost route x.request ≤ x.request.maxCostUsd) {st : LoopState} {tr : GatewayTrace}
    {out : Except PyExc (Pass GatewayResponse)} (h : svc.GeneratePassRun x c route st tr out) :
    svc.PassSpends (allowance x.request) tr out := by
  cases h with
  | deadline | refused => exact passSpends_rowless rfl
  | unconfigured ht hr hh =>
    exact passSpends_rowless (by rw [rows_append, rows_admitted, rows_handled hh]; rfl)
  | failed ht hr hj hh =>
    exact passSpends_rowless (by rw [rows_append, rows_admitted, rows_skip rfl, rows_handled hh]; rfl)
  | @succeeded _ _ _ t state state' a result parsed valid now createdAt createdAt' ht hr ha =>
    obtain rfl : a = .ok result := result_of_judge ha
    refine ⟨?_, by simp⟩
    set q := attemptRequest x.request (remainingSeconds x.started x.request t)
    set response := completeResponse x route c st.fallbackCount result parsed valid now createdAt
    have hjudge : svc.judge q (.ok result) = svc.judge x.request (.ok result) := rfl
    have hanswers : svc.answers (ev (.complete q route) (.ok result)) = true := by
      simp only [answers, callVerdict, hjudge, ha, Except.map]
    rw [List.append_cons]
    refine spends_row ?_ (keptRow x response createdAt') ?_ fun m hm mid => ?_
    · rw [rows_append, rows_admitted]
      rfl
    · rw [rows_append, rows_successEvents, rows_skip rfl, rows_skip rfl, rows_kept]
      rfl
    · exact priced_kept (List.mem_append_left _ (List.mem_append_right _ List.mem_cons_self)) hanswers
        rfl rfl rfl rfl he m hm

theorem StreamPassRun.spends {x : Exchange} {c : RoutingCandidate} {route : ModelRoute}
    (he : requestCost route x.request ≤ x.request.maxCostUsd) {st : LoopState} {tr : GatewayTrace}
    {out : Except PyExc (Pass Unit)} (h : svc.StreamPassRun x c route st tr out) :
    svc.PassSpends (allowance x.request) tr out := by
  cases h with
  | deadline | refused => exact passSpends_rowless rfl
  | unconfigured ht hr hh =>
    exact passSpends_rowless (by rw [rows_append, rows_admitted, rows_handled hh]; rfl)
  | left ht hr hl =>
    exact passSpends_rowless (rows_opened hl ..)
  | @failed _ _ _ t state script tr tr' r e _ ht hr hl hv hh =>
    -- The row of an error costs nothing.
    obtain ⟨hspends, hgoesOn⟩ := hh.spends svc (allowance x.request)
    have hquiet := rows_opened hl t state
      (attemptRequest x.request (remainingSeconds x.started x.request t)) script
    rw [← List.cons_append, ← List.append_assoc]
    refine ⟨hspends.after hquiet, fun st' hst' => ?_⟩
    rw [rows_append, hquiet, hgoesOn st' hst']
    rfl
  | @succeeded _ _ _ t state state' script tr r parsed valid now createdAt createdAt' consumer
      ht hr hl hv =>
    refine ⟨?_, fun st' hst' => by cases consumer <;> simp at hst'⟩
    set q := attemptRequest x.request (remainingSeconds x.started x.request t)
    set response := streamResponse x route c st.fallbackCount r parsed valid now createdAt
    have hused : (r.inputTokens, r.outputTokens) = lastUsage script.events := hl.tokens
    have hcost : response.usage.costUsd =
        actualCost route (lastUsage script.events).1 (lastUsage script.events).2 := by
      rw [← hused]
      rfl
    have hverdict : svc.scriptVerdict q script = svc.scriptVerdict x.request script := rfl
    have hanswers : svc.answers (ev (.openStream q route) script) = true := by
      simp only [answers, callVerdict, hverdict, ← hl.verdict, hv, Except.map]
    -- The one row, behind the answer that it charges for.
    rw [List.append_cons]
    refine spends_row ?_ (keptRow x response createdAt') ?_ fun m hm mid => ?_
    · rw [rows_append, rows_admitted]
      rfl
    · rw [rows_append, rows_relay hl, rows_append, rows_successEvents, rows_skip rfl, rows_skip rfl,
        rows_append, rows_kept]
      exact List.append_nil _
    · exact priced_kept (List.mem_append_left _ (List.mem_append_right _ List.mem_cons_self)) hanswers
        rfl rfl rfl hcost he m hm

/-! ## Whole calls -/

theorem LoopRun.spends {α : Type} {x : Exchange} {R : PassRel α}
    (hR : ∀ c route st tr out, requestCost route x.request ≤ x.request.maxCostUsd →
      R c route st tr out → svc.PassSpends (allowance x.request) tr out)
    {cs : List RoutingCandidate} (hcs : ∀ c ∈ cs, ∀ route, svc.getRoute c.routeId = .ok route →
      requestCost route x.request ≤ x.request.maxCostUsd)
    {st : LoopState} {tr : GatewayTrace} {out : Except PyExc α} (h : svc.LoopRun x R cs st tr out) :
    svc.Spends (allowance x.request) tr := by
  induction h with
  | exhausted h => exact h.spends
  | unknown => exact .nothing rfl
  | raised hr hp | returned hr hp => exact (hR _ _ _ _ _ (hcs _ List.mem_cons_self _ hr) hp).spends
  | broke hr hp h =>
    exact h.spends.after ((hR _ _ _ _ _ (hcs _ List.mem_cons_self _ hr) hp).goesOn _ (.inr rfl))
  | next hr hp h ih =>
    exact (ih fun c hc => hcs c (List.mem_cons_of_mem _ hc)).after
      ((hR _ _ _ _ _ (hcs _ List.mem_cons_self _ hr) hp).goesOn _ (.inl rfl))

theorem ServedRun.spends {budget : ℚ} {x : Exchange} {hit : GatewayResponse} {tr : GatewayTrace}
    {out : Except PyExc GatewayResponse} (h : ServedRun x hit tr out) : svc.Spends budget tr := by
  cases h with
  | served now t t' =>
    refine spends_unpaid (m := x.responseRow (cachedResponse x hit now t) t') ?_ rfl (.inr rfl)
    rw [rows_skip rfl, rows_skip rfl, rows_append, rows_launchEvents, List.append_nil,
      rows_rowEvents]

theorem StreamServedRun.spends {budget : ℚ} {x : Exchange} {hit : GatewayResponse}
    {tr : GatewayTrace} {out : Except PyExc Unit} (h : StreamServedRun x hit tr out) :
    svc.Spends budget tr := by
  cases h with
  | leftAtStart | leftAtDelta => exact .nothing rfl
  | served now t consumer =>
    refine spends_unpaid (m := x.responseRow (streamedHit x hit now) t) ?_ rfl (.inr rfl)
    rw [rows_skip rfl, rows_skip rfl, rows_skip rfl, rows_append, rows_append, rows_launchEvents,
      rows_rowEvents]
    rfl

theorem ApproachRun.affordable {args : Arguments} {tr : GatewayTrace} {x : Exchange}
    {d : RoutingDecision} (h : svc.ApproachRun args tr (.ok (x, .decision d))) :
    ∀ c ∈ orderedCandidates d, ∀ route, svc.getRoute c.routeId = .ok route →
      requestCost route x.request ≤ x.request.maxCostUsd := by
  intro c hc route hr
  cases h with
  | decided hb hxs hd => exact (eligible_of_candidate hxs hd hc hr).1.cost

theorem Resolved.allowance {q q' : GatewayRequest} {tr : GatewayTrace}
    (h : svc.Resolved q tr q') : allowance q' = allowance q := by
  obtain ⟨added, rfl, -⟩ := h.messages
  rfl

theorem CallRun.spends {α : Type} {args : Arguments}
    {served : Exchange → GatewayResponse → GatewayTrace → Except PyExc α → Prop}
    {R : Exchange → PassRel α}
    (hserved : ∀ x hit tr out, served x hit tr out → svc.Spends (allowance args.request) tr)
    (hR : ∀ x c route st tr out, requestCost route x.request ≤ x.request.maxCostUsd →
      R x c route st tr out → svc.PassSpends (allowance x.request) tr out)
    {tr : GatewayTrace} {out : Except PyExc α} (h : svc.CallRun args served R tr out) :
    svc.Spends (allowance args.request) tr := by
  have happroach : ∀ {tr out}, svc.ApproachRun args tr out → rows tr = [] := fun h =>
    rows_eq_nil fun e he => rowOf_of_approaching (h.approaching e he)
  cases h with
  | stopped h => exact .nothing (happroach h)
  | served h hs => exact (hserved _ _ _ _ hs).after (happroach h)
  | looped h hl =>
    obtain ⟨tr₀, -, hb⟩ := h.begun
    rw [← hb.resolved.allowance]
    exact (hl.spends (hR _) h.affordable).after (happroach h)

theorem body_spends {call : Call} {args : Arguments} (h : callArguments call = some args) :
    (svc.body call).Leaves (svc.Spends (allowance args.request)) := by
  have hgenerate : ∀ args, (svc.generate args).Leaves (svc.Spends (allowance args.request)) :=
    fun args => (svc.generate_runs args).mono fun _ _ h =>
      h.spends (fun _ _ _ _ hs => hs.spends) fun _ _ _ _ _ _ he hp => hp.spends he
  cases call with
  | generate q forced | shadow q routeId releaseId =>
    cases h
    exact Prog.leaves_map (hgenerate _) _
  | stream q forced =>
    cases h
    refine Prog.leaves_map ((svc.stream_runs q forced).mono fun _ _ h => ?_) _
    exact h.spends (fun _ _ _ _ hs => hs.spends) fun _ _ _ _ _ _ he hp => hp.spends he
  | _ => cases h

/-! ## The table -/

/-- What a call may spend. Only those of the data plane spend anything. -/
def budgetOf (call : Call) : ℚ := (callArguments call).elim 0 fun args => allowance args.request

theorem budgetOf_nonneg (call : Call) : 0 ≤ budgetOf call := by
  unfold budgetOf
  cases callArguments call with
  | none => exact le_rfl
  | some args => exact le_max_left _ _

section Table

variable {c : State} (h : svc.machine.Reachable initial c) {i : Nat}
  {t : Task Op Ans PyExc Outcome Call} (ht : c.tasks[i]? = some t)

include h ht

theorem spends_of_reachable {args : Arguments} (hargs : callArguments t.call = some args) :
    svc.Spends (allowance args.request) (c.trace i) :=
  Prog.Leaves.steps (fun _ _ => Spends.prefix) (body_spends hargs) (h.onTheWay.2 i t ht)

theorem rowless_of_reachable (hargs : callArguments t.call = none) : rows (c.trace i) = [] := by
  refine Prog.Leaves.steps (fun tr tr' hrows => ?_) (body_rows_nil hargs) (h.onTheWay.2 i t ht)
  rw [rows_append] at hrows
  exact (List.append_eq_nil_iff.mp hrows).1

theorem spends_budgetOf : svc.Spends (budgetOf t.call) (c.trace i) := by
  cases hargs : callArguments t.call with
  | none => exact .nothing (rowless_of_reachable h ht hargs)
  | some args =>
    rw [budgetOf, hargs]
    exact spends_of_reachable h ht hargs

end Table

theorem charged_of_reach {c : State} (h : svc.machine.Reachable initial c) :
    (c.world.database.requestMetrics.map (·.costUsd)).sum = accrued charge (c.log.map (·.2)) := by
  rw [table_of_reach h, accrued_charge, rows, List.filterMap_map]
  rfl

theorem mem_rows_of_table {c : State} (h : svc.machine.Reachable initial c) {m : RequestMetric}
    (hm : m ∈ c.world.database.requestMetrics) :
    ∃ i t, c.tasks[i]? = some t ∧ m ∈ rows (c.trace i) := by
  rw [table_of_reach h] at hm
  obtain ⟨⟨i, e⟩, he, hrow⟩ := List.mem_filterMap.mp hm
  obtain ⟨t, ht⟩ := h.task_of_mem he
  exact ⟨i, t, ht, List.mem_filterMap.mpr ⟨e, Pool.mem_trace.mpr he, hrow⟩⟩

/-- Whatever the order of the moves, a task is charged for one answer of a provider at most, within
what its request allows but for the tokens that the provider has reported beyond the estimate of
the routing. Failures and cached answers are charged nothing. So the costs of the whole table are
within the budgets of the requests as long as the providers keep to it. -/
theorem budgets_kept {c : State} (h : svc.machine.Reachable initial c) :
    (∀ i t, c.tasks[i]? = some t →
      (callArguments t.call = none → rows (c.trace i) = []) ∧
      ∀ args, callArguments t.call = some args →
        svc.Spends (allowance args.request) (c.trace i)) ∧
    (∀ m ∈ c.world.database.requestMetrics,
      m.success = false ∨ m.cacheHit = true → m.costUsd = 0) ∧
    ((∀ e ∈ c.log, svc.answers e.2 = true → Modest e.2) →
      (c.world.database.requestMetrics.map (·.costUsd)).sum ≤
        (c.tasks.map fun t => budgetOf t.call).sum) := by
  refine ⟨fun i t ht => ⟨rowless_of_reachable h ht, fun args => spends_of_reachable h ht⟩,
    fun m hm => ?_, fun hmodest => ?_⟩
  · obtain ⟨i, t, ht, hrow⟩ := mem_rows_of_table h hm
    exact (spends_budgetOf h ht).unpaid m hrow
  · have htask : ∀ i t, c.tasks[i]? = some t →
        accrued charge (c.trace i) ≤ budgetOf t.call := fun i t ht =>
      (spends_budgetOf h ht).charge_le (budgetOf_nonneg _) fun e he =>
        hmodest (i, e) (Pool.mem_trace.mp he)
    rw [charged_of_reach h]
    exact h.accrued_le htask

/-! A call that is rescued by its second route, the same call from the cache, and a stream that
breaks off after its provider has reported a million tokens. -/

def costlyScript : Script :=
  ⟨[⟨.usage, "", some 1000000, some 1000000⟩, ⟨.delta, "hel", none, none⟩], some .timeoutError⟩

def chargedMoves : List (Move Input Call) :=
  repeatedMoves ++ .start (.stream Sample.request none) :: (Sample.goes 2 8 ++
    [.run 2 (.script costlyScript), .run 2 .go, .run 2 (.consumer .resumes)] ++ Sample.goes 2 5)

theorem budgets_kept_charged : ∃ c : State, repeatService.machine.Reachable initial c ∧
    (c.world.database.requestMetrics.map fun m => (m.success, m.cacheHit, m.costUsd)) =
      [(true, false, 3 / 1000000), (true, true, 0), (false, false, 0)] ∧
    (∃ i t, c.tasks[i]? = some t ∧ repeatService.Spends 1 (c.trace i)) ∧
    (∀ m ∈ c.world.database.requestMetrics,
      m.success = false ∨ m.cacheHit = true → m.costUsd = 0) ∧
    (c.world.database.requestMetrics.map (·.costUsd)).sum ≤
      (c.tasks.map fun t => budgetOf t.call).sum := by
  obtain ⟨c, hm, hmodest, hrows⟩ :
      ∃ c ∈ repeatService.machine.moves? initial chargedMoves,
        (∀ e ∈ c.log, repeatService.answers e.2 = true → Modest e.2) ∧
        (c.world.database.requestMetrics.map fun m => (m.success, m.cacheHit, m.costUsd)) =
          [(true, false, 3 / 1000000), (true, true, 0), (false, false, 0)] := by decide +kernel
  have hreach := Machine.reachable_of_moves _ .start hm
  obtain ⟨t, ht, hcall⟩ := Machine.task_of_moves hm
  obtain ⟨htasks, hfree, hsum⟩ := budgets_kept hreach
  have hspends := (htasks 0 t ht).2 { request := cachedRequest } (by rw [hcall]; rfl)
  have hallowance : allowance cachedRequest = 1 := by decide +kernel
  rw [hallowance] at hspends
  exact ⟨c, hreach, hrows, ⟨0, t, ht, hspends⟩, hfree, hsum hmodest⟩

end Service

end AegisGateway
