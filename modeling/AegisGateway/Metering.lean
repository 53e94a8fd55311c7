import AegisGateway.Accounting
import AegisGateway.CachePolicy
import AegisGateway.Telemetry

/-!
# Metering

The rows of the calls are labelled from the catalogue, and a cost is the price of its tokens.
So the exported series are of bounded cardinality and agree with each other.
-/

open Coroutine JsonText

namespace AegisGateway

theorem predictedCost_nonneg (route : ModelRoute) (inputTokens outputTokens : Nat) :
    0 ≤ predictedCost route inputTokens outputTokens := by
  have hinput := mul_nonneg (Nat.cast_nonneg (α := ℚ) inputTokens) route.inputCost_nonneg
  have houtput := mul_nonneg (Nat.cast_nonneg (α := ℚ) outputTokens) route.outputCost_nonneg
  unfold predictedCost
  positivity

namespace Service

variable {svc : Service}

/-! ## Labels -/

def Labelled (svc : Service) (provider routeId : String) : Prop :=
  ∃ route ∈ svc.routes, route.id = routeId ∧ route.provider = provider

def gatewayCodes : List String :=
  ["provider_not_configured", "provider_timeout", "circuit_open", "schema_violation",
    "stream_interrupted"]

/-- The outcomes that a request can have, if the providers use certain codes. -/
def outcomes (codes : List String) : List String :=
  "success" :: (gatewayCodes ++ codes).map fun code => if code = "" then "error" else code

/-- A row with the labels of a route, and the cost of its tokens. -/
structure Booked (svc : Service) (codes : List String) (m : RequestMetric) : Prop where
  cost : ∃ route ∈ svc.routes, route.id = m.routeId ∧ route.provider = m.provider ∧
    m.costUsd = actualCost route m.inputTokens m.outputTokens
  outcome : outcomeLabel m ∈ outcomes codes

theorem Booked.nonneg {codes : List String} {m : RequestMetric} (h : svc.Booked codes m) :
    0 ≤ m.costUsd := by
  obtain ⟨route, -, -, -, hcost⟩ := h.cost
  rw [hcost]
  exact predictedCost_nonneg route _ _

theorem actualCost_zero (route : ModelRoute) : actualCost route 0 0 = 0 := by
  simp [actualCost, predictedCost]

theorem booked_success {codes : List String} {x : Exchange} {route : ModelRoute}
    (hroute : route ∈ svc.routes) {response : GatewayResponse}
    (hid : response.routeId = route.id) (hprovider : response.provider = route.provider)
    (hcost : response.usage.costUsd =
      actualCost route response.usage.inputTokens response.usage.outputTokens) (t : Int) :
    svc.Booked codes (x.responseRow response t) where
  cost := ⟨route, hroute, hid.symm, hprovider.symm, hcost⟩
  outcome := List.mem_cons_self

theorem booked_error {codes : List String} {x : Exchange} {route : ModelRoute}
    (hroute : route ∈ svc.routes) {error : AegisError} (hcode : error.code ∈ gatewayCodes ++ codes)
    (n : Nat) (latencyMs : ℚ) (t : Int) :
    svc.Booked codes (x.errorRow route error n latencyMs t) where
  cost := ⟨route, hroute, rfl, rfl, (actualCost_zero route).symm⟩
  outcome := List.mem_cons_of_mem _ (List.mem_map_of_mem hcode)

/-! ## What the cache holds -/

def PutLabelled (svc : Service) (e : GatewayEvent) : Prop :=
  ∀ q response ns, e.1 = .cachePut q response ns → svc.Labelled response.provider response.routeId

theorem putLabelled_of_reads {e : GatewayEvent} (h : readsCache e.1 = true) :
    svc.PutLabelled e := by
  intro q response ns hput
  rw [hput] at h
  cases h

theorem keepEvents_labelled (x : Exchange) {response : GatewayResponse}
    (h : svc.Labelled response.provider response.routeId) (t : Int) :
    ∀ e ∈ x.keepEvents response t, svc.PutLabelled e := by
  have hlaunch : ∀ e ∈ x.launchEvents, svc.PutLabelled e := fun e he =>
    putLabelled_of_reads
      (readsCache_of_aside (aside_of_settling (settling_of_task (launchEvents_tasks x e he))))
  have hput : ∀ e ∈ x.putEvents response, svc.PutLabelled e := by
    unfold Exchange.putEvents
    split_ifs
    · rw [List.forall_mem_singleton]
      intro q response' ns he
      cases he
      exact h
    · simp
  have hrow : ∀ e ∈ (if x.evaluation then [] else x.rowEvents response t), svc.PutLabelled e := by
    refine fun e he => putLabelled_of_reads ?_
    unfold Exchange.rowEvents at he
    split_ifs at he
    · cases he
    · rcases List.mem_pair.mp he with rfl | rfl <;> rfl
  simp only [Exchange.keepEvents, List.forall_mem_append]
  exact ⟨hrow, hput, hlaunch⟩

theorem putLabelled_of_aside {tr : GatewayTrace} (h : ∀ e ∈ tr, aside e.1 = true) :
    ∀ e ∈ tr, svc.PutLabelled e :=
  fun e he => putLabelled_of_reads (readsCache_of_aside (h e he))

theorem GeneratePassRun.putLabelled {x : Exchange} {c : RoutingCandidate} {route : ModelRoute}
    (hroute : route ∈ svc.routes) {st : LoopState} {tr : GatewayTrace}
    {out : Except PyExc (Pass GatewayResponse)} (h : svc.GeneratePassRun x c route st tr out) :
    ∀ e ∈ tr, svc.PutLabelled e := by
  have hadmitted : ∀ t state, ∀ e ∈ admitted route t state, svc.PutLabelled e := fun t state =>
    putLabelled_of_aside (by simp [admitted, Service.aside])
  cases h with
  | deadline | refused => exact putLabelled_of_aside (by simp [Service.aside])
  | unconfigured ht hr hh =>
    simp only [List.forall_mem_append]
    exact ⟨hadmitted _ _, putLabelled_of_aside fun e he => aside_of_settling (hh.settling e he)⟩
  | failed ht hr he hh =>
    simp only [List.forall_mem_append, List.forall_mem_cons]
    exact ⟨hadmitted _ _, putLabelled_of_reads rfl,
      putLabelled_of_aside fun e he => aside_of_settling (hh.settling e he)⟩
  | succeeded ht hr ha =>
    simp only [List.forall_mem_append, List.forall_mem_cons]
    exact ⟨hadmitted _ _, putLabelled_of_reads rfl,
      putLabelled_of_aside (by simp [successEvents, Service.aside]), putLabelled_of_reads rfl,
      putLabelled_of_reads rfl, keepEvents_labelled x ⟨route, hroute, rfl, rfl⟩ _⟩

theorem StreamPassRun.putLabelled {x : Exchange} {c : RoutingCandidate} {route : ModelRoute}
    (hroute : route ∈ svc.routes) {st : LoopState} {tr : GatewayTrace}
    {out : Except PyExc (Pass Unit)} (h : svc.StreamPassRun x c route st tr out) :
    ∀ e ∈ tr, svc.PutLabelled e := by
  have hadmitted : ∀ t state, ∀ e ∈ admitted route t state, svc.PutLabelled e := fun t state =>
    putLabelled_of_aside (by simp [admitted, Service.aside])
  cases h with
  | deadline | refused => exact putLabelled_of_aside (by simp [Service.aside])
  | unconfigured ht hr hh =>
    simp only [List.forall_mem_append]
    exact ⟨hadmitted _ _, putLabelled_of_aside fun e he => aside_of_settling (hh.settling e he)⟩
  | left ht hr hl =>
    simp only [List.forall_mem_append, List.forall_mem_cons]
    exact ⟨hadmitted _ _, putLabelled_of_reads rfl,
      putLabelled_of_aside fun e he => aside_of_relaying (hl.relaying e he)⟩
  | failed ht hr hl he hh =>
    simp only [List.forall_mem_append, List.forall_mem_cons]
    exact ⟨hadmitted _ _, putLabelled_of_reads rfl,
      putLabelled_of_aside fun e he => aside_of_relaying (hl.relaying e he),
      putLabelled_of_aside fun e he => aside_of_settling (hh.settling e he)⟩
  | succeeded ht hr hl hv =>
    simp only [List.forall_mem_append, List.forall_mem_cons]
    exact ⟨hadmitted _ _, putLabelled_of_reads rfl,
      putLabelled_of_aside fun e he => aside_of_relaying (hl.relaying e he),
      putLabelled_of_aside (by simp [successEvents, Service.aside]), putLabelled_of_reads rfl,
      putLabelled_of_reads rfl, keepEvents_labelled x ⟨route, hroute, rfl, rfl⟩ _,
      putLabelled_of_reads rfl, by simp⟩

theorem CallRun.putLabelled {α : Type} {args : Arguments}
    {served : Exchange → GatewayResponse → GatewayTrace → Except PyExc α → Prop}
    {R : Exchange → PassRel α}
    (hserved : ∀ x hit tr out, served x hit tr out → ∀ e ∈ tr, aside e.1 = true)
    (hR : ∀ x c route, route ∈ svc.routes → ∀ st tr out, R x c route st tr out →
      ∀ e ∈ tr, svc.PutLabelled e)
    {tr : GatewayTrace} {out : Except PyExc α} (h : svc.CallRun args served R tr out) :
    ∀ e ∈ tr, svc.PutLabelled e := by
  have happroach : ∀ {tr out}, svc.ApproachRun args tr out → ∀ e ∈ tr, svc.PutLabelled e :=
    fun h e he => putLabelled_of_reads (readsCache_of_approaching (h.approaching e he))
  cases h with
  | stopped h => exact happroach h
  | served h hs =>
    exact List.forall_mem_append.mpr ⟨happroach h, putLabelled_of_aside (hserved _ _ _ _ hs)⟩
  | @looped _ _ x _ _ h hl =>
    refine List.forall_mem_append.mpr ⟨happroach h, fun e he => ?_⟩
    rcases hl.events (φ := fun route e => route ∈ svc.routes → svc.PutLabelled e)
        (fun _ _ _ => GaveUp.settling)
        (fun c route st tr out hp e he hroute => hR x c route hroute st tr out hp e he) e he with
      hsettling | ⟨c, -, route, hr, hput⟩
    · exact putLabelled_of_reads (readsCache_of_aside (aside_of_settling hsettling))
    · exact hput (getRoute_ok hr).1

theorem body_putLabelled (call : Call) : (svc.body call).Emits svc.PutLabelled :=
  body_leaves (Prog.closed_forall _)
    (fun args _ => (svc.generate_runs args).mono fun _ _ h =>
      h.putLabelled (fun _ _ _ _ => ServedRun.aside) fun _ _ _ hroute _ _ _ =>
        GeneratePassRun.putLabelled hroute)
    (fun q forced _ => (svc.stream_runs q forced).mono fun _ _ h =>
      h.putLabelled (fun _ _ _ _ => StreamServedRun.aside) fun _ _ _ hroute _ _ _ =>
        StreamPassRun.putLabelled hroute)
    fun _ he => List.forall_mem_singleton.mpr
      (putLabelled_of_reads (readsCache_of_controlling (controlling_of_controls he)))

def CacheLabelled (svc : Service) (w : World) : Prop :=
  ∀ s ∈ w.cache.entries, svc.Labelled s.2.response.provider s.2.response.routeId

theorem cacheLabelled_exec {w w' : World} {o : Op} {x : Input} {a : Ans o}
    (hw : svc.CacheLabelled w) (h : svc.exec w o x = some (a, w'))
    (hput : svc.PutLabelled ⟨o, a⟩) : svc.CacheLabelled w' := by
  intro s hs
  rcases exec_cache h hs with hs | ⟨q, response, ns, rfl, -, -, hresponse⟩
  · exact hw s hs
  · rw [hresponse]
    exact hput q response ns rfl

theorem cacheLabelled {c : State} (h : svc.machine.Reachable initial c) :
    svc.CacheLabelled c.world := by
  refine Machine.Reach.world_invariant svc.CacheLabelled svc.PutLabelled (fun s hs => by cases hs)
    body_putLabelled (fun _ _ _ _ _ => cacheLabelled_exec) (fun w x w' hw hd => ?_) h
  obtain ⟨clock, utc, -, rfl⟩ := drift_eq hd
  exact hw

def HitLabelled (svc : Service) (e : GatewayEvent) : Prop :=
  ∀ q ns hit, e = ev (.cacheGet q ns) (some hit) → svc.Labelled hit.provider hit.routeId

theorem hitLabelled {c : State} (h : svc.machine.Reachable initial c) {i : Nat} :
    ∀ e ∈ c.trace i, svc.HitLabelled e := by
  rintro e he q ns hit rfl
  obtain ⟨c₁, x, w', hc₁, hexec⟩ := h.answered he
  have hget : (Entries.get svc.platform svc.cache c₁.world.clock c₁.world.cache q ns).1 =
      some hit := by
    cases x with
    | go => exact (Prod.mk.inj (Option.some.inj hexec)).1
    | _ => cases hexec
  obtain ⟨s, hs, -, -, rfl⟩ := Entries.get_hit hget
  exact cacheLabelled hc₁ s hs

/-! ## Codes of errors -/

/-- The providers use the codes, and the cache holds routes of the catalogue. -/
structure Vouched (svc : Service) (codes : List String) (e : GatewayEvent) : Prop where
  code : ∀ err, providerFailure e = some (.aegis (.provider err)) → err.code ∈ codes
  hit : svc.HitLabelled e

def Coded (codes : List String) (e : PyExc) : Prop :=
  ∀ err, e = .aegis (.provider err) → err.code ∈ gatewayCodes ++ codes

structure Known (svc : Service) (codes : List String) (st : LoopState) : Prop where
  code : ∀ e, st.lastError = some e → e.code ∈ gatewayCodes ++ codes
  route : ∀ route, st.lastErrorRoute = some route → route ∈ svc.routes

section Codes

variable {codes : List String}

theorem gatewayCode {code : String} (h : code ∈ gatewayCodes) : code ∈ gatewayCodes ++ codes :=
  List.mem_append_left _ h

theorem known_failed {route : ModelRoute} (hroute : route ∈ svc.routes) {e : AegisError}
    (he : e.code ∈ gatewayCodes ++ codes) (st : LoopState) :
    svc.Known codes (st.failed route e) where
  code e' h := by
    cases h
    exact he
  route r h := by
    cases h
    exact hroute

theorem known_deadline {route : ModelRoute} (hroute : route ∈ svc.routes) {st : LoopState}
    (hst : svc.Known codes st) : svc.Known codes (st.deadline route) := by
  unfold LoopState.deadline
  split_ifs
  · exact hst
  · exact known_failed hroute (gatewayCode (by simp [gatewayCodes, AegisError.code,
      providerTimeoutError])) st

theorem coded_of_foreign {e : PyExc} (h : (∃ m, e = .aegis (.schemaViolation m)) ∨
    ∀ err, e ≠ .aegis err) : Coded codes e := by
  rintro err rfl
  rcases h with ⟨m, hm⟩ | hne
  · cases hm
  · exact absurd rfl (hne _)

theorem coded_of_judge (hP : Foreign svc.platform) {q q' : GatewayRequest} {route : ModelRoute}
    {a : Except PyExc ProviderResult} {e : PyExc}
    (hv : svc.Vouched codes (ev (.complete q' route) a)) (h : svc.judge q a = .error e) :
    Coded codes e := by
  cases a with
  | error e' =>
    obtain rfl : e' = e := Except.error.inj h
    rintro err rfl
    exact List.mem_append_right _ (hv.code err rfl)
  | ok result =>
    refine coded_of_foreign (@validateSchema_error _ hP q result.text e ?_)
    cases hs : svc.platform.validateSchema q result.text with
    | error e' => simpa [judge, hs, bind, Except.bind] using h
    | ok v => simp [judge, hs, bind, Except.bind, pure, Except.pure] at h

theorem coded_of_streamVerdict (hP : Foreign svc.platform) {q q' : GatewayRequest}
    {route : ModelRoute} {script : Script} {r : Relay} {e : PyExc}
    (hv : svc.Vouched codes (ev (.openStream q' route) script))
    (h : svc.streamVerdict q script r = .error e) : Coded codes e := by
  unfold streamVerdict at h
  split at h
  next e' hend =>
    obtain rfl := Except.error.inj h
    rintro err rfl
    exact List.mem_append_right _ (hv.code err (by simp [providerFailure, hend]))
  next => exact coded_of_foreign (validateSchema_error hP h)

theorem Handled.known {α : Type} {timeout : String} {route : ModelRoute}
    (hroute : route ∈ svc.routes) {st : LoopState} {e : PyExc} (he : Coded codes e)
    {tr : GatewayTrace} {out : Except PyExc (Pass α)} (h : Handled timeout route st e tr out) :
    ∀ st', out = .ok (.next st') ∨ out = .ok (.broke st') → svc.Known codes st' := by
  intro st' hout
  cases h with
  | schemaViolation m | circuitOpen m | timeout =>
    rcases hout with hout | hout <;> cases hout
    exact known_failed hroute (gatewayCode (by simp [gatewayCodes, AegisError.code,
      providerTimeoutError])) st
  | provider err | invalidRequest err =>
    rcases hout with hout | hout <;> cases hout
    exact known_failed hroute (he err rfl) st
  | unhandled => rcases hout with hout | hout <;> cases hout

end Codes

/-! ## What is written -/

def Books (svc : Service) (codes : List String) (tr : GatewayTrace) : Prop :=
  ∀ m ∈ rows tr, svc.Booked codes m

structure PassBooks {α : Type} (svc : Service) (codes : List String) (tr : GatewayTrace)
    (out : Except PyExc (Pass α)) : Prop where
  rows : svc.Books codes tr
  known : ∀ st, out = .ok (.next st) ∨ out = .ok (.broke st) → svc.Known codes st

section Rows

variable {codes : List String} {x : Exchange} {route : ModelRoute}

theorem books_of_quiet {tr : GatewayTrace} (h : rows tr = []) : svc.Books codes tr := by
  intro m hm
  rw [h] at hm
  cases hm

theorem Books.append {tr tr' : GatewayTrace} (h : svc.Books codes tr) (h' : svc.Books codes tr') :
    svc.Books codes (tr ++ tr') := by
  intro m hm
  rw [rows_append] at hm
  rcases List.mem_append.mp hm with hm | hm
  · exact h m hm
  · exact h' m hm

theorem rows_skip {e : GatewayEvent} (h : rowOf e.1 = none) (tr : GatewayTrace) :
    rows (e :: tr) = rows tr := List.filterMap_cons_none h

theorem Books.cons {tr : GatewayTrace} (h : svc.Books codes tr) {e : GatewayEvent}
    (he : rowOf e.1 = none) : svc.Books codes (e :: tr) := by
  intro m hm
  rw [rows_skip he] at hm
  exact h m hm

theorem books_errorEvents (hroute : route ∈ svc.routes) {error : AegisError}
    (hcode : error.code ∈ gatewayCodes ++ codes) (n : Nat) (now : ℚ) (t : Int) :
    svc.Books codes (x.errorEvents route error n now t) := by
  intro m hm
  rw [rows_errorEvents, List.mem_singleton] at hm
  rw [hm]
  exact booked_error hroute hcode n _ t

def keptRow (x : Exchange) (response : GatewayResponse) (t : Int) : Option RequestMetric :=
  if x.evaluation then none else some (x.responseRow response t)

theorem rows_kept (x : Exchange) (response : GatewayResponse) (t : Int) :
    rows (x.keepEvents response t) = (keptRow x response t).toList := by
  cases hx : x.evaluation with
  | false => simp [rows_keepEvents hx, keptRow, hx]
  | true =>
    have hput : rows (x.putEvents response) = [] := by
      unfold Exchange.putEvents
      split_ifs <;> rfl
    rw [Exchange.keepEvents, hx, if_pos rfl, rows_append, rows_append, hput, rows_launchEvents,
      keptRow, hx]
    rfl

theorem books_keepEvents {response : GatewayResponse}
    (h : ∀ t, svc.Booked codes (x.responseRow response t)) (t : Int) :
    svc.Books codes (x.keepEvents response t) := by
  intro m hm
  rw [rows_kept, Option.mem_toList] at hm
  unfold keptRow at hm
  split_ifs at hm
  cases hm
  exact h t

theorem GaveUp.books {α : Type} {st : LoopState} (hst : svc.Known codes st) {tr : GatewayTrace}
    {out : Except PyExc α} (h : GaveUp x st tr out) : svc.Books codes tr := by
  cases h with
  | unrecorded | assertion => exact books_of_quiet rfl
  | recorded now t he hr => exact books_errorEvents (hst.route _ hr) (hst.code _ he) _ now t

theorem Interrupted.books (hroute : route ∈ svc.routes) {st : LoopState} {e : PyExc}
    {tr : GatewayTrace} {out : Except PyExc (Pass Unit)} (h : Interrupted x route st e tr out) :
    svc.PassBooks codes tr out := by
  have hrow : ∀ err : AegisError, err.code ∈ gatewayCodes → ∀ now t,
      svc.Books codes (x.errorEvents route err st.fallbackCount now t) := fun err hcode now t =>
    books_errorEvents hroute (gatewayCode hcode) _ now t
  have hinterrupted : ∀ m provider, (AegisError.provider (streamInterruptedError m provider)).code ∈
      gatewayCodes := fun m provider => by
    simp [gatewayCodes, AegisError.code, streamInterruptedError]
  cases h with
  | schemaViolation m now t =>
    exact ⟨hrow _ (by simp [gatewayCodes, AegisError.code]) now t, by simp⟩
  | circuitOpen m =>
    refine ⟨books_of_quiet rfl, fun st' hout => ?_⟩
    rcases hout with hout | hout <;> cases hout
    exact known_failed hroute (gatewayCode (by simp [gatewayCodes, AegisError.code])) st
  | timeout state now t | provider e state now t =>
    exact ⟨(books_of_quiet (rows_failureEvents ..)).append (hrow _ (hinterrupted _ _) now t),
      by simp⟩
  | unhandled => exact ⟨books_of_quiet rfl, by simp⟩

end Rows

section Attempts

variable {codes : List String} {x : Exchange} {c : RoutingCandidate} {route : ModelRoute}
  {st : LoopState} {tr : GatewayTrace}

theorem Handled.books {α : Type} {timeout : String} (hroute : route ∈ svc.routes) {e : PyExc}
    (he : Coded codes e) {tr' : GatewayTrace} {out : Except PyExc (Pass α)}
    (h : Handled timeout route st e tr' out) (htr : rows tr = []) :
    svc.PassBooks codes (tr ++ tr') out :=
  ⟨(books_of_quiet htr).append (books_of_quiet (rows_handled h)), h.known hroute he⟩

theorem rows_yield (v : GatewayStreamEvent) (consumer : Consumer) :
    rows [ev (.yieldEvent v) consumer] = [] := rfl

theorem coded_notConfigured (provider : String) :
    Coded codes (.aegis (.provider (notConfigured provider))) := by
  intro err h
  rw [← AegisError.provider.inj (PyExc.aegis.inj h)]
  exact gatewayCode List.mem_cons_self

theorem GeneratePassRun.books (hP : Foreign svc.platform) (hroute : route ∈ svc.routes)
    (hst : svc.Known codes st) {out : Except PyExc (Pass GatewayResponse)}
    (h : svc.GeneratePassRun x c route st tr out) (hv : ∀ e ∈ tr, svc.Vouched codes e) :
    svc.PassBooks codes tr out := by
  cases h with
  | deadline ht =>
    refine ⟨books_of_quiet rfl, ?_⟩
    rintro st' (⟨⟨⟩⟩ | ⟨⟨⟩⟩)
    exact known_deadline hroute hst
  | refused ht =>
    refine ⟨books_of_quiet rfl, ?_⟩
    rintro st' (⟨⟨⟩⟩ | ⟨⟨⟩⟩)
    exact known_failed hroute (gatewayCode (by simp [gatewayCodes, AegisError.code])) st
  | unconfigured ht hr hh => exact hh.books hroute (coded_notConfigured _) rfl
  | @failed _ _ _ t state a e tr _ ht hr he hh =>
    have hcoded : Coded codes e :=
      coded_of_judge hP (hv _ (List.mem_append_right _ List.mem_cons_self)) he
    have hsplit : admitted route t state ++ (ev (.complete (attemptRequest x.request
        (remainingSeconds x.started x.request t)) route) a :: tr) =
          (admitted route t state ++ [ev (.complete (attemptRequest x.request
            (remainingSeconds x.started x.request t)) route) a]) ++ tr := by simp
    rw [hsplit]
    exact hh.books hroute hcoded rfl
  | @succeeded _ _ _ t state state' a result parsed valid now createdAt createdAt' ht hr ha =>
    refine ⟨?_, by simp⟩
    have hkept : svc.Books codes (x.keepEvents (completeResponse x route c st.fallbackCount result
        parsed valid now createdAt) createdAt') :=
      books_keepEvents (fun t => booked_success hroute rfl rfl rfl t) _
    exact (books_of_quiet (rows_admitted ..)).append
      (((books_of_quiet (rows_successEvents ..)).append ((hkept.cons rfl).cons rfl)).cons rfl)

theorem StreamPassRun.books (hP : Foreign svc.platform) (hroute : route ∈ svc.routes)
    (hst : svc.Known codes st) {out : Except PyExc (Pass Unit)}
    (h : svc.StreamPassRun x c route st tr out) (hv : ∀ e ∈ tr, svc.Vouched codes e) :
    svc.PassBooks codes tr out := by
  cases h with
  | deadline ht =>
    refine ⟨books_of_quiet rfl, ?_⟩
    rintro st' (⟨⟨⟩⟩ | ⟨⟨⟩⟩)
    exact known_deadline hroute hst
  | refused ht =>
    refine ⟨books_of_quiet rfl, ?_⟩
    rintro st' (⟨⟨⟩⟩ | ⟨⟨⟩⟩)
    exact known_failed hroute (gatewayCode (by simp [gatewayCodes, AegisError.code])) st
  | unconfigured ht hr hh => exact hh.books hroute (coded_notConfigured _) rfl
  | left ht hr hl =>
    exact ⟨books_of_quiet (rows_opened hl ..), by simp⟩
  | @failed _ _ _ t state script tr tr' r e _ ht hr hl he hh =>
    have hcoded : Coded codes e :=
      coded_of_streamVerdict hP (hv _ (List.mem_append_right _ List.mem_cons_self)) he
    have hquiet := rows_opened hl t state
      (attemptRequest x.request (remainingSeconds x.started x.request t)) script
    rw [← List.cons_append, ← List.append_assoc]
    cases hem : r.emitted with
    | true =>
      -- Output is out: the handler writes a row of this route and raises.
      rw [hem] at hh
      have hh : Interrupted x route st e tr' out := hh
      have hbooks : svc.PassBooks codes tr' out := hh.books hroute
      exact ⟨(books_of_quiet hquiet).append hbooks.rows, hbooks.known⟩
    | false =>
      rw [hem] at hh
      exact Handled.books hroute hcoded hh hquiet
  | @succeeded _ _ _ t state state' script tr r parsed valid now createdAt createdAt' consumer
      ht hr hl hv' =>
    refine ⟨?_, by cases consumer <;> simp⟩
    have hkept : svc.Books codes (x.keepEvents (streamResponse x route c st.fallbackCount r parsed
        valid now createdAt) createdAt') :=
      books_keepEvents (fun t => booked_success hroute rfl rfl rfl t) _
    have hdone := hkept.append (books_of_quiet (rows_yield (streamEvent x route .done "" (some
      (streamResponse x route c st.fallbackCount r parsed valid now createdAt))) consumer))
    exact (books_of_quiet (rows_admitted ..)).append (((books_of_quiet (rows_relay hl)).append
      ((books_of_quiet (rows_successEvents ..)).append ((hdone.cons rfl).cons rfl))).cons rfl)

end Attempts

/-! ## Whole calls -/

section Calls

variable {codes : List String}

theorem LoopRun.books {α : Type} {x : Exchange} {R : PassRel α}
    (hR : ∀ c route st tr out, route ∈ svc.routes → svc.Known codes st → R c route st tr out →
      (∀ e ∈ tr, svc.Vouched codes e) → svc.PassBooks codes tr out)
    {cs : List RoutingCandidate} {st : LoopState} {tr : GatewayTrace} {out : Except PyExc α}
    (h : svc.LoopRun x R cs st tr out) (hst : svc.Known codes st)
    (hv : ∀ e ∈ tr, svc.Vouched codes e) : svc.Books codes tr := by
  induction h with
  | exhausted h => exact h.books hst
  | unknown => exact books_of_quiet rfl
  | raised hr hp | returned hr hp => exact (hR _ _ _ _ _ (getRoute_ok hr).1 hst hp hv).rows
  | broke hr hp h =>
    have hv := List.forall_mem_append.mp hv
    have hpass := hR _ _ _ _ _ (getRoute_ok hr).1 hst hp hv.1
    exact hpass.rows.append (h.books (hpass.known _ (.inr rfl)))
  | next hr hp h ih =>
    have hv := List.forall_mem_append.mp hv
    have hpass := hR _ _ _ _ _ (getRoute_ok hr).1 hst hp hv.1
    exact hpass.rows.append (ih (hpass.known _ (.inl rfl)) hv.2)

theorem ApproachRun.labelled {args : Arguments} {tr : GatewayTrace} {x : Exchange}
    {hit : GatewayResponse} (h : svc.ApproachRun args tr (.ok (x, .cache hit)))
    (hv : ∀ e ∈ tr, svc.Vouched codes e) : svc.Labelled hit.provider hit.routeId := by
  cases h with
  | hit => exact (hv _ (List.mem_append_right _ List.mem_cons_self)).hit _ _ _ rfl

theorem booked_hit {x : Exchange} {hit r : GatewayResponse} (h : ServedFrom hit r)
    (hl : svc.Labelled hit.provider hit.routeId) (t : Int) :
    svc.Booked codes (x.responseRow r t) := by
  obtain ⟨route, hroute, hid, hprovider⟩ := hl
  obtain ⟨x', elapsed, createdAt, rfl⟩ := h
  exact ⟨⟨route, hroute, hid, hprovider, (actualCost_zero route).symm⟩, List.mem_cons_self⟩

theorem ServedRun.books {x : Exchange} {hit : GatewayResponse} {tr : GatewayTrace}
    {out : Except PyExc GatewayResponse} (h : ServedRun x hit tr out)
    (hl : svc.Labelled hit.provider hit.routeId) : svc.Books codes tr := by
  cases h with
  | served now t t' =>
    have hrow : svc.Books codes (x.rowEvents (cachedResponse x hit now t) t') := by
      intro m hm
      rw [rows_rowEvents, List.mem_singleton] at hm
      exact hm ▸ booked_hit ⟨x, _, t, rfl⟩ hl t'
    exact ((hrow.append (books_of_quiet (rows_launchEvents x))).cons rfl).cons rfl

theorem StreamServedRun.books {x : Exchange} {hit : GatewayResponse} {tr : GatewayTrace}
    {out : Except PyExc Unit} (h : StreamServedRun x hit tr out)
    (hl : svc.Labelled hit.provider hit.routeId) : svc.Books codes tr := by
  cases h with
  | leftAtStart | leftAtDelta => exact books_of_quiet rfl
  | served now t consumer =>
    have hrow : svc.Books codes (x.rowEvents (streamedHit x hit now) t) := by
      intro m hm
      rw [rows_rowEvents, List.mem_singleton] at hm
      exact hm ▸ booked_hit ⟨x, _, hit.createdAt, rfl⟩ hl t
    have hlaunch : svc.Books codes (x.launchEvents ++ _) :=
      (books_of_quiet (rows_launchEvents x)).append (books_of_quiet (rows_yield
        (cachedEvent x (streamedHit x hit now) .done "" (some (streamedHit x hit now))) consumer))
    exact (((hrow.append hlaunch).cons rfl).cons rfl).cons rfl

theorem CallRun.books {α : Type} {args : Arguments}
    {served : Exchange → GatewayResponse → GatewayTrace → Except PyExc α → Prop}
    {R : Exchange → PassRel α}
    (hserved : ∀ x hit tr out, served x hit tr out → svc.Labelled hit.provider hit.routeId →
      svc.Books codes tr)
    (hR : ∀ x c route st tr out, route ∈ svc.routes → svc.Known codes st → R x c route st tr out →
      (∀ e ∈ tr, svc.Vouched codes e) → svc.PassBooks codes tr out)
    {tr : GatewayTrace} {out : Except PyExc α} (h : svc.CallRun args served R tr out)
    (hv : ∀ e ∈ tr, svc.Vouched codes e) : svc.Books codes tr := by
  have happroach : ∀ {tr out}, svc.ApproachRun args tr out → svc.Books codes tr := fun h =>
    books_of_quiet (rows_eq_nil fun e he => rowOf_of_approaching (h.approaching e he))
  cases h with
  | stopped h => exact happroach h
  | served h hs =>
    have hv := List.forall_mem_append.mp hv
    exact (happroach h).append (hserved _ _ _ _ hs (h.labelled hv.1))
  | looped h hl =>
    have hv := List.forall_mem_append.mp hv
    exact (happroach h).append (hl.books (hR _) ⟨nofun, nofun⟩ hv.2)

theorem closed_books :
    Prog.Closed fun tr => (∀ e ∈ tr, svc.Vouched codes e) → svc.Books codes tr where
  nil := fun _ => books_of_quiet rfl
  append := fun h h' hv =>
    (h (List.forall_mem_append.mp hv).1).append (h' (List.forall_mem_append.mp hv).2)

theorem body_books (hP : Foreign svc.platform) (call : Call) : (svc.body call).Leaves fun tr =>
    (∀ e ∈ tr, svc.Vouched codes e) → svc.Books codes tr :=
  body_leaves closed_books
    (fun args _ => (svc.generate_runs args).mono fun _ _ h =>
      h.books (fun _ _ _ _ => ServedRun.books) fun _ _ _ _ _ _ hroute hst hp hv =>
        hp.books hP hroute hst hv)
    (fun q forced _ => (svc.stream_runs q forced).mono fun _ _ h =>
      h.books (fun _ _ _ _ => StreamServedRun.books) fun _ _ _ _ _ _ hroute hst hp hv =>
        hp.books hP hroute hst hv)
    fun _ he _ => books_of_quiet (rows_eq_nil (List.forall_mem_singleton.mpr
      (rowOf_of_controlling (controlling_of_controls he))))

theorem vouched_exists (o : Op) : ∃ a, svc.Vouched codes ⟨o, a⟩ := by
  cases o with
  | cacheGet q ns => exact ⟨none, nofun, by rintro q' ns' hit ⟨⟩⟩
  | complete q route => exact ⟨.error .timeoutError, nofun, by rintro q' ns' hit ⟨⟩⟩
  | openStream q route => exact ⟨⟨[], none⟩, nofun, by rintro q' ns' hit ⟨⟩⟩
  | _ =>
    refine (ansNonempty _).elim fun a => ⟨a, nofun, ?_⟩
    rintro q' ns' hit ⟨⟩

end Calls

/-! ## The table -/

theorem booked_of_reachable (hP : Foreign svc.platform) {codes : List String} {c : State}
    (h : svc.machine.Reachable initial c) (hcodes : ∀ e ∈ c.log, ∀ err,
      providerFailure e.2 = some (.aegis (.provider err)) → err.code ∈ codes) :
    ∀ m ∈ c.world.database.requestMetrics, svc.Booked codes m := by
  intro m hm
  rw [table_of_reach h] at hm
  obtain ⟨⟨i, e⟩, he, hrow⟩ := List.mem_filterMap.mp hm
  obtain ⟨t, ht⟩ := h.task_of_mem he
  have hvouched : ∀ e ∈ c.trace i, svc.Vouched codes e := fun e he =>
    ⟨hcodes _ (Pool.mem_trace.mp he), hitLabelled h e he⟩
  have hbooks : svc.Books codes (c.trace i) := Prog.Leaves.steps_under vouched_exists
    (fun tr tr' hb m hm => hb m (by simp [hm])) (body_books hP t.call) (h.onTheWay.2 i t ht) hvouched
  exact hbooks m (List.mem_filterMap.mpr ⟨e, Pool.mem_trace.mpr he, hrow⟩)

/-! ## The series -/

def counterChildren (svc : Service) (codes : List String) : List Child :=
  cacheHitsChild :: svc.routes.flatMap fun route =>
    [costChild route.provider route.id, tokensChild route.provider route.id "input",
      tokensChild route.provider route.id "output"] ++
    (outcomes codes).flatMap fun outcome => [false, true].flatMap fun canary =>
      [false, true].map fun shadow => requestsChild route.provider route.id outcome canary shadow

def histogramChildren (svc : Service) : List Child :=
  svc.routes.flatMap fun route =>
    [latencyChild route.provider route.id, ttftChild route.provider route.id]

/-- What the registry exports once it has counted some rows. -/
structure Metered (svc : Service) (codes : List String) (M : Prometheus) (reg : M.Registry)
    (ms : List RequestMetric) : Prop where
  exports : Exports M reg ms
  /-- The cost of a route is the price of its tokens. -/
  priced : ∀ route ∈ svc.routes, (M.counter reg (costChild route.provider route.id)).getD 0 =
    ((M.counter reg (tokensChild route.provider route.id "input")).getD 0 *
        route.inputCostPerMillion +
      (M.counter reg (tokensChild route.provider route.id "output")).getD 0 *
        route.outputCostPerMillion) / 1000000
  counters : ∀ child, M.counter reg child ≠ none → child ∈ svc.counterChildren codes
  histograms : ∀ child, M.histogram reg child ≠ none → child ∈ svc.histogramChildren

theorem increments_children {codes : List String} {m : RequestMetric} (h : svc.Booked codes m) :
    ∀ inc ∈ increments m, inc.1 ∈ svc.counterChildren codes := by
  obtain ⟨route, hroute, hid, hprovider, -⟩ := h.cost
  have hchild : ∀ child, child ∈ [costChild route.provider route.id,
      tokensChild route.provider route.id "input", tokensChild route.provider route.id "output"] ++
        ((outcomes codes).flatMap fun outcome => [false, true].flatMap fun canary =>
          [false, true].map fun shadow =>
            requestsChild route.provider route.id outcome canary shadow) →
      child ∈ svc.counterChildren codes := fun child h =>
    List.mem_cons_of_mem _ (List.mem_flatMap.mpr ⟨route, hroute, h⟩)
  have hrequests : requestsChild route.provider route.id (outcomeLabel m) m.canary m.shadow ∈
      svc.counterChildren codes := by
    refine hchild _ (List.mem_append_right _ (List.mem_flatMap.mpr ⟨_, h.outcome, ?_⟩))
    cases m.canary <;> cases m.shadow <;> simp
  have hhits : cacheHitsChild ∈ svc.counterChildren codes := List.mem_cons_self
  intro inc hinc
  simp only [increments, ← hid, ← hprovider] at hinc
  rcases List.mem_append.mp hinc with hinc | hinc
  · simp only [List.mem_cons, List.not_mem_nil, or_false] at hinc
    rcases hinc with rfl | rfl | rfl | rfl
    · exact hrequests
    · exact hchild _ (by simp)
    · exact hchild _ (by simp)
    · exact hchild _ (by simp)
  · split_ifs at hinc
    · rw [List.mem_singleton.mp hinc]
      exact hhits
    · cases hinc

theorem observations_children {codes : List String} {m : RequestMetric} (h : svc.Booked codes m) :
    ∀ ob ∈ observations m, ob.1 ∈ svc.histogramChildren := by
  obtain ⟨route, hroute, hid, hprovider, -⟩ := h.cost
  intro ob hob
  refine List.mem_flatMap.mpr ⟨route, hroute, ?_⟩
  simp only [observations, ← hid, ← hprovider, List.mem_cons, List.not_mem_nil, or_false] at hob
  rcases hob with rfl | rfl <;> simp

theorem sum_actualCost {route : ModelRoute} {ms : List RequestMetric}
    (h : ∀ m ∈ ms, m.costUsd = actualCost route m.inputTokens m.outputTokens) :
    (ms.map (·.costUsd)).sum =
      ((ms.map fun m => (tokensOf "input" m : ℚ)).sum * route.inputCostPerMillion +
        (ms.map fun m => (tokensOf "output" m : ℚ)).sum * route.outputCostPerMillion) / 1000000 := by
  induction ms with
  | nil => simp
  | cons m ms ih =>
    obtain ⟨hm, hms⟩ := List.forall_mem_cons.mp h
    simp only [List.map_cons, List.sum_cons, ih hms, hm, actualCost, predictedCost, tokensOf,
      if_true, String.reduceEq, if_false]
    ring

theorem priced_of_booked {codes : List String} {M : Prometheus} {reg : M.Registry}
    {ms : List RequestMetric} (h : Exports M reg ms) (hms : ∀ m ∈ ms, svc.Booked codes m)
    {route : ModelRoute} (hroute : route ∈ svc.routes) :
    (M.counter reg (costChild route.provider route.id)).getD 0 =
      ((M.counter reg (tokensChild route.provider route.id "input")).getD 0 *
          route.inputCostPerMillion +
        (M.counter reg (tokensChild route.provider route.id "output")).getD 0 *
          route.outputCostPerMillion) / 1000000 := by
  rw [h.cost, h.tokens _ _ _ (by simp), h.tokens _ _ _ (by simp)]
  apply sum_actualCost
  intro m hm
  obtain ⟨hm, hof⟩ := List.mem_filter.mp hm
  simp only [ofRoute, Bool.and_eq_true, decide_eq_true_eq] at hof
  obtain ⟨route', hroute', hid, -, hcost⟩ := (hms m hm).cost
  -- Two routes of one catalogue have different identifiers.
  obtain rfl : route' = route :=
    List.inj_on_of_nodup_map svc.routes_nodup hroute' hroute (hid.trans hof.2)
  exact hcost

/-- Whatever rows of the table have been counted, and in whatever order the tasks have come to
count them: nothing has been refused, the registry says of the rows what they say themselves, its
costs are the prices of its tokens, and there is no series beyond those of the catalogue. -/
theorem exported_metered {M : Prometheus} (hM : M.Lawful) (hP : Foreign svc.platform)
    {codes : List String} {c : State} (h : svc.machine.Reachable initial c)
    (hcodes : ∀ e ∈ c.log, ∀ err,
      providerFailure e.2 = some (.aegis (.provider err)) → err.code ∈ codes)
    {ms : List RequestMetric} (hms : ms.Subperm c.world.database.requestMetrics) :
    ∃ reg, Telemetry.exported M ms = .ok reg ∧ svc.Metered codes M reg ms := by
  have hbooked : ∀ m ∈ ms, svc.Booked codes m := fun m hm =>
    booked_of_reachable hP h hcodes m (hms.subset hm)
  obtain ⟨reg, hreg, hholds⟩ := (hasCounted_new hM).rows hM fun m hm => (hbooked m hm).nonneg
  simp only [List.nil_append] at hholds
  have hexports := exports_of_counted hholds
  refine ⟨reg, hreg, hexports, fun route hroute => priced_of_booked hexports hbooked hroute,
    fun child hchild => ?_, fun child hchild => ?_⟩
  · rcases hholds.touched hchild with rfl | ⟨inc, hinc, rfl⟩
    · exact List.mem_cons_self
    · obtain ⟨m, hm, hinc⟩ := List.mem_flatMap.mp hinc
      exact increments_children (hbooked m hm) inc hinc
  · obtain ⟨ob, hob, rfl⟩ := hholds.seen hchild
    obtain ⟨m, hm, hob⟩ := List.mem_flatMap.mp hob
    exact observations_children (hbooked m hm) ob hob

def completedMoves : List (Move Input Call) :=
  .start (.generate Sample.request none) :: (Sample.goes 0 7 ++
    [.run 0 (Sample.completion "hello")] ++ Sample.goes 0 6)

theorem exported_metered_completion : ∃ (c : State) (reg : collectors.Registry),
    Sample.service.machine.Reachable initial c ∧
    c.world.database.requestMetrics.map (·.costUsd) = [3 / 1000000] ∧
    Telemetry.exported collectors c.world.database.requestMetrics = .ok reg ∧
    Sample.service.Metered [] collectors reg c.world.database.requestMetrics := by
  obtain ⟨c, hm, hlog, hcosts⟩ : ∃ c ∈ Sample.service.machine.moves? initial completedMoves,
      (∀ e ∈ c.log, providerFailure e.2 = none) ∧
        c.world.database.requestMetrics.map (·.costUsd) = [3 / 1000000] := by decide +kernel
  have hreach := Machine.reachable_of_moves _ .start hm
  obtain ⟨reg, hreg, hmetered⟩ := exported_metered collectors_lawful sample_foreign hreach
    (fun e he err herr => by rw [hlog e he] at herr; cases herr) (List.Subperm.refl _)
  exact ⟨c, reg, hreach, hcosts, hreg, hmetered⟩

end Service

end AegisGateway
