import AegisGateway.Lib.Ranks
import AegisGateway.Routing

/-!
# What the ranking is worth

A route that another one dominates is not chosen, if no weight is negative. The ranking does
not depend on the order of the catalogue, and a further route changes no other but by coming
first.
-/

open Coroutine

namespace AegisGateway

/-! ## Dominance -/

/-- The bounds that pydantic checks on what a route is ranked by. -/
def ModelRoute.rated (route : ModelRoute) : Bool :=
  0 ≤ route.qualityScore && route.qualityScore ≤ 1 && 0 < route.expectedP95LatencyMs

/-- At least as good in every respect, and better in one. -/
structure Dominates (q : GatewayRequest) (a b : ModelRoute) : Prop where
  quality : b.qualityScore ≤ a.qualityScore
  latency : a.expectedP95LatencyMs ≤ b.expectedP95LatencyMs
  cost : 0 < q.maxCostUsd → requestCost a q ≤ requestCost b q
  strict : b.qualityScore < a.qualityScore ∨ a.expectedP95LatencyMs < b.expectedP95LatencyMs ∨
    0 < q.maxCostUsd ∧ requestCost a q < requestCost b q

theorem utility_mono {weights : UtilityWeights} {q : GatewayRequest} {a b : ModelRoute}
    (hquality : 0 ≤ weights.quality) (hlatency : 0 ≤ weights.latency) (hcost : 0 ≤ weights.cost)
    (h : Dominates q a b) : utility weights b q ≤ utility weights a q := by
  have hrank : weights.quality * b.qualityScore ≤ weights.quality * a.qualityScore :=
    mul_le_mul_of_nonneg_left h.quality hquality
  have hratio : min 1 ((a.expectedP95LatencyMs : ℚ) / q.maxLatencyMs) ≤
      min 1 ((b.expectedP95LatencyMs : ℚ) / q.maxLatencyMs) := by
    refine min_le_min_left 1 (div_le_div_of_nonneg_right ?_ (Nat.cast_nonneg _))
    exact Nat.cast_le.mpr h.latency
  have hspeed := mul_le_mul_of_nonneg_left hratio hlatency
  have hprice : (if 0 < q.maxCostUsd then min 1 (requestCost a q / q.maxCostUsd) else 0) ≤
      if 0 < q.maxCostUsd then min 1 (requestCost b q / q.maxCostUsd) else 0 := by
    split_ifs with hbudget
    · exact min_le_min_left 1 (div_le_div_of_nonneg_right (h.cost hbudget) hbudget.le)
    · exact le_rfl
  have hspending := mul_le_mul_of_nonneg_left hprice hcost
  unfold utility
  simp only
  linarith

theorem rankLt.utility {a b : RoutingCandidate} (h : rankLt a b) : b.utility ≤ a.utility :=
  h.elim le_of_lt fun h => h.1.le

namespace Service

/-- No candidate that another one dominates has the higher utility, nor is it selected but as the
preferred one or for an equal utility. -/
def DominatedNeverWins (svc : Service) : Prop :=
  ∀ (q : GatewayRequest) (opts : RoutingOptions) (tr : GatewayTrace) (d : RoutingDecision),
    q.fieldsValid = true → Prog.Run (svc.decide q opts) tr (.ok d) →
    ∀ a ∈ svc.routes, ∀ b ∈ svc.routes, a.rated = true → b.rated = true →
      a.id ∈ d.candidates.map (·.routeId) → b.id ∈ d.candidates.map (·.routeId) →
      Dominates q a b → utility svc.weights b q ≤ utility svc.weights a q ∧
        (d.selectedRouteId = b.id → opts.preferredRouteId = some b.id ∨
          utility svc.weights a q = utility svc.weights b q)

variable {svc : Service} {q : GatewayRequest} {opts : RoutingOptions}

theorem decided_of_run {tr : GatewayTrace} {d : RoutingDecision}
    (h : Prog.Run (svc.decide q opts) tr (.ok d)) : ∃ admits, Decided svc q opts admits d := by
  obtain ⟨xs, hxs, -, hd⟩ := (svc.decide_runs q opts).run h
  refine ⟨fun route => (route, true) ∈ xs, decided_of_conclude hxs (fun a ha => ?_) hd.symm⟩
  constructor
  · rintro htrue
    obtain ⟨route, available⟩ := a
    obtain rfl : available = true := htrue
    exact ha
  · intro hmem
    have hnd : (xs.map Prod.fst).Nodup := hxs ▸ List.Nodup.of_map _ svc.routes_nodup
    exact (Prod.ext_iff.mp (List.inj_on_of_nodup_map hnd hmem ha rfl)).2.symm

theorem candidate_utility {admits : ModelRoute → Prop} {d : RoutingDecision}
    (hd : Decided svc q opts admits d) {route : ModelRoute} (hr : route ∈ svc.routes)
    (hmem : route.id ∈ d.candidates.map (·.routeId)) :
    ∃ c ∈ d.candidates, c.routeId = route.id ∧ c.utility = utility svc.weights route q := by
  obtain ⟨c, hc, hid⟩ := List.mem_map.mp hmem
  obtain ⟨route', hr', heq⟩ := hd.weighed c hc
  have hsame : route'.id = route.id := by
    rw [← hid, ← heq]
    rfl
  obtain rfl := List.inj_on_of_nodup_map svc.routes_nodup hr' hr hsame
  refine ⟨c, hc, hid, ?_⟩
  rw [← heq]
  rfl

theorem selected_utility {admits : ModelRoute → Prop} {d : RoutingDecision}
    (hd : Decided svc q opts admits d) {b : ModelRoute} (hb : b ∈ svc.routes)
    (hmem : b.id ∈ d.candidates.map (·.routeId)) (hselected : d.selectedRouteId = b.id) :
    opts.preferredRouteId = some b.id ∨
      ∀ c ∈ d.candidates, c.utility ≤ utility svc.weights b q := by
  by_cases hpreferred : ∃ id, opts.preferredRouteId = some id ∧
      id ∈ d.candidates.map (·.routeId)
  · obtain ⟨id, hid, hin⟩ := hpreferred
    rw [hd.preferred id hid hin] at hselected
    exact .inl (hselected ▸ hid)
  · refine .inr fun c hc => ?_
    have hhead := hd.first fun id hid hin => hpreferred ⟨id, hid, hin⟩
    obtain ⟨c', hc', hid', hutility⟩ := candidate_utility hd hb hmem
    have hordered := hd.ordered
    have hnd := (hd.once.nodup_iff.mpr svc.routes_nodup).of_append_left
    cases hcands : d.candidates with
    | nil => simp [hcands] at hc
    | cons best rest =>
      rw [hcands] at hhead hc hc' hordered hnd
      have hbest : best.routeId = b.id := by
        rw [← hselected]
        simpa using hhead
      obtain rfl := List.inj_on_of_nodup_map hnd hc' List.mem_cons_self (hid'.trans hbest.symm)
      rw [← hutility]
      rcases List.mem_cons.mp hc with rfl | hc
      · exact le_rfl
      · exact (List.rel_of_pairwise_cons hordered hc).utility

theorem dominatedNeverWins_of_nonneg (hquality : 0 ≤ svc.weights.quality)
    (hlatency : 0 ≤ svc.weights.latency) (hcost : 0 ≤ svc.weights.cost) :
    svc.DominatedNeverWins := by
  intro q opts tr d _ hrun a ha b hb _ _ hina hinb hdom
  obtain ⟨admits, hd⟩ := decided_of_run hrun
  have hmono := utility_mono hquality hlatency hcost hdom
  refine ⟨hmono, fun hselected => ?_⟩
  rcases selected_utility hd hb hinb hselected with hpreferred | hall
  · exact .inl hpreferred
  · obtain ⟨c, hc, -, hutility⟩ := candidate_utility hd ha hina
    exact .inr (le_antisymm (hutility ▸ hall c hc) hmono)

def frozen : Surroundings where
  conduct _ _ := ⟨.error .jsonDecodeError, ⟨[], none⟩⟩
  pause _ := 0

/-! Each weight is put to the test by two routes that differ in one respect. -/

def latencyRatio (route : ModelRoute) (q : GatewayRequest) : ℚ :=
  min 1 ((route.expectedP95LatencyMs : ℚ) / q.maxLatencyMs)

def costRatio (route : ModelRoute) (q : GatewayRequest) : ℚ :=
  if 0 < q.maxCostUsd then min 1 (requestCost route q / q.maxCostUsd) else 0

theorem utility_eq (weights : UtilityWeights) (route : ModelRoute) (q : GatewayRequest) :
    utility weights route q = weights.quality * route.qualityScore -
      weights.latency * latencyRatio route q - weights.cost * costRatio route q := rfl

def rival (quality : ℚ) (latency cost : Nat) : ModelRoute :=
  { Sample.route with
    id := "secondary"
    qualityScore := quality
    expectedP95LatencyMs := latency
    inputCostPerMillion := cost
    inputCost_nonneg := Nat.cast_nonneg cost }

def contest (weights : UtilityWeights) (quality : ℚ) (latency cost : Nat) : Service :=
  { Sample.service with
    weights
    routes := [Sample.route, rival quality latency cost]
    routes_nodup := by simp [Sample.route, rival] }

theorem contest_run {weights : UtilityWeights} {quality : ℚ} {latency cost : Nat}
    (h : rejectReasons Sample.request {} (rival quality latency cost) true = []) :
    ∃ tr d, Prog.Run ((contest weights quality latency cost).decide Sample.request {}) tr (.ok d) ∧
      "primary" ∈ d.candidates.map (·.routeId) ∧ "secondary" ∈ d.candidates.map (·.routeId) := by
  have hfirst : rejectReasons Sample.request {} Sample.route true = [] := by decide +kernel
  have hadmissible : ∀ times, ∀ route ∈ (contest weights quality latency cost).routes,
      Admissible Sample.request {}
        ((contest weights quality latency cost).admitsAt {} times route) route := by
    intro times route hr
    have hreasons : rejectReasons Sample.request {} route true = [] := by
      rcases List.mem_cons.mp hr with rfl | hr
      · exact hfirst
      · rwa [List.mem_singleton.mp hr]
    obtain ⟨heligible, hexcluded, -⟩ := rejectReasons_eq_nil.mp hreasons
    exact ⟨heligible, hexcluded, .inl rfl⟩
  obtain ⟨times, -, -, hdecides⟩ := @decide_specified
    (contest weights quality latency cost) frozen Sample.request {} {}
  obtain ⟨d, hd, hdecided⟩ := hdecides ⟨_, List.mem_cons_self, hadmissible times _ List.mem_cons_self⟩
  refine ⟨_, d, hd ▸ Prog.execute_run _ _ _, ?_, ?_⟩
  · exact (hdecided.candidate_iff _ List.mem_cons_self).mpr (hadmissible _ _ List.mem_cons_self)
  · have hmem : rival quality latency cost ∈ (contest weights quality latency cost).routes :=
      List.mem_cons_of_mem _ List.mem_cons_self
    exact (hdecided.candidate_iff _ hmem).mpr (hadmissible _ _ hmem)

/-- Of two candidates that differ, the dominating one has at least the utility. -/
theorem contest_utility {weights : UtilityWeights} {quality : ℚ} {latency cost : Nat}
    (hnever : (contest weights quality latency cost).DominatedNeverWins)
    (h : rejectReasons Sample.request {} (rival quality latency cost) true = [])
    (hrated : (rival quality latency cost).rated = true)
    (hdom : Dominates Sample.request Sample.route (rival quality latency cost)) :
    utility weights (rival quality latency cost) Sample.request ≤
      utility weights Sample.route Sample.request := by
  obtain ⟨tr, d, hrun, hfirst, hsecond⟩ := @contest_run weights quality latency cost h
  have hroute : Sample.route.rated = true := by decide +kernel
  exact (hnever Sample.request {} tr d (by decide +kernel) hrun _ List.mem_cons_self _
    (List.mem_cons_of_mem _ List.mem_cons_self) hroute hrated hfirst hsecond hdom).1

/-- Dominated routes never win exactly if no weight is negative. -/
theorem dominated_never_win (weights : UtilityWeights) :
    (∀ svc : Service, svc.weights = weights → svc.DominatedNeverWins) ↔
      0 ≤ weights.quality ∧ 0 ≤ weights.latency ∧ 0 ≤ weights.cost := by
  constructor
  · intro hnever
    have htest : ∀ quality latency cost, _ := fun quality latency cost =>
      @contest_utility weights quality latency cost (hnever _ rfl)
    simp only [utility_eq] at htest
    -- One pair of routes for each weight. The rival is the worse one in this respect alone.
    refine ⟨?_, ?_, ?_⟩
    · have h := htest (1 / 2) 100 1 (by decide +kernel) (by decide +kernel)
        ⟨by decide +kernel, by decide +kernel, by decide +kernel, by decide +kernel⟩
      have hlatency : latencyRatio (rival (1 / 2) 100 1) Sample.request =
        latencyRatio Sample.route Sample.request := rfl
      have hcost : costRatio (rival (1 / 2) 100 1) Sample.request =
        costRatio Sample.route Sample.request := by decide +kernel
      have hquality : (rival (1 / 2) 100 1).qualityScore = 1 / 2 := rfl
      have hquality' : Sample.route.qualityScore = 4 / 5 := rfl
      rw [hlatency, hcost, hquality, hquality'] at h
      linarith
    · have h := htest (4 / 5) 200 1 (by decide +kernel) (by decide +kernel)
        ⟨by decide +kernel, by decide +kernel, by decide +kernel, by decide +kernel⟩
      have hlatency : latencyRatio (rival (4 / 5) 200 1) Sample.request = 1 / 50 := by
        decide +kernel
      have hlatency' : latencyRatio Sample.route Sample.request = 1 / 100 := by decide +kernel
      have hcost : costRatio (rival (4 / 5) 200 1) Sample.request =
        costRatio Sample.route Sample.request := by decide +kernel
      have hquality : (rival (4 / 5) 200 1).qualityScore = Sample.route.qualityScore := rfl
      rw [hlatency, hlatency', hcost, hquality] at h
      linarith
    · have h := htest (4 / 5) 100 2 (by decide +kernel) (by decide +kernel)
        ⟨by decide +kernel, by decide +kernel, by decide +kernel, by decide +kernel⟩
      have hlatency : latencyRatio (rival (4 / 5) 100 2) Sample.request =
        latencyRatio Sample.route Sample.request := rfl
      have hcost : costRatio Sample.route Sample.request <
        costRatio (rival (4 / 5) 100 2) Sample.request := by decide +kernel
      have hquality : (rival (4 / 5) 100 2).qualityScore = Sample.route.qualityScore := rfl
      rw [hlatency, hquality] at h
      by_contra hneg
      have hreward := mul_lt_mul_of_neg_left hcost (not_le.mp hneg)
      linarith
  · rintro ⟨hquality, hlatency, hcost⟩ svc rfl
    exact dominatedNeverWins_of_nonneg hquality hlatency hcost

def perverse : UtilityWeights where
  quality := 2
  latency := -1
  cost := 0

theorem dominated_wins : Sample.request.fieldsValid = true ∧
    Dominates Sample.request Sample.route (rival (4 / 5) 200 1) ∧
    ((contest perverse (4 / 5) 200 1).runs frozen
      ((contest perverse (4 / 5) 200 1).decide Sample.request {}) {}).outcome.toOption.map
        (fun d => (d.selectedRouteId, d.candidates.map (·.routeId))) =
      some ("secondary", ["secondary", "primary"]) ∧
    utility perverse Sample.route Sample.request <
      utility perverse (rival (4 / 5) 200 1) Sample.request := by
  refine ⟨by decide +kernel, ⟨?_, ?_, ?_, ?_⟩, ?_, ?_⟩
  all_goals decide +kernel

/-! ## The order of the catalogue -/

def withRoutes (svc : Service) (routes : List ModelRoute) (h : (routes.map (·.id)).Nodup) :
    Service :=
  { svc with routes, routes_nodup := h }

/-- What the router decides from these circuits, at one time. -/
def decidesAt (svc : Service) (q : GatewayRequest) (opts : RoutingOptions) (w : World) :
    Except PyExc RoutingDecision :=
  (svc.runs frozen (svc.decide q opts) w).outcome

def questioned (svc : Service) (w : World) (routes : List ModelRoute) : List (ModelRoute × Bool) :=
  routes.map fun route =>
    (route, ((w.circuits.get route.id).advance svc.circuits w.clock).available)

theorem serve_frozen (w : World) (id : String) :
    ∃ w', svc.serve frozen w (.isAvailable id) =
        (((w.circuits.get id).advance svc.circuits w.clock).available, w') ∧
      w'.clock = w.clock ∧ ∀ id', id' ≠ id → w'.circuits.get id' = w.circuits.get id' := by
  have hstill : w.after (span frozen (.isAvailable id)) = w := World.after_zero w
  refine ⟨{ w with circuits := (w.circuits.isAvailable svc.circuits w.clock id).2 }, ?_, rfl,
    fun _ hne => Circuits.get_insert_ne hne⟩
  unfold serve
  simp only [hstill]
  rfl

theorem runs_screen_frozen (routes : List ModelRoute) (hnd : (routes.map (·.id)).Nodup)
    (w : World) : ∃ w', svc.runs frozen (svc.screen q opts routes) w =
      ⟨w', asked (svc.questioned w routes), .ok (svc.passed q opts (svc.questioned w routes),
        turnedDown q opts (svc.questioned w routes))⟩ := by
  induction routes generalizing w with
  | nil => exact ⟨w, rfl⟩
  | cons route routes ih =>
    obtain ⟨hfresh, hnd⟩ := List.nodup_cons.mp hnd
    obtain ⟨w₁, hserve, hclock, hothers⟩ := @serve_frozen svc w route.id
    obtain ⟨w', hrun⟩ := ih hnd w₁
    have hsame : svc.questioned w₁ routes = svc.questioned w routes := by
      apply List.map_congr_left
      intro route' hr'
      have hne : route'.id ≠ route.id := fun heq =>
        hfresh (List.mem_map.mpr ⟨route', hr', heq⟩)
      rw [hclock, hothers _ hne]
    rw [hsame] at hrun
    refine ⟨w', ?_⟩
    simp only [runs] at hrun ⊢
    simp only [screen, Prog.execute_bind, Prog.execute_perform, Ran.andThen_ok, hserve, hrun]
    split_ifs with h
    all_goals simp [passed, turnedDown, h, asked, questioned, Ran.after, ev]

theorem decidesAt_eq (q : GatewayRequest) (opts : RoutingOptions) (w : World) :
    svc.decidesAt q opts w = svc.conclude q opts (svc.passed q opts (svc.questioned w svc.routes))
      (turnedDown q opts (svc.questioned w svc.routes)) := by
  obtain ⟨w', hrun⟩ := @runs_screen_frozen svc q opts svc.routes svc.routes_nodup w
  simp only [decidesAt, runs] at hrun ⊢
  rw [decide, Prog.execute_bind, hrun, Ran.andThen_ok, Prog.execute_ofExcept, Ran.after_outcome]

/-! ## The ranking of the candidates -/

theorem rankLe_antisymm {cs : List RoutingCandidate} (hnd : (cs.map (·.routeId)).Nodup) :
    ∀ a ∈ cs, ∀ b ∈ cs, rankLe a b → rankLe b a → a = b := by
  intro a ha b hb hab hba
  apply List.inj_on_of_nodup_map hnd ha hb
  have hcost : a.predictedCostUsd = b.predictedCostUsd := by
    rcases hab with hab | ⟨hu, hab | ⟨hc, -⟩⟩
    · exact absurd hba.utility (not_le.mpr hab)
    · rcases hba with hba | ⟨-, hba | ⟨hc, -⟩⟩
      · exact absurd hu hba.ne'
      · exact absurd hab hba.asymm
      · exact hc.symm
    · exact hc
  rcases hab with hab | ⟨hu, hab | ⟨-, hab⟩⟩
  · exact absurd hba.utility (not_le.mpr hab)
  · exact absurd hcost hab.ne
  · rcases hba with hba | ⟨-, hba | ⟨-, hba⟩⟩
    · exact absurd hu hba.ne'
    · exact absurd hcost.symm hba.ne
    · exact String.le_antisymm hab hba

def unregretted (c : RoutingCandidate) : RoutingCandidate := { c with routingRegret := 0 }

def candidatesOf (out : Except PyExc RoutingDecision) : List RoutingCandidate :=
  match out with
  | .ok d => d.candidates
  | .error _ => []

/-- The same candidates in the same order, and the same of them selected. -/
structure SameRanking (out out' : Except PyExc RoutingDecision) : Prop where
  decides : ∀ d, out = .ok d → ∃ d', out' = .ok d' ∧ d'.candidates = d.candidates ∧
    d'.selectedRouteId = d.selectedRouteId
  refuses : ∀ e, out = .error e → ∃ e', out' = .error e'

/-- What a further route changes: it comes in between, it may be selected, and it raises the
regrets of the others if it comes first. -/
structure Extended (id : String) (out out' : Except PyExc RoutingDecision) : Prop where
  order : ((candidatesOf out').filter (·.routeId ≠ id)).map unregretted =
    (candidatesOf out).map unregretted
  decides : ∀ d, out = .ok d → ∃ d', out' = .ok d'
  selects : ∀ d d', out = .ok d → out' = .ok d' →
    d'.selectedRouteId = d.selectedRouteId ∨ d'.selectedRouteId = id
  regrets : ∀ d d', out = .ok d → out' = .ok d' →
    (d'.candidates.head?.map (·.routeId)) ≠ some id →
      d'.candidates.filter (·.routeId ≠ id) = d.candidates

variable {rejected rejected' : List RejectedRoute} {cs cs' : List RoutingCandidate}

theorem conclude_perm (h : cs.Perm cs') (hnd : (cs.map (·.routeId)).Nodup) :
    SameRanking (svc.conclude q opts cs rejected) (svc.conclude q opts cs' rejected') := by
  have hsort := Ranks.insertionSort_perm h (rankLe_antisymm hnd)
  constructor
  · intro d hd
    unfold conclude at hd ⊢
    rw [← hsort]
    split at hd
    next => cases hd
    next best rest heq =>
      cases hd
      exact ⟨_, rfl, rfl, rfl⟩
  · intro e he
    unfold conclude at he ⊢
    rw [← hsort]
    split at he
    next => exact ⟨_, rfl⟩
    next => cases he

def regretted : List RoutingCandidate → List RoutingCandidate
  | [] => []
  | best :: rest => (best :: rest).map fun c =>
      { c with routingRegret := max 0 (best.utility - c.utility) }

theorem candidatesOf_conclude :
    candidatesOf (svc.conclude q opts cs rejected) = regretted (cs.insertionSort rankLe) := by
  unfold conclude
  split
  next heq =>
    rw [heq]
    rfl
  next heq =>
    rw [heq]
    rfl

theorem regretted_filter {id : String} (sorted : List RoutingCandidate) :
    ((regretted sorted).filter (·.routeId ≠ id)).map unregretted =
      (sorted.filter (·.routeId ≠ id)).map unregretted := by
  cases sorted with
  | nil => rfl
  | cons best rest =>
    rw [regretted, List.filter_map, List.map_map]
    rfl

theorem unregretted_regretted (sorted : List RoutingCandidate) :
    (regretted sorted).map unregretted = sorted.map unregretted := by
  cases sorted with
  | nil => rfl
  | cons best rest =>
    rw [regretted, List.map_map]
    rfl

theorem regretted_ids (sorted : List RoutingCandidate) :
    (regretted sorted).map (·.routeId) = sorted.map (·.routeId) := by
  cases sorted with
  | nil => rfl
  | cons best rest =>
    rw [regretted, List.map_map]
    rfl

theorem candidates_eq {d : RoutingDecision} (hd : svc.conclude q opts cs rejected = .ok d) :
    d.candidates = regretted (cs.insertionSort rankLe) := by
  rw [← @candidatesOf_conclude svc q opts rejected cs, hd]
  rfl

section Extended

variable {id : String} (hfilter : (cs'.insertionSort rankLe).filter (·.routeId ≠ id) =
  cs.insertionSort rankLe)

include hfilter

theorem first_of_filter {best : RoutingCandidate} {rest : List RoutingCandidate}
    (hsort : cs'.insertionSort rankLe = best :: rest) (hne : best.routeId ≠ id) :
    cs.insertionSort rankLe = best :: rest.filter (·.routeId ≠ id) := by
  rw [← hfilter, hsort, List.filter_cons_of_pos (by simpa using hne)]

theorem extended_of_filter :
    Extended id (svc.conclude q opts cs rejected) (svc.conclude q opts cs' rejected') := by
  have hids : ∀ id', id' ≠ id → (id' ∈ (cs'.insertionSort rankLe).map (·.routeId) ↔
      id' ∈ (cs.insertionSort rankLe).map (·.routeId)) := by
    intro id' hne
    rw [← hfilter]
    simp only [List.mem_map, List.mem_filter, decide_eq_true_eq]
    constructor
    · rintro ⟨c, hc, rfl⟩
      exact ⟨c, ⟨hc, hne⟩, rfl⟩
    · rintro ⟨c, ⟨hc, -⟩, rfl⟩
      exact ⟨c, hc, rfl⟩
  constructor
  · rw [candidatesOf_conclude, candidatesOf_conclude, regretted_filter, hfilter,
      unregretted_regretted]
  · intro d hd
    apply conclude_total rejected'
    intro hnil
    obtain ⟨best, rest, hsort, -⟩ := conclude_ok hd
    rw [hnil] at hfilter
    rw [← hfilter] at hsort
    cases hsort
  · intro d d' hd hd'
    obtain ⟨hpreferred, hfirst⟩ := conclude_selected hd
    obtain ⟨hpreferred', hfirst'⟩ := conclude_selected hd'
    rw [candidates_eq hd, regretted_ids] at hpreferred hfirst
    rw [candidates_eq hd', regretted_ids] at hpreferred' hfirst'
    by_cases hex : ∃ id', opts.preferredRouteId = some id' ∧
        id' ∈ (cs'.insertionSort rankLe).map (·.routeId)
    · obtain ⟨id', hpref, hmem⟩ := hex
      rw [hpreferred' id' hpref hmem]
      -- What is preferred may be the new route.
      by_cases hne : id' = id
      · exact .inr hne
      · exact .inl (hpreferred id' hpref ((hids id' hne).mp hmem)).symm
    · have hnone' : ∀ id', opts.preferredRouteId = some id' →
          id' ∉ (cs'.insertionSort rankLe).map (·.routeId) := fun id' hpref hmem =>
        hex ⟨id', hpref, hmem⟩
      have hnone : ∀ id', opts.preferredRouteId = some id' →
          id' ∉ (cs.insertionSort rankLe).map (·.routeId) := by
        intro id' hpref hmem
        apply hnone' id' hpref
        rw [← hfilter] at hmem
        exact (List.filter_sublist.map _).subset hmem
      have hhead := hfirst hnone
      have hhead' := hfirst' hnone'
      obtain ⟨best, rest, hsort, -⟩ := conclude_ok hd'
      rw [hsort, List.map_cons, List.head?_cons] at hhead'
      -- What comes first may be the new route.
      by_cases hne : best.routeId = id
      · exact .inr ((Option.some.inj hhead').symm.trans hne)
      · rw [first_of_filter hfilter hsort hne, List.map_cons, List.head?_cons] at hhead
        exact .inl ((Option.some.inj hhead').symm.trans (Option.some.inj hhead))
  · intro d d' hd hd' hhead
    rw [candidates_eq hd'] at hhead ⊢
    rw [candidates_eq hd]
    obtain ⟨best, rest, hsort, -⟩ := conclude_ok hd'
    rw [hsort] at hhead ⊢
    have hne : best.routeId ≠ id := fun heq => hhead (by simp [regretted, heq])
    rw [first_of_filter hfilter hsort hne, regretted, regretted, List.filter_map]
    rw [← List.filter_cons_of_pos (p := fun c : RoutingCandidate => c.routeId ≠ id)
      (by simpa using hne)]
    rfl

end Extended

theorem passed_perm {xs xs' : List (ModelRoute × Bool)} (h : xs.Perm xs') :
    (svc.passed q opts xs).Perm (svc.passed q opts xs') := h.filterMap _

theorem passed_nodup {xs : List (ModelRoute × Bool)} (h : ((xs.map Prod.fst).map (·.id)).Nodup) :
    ((svc.passed q opts xs).map (·.routeId)).Nodup := by
  have hall : ((svc.passed q opts xs).map (·.routeId) ++
      (turnedDown q opts xs).map (·.routeId)).Nodup := screened_perm.nodup_iff.mpr h
  exact hall.of_append_left

theorem questioned_fst (w : World) (routes : List ModelRoute) :
    (svc.questioned w routes).map Prod.fst = routes := by
  rw [questioned, List.map_map]
  exact List.map_id _

/-- Without the new candidate, if it is one, the others are ranked as before. -/
theorem passed_cons_filter {w : World} {route : ModelRoute} {routes : List ModelRoute}
    (hnd : ((route :: routes).map (·.id)).Nodup) :
    ((svc.passed q opts (svc.questioned w (route :: routes))).insertionSort rankLe).filter
        (·.routeId ≠ route.id) =
      (svc.passed q opts (svc.questioned w routes)).insertionSort rankLe := by
  have hfresh := (List.nodup_cons.mp hnd).1
  have hold : ((svc.passed q opts (svc.questioned w routes)).insertionSort rankLe).filter
      (·.routeId ≠ route.id) = (svc.passed q opts (svc.questioned w routes)).insertionSort rankLe := by
    rw [List.filter_eq_self]
    intro c hc
    obtain ⟨a, ha, -, rfl⟩ := mem_passed.mp ((List.perm_insertionSort rankLe _).subset hc)
    obtain ⟨route', hr', rfl⟩ := List.mem_map.mp ha
    exact decide_eq_true fun heq => hfresh (List.mem_map.mpr ⟨route', hr', heq⟩)
  rw [questioned, List.map_cons, passed, List.filterMap_cons]
  split
  next => exact hold
  next c hc =>
    have hid : c.routeId = route.id := by
      split_ifs at hc
      cases hc
      rfl
    have hinsert := @Ranks.filter_orderedInsert _ rankLe _ (fun c' => c'.routeId ≠ route.id) c
      (by simp [hid]) ((svc.passed q opts (svc.questioned w routes)).insertionSort rankLe)
    exact hinsert.trans hold

/-- A decision does not depend on the order of the catalogue; and a further route leaves the
others in their order and may be selected itself, but changes no regret unless it comes first. -/
theorem ranking_stable (svc : Service) (q : GatewayRequest) (opts : RoutingOptions) (w : World) :
    (∀ routes hnd, routes.Perm svc.routes →
      SameRanking (svc.decidesAt q opts w) ((svc.withRoutes routes hnd).decidesAt q opts w)) ∧
    ∀ route routes hnd, routes.Perm (route :: svc.routes) →
      Extended route.id (svc.decidesAt q opts w)
        ((svc.withRoutes routes hnd).decidesAt q opts w) := by
  have hpassed : ∀ routes hnd, (svc.withRoutes routes hnd).decidesAt q opts w =
      svc.conclude q opts (svc.passed q opts (svc.questioned w routes))
        (turnedDown q opts (svc.questioned w routes)) := fun routes hnd =>
    decidesAt_eq q opts w
  have hnodup : ∀ routes : List ModelRoute, (routes.map (·.id)).Nodup →
      ((svc.passed q opts (svc.questioned w routes)).map (·.routeId)).Nodup := fun routes hnd =>
    passed_nodup (by rwa [questioned_fst])
  constructor
  · intro routes hnd hperm
    rw [decidesAt_eq, hpassed]
    exact conclude_perm (passed_perm (hperm.symm.map _)) (hnodup _ svc.routes_nodup)
  · intro route routes hnd hperm
    rw [decidesAt_eq, hpassed]
    have hnd' : ((route :: svc.routes).map (·.id)).Nodup :=
      (hperm.map (·.id)).nodup_iff.mp hnd
    have hsame : (svc.passed q opts (svc.questioned w routes)).Perm
        (svc.passed q opts (svc.questioned w (route :: svc.routes))) :=
      passed_perm (hperm.map _)
    apply extended_of_filter
    rw [Ranks.insertionSort_perm hsame (rankLe_antisymm (hnodup _ hnd))]
    exact passed_cons_filter hnd'

theorem swapped_nodup : ([rival (1 / 2) 100 1, Sample.route].map (·.id)).Nodup := by
  simp [Sample.route, rival]

theorem ranking_stable_swapped :
    SameRanking ((contest Sample.service.weights (1 / 2) 100 1).decidesAt Sample.request {} {})
      (((contest Sample.service.weights (1 / 2) 100 1).withRoutes _ swapped_nodup).decidesAt
        Sample.request {} {}) ∧
    Extended "secondary" (Sample.service.decidesAt Sample.request {} {})
      ((Sample.service.withRoutes _ swapped_nodup).decidesAt Sample.request {} {}) :=
  ⟨(ranking_stable (contest Sample.service.weights (1 / 2) 100 1) Sample.request {} {}).1 _
      swapped_nodup (List.Perm.swap _ _ _),
    (ranking_stable Sample.service Sample.request {} {}).2 (rival (1 / 2) 100 1) _ swapped_nodup
      (List.Perm.refl _)⟩

end Service

end AegisGateway
