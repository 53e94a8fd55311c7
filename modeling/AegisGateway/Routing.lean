import AegisGateway.Policy
import AegisGateway.Parity
import Mathlib.Tactic.Linarith

/-!
# What the router decides

One predicate says which routes are candidates. A decision lists every route of the
catalogue once: the candidates in their strict order, the others with what speaks
against them.
-/

open Coroutine

namespace AegisGateway

/-! ## The predicate -/

/-- A circuit that lets a request through at the time `now`. -/
def Circuit.Admits (cfg : CircuitSettings) (now : ℚ) (c : Circuit) : Prop :=
  c.state = .closed ∨ c.state = .halfOpen ∧ c.probeInFlight = false ∨
    c.state = .isOpen ∧ ∃ t, c.openedAt = some t ∧ cfg.recoverySeconds ≤ now - t

theorem Circuit.available_advance_iff (cfg : CircuitSettings) (now : ℚ) (c : Circuit) :
    (c.advance cfg now).available = true ↔ c.Admits cfg now := by
  by_cases hdue : c.due cfg now = true
  · have hopen : c.state = .isOpen ∧ ∃ t, c.openedAt = some t ∧ cfg.recoverySeconds ≤ now - t := by
      simpa [Circuit.due, Option.any_eq_true] using hdue
    rw [Circuit.advance_of_due hdue]
    exact ⟨fun _ => .inr (.inr hopen), fun _ => rfl⟩
  · have hlate : ¬ (c.state = .isOpen ∧ ∃ t, c.openedAt = some t ∧ cfg.recoverySeconds ≤ now - t) := by
      simpa [Circuit.due, Option.any_eq_true] using hdue
    rw [Circuit.advance_of_not_due hdue, Circuit.Admits]
    simp [Circuit.available, hlate]

/-- What may speak against a route, each in the words of its reason. -/
inductive Objection (q : GatewayRequest) (opts : RoutingOptions) (route : ModelRoute)
    (admits : Prop) : String → Prop
  | disabled (h : route.enabled = false) : Objection q opts route admits "disabled"
  | excluded (h : route.id ∈ opts.excludedRouteIds) :
      Objection q opts route admits "previous_attempt_failed"
  | notForced {id : String} (h : opts.forcedRouteId = some id) (hne : route.id ≠ id) :
      Objection q opts route admits "not_forced_route"
  | capabilities (h : ¬ q.requiredCapabilities ⊆ route.capabilities) :
      Objection q opts route admits ("missing_capabilities:" ++
        ",".intercalate (sorted ((missingCapabilities q route).map (·.value))))
  | privacy (h : requiredPrivacy q ∉ route.privacyModes) :
      Objection q opts route admits s!"privacy_mode:{(requiredPrivacy q).value}"
  | region (h : q.allowedRegions ≠ [])
      (hdisjoint : ∀ region ∈ q.allowedRegions, region ∉ route.regions) :
      Objection q opts route admits "region"
  | contextWindow (h : route.contextWindow < requestInputTokens q + q.maxOutputTokens) :
      Objection q opts route admits "context_window"
  | cost (h : q.maxCostUsd < requestCost route q) : Objection q opts route admits "cost_budget"
  | latency (h : q.maxLatencyMs < route.expectedP95LatencyMs) :
      Objection q opts route admits "latency_budget"
  | circuit (h : ¬ admits) : Objection q opts route admits "circuit_open"

theorem mem_rejectReasons {q : GatewayRequest} {opts : RoutingOptions} {route : ModelRoute}
    {available : Bool} {reason : String} :
    reason ∈ rejectReasons q opts route available ↔
      Objection q opts route (available = true) reason := by
  -- A reason is given unless its condition holds, or where it does, as the source puts it.
  have hunless : ∀ (c : Prop) [Decidable c] (s : String),
      reason ∈ (if c then [] else [s]) ↔ ¬ c ∧ reason = s := by
    intro c _ s
    split_ifs with h <;> simp [h]
  have hwhen : ∀ (c : Prop) [Decidable c] (s : String),
      reason ∈ (if c then [s] else []) ↔ c ∧ reason = s := by
    intro c _ s
    split_ifs with h <;> simp [h]
  have hforced : ¬ opts.forcedRouteId.all (· = route.id) = true ↔
      ∃ id, opts.forcedRouteId = some id ∧ route.id ≠ id := by
    cases opts.forcedRouteId <;> simp [eq_comm]
  simp only [rejectReasons, List.mem_append, hunless, hwhen, missingCapabilities_eq_nil,
    regionAllowed_iff, hforced]
  constructor
  · rintro (((((((((⟨h, rfl⟩ | ⟨h, rfl⟩) | ⟨⟨id, hid, hne⟩, rfl⟩) | ⟨h, rfl⟩) | ⟨h, rfl⟩) | ⟨h, rfl⟩) |
      ⟨h, rfl⟩) | ⟨h, rfl⟩) | ⟨h, rfl⟩) | ⟨h, rfl⟩)
    · exact .disabled (by simpa using h)
    · exact .excluded h
    · exact .notForced hid hne
    · exact .capabilities h
    · exact .privacy h
    · rw [not_or, not_exists] at h
      exact .region h.1 fun region hmem hin => h.2 region ⟨hmem, hin⟩
    · exact .contextWindow (not_le.mp h)
    · exact .cost (not_le.mp h)
    · exact .latency (not_le.mp h)
    · exact .circuit h
  · intro h
    cases h with
    | disabled h => simp [h]
    | excluded h => simp [h]
    | notForced h hne => simp [h, hne]
    | capabilities h => simp [h]
    | privacy h => simp [h]
    | region h hdisjoint => simpa [h] using Or.inr hdisjoint
    | contextWindow h => simp [h]
    | cost h => simp [h]
    | latency h => simp [h]
    | circuit h => simp [h]

theorem rejectReasons_nodup (q : GatewayRequest) (opts : RoutingOptions) (route : ModelRoute)
    (available : Bool) : (rejectReasons q opts route available).Nodup := by
  have hwhen : ∀ (c : Prop) [Decidable c] (s : String), (if c then [s] else []).Sublist [s] := by
    intro c _ s
    split_ifs <;> simp
  have hunless : ∀ (c : Prop) [Decidable c] (s : String), (if c then [] else [s]).Sublist [s] := by
    intro c _ s
    split_ifs <;> simp
  have hsub := (((((((((hunless (route.enabled = true) "disabled").append
    (hwhen (route.id ∈ opts.excludedRouteIds) "previous_attempt_failed")).append
    (hunless (opts.forcedRouteId.all (· = route.id) = true) "not_forced_route")).append
    (hunless (missingCapabilities q route = []) ("missing_capabilities:" ++
      ",".intercalate (sorted ((missingCapabilities q route).map (·.value)))))).append
    (hunless (requiredPrivacy q ∈ route.privacyModes)
      s!"privacy_mode:{(requiredPrivacy q).value}")).append
    (hunless (regionAllowed q route = true) "region")).append
    (hunless (requestInputTokens q + q.maxOutputTokens ≤ route.contextWindow)
      "context_window")).append
    (hunless (requestCost route q ≤ q.maxCostUsd) "cost_budget")).append
    (hunless (route.expectedP95LatencyMs ≤ q.maxLatencyMs) "latency_budget")).append
    (hunless (available = true) "circuit_open")
  refine List.Nodup.sublist hsub (List.Nodup.of_map (fun s => s.toList.take 4) ?_)
  have hprivacy : ∀ mode : PrivacyMode, (s!"privacy_mode:{mode.value}").toList.take 4 =
      ['p', 'r', 'i', 'v'] := by
    intro mode
    cases mode <;> rfl
  simp only [List.map_append, List.map_cons, List.map_nil, hprivacy]
  simp

/-! ## The order -/

def rankLt (a b : RoutingCandidate) : Prop :=
  b.utility < a.utility ∨ b.utility = a.utility ∧
    (a.predictedCostUsd < b.predictedCostUsd ∨ a.predictedCostUsd = b.predictedCostUsd ∧
      a.routeId < b.routeId)

instance : Std.Total rankLe where
  total a b := by
    unfold rankLe
    rcases lt_trichotomy a.utility b.utility with hu | hu | hu
    · exact .inr (.inl hu)
    · rcases lt_trichotomy a.predictedCostUsd b.predictedCostUsd with hc | hc | hc
      · exact .inl (.inr ⟨hu.symm, .inl hc⟩)
      · exact (String.le_total a.routeId b.routeId).imp (fun h => .inr ⟨hu.symm, .inr ⟨hc, h⟩⟩)
          fun h => .inr ⟨hu, .inr ⟨hc.symm, h⟩⟩
      · exact .inr (.inr ⟨hu, .inl hc⟩)
    · exact .inl (.inl hu)

instance : IsTrans RoutingCandidate rankLe where
  trans a b c := by
    unfold rankLe
    rintro (hab | ⟨hab, hab'⟩) (hbc | ⟨hbc, hbc'⟩)
    · exact .inl (hbc.trans hab)
    · exact .inl (hbc ▸ hab)
    · exact .inl (hab ▸ hbc)
    · refine .inr ⟨hbc.trans hab, ?_⟩
      rcases hab' with hab' | ⟨hab', hid⟩ <;> rcases hbc' with hbc' | ⟨hbc', hid'⟩
      · exact .inl (hab'.trans hbc')
      · exact .inl (hbc' ▸ hab')
      · exact .inl (hab' ▸ hbc')
      · exact .inr ⟨hab'.trans hbc', String.le_trans hid hid'⟩

theorem rankLt_of_rankLe {a b : RoutingCandidate} (h : rankLe a b) (hne : a.routeId ≠ b.routeId) :
    rankLt a b := by
  rcases h with h | ⟨hu, h | ⟨hc, hid⟩⟩
  · exact .inl h
  · exact .inr ⟨hu, .inl h⟩
  · exact .inr ⟨hu, .inr ⟨hc, Std.lt_of_le_of_ne hid hne⟩⟩

theorem rankLe.utility {a b : RoutingCandidate} (h : rankLe a b) : b.utility ≤ a.utility :=
  h.elim le_of_lt fun h => h.1.le

/-! ## The decision -/

/-- What the router requires of a route: the contract of the request, no exclusion, and a circuit
that lets it through. -/
def Admissible (q : GatewayRequest) (opts : RoutingOptions) (admits : Prop) (route : ModelRoute) :
    Prop :=
  Eligible q opts.forcedRouteId route ∧ route.id ∉ opts.excludedRouteIds ∧ admits

/-- A decision as it should be when `admits` tells which circuits let a request through. -/
structure Decided (svc : Service) (q : GatewayRequest) (opts : RoutingOptions)
    (admits : ModelRoute → Prop) (d : RoutingDecision) : Prop where
  once : (d.candidates.map (·.routeId) ++ d.rejected.map (·.routeId)).Perm (svc.routes.map (·.id))
  candidate_iff : ∀ route ∈ svc.routes,
    route.id ∈ d.candidates.map (·.routeId) ↔ Admissible q opts (admits route) route
  weighed : ∀ c ∈ d.candidates, ∃ route ∈ svc.routes,
    { svc.toCandidate q route with routingRegret := c.routingRegret } = c
  reasons : ∀ x ∈ d.rejected, ∃ route ∈ svc.routes, route.id = x.routeId ∧ x.reasons.Nodup ∧
    ∀ reason, reason ∈ x.reasons ↔ Objection q opts route (admits route) reason
  ordered : d.candidates.Pairwise rankLt
  preferred : ∀ id, opts.preferredRouteId = some id → id ∈ d.candidates.map (·.routeId) →
    d.selectedRouteId = id
  first : (∀ id, opts.preferredRouteId = some id → id ∉ d.candidates.map (·.routeId)) →
    (d.candidates.map (·.routeId)).head? = some d.selectedRouteId
  regret : ∀ c ∈ d.candidates, 0 ≤ c.routingRegret ∧ ∃ best ∈ d.candidates,
    (∀ c' ∈ d.candidates, c'.utility ≤ best.utility) ∧
      c.routingRegret = best.utility - c.utility

namespace Service

variable {svc : Service} {q : GatewayRequest} {opts : RoutingOptions}
  {xs : List (ModelRoute × Bool)}

theorem screened_perm : ((svc.passed q opts xs).map (·.routeId) ++
    (turnedDown q opts xs).map (·.routeId)).Perm ((xs.map Prod.fst).map (·.id)) := by
  induction xs with
  | nil => exact .nil
  | cons a xs ih =>
    by_cases h : rejectReasons q opts a.1 a.2 = []
    · simpa [passed, turnedDown, h, toCandidate] using ih
    · simp only [passed, turnedDown, h, List.filterMap_cons, if_false, List.map_cons] at ih ⊢
      exact List.perm_middle.trans (ih.cons _)

theorem conclude_ok {rejected : List RejectedRoute} {cs : List RoutingCandidate}
    {d : RoutingDecision} (hd : svc.conclude q opts cs rejected = .ok d) :
    ∃ best rest, cs.insertionSort rankLe = best :: rest ∧
      d.candidates = (best :: rest).map (fun c =>
        { c with routingRegret := max 0 (best.utility - c.utility) }) ∧
      d.rejected = rejected ∧
      d.selectedRouteId = ((opts.preferredRouteId.bind fun id =>
        d.candidates.find? (·.routeId = id)).getD best).routeId := by
  unfold conclude at hd
  split at hd
  next => cases hd
  next best rest hsort =>
    cases hd
    exact ⟨best, rest, hsort, rfl, rfl, rfl⟩

theorem conclude_selected {rejected : List RejectedRoute} {cs : List RoutingCandidate}
    {d : RoutingDecision} (hd : svc.conclude q opts cs rejected = .ok d) :
    (∀ id, opts.preferredRouteId = some id → id ∈ d.candidates.map (·.routeId) →
      d.selectedRouteId = id) ∧
    ((∀ id, opts.preferredRouteId = some id → id ∉ d.candidates.map (·.routeId)) →
      (d.candidates.map (·.routeId)).head? = some d.selectedRouteId) := by
  obtain ⟨best, rest, -, hcands, -, hselected⟩ := conclude_ok hd
  constructor
  · intro id hpreferred hmem
    obtain ⟨c, hc, hid⟩ := List.mem_map.mp hmem
    obtain ⟨c', hfind⟩ := Option.isSome_iff_exists.mp
      (List.find?_isSome.mpr ⟨c, hc, by simpa using hid⟩ :
        (d.candidates.find? (·.routeId = id)).isSome = true)
    rw [hselected, hpreferred, Option.bind_some, hfind]
    simpa using List.find?_some hfind
  · intro hnone
    have hmissing : (opts.preferredRouteId.bind fun id =>
        d.candidates.find? (·.routeId = id)) = none := by
      rw [Option.bind_eq_none_iff]
      intro id hid
      refine List.find?_eq_none.mpr fun c hc => ?_
      simpa using fun heq => hnone id hid (List.mem_map.mpr ⟨c, hc, heq⟩)
    rw [hselected, hmissing, hcands]
    rfl

theorem conclude_error {rejected : List RejectedRoute} {cs : List RoutingCandidate} (hcs : cs = []) :
    ∃ m, svc.conclude q opts cs rejected = .error (.aegis (.noEligibleRoute m)) := by
  subst hcs
  exact ⟨_, rfl⟩

theorem conclude_total (rejected : List RejectedRoute) {cs : List RoutingCandidate} (hcs : cs ≠ []) :
    ∃ d, svc.conclude q opts cs rejected = .ok d := by
  unfold conclude
  split
  next hsort =>
    exact absurd ((List.perm_insertionSort rankLe cs).symm.trans (.of_eq hsort)).eq_nil hcs
  next => exact ⟨_, rfl⟩

theorem mem_passed {c : RoutingCandidate} : c ∈ svc.passed q opts xs ↔
    ∃ a ∈ xs, rejectReasons q opts a.1 a.2 = [] ∧ svc.toCandidate q a.1 = c := by
  simp only [passed, List.mem_filterMap, Option.ite_none_right_eq_some, Option.some.injEq]

theorem mem_turnedDown {x : RejectedRoute} : x ∈ turnedDown q opts xs ↔
    ∃ a ∈ xs, rejectReasons q opts a.1 a.2 ≠ [] ∧
      ⟨a.1.id, rejectReasons q opts a.1 a.2⟩ = x := by
  simp only [turnedDown, List.mem_filterMap, Option.ite_none_left_eq_some, Option.some.injEq]

section Specified

variable {admits : ModelRoute → Prop} (hxs : xs.map Prod.fst = svc.routes)
  (hadmits : ∀ a ∈ xs, a.2 = true ↔ admits a.1)

include hadmits in
theorem reasons_eq_nil {a : ModelRoute × Bool} (ha : a ∈ xs) :
    rejectReasons q opts a.1 a.2 = [] ↔ Admissible q opts (admits a.1) a.1 := by
  rw [rejectReasons_eq_nil, Admissible, hadmits a ha]

include hxs hadmits in
theorem passed_iff {route : ModelRoute} (hr : route ∈ svc.routes) :
    route.id ∈ (svc.passed q opts xs).map (·.routeId) ↔
      Admissible q opts (admits route) route := by
  rw [List.mem_map]
  constructor
  · rintro ⟨c, hc, hid⟩
    obtain ⟨a, ha, hnone, rfl⟩ := mem_passed.mp hc
    have hin : a.1 ∈ svc.routes := hxs ▸ List.mem_map_of_mem ha
    obtain rfl := List.inj_on_of_nodup_map svc.routes_nodup hin hr hid
    exact (reasons_eq_nil hadmits ha).mp hnone
  · intro hadm
    obtain ⟨a, ha, rfl⟩ := List.mem_map.mp (hxs ▸ hr)
    exact ⟨_, mem_passed.mpr ⟨a, ha, (reasons_eq_nil hadmits ha).mpr hadm, rfl⟩, rfl⟩

include hxs hadmits in
theorem passed_eq_nil : svc.passed q opts xs = [] ↔
    ∀ route ∈ svc.routes, ¬ Admissible q opts (admits route) route := by
  constructor
  · intro hnil route hr hadm
    have hmem := (passed_iff hxs hadmits hr).mpr hadm
    rw [hnil] at hmem
    cases hmem
  · intro hnone
    apply List.eq_nil_iff_forall_not_mem.mpr
    intro c hc
    obtain ⟨a, ha, hreasons, -⟩ := mem_passed.mp hc
    exact hnone a.1 (hxs ▸ List.mem_map_of_mem ha) ((reasons_eq_nil hadmits ha).mp hreasons)

include hxs hadmits in
theorem decided_of_conclude {d : RoutingDecision}
    (hd : svc.conclude q opts (svc.passed q opts xs) (turnedDown q opts xs) = .ok d) :
    Decided svc q opts admits d := by
  obtain ⟨best, rest, hsort, hcands, hrejected, hselected⟩ := conclude_ok hd
  have hperm : (best :: rest).Perm (svc.passed q opts xs) := hsort ▸ List.perm_insertionSort _ _
  have hsorted : (best :: rest).Pairwise rankLe := hsort ▸ List.pairwise_insertionSort _ _
  have hids : d.candidates.map (·.routeId) = (best :: rest).map (·.routeId) := by
    rw [hcands, List.map_map]
    rfl
  have hbest : ∀ c ∈ best :: rest, c.utility ≤ best.utility := by
    rw [List.forall_mem_cons]
    exact ⟨le_rfl, fun c hc => (List.rel_of_pairwise_cons hsorted hc).utility⟩
  -- Each route of the catalogue stands on one of the two lists, once.
  have honce : (d.candidates.map (·.routeId) ++ d.rejected.map (·.routeId)).Perm
      (svc.routes.map (·.id)) := by
    rw [hids, hrejected, ← hxs]
    exact ((hperm.map _).append_right _).trans screened_perm
  have hnodup : ((best :: rest).map (·.routeId)).Nodup := by
    rw [← hids]
    exact (honce.nodup_iff.mpr svc.routes_nodup).of_append_left
  have hiff : ∀ route ∈ svc.routes, route.id ∈ d.candidates.map (·.routeId) ↔
      Admissible q opts (admits route) route := by
    intro route hr
    rw [hids, (hperm.map _).mem_iff]
    exact passed_iff hxs hadmits hr
  refine ⟨honce, hiff, ?_, ?_, ?_, (conclude_selected hd).1, (conclude_selected hd).2, ?_⟩
  · intro c hc
    rw [hcands] at hc
    obtain ⟨c₀, hc₀, rfl⟩ := List.mem_map.mp hc
    obtain ⟨a, ha, -, rfl⟩ := mem_passed.mp (hperm.subset hc₀)
    exact ⟨a.1, hxs ▸ List.mem_map_of_mem ha, rfl⟩
  · intro x hx
    rw [hrejected] at hx
    obtain ⟨a, ha, -, rfl⟩ := mem_turnedDown.mp hx
    refine ⟨a.1, hxs ▸ List.mem_map_of_mem ha, rfl, rejectReasons_nodup _ _ _ _, fun reason => ?_⟩
    rw [← propext (hadmits a ha)]
    exact mem_rejectReasons
  · rw [hcands, List.pairwise_map]
    apply (hsorted.and (List.pairwise_map.mp hnodup)).imp
    rintro c c' ⟨hle, hne⟩
    exact rankLt_of_rankLe (a := c) (b := c') hle hne
  · intro c hc
    rw [hcands] at hc ⊢
    obtain ⟨c₀, hc₀, rfl⟩ := List.mem_map.mp hc
    refine ⟨le_max_left _ _, _, List.mem_map_of_mem List.mem_cons_self, ?_, ?_⟩
    · rintro _ hc'
      obtain ⟨c₁, hc₁, rfl⟩ := List.mem_map.mp hc'
      exact hbest c₁ hc₁
    · exact max_eq_right (sub_nonneg.mpr (hbest c₀ hc₀))

end Specified

/-! ## The router by itself -/

/-- What the circuit of a route says when it is asked at its time. -/
def admitsAt (svc : Service) (w : World) (times : String → ℚ) (route : ModelRoute) : Prop :=
  (w.circuits.get route.id).Admits svc.circuits (times route.id)

section Alone

variable (env : Surroundings)

theorem serve_isAvailable (w : World) (id : String) :
    ∃ w' t, svc.serve env w (.isAvailable id) =
        (((w.circuits.get id).advance svc.circuits t).available, w') ∧
      w.clock ≤ t ∧ w'.clock = t ∧ ∀ id', id' ≠ id → w'.circuits.get id' = w.circuits.get id' :=
  ⟨_, (w.after (span env (.isAvailable id))).clock, rfl,
    le_add_of_nonneg_right (span env (.isAvailable id)).nonneg, rfl,
    fun _ hne => Circuits.get_insert_ne hne⟩

theorem runs_screen (routes : List ModelRoute) (hnd : (routes.map (·.id)).Nodup) (w : World) :
    ∃ xs w', svc.runs env (svc.screen q opts routes) w =
        ⟨w', asked xs, .ok (svc.passed q opts xs, turnedDown q opts xs)⟩ ∧
      xs.map Prod.fst = routes ∧ w.clock ≤ w'.clock ∧ ∀ a ∈ xs, ∃ t, w.clock ≤ t ∧ t ≤ w'.clock ∧
        (a.2 = true ↔ (w.circuits.get a.1.id).Admits svc.circuits t) := by
  induction routes generalizing w with
  | nil => exact ⟨[], w, rfl, rfl, le_rfl, List.forall_mem_nil _⟩
  | cons route routes ih =>
    obtain ⟨hfresh, hnd⟩ := List.nodup_cons.mp hnd
    obtain ⟨w₁, t, hserve, hle, hclock, hothers⟩ := @serve_isAvailable svc env w route.id
    obtain ⟨xs, w', hrun, hxs, hle', hanswers⟩ := ih hnd w₁
    rw [hclock] at hle'
    refine ⟨(route, ((w.circuits.get route.id).advance svc.circuits t).available) :: xs, w', ?_,
      by simp [hxs], hle.trans hle', List.forall_mem_cons.mpr ⟨?_, fun a ha => ?_⟩⟩
    · simp only [runs] at hrun ⊢
      simp only [screen, Prog.execute_bind, Prog.execute_perform, Ran.andThen_ok, hserve, hrun]
      split_ifs with h
      all_goals simp [passed, turnedDown, h, asked, Ran.after, ev]
    · exact ⟨t, hle, hle', Circuit.available_advance_iff _ _ _⟩
    · obtain ⟨t', hge, hle'', hiff⟩ := hanswers a ha
      have hin : a.1 ∈ routes := hxs ▸ List.mem_map_of_mem ha
      have hne : a.1.id ≠ route.id := fun heq => hfresh (List.mem_map.mpr ⟨a.1, hin, heq⟩)
      rw [hothers _ hne] at hiff
      exact ⟨t', hle.trans (hclock ▸ hge), hle'', hiff⟩

/-- From any circuits, and each of them asked at some time of the run: the router refuses exactly
if no route is admissible, and decides as it should otherwise. -/
theorem decide_specified (q : GatewayRequest) (opts : RoutingOptions) (w : World) :
    ∃ times : String → ℚ,
      (∀ route ∈ svc.routes, w.clock ≤ times route.id ∧
        times route.id ≤ (svc.runs env (svc.decide q opts) w).world.clock) ∧
      ((∃ m, (svc.runs env (svc.decide q opts) w).outcome = .error (.aegis (.noEligibleRoute m))) ↔
        ∀ route ∈ svc.routes, ¬ Admissible q opts (svc.admitsAt w times route) route) ∧
      ((∃ route ∈ svc.routes, Admissible q opts (svc.admitsAt w times route) route) →
        ∃ d, (svc.runs env (svc.decide q opts) w).outcome = .ok d ∧
          Decided svc q opts (svc.admitsAt w times) d) := by
  obtain ⟨xs, w', hrun, hxs, -, hanswers⟩ :=
    @runs_screen svc q opts env svc.routes svc.routes_nodup w
  have hdecide : svc.runs env (svc.decide q opts) w =
      ⟨w', asked xs, svc.conclude q opts (svc.passed q opts xs) (turnedDown q opts xs)⟩ := by
    simp only [runs] at hrun ⊢
    rw [decide, Prog.execute_bind, hrun, Ran.andThen_ok, Prog.execute_ofExcept, Ran.after_mk,
      List.append_nil]
  -- A time for each id: the routes of the catalogue have different ids.
  have htime : ∀ id, ∃ t, ∀ a ∈ xs, a.1.id = id → w.clock ≤ t ∧ t ≤ w'.clock ∧
      (a.2 = true ↔ (w.circuits.get a.1.id).Admits svc.circuits t) := by
    intro id
    by_cases hex : ∃ a ∈ xs, a.1.id = id
    · obtain ⟨a, ha, rfl⟩ := hex
      obtain ⟨t, ht⟩ := hanswers a ha
      refine ⟨t, fun a' ha' heq => ?_⟩
      have hnd : (xs.map fun a => a.1.id).Nodup := by
        have hnd := svc.routes_nodup
        rwa [← hxs, List.map_map] at hnd
      obtain rfl := List.inj_on_of_nodup_map hnd ha' ha heq
      exact ht
    · exact ⟨0, fun a ha heq => absurd ⟨a, ha, heq⟩ hex⟩
  choose times htimes using htime
  have hadmits : ∀ a ∈ xs, a.2 = true ↔ svc.admitsAt w times a.1 :=
    fun a ha => (htimes a.1.id a ha rfl).2.2
  rw [hdecide]
  refine ⟨times, fun route hr => ?_, ?_, ?_⟩
  · obtain ⟨a, ha, rfl⟩ := List.mem_map.mp (hxs ▸ hr)
    exact ⟨(htimes a.1.id a ha rfl).1, (htimes a.1.id a ha rfl).2.1⟩
  · rw [← passed_eq_nil hxs hadmits]
    refine ⟨?_, conclude_error⟩
    rintro ⟨m, hm⟩
    by_contra hsome
    obtain ⟨d, hd⟩ := @conclude_total svc q opts (turnedDown q opts xs) _ hsome
    rw [hd] at hm
    cases hm
  · rintro ⟨route, hr, hadm⟩
    have hsome : svc.passed q opts xs ≠ [] :=
      fun hnil => (passed_eq_nil hxs hadmits).mp hnil route hr hadm
    obtain ⟨d, hd⟩ := @conclude_total svc q opts (turnedDown q opts xs) _ hsome
    exact ⟨d, hd, decided_of_conclude hxs hadmits hd⟩

end Alone

end Service

end AegisGateway
