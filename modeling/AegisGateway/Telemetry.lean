import AegisGateway.Domain

/-!
# Exported metrics

`Telemetry.record` writes the row of a request and counts it in the collectors of
`prometheus_client`. The labels are to be of bounded cardinality, and a counter refuses a
negative amount.
-/

namespace AegisGateway

/-! ## Collectors -/

structure Child where
  name : String
  labels : List (String × String) := []
  deriving DecidableEq, Repr

/-- What a histogram exports: for each bound how many observations are up to it. -/
structure Distribution where
  count : Nat
  sum : ℚ
  within : List Nat
  deriving DecidableEq

def Distribution.of (bounds xs : List ℚ) : Distribution where
  count := xs.length
  sum := xs.sum
  within := bounds.map fun b => xs.countP (· ≤ b)

/-- The registry of `prometheus_client`. A child that has never been asked for is `none`. -/
structure Prometheus where
  Registry : Type
  new : List Child → Registry
  inc : Registry → Child → ℚ → Except PyExc Registry
  observe : Registry → Child → List ℚ → ℚ → Registry
  counter : Registry → Child → Option ℚ
  histogram : Registry → Child → Option Distribution

/-- In exact arithmetic: counters begin at zero, take what is not negative and add it up, and a
histogram exports its observations. The client itself adds floats. -/
structure Prometheus.Lawful (M : Prometheus) : Prop where
  new_counter : ∀ children child,
    M.counter (M.new children) child = if child ∈ children then some 0 else none
  new_histogram : ∀ children child, M.histogram (M.new children) child = none
  inc_negative : ∀ reg child x, x < 0 → ∃ e, M.inc reg child x = .error e
  inc_ok : ∀ reg child x, 0 ≤ x → ∃ reg', M.inc reg child x = .ok reg' ∧
    (∀ child', M.counter reg' child' =
      if child' = child then some ((M.counter reg child).getD 0 + x) else M.counter reg child') ∧
    ∀ child', M.histogram reg' child' = M.histogram reg child'
  observe_counter : ∀ reg child bounds x child',
    M.counter (M.observe reg child bounds x) child' = M.counter reg child'
  observe_other : ∀ reg child bounds x child', child' ≠ child →
    M.histogram (M.observe reg child bounds x) child' = M.histogram reg child'
  observe_first : ∀ reg child bounds x, M.histogram reg child = none →
    M.histogram (M.observe reg child bounds x) child = some (.of bounds [x])
  observe_next : ∀ reg child bounds xs x, M.histogram reg child = some (.of bounds xs) →
    M.histogram (M.observe reg child bounds x) child = some (.of bounds (xs ++ [x]))

def Distribution.add (bounds : List ℚ) (d : Distribution) (x : ℚ) : Distribution where
  count := d.count + 1
  sum := d.sum + x
  within := List.zipWith (fun b n => if x ≤ b then n + 1 else n) bounds d.within

theorem Distribution.add_of (bounds xs : List ℚ) (x : ℚ) :
    Distribution.add bounds (.of bounds xs) x = .of bounds (xs ++ [x]) := by
  have hwithin : List.zipWith (fun b n => if x ≤ b then n + 1 else n) bounds
      (bounds.map fun b => xs.countP (· ≤ b)) = bounds.map fun b => (xs ++ [x]).countP (· ≤ b) := by
    rw [List.zipWith_map_right, List.zipWith_self]
    apply List.map_congr_left
    intro b _
    by_cases h : x ≤ b <;> simp [List.countP_append, h]
  simp [Distribution.add, Distribution.of, hwithin]

def collectors : Prometheus where
  Registry := (Child → Option ℚ) × (Child → Option Distribution)
  new children := (fun child => if child ∈ children then some 0 else none, fun _ => none)
  inc reg child x :=
    if x < 0 then .error (.valueError "Counters can only be incremented by non-negative amounts.")
    else .ok (Function.update reg.1 child (some ((reg.1 child).getD 0 + x)), reg.2)
  observe reg child bounds x :=
    (reg.1, Function.update reg.2 child
      (some (((reg.2 child).getD (.of bounds [])).add bounds x)))
  counter reg := reg.1
  histogram reg := reg.2

theorem collectors_lawful : collectors.Lawful where
  new_counter _ _ := rfl
  new_histogram _ _ := rfl
  inc_negative reg child x hx := ⟨_, if_pos hx⟩
  inc_ok reg child x hx := by
    refine ⟨_, if_neg (not_lt.mpr hx), fun child' => ?_, fun _ => rfl⟩
    simp only [collectors, Function.update_apply]
  observe_counter _ _ _ _ _ := rfl
  observe_other reg child bounds x child' h := by
    simp only [collectors, Function.update_of_ne h]
  observe_first reg child bounds x h := by
    simp only [collectors] at h
    simp only [collectors, Function.update_self, h, Option.getD_none, Distribution.add_of,
      List.nil_append]
  observe_next reg child bounds xs x h := by
    simp only [collectors] at h
    simp only [collectors, Function.update_self, h, Option.getD_some, Distribution.add_of]

/-! ## Recording -/

def latencyBuckets : List ℚ :=
  [1 / 100, 1 / 40, 1 / 20, 1 / 10, 1 / 4, 1 / 2, 1, 5 / 2, 5, 10, 30, 60]

def ttftBuckets : List ℚ := [1 / 100, 1 / 40, 1 / 20, 1 / 10, 1 / 4, 1 / 2, 1, 5 / 2, 5, 10, 30]

/-- `str(value).lower()` of a boolean. -/
def flagText (b : Bool) : String := if b then "true" else "false"

/-- `"success" if metric.success else metric.error_code or "error"`. -/
def outcomeLabel (m : RequestMetric) : String :=
  if m.success then "success"
  else match m.errorCode with
    | some code => if code = "" then "error" else code
    | none => "error"

def routeLabels (provider route : String) : List (String × String) :=
  [("provider", provider), ("route", route)]

def requestsChild (provider route outcome : String) (canary shadow : Bool) : Child where
  name := "aegis_requests_total"
  labels := routeLabels provider route ++
    [("outcome", outcome), ("canary", flagText canary), ("shadow", flagText shadow)]

def latencyChild (provider route : String) : Child :=
  ⟨"aegis_request_latency_seconds", routeLabels provider route⟩

def ttftChild (provider route : String) : Child :=
  ⟨"aegis_ttft_seconds", routeLabels provider route⟩

def costChild (provider route : String) : Child :=
  ⟨"aegis_cost_usd_total", routeLabels provider route⟩

def tokensChild (provider route direction : String) : Child :=
  ⟨"aegis_tokens_total", routeLabels provider route ++ [("direction", direction)]⟩

def cacheHitsChild : Child := { name := "aegis_cache_hits_total" }

namespace Telemetry

variable (M : Prometheus)

/-- `Telemetry.__init__`. Only the collector without labels has a child from the start. -/
def new : M.Registry := M.new [cacheHitsChild]

/-- `Telemetry.record`, behind the row. -/
def record (reg : M.Registry) (m : RequestMetric) : Except PyExc M.Registry := do
  let reg ← M.inc reg
    (requestsChild m.provider m.routeId (outcomeLabel m) m.canary m.shadow) 1
  let reg := M.observe reg (latencyChild m.provider m.routeId) latencyBuckets (m.latencyMs / 1000)
  let reg := M.observe reg (ttftChild m.provider m.routeId) ttftBuckets (m.ttftMs / 1000)
  let reg ← M.inc reg (costChild m.provider m.routeId) m.costUsd
  let reg ← M.inc reg (tokensChild m.provider m.routeId "input") m.inputTokens
  let reg ← M.inc reg (tokensChild m.provider m.routeId "output") m.outputTokens
  if m.cacheHit then M.inc reg cacheHitsChild 1 else pure reg

/-- The registry once some rows have been recorded. -/
def exported (ms : List RequestMetric) : Except PyExc M.Registry := ms.foldlM (record M) (new M)

end Telemetry

/-! ## What has been counted -/

def increments (m : RequestMetric) : List (Child × ℚ) :=
  [(requestsChild m.provider m.routeId (outcomeLabel m) m.canary m.shadow, 1),
    (costChild m.provider m.routeId, m.costUsd),
    (tokensChild m.provider m.routeId "input", m.inputTokens),
    (tokensChild m.provider m.routeId "output", m.outputTokens)] ++
  if m.cacheHit then [(cacheHitsChild, 1)] else []

def counted (incs : List (Child × ℚ)) (child : Child) (start : Option ℚ) : Option ℚ :=
  let amounts := (incs.filter (·.1 = child)).map (·.2)
  if amounts = [] then start else some (start.getD 0 + amounts.sum)

theorem counted_nil (child : Child) (start : Option ℚ) : counted [] child start = start := rfl

theorem counted_append (incs incs' : List (Child × ℚ)) (child : Child) (start : Option ℚ) :
    counted (incs ++ incs') child start = counted incs' child (counted incs child start) := by
  unfold counted
  rw [List.filter_append, List.map_append]
  generalize (incs.filter (·.1 = child)).map (·.2) = xs
  generalize (incs'.filter (·.1 = child)).map (·.2) = ys
  cases xs with
  | nil => rfl
  | cons x xs =>
    cases ys with
    | nil => simp
    | cons y ys => simp [add_assoc]

theorem counted_singleton (child' child : Child) (x : ℚ) (start : Option ℚ) :
    counted [(child', x)] child start =
      if child = child' then some (start.getD 0 + x) else start := by
  by_cases h : child' = child
  · simp [counted, h]
  · simp [counted, h, Ne.symm h]

def observations (m : RequestMetric) : List (Child × ℚ) :=
  [(latencyChild m.provider m.routeId, m.latencyMs / 1000),
    (ttftChild m.provider m.routeId, m.ttftMs / 1000)]

def bucketsOf (child : Child) : List ℚ :=
  if child.name = "aegis_ttft_seconds" then ttftBuckets else latencyBuckets

/-- A histogram of some values, and none where there are no values. -/
def distribution (bounds xs : List ℚ) : Option Distribution :=
  if xs = [] then none else some (.of bounds xs)

def observed (obs : List (Child × ℚ)) (child : Child) : Option Distribution :=
  distribution (bucketsOf child) ((obs.filter (·.1 = child)).map (·.2))

structure HasCounted (M : Prometheus) (reg : M.Registry) (incs obs : List (Child × ℚ)) : Prop where
  counter : ∀ child, M.counter reg child =
    counted incs child (if child = cacheHitsChild then some 0 else none)
  histogram : ∀ child, M.histogram reg child = observed obs child

section Record

variable {M : Prometheus} {reg : M.Registry} {incs obs : List (Child × ℚ)}

theorem hasCounted_new (hM : M.Lawful) : HasCounted M (Telemetry.new M) [] [] where
  counter child := by simp [Telemetry.new, hM.new_counter, counted_nil]
  histogram child := hM.new_histogram _ child

theorem HasCounted.inc (hM : M.Lawful) (h : HasCounted M reg incs obs) (child : Child) {x : ℚ}
    (hx : 0 ≤ x) :
    ∃ reg', M.inc reg child x = .ok reg' ∧ HasCounted M reg' (incs ++ [(child, x)]) obs := by
  obtain ⟨reg', hinc, hcounter, hhistogram⟩ := hM.inc_ok reg child x hx
  refine ⟨reg', hinc, fun child' => ?_, fun child' =>
    (hhistogram child').trans (h.histogram child')⟩
  rw [hcounter, counted_append, counted_singleton, ← h.counter]
  split_ifs with hchild
  · rw [hchild]
  · rfl

theorem HasCounted.observe (hM : M.Lawful) (h : HasCounted M reg incs obs) (child : Child) (x : ℚ) :
    HasCounted M (M.observe reg child (bucketsOf child) x) incs (obs ++ [(child, x)]) where
  counter child' := (hM.observe_counter ..).trans (h.counter child')
  histogram child' := by
    by_cases hchild : child' = child
    · subst hchild
      have hbefore := h.histogram child'
      unfold observed distribution at hbefore ⊢
      rw [List.filter_append, List.map_append]
      generalize (obs.filter (·.1 = child')).map (·.2) = xs at hbefore ⊢
      cases xs with
      | nil => simpa using hM.observe_first reg child' (bucketsOf child') x hbefore
      | cons y ys => simpa using hM.observe_next reg child' (bucketsOf child') (y :: ys) x hbefore
    · have hsame : (obs ++ [(child, x)]).filter (·.1 = child') = obs.filter (·.1 = child') := by
        simp [List.filter_append, Ne.symm hchild]
      rw [hM.observe_other _ _ _ _ _ hchild, h.histogram]
      simp only [observed, hsame]

theorem HasCounted.record (hM : M.Lawful) (h : HasCounted M reg incs obs) {m : RequestMetric}
    (hm : 0 ≤ m.costUsd) : ∃ reg', Telemetry.record M reg m = .ok reg' ∧
      HasCounted M reg' (incs ++ increments m) (obs ++ observations m) := by
  obtain ⟨reg₁, hrequests, h₁⟩ := h.inc hM
    (requestsChild m.provider m.routeId (outcomeLabel m) m.canary m.shadow) zero_le_one
  have h₂ := (h₁.observe hM (latencyChild m.provider m.routeId) (m.latencyMs / 1000)).observe hM
    (ttftChild m.provider m.routeId) (m.ttftMs / 1000)
  obtain ⟨reg₃, hcost, h₃⟩ := h₂.inc hM (costChild m.provider m.routeId) hm
  obtain ⟨reg₄, hinput, h₄⟩ := h₃.inc hM (tokensChild m.provider m.routeId "input")
    (Nat.cast_nonneg m.inputTokens)
  obtain ⟨reg₅, houtput, h₅⟩ := h₄.inc hM (tokensChild m.provider m.routeId "output")
    (Nat.cast_nonneg m.outputTokens)
  have hlatency : bucketsOf (latencyChild m.provider m.routeId) = latencyBuckets := rfl
  have httft : bucketsOf (ttftChild m.provider m.routeId) = ttftBuckets := rfl
  rw [hlatency, httft] at hcost
  simp only [Telemetry.record, hrequests, hcost, hinput, houtput, bind, Except.bind]
  split_ifs with hhit
  · obtain ⟨reg₆, hits, h₆⟩ := h₅.inc hM cacheHitsChild zero_le_one
    exact ⟨reg₆, hits, by simpa [increments, observations, hhit] using h₆⟩
  · exact ⟨reg₅, rfl, by simpa [increments, observations, hhit] using h₅⟩

theorem HasCounted.rows (hM : M.Lawful) (h : HasCounted M reg incs obs) {ms : List RequestMetric}
    (hms : ∀ m ∈ ms, 0 ≤ m.costUsd) : ∃ reg', ms.foldlM (Telemetry.record M) reg = .ok reg' ∧
      HasCounted M reg' (incs ++ ms.flatMap increments) (obs ++ ms.flatMap observations) := by
  induction ms generalizing reg incs obs with
  | nil => exact ⟨reg, rfl, by simpa using h⟩
  | cons m ms ih =>
    obtain ⟨hm, hms⟩ := List.forall_mem_cons.mp hms
    obtain ⟨reg₁, hrecord, h₁⟩ := h.record hM hm
    obtain ⟨reg', hrows, h'⟩ := ih h₁ hms
    refine ⟨reg', ?_, by simpa using h'⟩
    rw [List.foldlM_cons, hrecord]
    exact hrows

end Record

/-! ## What a registry shows of some rows -/

def ofRoute (provider route : String) (m : RequestMetric) : Bool :=
  m.provider = provider && m.routeId = route

/-- The rows that count for a series of `aegis_requests_total`. -/
def ofSeries (provider route outcome : String) (canary shadow : Bool) (m : RequestMetric) : Bool :=
  ofRoute provider route m && outcomeLabel m = outcome && m.canary = canary && m.shadow = shadow

def tokensOf (direction : String) (m : RequestMetric) : Nat :=
  if direction = "input" then m.inputTokens else m.outputTokens

/-- The registry says of the rows what they say themselves. -/
structure Exports (M : Prometheus) (reg : M.Registry) (ms : List RequestMetric) : Prop where
  requests : ∀ provider route outcome canary shadow,
    (M.counter reg (requestsChild provider route outcome canary shadow)).getD 0 =
      ms.countP (ofSeries provider route outcome canary shadow)
  cost : ∀ provider route, (M.counter reg (costChild provider route)).getD 0 =
    ((ms.filter (ofRoute provider route)).map (·.costUsd)).sum
  tokens : ∀ provider route, ∀ direction ∈ ["input", "output"],
    (M.counter reg (tokensChild provider route direction)).getD 0 =
      ((ms.filter (ofRoute provider route)).map fun m => (tokensOf direction m : ℚ)).sum
  cacheHits : M.counter reg cacheHitsChild = some (ms.countP (·.cacheHit) : ℚ)
  latency : ∀ provider route, M.histogram reg (latencyChild provider route) =
    distribution latencyBuckets ((ms.filter (ofRoute provider route)).map (·.latencyMs / 1000))
  ttft : ∀ provider route, M.histogram reg (ttftChild provider route) =
    distribution ttftBuckets ((ms.filter (ofRoute provider route)).map (·.ttftMs / 1000))

section Exports

variable {M : Prometheus} {reg : M.Registry} {ms : List RequestMetric}

def amounts (incs : RequestMetric → List (Child × ℚ)) (child : Child) (ms : List RequestMetric) :
    List ℚ :=
  ((ms.flatMap incs).filter (·.1 = child)).map (·.2)

theorem amounts_eq {incs : RequestMetric → List (Child × ℚ)} {child : Child}
    {p : RequestMetric → Bool} {f : RequestMetric → ℚ}
    (h : ∀ m, ((incs m).filter (·.1 = child)).map (·.2) = if p m then [f m] else [])
    (ms : List RequestMetric) : amounts incs child ms = (ms.filter p).map f := by
  induction ms with
  | nil => rfl
  | cons m ms ih =>
    have hcons : amounts incs child (m :: ms) =
        ((incs m).filter (·.1 = child)).map (·.2) ++ amounts incs child ms := by
      simp [amounts]
    rw [hcons, h, ih]
    cases hm : p m <;> simp [hm]

theorem getD_counted (incs : List (Child × ℚ)) (child : Child) :
    (counted incs child none).getD 0 = ((incs.filter (·.1 = child)).map (·.2)).sum := by
  unfold counted
  generalize (incs.filter (·.1 = child)).map (·.2) = xs
  cases xs with
  | nil => rfl
  | cons x xs => simp

theorem flagText_inj {b b' : Bool} : flagText b = flagText b' ↔ b = b' := by
  cases b <;> cases b' <;> decide

theorem requestsChild_inj {provider route outcome provider' route' outcome' : String}
    {canary shadow canary' shadow' : Bool} :
    requestsChild provider' route' outcome' canary' shadow' =
        requestsChild provider route outcome canary shadow ↔
      (((provider' = provider ∧ route' = route) ∧ outcome' = outcome) ∧ canary' = canary) ∧
        shadow' = shadow := by
  simp [requestsChild, routeLabels, flagText_inj, and_assoc]

theorem routeLabels_inj {provider route provider' route' : String} :
    routeLabels provider' route' = routeLabels provider route ↔
      provider' = provider ∧ route' = route := by
  simp [routeLabels]

theorem requests_amounts (provider route outcome : String) (canary shadow : Bool)
    (ms : List RequestMetric) :
    amounts increments (requestsChild provider route outcome canary shadow) ms =
      (ms.filter (ofSeries provider route outcome canary shadow)).map fun _ => 1 := by
  refine amounts_eq (fun m => ?_) ms
  have hcost : ∀ p r, costChild p r ≠ requestsChild provider route outcome canary shadow := by
    simp [costChild, requestsChild]
  have htokens : ∀ p r d, tokensChild p r d ≠ requestsChild provider route outcome canary shadow := by
    simp [tokensChild, requestsChild]
  have hhit : cacheHitsChild ≠ requestsChild provider route outcome canary shadow := by
    simp [cacheHitsChild, requestsChild]
  cases hm : m.cacheHit
  all_goals
    simp only [increments, hm, List.append_nil, List.cons_append, List.nil_append, List.filter_cons,
      List.filter_nil, hcost, htokens, hhit, requestsChild_inj, ofSeries, ofRoute, Bool.and_eq_true,
      decide_eq_true_eq, if_false, if_true, Bool.false_eq_true]
    split_ifs <;> rfl

theorem cost_amounts (provider route : String) (ms : List RequestMetric) :
    amounts increments (costChild provider route) ms =
      (ms.filter (ofRoute provider route)).map (·.costUsd) := by
  refine amounts_eq (fun m => ?_) ms
  have hrequests : ∀ p r o c s, requestsChild p r o c s ≠ costChild provider route := by
    simp [costChild, requestsChild]
  have htokens : ∀ p r d, tokensChild p r d ≠ costChild provider route := by
    simp [tokensChild, costChild]
  have hhit : cacheHitsChild ≠ costChild provider route := by simp [cacheHitsChild, costChild]
  have hcost : costChild m.provider m.routeId = costChild provider route ↔
      m.provider = provider ∧ m.routeId = route := by simp [costChild, routeLabels_inj]
  cases hm : m.cacheHit
  all_goals
    simp only [increments, hm, List.append_nil, List.cons_append, List.nil_append, List.filter_cons,
      List.filter_nil, hrequests, htokens, hhit, hcost, ofRoute, Bool.and_eq_true,
      decide_eq_true_eq, if_false, if_true, Bool.false_eq_true]
    split_ifs <;> rfl

theorem tokens_amounts {direction : String} (hdirection : direction ∈ ["input", "output"])
    (provider route : String) (ms : List RequestMetric) :
    amounts increments (tokensChild provider route direction) ms =
      (ms.filter (ofRoute provider route)).map fun m => (tokensOf direction m : ℚ) := by
  refine amounts_eq (fun m => ?_) ms
  have hrequests : ∀ p r o c s, requestsChild p r o c s ≠ tokensChild provider route direction := by
    simp [tokensChild, requestsChild]
  have hcost : ∀ p r, costChild p r ≠ tokensChild provider route direction := by
    simp [tokensChild, costChild]
  have hhit : cacheHitsChild ≠ tokensChild provider route direction := by
    simp [cacheHitsChild, tokensChild]
  have htokens : ∀ d, tokensChild m.provider m.routeId d = tokensChild provider route direction ↔
      (m.provider = provider ∧ m.routeId = route) ∧ d = direction := by
    simp [tokensChild, routeLabels]
    tauto
  rcases List.mem_pair.mp hdirection with rfl | rfl <;> cases hm : m.cacheHit
  all_goals
    simp only [increments, hm, List.append_nil, List.cons_append, List.nil_append, List.filter_cons,
      List.filter_nil, hrequests, hcost, hhit, htokens, ofRoute, tokensOf, Bool.and_eq_true,
      decide_eq_true_eq, if_false, if_true, Bool.false_eq_true, String.reduceEq, and_true,
      and_false]
    split_ifs <;> rfl

theorem hits_amounts (ms : List RequestMetric) :
    amounts increments cacheHitsChild ms = (ms.filter (·.cacheHit)).map fun _ => 1 := by
  refine amounts_eq (fun m => ?_) ms
  have hrequests : ∀ p r o c s, requestsChild p r o c s ≠ cacheHitsChild := by
    simp [cacheHitsChild, requestsChild]
  have hcost : ∀ p r, costChild p r ≠ cacheHitsChild := by simp [cacheHitsChild, costChild]
  have htokens : ∀ p r d, tokensChild p r d ≠ cacheHitsChild := by
    simp [tokensChild, cacheHitsChild]
  cases hm : m.cacheHit
  all_goals
    simp only [increments, hm, List.append_nil, List.cons_append, List.nil_append, List.filter_cons,
      List.filter_nil, hrequests, hcost, htokens, decide_eq_true_eq, if_false, if_true,
      Bool.false_eq_true]
    rfl

theorem latency_amounts (provider route : String) (ms : List RequestMetric) :
    amounts observations (latencyChild provider route) ms =
      (ms.filter (ofRoute provider route)).map (·.latencyMs / 1000) := by
  refine amounts_eq (fun m => ?_) ms
  have httft : ∀ p r, ttftChild p r ≠ latencyChild provider route := by
    simp [ttftChild, latencyChild]
  have hlatency : latencyChild m.provider m.routeId = latencyChild provider route ↔
      m.provider = provider ∧ m.routeId = route := by simp [latencyChild, routeLabels_inj]
  simp only [observations, List.filter_cons, List.filter_nil, httft, hlatency, ofRoute,
    Bool.and_eq_true, decide_eq_true_eq, if_false]
  split_ifs <;> rfl

theorem ttft_amounts (provider route : String) (ms : List RequestMetric) :
    amounts observations (ttftChild provider route) ms =
      (ms.filter (ofRoute provider route)).map (·.ttftMs / 1000) := by
  refine amounts_eq (fun m => ?_) ms
  have hlatency : ∀ p r, latencyChild p r ≠ ttftChild provider route := by
    simp [ttftChild, latencyChild]
  have httft : ttftChild m.provider m.routeId = ttftChild provider route ↔
      m.provider = provider ∧ m.routeId = route := by simp [ttftChild, routeLabels_inj]
  simp only [observations, List.filter_cons, List.filter_nil, httft, hlatency, ofRoute,
    Bool.and_eq_true, decide_eq_true_eq, if_false]
  split_ifs <;> rfl

theorem sum_ones (p : RequestMetric → Bool) (ms : List RequestMetric) :
    ((ms.filter p).map fun _ => (1 : ℚ)).sum = ms.countP p := by
  simp [List.countP_eq_length_filter]

theorem exports_of_counted (h : HasCounted M reg (ms.flatMap increments) (ms.flatMap observations)) :
    Exports M reg ms := by
  have hcounter : ∀ {child}, child ≠ cacheHitsChild →
      (M.counter reg child).getD 0 = (amounts increments child ms).sum := by
    intro child hchild
    rw [h.counter, if_neg hchild, getD_counted]
    rfl
  refine ⟨fun provider route outcome canary shadow => ?_, fun provider route => ?_,
    fun provider route direction hdirection => ?_, ?_, fun provider route => ?_,
    fun provider route => ?_⟩
  · rw [hcounter (by simp [cacheHitsChild, requestsChild]), requests_amounts, sum_ones]
  · rw [hcounter (by simp [cacheHitsChild, costChild]), cost_amounts]
  · rw [hcounter (by simp [cacheHitsChild, tokensChild]), tokens_amounts hdirection]
  · have hhits := hits_amounts ms
    unfold amounts at hhits
    rw [h.counter, if_pos rfl, counted, hhits]
    by_cases hnone : (ms.filter (·.cacheHit)).map (fun _ => (1 : ℚ)) = []
    · have hzero : ms.countP (·.cacheHit) = 0 := by
        rw [List.countP_eq_length_filter, List.map_eq_nil_iff.mp hnone]
        rfl
      simp only [hnone, if_true, hzero, Nat.cast_zero]
    · simp only [if_neg hnone, Option.getD_some, zero_add, sum_ones]
  · rw [h.histogram]
    exact congrArg (distribution latencyBuckets) (latency_amounts provider route ms)
  · rw [h.histogram]
    exact congrArg (distribution ttftBuckets) (ttft_amounts provider route ms)

end Exports

/-! ## Which children there are -/

theorem counted_eq_none {incs : List (Child × ℚ)} {child : Child} (h : ∀ inc ∈ incs, inc.1 ≠ child) :
    counted incs child none = none := by
  have hnil : incs.filter (·.1 = child) = [] := List.filter_eq_nil_iff.mpr fun inc hinc => by
    simpa using h inc hinc
  simp [counted, hnil]

theorem HasCounted.touched {M : Prometheus} {reg : M.Registry} {incs obs : List (Child × ℚ)}
    (h : HasCounted M reg incs obs) {child : Child} (hchild : M.counter reg child ≠ none) :
    child = cacheHitsChild ∨ ∃ inc ∈ incs, inc.1 = child := by
  by_contra hnone
  push Not at hnone
  rw [h.counter, if_neg hnone.1, counted_eq_none hnone.2] at hchild
  exact hchild rfl

theorem HasCounted.seen {M : Prometheus} {reg : M.Registry} {incs obs : List (Child × ℚ)}
    (h : HasCounted M reg incs obs) {child : Child} (hchild : M.histogram reg child ≠ none) :
    ∃ ob ∈ obs, ob.1 = child := by
  by_contra hnone
  push Not at hnone
  have hnil : obs.filter (·.1 = child) = [] := List.filter_eq_nil_iff.mpr fun ob hob => by
    simpa using hnone ob hob
  rw [h.histogram, observed, hnil] at hchild
  exact hchild rfl

end AegisGateway
