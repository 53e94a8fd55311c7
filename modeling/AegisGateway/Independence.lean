import AegisGateway.Diagnostics
import AegisGateway.Lib.Ensures
import AegisGateway.Routing

/-!
# The cases of one evaluation

The runner evaluates one case after the other against one route. What the cases share is the
circuit of the route: as long as it is closed, a case has the result that it has alone.
-/

open Coroutine JsonText

namespace AegisGateway

/-! ## What the runner runs against -/

abbrev CaseAnswers : Type := EvaluationCase → Except ProviderError ProviderResult

/-- The world while a data set is evaluated: the case that is under way and when it began, and the
cases behind it. -/
structure Bench where
  world : World
  current : Option (EvaluationCase × ℚ) := none
  todo : List EvaluationCase

namespace Bench

variable (svc : Service) (answer : CaseAnswers)

/-- A case does not reach its deadline of two minutes. -/
def InTime (b : Bench) (w : World) : Prop := ∀ c ∈ b.current, w.clock < c.2 + 120

/-- Any time may pass in front of an operation. A case begins with the identifier of its
request. -/
def Step (b : Bench) : (o : Op) → Ans o → Bench → Prop
  | .uuid4, id, b' => ∃ p, id.length = 36 ∧ b' =
      { world := b.world.after p
        current := b.todo.head?.map fun case => (case, (b.world.after p).clock)
        todo := b.todo.tail }
  | .complete _ _, a, b' => ∃ p c, b.current = some c ∧ b.InTime (b.world.after p) ∧
      a = (answer c.1).mapError (fun e => .aegis (.provider e)) ∧
      b' = { b with world := b.world.after p }
  | o, a, b' => ∃ p w', svc.exec (b.world.after p) o .go = some (a, w') ∧
      b.InTime (b.world.after p) ∧ b' = { b with world := w' }

end Bench

/-- A step is one that the gateway takes. -/
theorem Bench.exec_of_step {svc : Service} {answer : CaseAnswers} (b : Bench) (o : Op) (a : Ans o)
    (b' : Bench) (hs : b.Step svc answer o a b') : ∃ x w y,
      svc.machine.drift b.world x = some w ∧ svc.machine.exec w o y = some (a, b'.world) := by
  have hdrift : ∀ p : Pause, svc.machine.drift b.world (.later p.seconds p.microseconds) =
      some (b.world.after p) := fun p => if_pos p.nonneg
  cases o with
  | uuid4 =>
    obtain ⟨p, -, rfl⟩ := hs
    exact ⟨_, _, .uuid a, hdrift p, rfl⟩
  | complete q route =>
    obtain ⟨p, c, -, -, -, rfl⟩ := hs
    exact ⟨_, _, .completion a, hdrift p, rfl⟩
  | _ =>
    obtain ⟨p, w', hexec, -, rfl⟩ := hs
    exact ⟨_, _, .go, hdrift p, hexec⟩

/-! ## A case on its own -/

structure CaseVerdict where
  passed : Bool
  qualityScore : ℚ
  schemaValid : Option Bool
  error : Option String
  deriving DecidableEq

def EvaluationCaseResult.verdict (r : EvaluationCaseResult) : CaseVerdict :=
  { passed := r.passed
    qualityScore := r.qualityScore
    schemaValid := r.schemaValid
    error := r.error }

/-- What a handler of `generate` makes of an exception. -/
def settled (route : ModelRoute) : PyExc → PyExc
  | .timeoutError =>
    .aegis (.provider (providerTimeoutError Service.completeTimeout route.provider))
  | e => e

def forcedOptions (routeId : String) : RoutingOptions := { forcedRouteId := some routeId }

/-- What a call of `generate` for a case runs with. -/
def caseExchange (routeId : String) (q : GatewayRequest) (started : ℚ) : Exchange :=
  { request := q
    forcedRouteId := some routeId
    assignment := {}
    started
    evaluation := true }

namespace Service

variable (svc : Service) (answer : CaseAnswers) (routeId : String)

def forcedRoute (q : GatewayRequest) : Option ModelRoute :=
  svc.routes.find? fun route =>
    rejectReasons q (forcedOptions routeId) route true = []

/-- The attempt of a case at a route. Its response has neither an identifier nor times. -/
def caseAttempt (case : EvaluationCase) (q : GatewayRequest) (route : ModelRoute) :
    Except PyExc GatewayResponse := do
  svc.adapter route.provider
  let result ← (answer case).mapError fun e => .aegis (.provider e)
  let (parsed, schemaValid) ← svc.platform.validateSchema q result.text
  let response := completeResponse (caseExchange routeId q 0) route (svc.toCandidate q route) 0
    result parsed schemaValid 0 0
  pure { response with requestId := "" }

/-- The outcome of a case that finds the circuit closed. -/
def alone (case : EvaluationCase) : Except PyExc GatewayResponse := do
  let q ← evaluationRequest case zeroUuid
  match svc.forcedRoute routeId q with
  | none => .error (.aegis (.noEligibleRoute ""))
  | some route => (svc.caseAttempt answer routeId case q route).mapError (settled route)

def caseVerdict (case : EvaluationCase) : Except PyExc GatewayResponse → CaseVerdict
  | .ok response => (caseResult svc.platform case routeId response).verdict
  | .error e => (caseFailure case routeId e).verdict

end Service

/-- Two outcomes that the runner records alike, but for times and costs. -/
inductive SameOutcome : Except PyExc GatewayResponse → Except PyExc GatewayResponse → Prop
  | response {r r' : GatewayResponse} (htext : r.text = r'.text)
      (hschema : r.schemaValid = r'.schemaValid) : SameOutcome (.ok r) (.ok r')
  | error {e e' : PyExc} (hclass : e.className = e'.className)
      (hexception : e.isException = e'.isException) : SameOutcome (.error e) (.error e')

/-! ## What the circuit counts -/

/-- A closed circuit after `n` failures in a row. -/
structure Circuit.Counts (n : Nat) (c : Circuit) : Prop where
  closed : c.state = .closed
  count : c.consecutiveFailures = n

def strike (n : Nat) : Except PyExc GatewayResponse → Nat
  | .ok _ => 0
  | .error (.aegis (.provider _)) => n + 1
  | .error _ => n

namespace Service

variable (svc : Service) (answer : CaseAnswers) (routeId : String)

def strikes (n : Nat) (cases : List EvaluationCase) : Nat :=
  cases.foldl (fun n case => strike n (svc.alone answer routeId case)) n

/-- The cases have opened the circuit. -/
def Trips (n : Nat) (cases : List EvaluationCase) : Prop :=
  ∃ first, first <+: cases ∧ svc.circuits.failureThreshold ≤ svc.strikes answer routeId n first

end Service

/-! ## The steps of a case -/

/-- The case is under way, and the circuit of the route is `c`. -/
structure Bench.At (routeId : String) (case : EvaluationCase) (began : ℚ)
    (todo : List EvaluationCase) (c : Circuit) (b : Bench) : Prop where
  current : b.current = some (case, began)
  todo : b.todo = todo
  circuit : b.world.circuits.get routeId = c
  clock : began ≤ b.world.clock

theorem Circuit.beforeRequest_of_available {cfg : CircuitSettings} {c : Circuit}
    (h : c.available = true) (t : ℚ) (routeId : String) :
    ∃ c', (c.advance cfg t).beforeRequest routeId = (.ok c.state, c') ∧
      (c.state = .closed → c' = c) := by
  obtain ⟨hopen, hprobe⟩ := (available_iff c).mp h
  rw [advance_of_not_due (not_due_of_ne hopen), beforeRequest, if_neg hopen]
  split_ifs with hhalf hflag
  · exact absurd hflag (by simp [hprobe hhalf])
  · exact ⟨_, rfl, fun hclosed => by simp [hhalf] at hclosed⟩
  · exact ⟨_, rfl, fun _ => rfl⟩

theorem Circuit.Counts.failure {cfg : CircuitSettings} {n : Nat} {c : Circuit} (h : c.Counts n)
    (t : ℚ) : cfg.failureThreshold ≤ n + 1 ∨ (c.recordFailure cfg t).Counts (n + 1) := by
  by_cases hlimit : cfg.failureThreshold ≤ n + 1
  · exact .inl hlimit
  · rw [recordFailure, h.count, if_neg (by simp [h.closed, hlimit])]
    exact .inr ⟨h.closed, rfl⟩

theorem World.le_after (w : World) (p : Pause) : w.clock ≤ (w.after p).clock :=
  le_add_of_nonneg_right p.nonneg

theorem Bench.At.moved {routeId : String} {case : EvaluationCase} {began : ℚ}
    {todo : List EvaluationCase} {c c' : Circuit} {b : Bench} (h : b.At routeId case began todo c)
    (p : Pause) {w' : World} (hclock : w'.clock = (b.world.after p).clock)
    (hcircuit : w'.circuits.get routeId = c') :
    ({ b with world := w' } : Bench).At routeId case began todo c' where
  current := h.current
  todo := h.todo
  circuit := hcircuit
  clock := by
    rw [hclock]
    exact h.clock.trans (World.le_after _ _)

namespace Service

variable {svc : Service} {answer : CaseAnswers} {routeId : String} {case : EvaluationCase}
  {began : ℚ} {todo : List EvaluationCase} {c : Circuit} {b b' : Bench}

theorem monotonic_step (h : b.At routeId case began todo c) {t : ℚ}
    (hs : b.Step svc answer .monotonic t b') :
    b'.At routeId case began todo c ∧ began ≤ t ∧ t < began + 120 := by
  obtain ⟨p, w', hexec, htime, rfl⟩ := hs
  cases hexec
  exact ⟨h.moved p rfl h.circuit, h.clock.trans (World.le_after _ _), htime _ h.current⟩

theorem datetimeNow_step (h : b.At routeId case began todo c) {t : Int}
    (hs : b.Step svc answer .datetimeNow t b') : b'.At routeId case began todo c := by
  obtain ⟨p, w', hexec, -, rfl⟩ := hs
  cases hexec
  exact h.moved p rfl h.circuit

theorem setCircuitState_step (h : b.At routeId case began todo c) {id : String}
    {state : CircuitState} {a : Unit} (hs : b.Step svc answer (.setCircuitState id state) a b') :
    b'.At routeId case began todo c := by
  obtain ⟨p, w', hexec, -, rfl⟩ := hs
  cases hexec
  exact h.moved p rfl h.circuit

theorem isAvailable_step (h : b.At routeId case began todo c) {id : String} {available : Bool}
    (hs : b.Step svc answer (.isAvailable id) available b') : ∃ t,
      b'.At routeId case began todo (if id = routeId then c.advance svc.circuits t else c) ∧
      (id = routeId → available = (c.advance svc.circuits t).available) := by
  obtain ⟨p, w', hexec, -, rfl⟩ := hs
  cases hexec
  refine ⟨(b.world.after p).clock, h.moved p rfl ?_, ?_⟩
  · rw [Circuits.isAvailable_get, ← h.circuit]
    rfl
  · rintro rfl
    rw [← h.circuit]
    rfl

theorem beforeRequest_step (h : b.At routeId case began todo c) {a : Except String CircuitState}
    (hs : b.Step svc answer (.beforeRequest routeId) a b') : ∃ t,
      b'.At routeId case began todo ((c.advance svc.circuits t).beforeRequest routeId).2 ∧
      a = ((c.advance svc.circuits t).beforeRequest routeId).1 := by
  obtain ⟨p, w', hexec, -, rfl⟩ := hs
  cases hexec
  refine ⟨(b.world.after p).clock, h.moved p rfl ?_, ?_⟩
  · rw [Circuits.beforeRequest_get, if_pos rfl, ← h.circuit]
    rfl
  · rw [← h.circuit]
    rfl

theorem recordSuccess_step (h : b.At routeId case began todo c) {state : CircuitState}
    (hs : b.Step svc answer (.recordSuccess routeId) state b') :
    b'.At routeId case began todo {} := by
  obtain ⟨p, w', hexec, -, rfl⟩ := hs
  cases hexec
  refine h.moved p rfl ?_
  rw [Circuits.recordSuccess_get, if_pos rfl]
  rfl

theorem recordFailure_step (h : b.At routeId case began todo c) {state : CircuitState}
    (hs : b.Step svc answer (.recordFailure routeId) state b') : ∃ t,
      b'.At routeId case began todo (c.recordFailure svc.circuits t) := by
  obtain ⟨p, w', hexec, -, rfl⟩ := hs
  cases hexec
  refine ⟨(b.world.after p).clock, h.moved p rfl ?_⟩
  rw [Circuits.recordFailure_get, if_pos rfl, ← h.circuit]
  rfl

theorem complete_step (h : b.At routeId case began todo c) {q : GatewayRequest}
    {route : ModelRoute} {a : Except PyExc ProviderResult}
    (hs : b.Step svc answer (.complete q route) a b') :
    b'.At routeId case began todo c ∧
      a = (answer case).mapError fun e => .aegis (.provider e) := by
  obtain ⟨p, c₀, hcurrent, -, rfl, rfl⟩ := hs
  obtain rfl := Option.some.inj (h.current.symm.trans hcurrent)
  exact ⟨h.moved p rfl h.circuit, rfl⟩

/-! ## The routing of a case -/

theorem accepted_iff {q : GatewayRequest} {route : ModelRoute} {available : Bool} :
    rejectReasons q (forcedOptions routeId) route available = [] ↔
      rejectReasons q (forcedOptions routeId) route true = [] ∧ available = true := by
  simp only [rejectReasons_eq_nil, and_assoc, and_true]

theorem id_of_accepted {q : GatewayRequest} {route : ModelRoute} {available : Bool}
    (h : rejectReasons q (forcedOptions routeId) route available = []) : route.id = routeId :=
  (rejectReasons_eq_nil.mp h).1.forced routeId rfl

theorem passed_eq_nil_of_others {q : GatewayRequest} {xs : List (ModelRoute × Bool)}
    (h : ∀ a ∈ xs, a.1.id ≠ routeId) : svc.passed q (forcedOptions routeId) xs = [] := by
  refine List.filterMap_eq_nil_iff.mpr fun a ha => if_neg fun haccepted => ?_
  exact h a ha (id_of_accepted haccepted)

theorem passed_forced {q : GatewayRequest} {xs : List (ModelRoute × Bool)} {available : Bool}
    (hnd : ((xs.map Prod.fst).map (·.id)).Nodup)
    (h : ∀ a ∈ xs, a.1.id = routeId → a.2 = available) :
    svc.passed q (forcedOptions routeId) xs = if available then
      (((xs.map Prod.fst).find? fun route =>
        rejectReasons q (forcedOptions routeId) route true = []).map (svc.toCandidate q)).toList
      else [] := by
  induction xs with
  | nil => simp [passed]
  | cons a xs ih =>
    obtain ⟨hfresh, hnd⟩ := List.nodup_cons.mp hnd
    have ih := ih hnd fun a' ha' => h a' (List.mem_cons_of_mem a ha')
    rw [List.map_cons, List.find?_cons, passed, List.filterMap_cons]
    by_cases haccepted : rejectReasons q (forcedOptions routeId) a.1 true = []
    · have hid := id_of_accepted haccepted
      have hothers : svc.passed q (forcedOptions routeId) xs = [] :=
        passed_eq_nil_of_others fun a' ha' heq => hfresh (List.mem_map.mpr
          ⟨a'.1, List.mem_map_of_mem ha', heq.trans hid.symm⟩)
      have hanswer := h a List.mem_cons_self hid
      rw [passed] at hothers
      cases available with
      | true =>
        have hpass : rejectReasons q (forcedOptions routeId) a.1 a.2 = [] := by rwa [hanswer]
        simp [hpass, haccepted, hothers]
      | false =>
        have hfail : rejectReasons q (forcedOptions routeId) a.1 a.2 ≠ [] := fun h =>
          Bool.false_ne_true (hanswer.symm.trans (accepted_iff.mp h).2)
        simp [hfail, hothers]
    · have hfail : rejectReasons q (forcedOptions routeId) a.1 a.2 ≠ [] := fun h =>
        haccepted (accepted_iff.mp h).1
      rw [passed] at ih
      simp [hfail, haccepted, ih]

theorem screen_ensures (q : GatewayRequest) (opts : RoutingOptions) {routes : List ModelRoute}
    (hnd : (routes.map (·.id)).Nodup) (hb : b.At routeId case began todo c) :
    (svc.screen q opts routes).Ensures (Bench.Step svc answer) b fun out b' =>
      ∃ xs c', out = .ok (svc.passed q opts xs, turnedDown q opts xs) ∧
        xs.map Prod.fst = routes ∧ b'.At routeId case began todo c' ∧
        (∀ a ∈ xs, a.1.id = routeId → a.2 = c'.available) ∧
        (routeId ∉ routes.map (·.id) → c' = c) ∧ (c.state = .closed → c' = c) := by
  induction routes generalizing b c with
  | nil => exact ⟨[], c, rfl, rfl, hb, List.forall_mem_nil _, fun _ => rfl, fun _ => rfl⟩
  | cons route routes ih =>
    obtain ⟨hfresh, hnd⟩ := List.nodup_cons.mp hnd
    simp only [screen, Prog.ensures_bind, Prog.ensures_perform, Prog.onward_ok]
    intro available b₁ hs
    obtain ⟨t, hb₁, havailable⟩ := isAvailable_step hb hs
    apply (ih hnd hb₁).mono
    rintro _ b' ⟨xs, c', rfl, hxs, hb', hanswers, hothers, hclosed⟩
    -- Only a closed circuit is sure not to move when it is asked.
    have hkept : c.state = .closed → c' = c := by
      intro hstate
      have hadvance : c.advance svc.circuits t = c :=
        Circuit.advance_of_not_due (Circuit.not_due_of_ne (by simp [hstate]))
      rw [hadvance, ite_self] at hclosed
      exact hclosed hstate
    have hhead : route.id = routeId → available = c'.available := by
      rintro rfl
      rw [hothers hfresh, if_pos rfl]
      exact havailable rfl
    have hframe : routeId ∉ (route :: routes).map (·.id) → c' = c := by
      intro hnot
      rw [List.map_cons, List.mem_cons, not_or] at hnot
      rw [hothers hnot.2, if_neg (Ne.symm hnot.1)]
    rw [Prog.onward_ok]
    split_ifs with h
    all_goals
      rw [Prog.ensures_pure]
      refine ⟨(route, available) :: xs, c', ?_, by simp [hxs], hb',
        List.forall_mem_cons.mpr ⟨hhead, hanswers⟩, hframe, hkept⟩
      simp [passed, turnedDown, h]

theorem conclude_single (q : GatewayRequest) (only : RoutingCandidate)
    (rejected : List RejectedRoute) : ∃ d candidate,
      svc.conclude q (forcedOptions routeId) [only] rejected = .ok d ∧
      orderedCandidates d = [candidate] ∧ candidate.routeId = only.routeId := by
  refine ⟨_, { only with routingRegret := max 0 (only.utility - only.utility) }, rfl, ?_, rfl⟩
  simp [orderedCandidates, forcedOptions]

/-- The router takes the route exactly if the request is eligible for it and the circuit lets
it through. -/
theorem decide_ensures (q : GatewayRequest) (hb : b.At routeId case began todo c) :
    (svc.decide q (forcedOptions routeId)).Ensures (Bench.Step svc answer) b fun out b' =>
      ∃ c', b'.At routeId case began todo c' ∧ (c.state = .closed → c' = c) ∧
        ((∃ m, out = .error (.aegis (.noEligibleRoute m))) ∧
            (svc.forcedRoute routeId q = none ∨ c.state ≠ .closed) ∨
          ∃ d route candidate, out = .ok d ∧ orderedCandidates d = [candidate] ∧
            svc.forcedRoute routeId q = some route ∧ c'.available = true ∧
            candidate.routeId = route.id) := by
  rw [decide, Prog.ensures_bind]
  apply (screen_ensures q _ svc.routes_nodup hb).mono
  rintro _ b' ⟨xs, c', rfl, hxs, hb', hanswers, -, hclosed⟩
  rw [Prog.onward_ok, Prog.ensures_ofExcept]
  refine ⟨c', hb', hclosed, ?_⟩
  have hpassed := svc.passed_forced (q := q) (hxs ▸ svc.routes_nodup) hanswers
  rw [hxs, ← forcedRoute] at hpassed
  by_cases havailable : c'.available = true
  · rw [if_pos havailable] at hpassed
    cases hroute : svc.forcedRoute routeId q with
    | none =>
      rw [hroute] at hpassed
      exact .inl ⟨conclude_error hpassed, .inl rfl⟩
    | some route =>
      rw [hroute] at hpassed
      rw [hpassed]
      obtain ⟨d, candidate, hd, hordered, hid⟩ :=
        conclude_single q (svc.toCandidate q route) (turnedDown q (forcedOptions routeId) xs)
      exact .inr ⟨d, route, candidate, hd, hordered, rfl, havailable, hid⟩
  · rw [if_neg havailable] at hpassed
    refine .inl ⟨conclude_error hpassed, .inr fun hstate => havailable ?_⟩
    rw [hclosed hstate]
    simp [Circuit.available, hstate]

/-! ## The attempt of a case -/

theorem enter_ensures {q : GatewayRequest} {started : ℚ} {route : ModelRoute}
    (hq : q.maxLatencyMs = 120000) (hstarted : began ≤ started) (hroute : route.id = routeId)
    (havailable : c.available = true) (hb : b.At routeId case began todo c) :
    (svc.enter (caseExchange routeId q started) route).Ensures (Bench.Step svc answer) b
      fun out b' => ∃ c' remaining, b'.At routeId case began todo c' ∧
        (c.state = .closed → c' = c) ∧
        out = (svc.adapter route.provider).map fun _ => some remaining := by
  simp only [enter, Prog.ensures_bind, Prog.ensures_perform, Prog.onward_ok]
  intro now b₁ hs₁
  obtain ⟨hb₁, -, hnow⟩ := monotonic_step hb hs₁
  have hremaining : 0 < remainingSeconds (caseExchange routeId q started).started
      (caseExchange routeId q started).request now := by
    unfold remainingSeconds caseExchange
    rw [hq]
    norm_num
    linarith
  rw [if_neg (not_le.mpr hremaining), Prog.ensures_bind]
  subst hroute
  intro admitted b₂ hs₂
  obtain ⟨t, hb₂, rfl⟩ := beforeRequest_step hb₁ hs₂
  obtain ⟨c', hadmitted, hkept⟩ := Circuit.beforeRequest_of_available havailable t route.id
  rw [hadmitted] at hb₂ ⊢
  simp only [raising, Except.mapError, Prog.ensures_ofExcept, Prog.onward_ok, Prog.ensures_bind,
    Prog.ensures_perform]
  intro _ b₃ hs₃
  have hb₃ := setCircuitState_step hb₂ hs₃
  cases svc.adapter route.provider with
  | ok => exact ⟨c', _, hb₃, hkept, rfl⟩
  | error e => exact ⟨c', 0, hb₃, hkept, rfl⟩

theorem keep_case (q : GatewayRequest) (started : ℚ) (response : GatewayResponse) :
    keep (caseExchange routeId q started) response = pure () := rfl

theorem tryComplete_ensures {q : GatewayRequest} {started : ℚ} {route : ModelRoute}
    (hq : q.maxLatencyMs = 120000) (hstarted : began ≤ started) (hroute : route.id = routeId)
    (havailable : c.available = true) (hb : b.At routeId case began todo c)
    (candidate : RoutingCandidate) (fallbackCount : Nat) :
    (svc.tryComplete (caseExchange routeId q started) candidate route fallbackCount).Ensures
      (Bench.Step svc answer) b fun out b' => ∃ c', b'.At routeId case began todo c' ∧
        ((∃ r r', out = .ok (.done r) ∧ svc.caseAttempt answer routeId case q route = .ok r' ∧
            r.text = r'.text ∧ r.schemaValid = r'.schemaValid ∧ c' = {}) ∨
          ∃ e, out = .error e ∧ svc.caseAttempt answer routeId case q route = .error e ∧
            (c.state = .closed → c' = c)) := by
  rw [tryComplete, Prog.ensures_bind]
  apply (enter_ensures hq hstarted hroute havailable hb).mono
  rintro _ b₁ ⟨c₁, remaining, hb₁, hkept, rfl⟩
  -- The branches of the `try`, one by one, beside the attempt of the case alone.
  cases hadapter : svc.adapter route.provider with
  | error e =>
    have halone : svc.caseAttempt answer routeId case q route = .error e := by
      rw [caseAttempt, hadapter]
      rfl
    exact ⟨c₁, hb₁, .inr ⟨e, rfl, halone, hkept⟩⟩
  | ok _ =>
    simp only [Except.map, Prog.onward_ok, Prog.ensures_bind]
    intro a b₂ hs₂
    obtain ⟨hb₂, rfl⟩ := complete_step hb₁ hs₂
    cases hanswer : answer case with
    | error e =>
      have halone : svc.caseAttempt answer routeId case q route =
          .error (.aegis (.provider e)) := by
        rw [caseAttempt, hadapter, hanswer]
        rfl
      exact ⟨c₁, hb₂, .inr ⟨_, rfl, halone, hkept⟩⟩
    | ok result =>
      simp only [Except.mapError, Prog.ensures_ofExcept, Prog.onward_ok, Prog.ensures_bind]
      change Prog.Onward _ _ _ (svc.platform.validateSchema q result.text) b₂
      cases hvalid : svc.platform.validateSchema q result.text with
      | error e =>
        have halone : svc.caseAttempt answer routeId case q route = .error e := by
          simp [caseAttempt, hadapter, hanswer, Except.mapError, hvalid, bind, Except.bind]
        exact ⟨c₁, hb₂, .inr ⟨e, rfl, halone, hkept⟩⟩
      | ok v =>
        have halone : svc.caseAttempt answer routeId case q route =
            .ok { completeResponse (caseExchange routeId q 0) route (svc.toCandidate q route) 0
              result v.1 v.2 0 0 with requestId := "" } := by
          simp [caseAttempt, hadapter, hanswer, Except.mapError, hvalid, bind, Except.bind, pure,
            Except.pure]
        simp only [Prog.onward_ok, recordSuccess, keep_case, Prog.ensures_bind,
          Prog.ensures_perform, Prog.ensures_pure]
        subst hroute
        intro _ b₃ hs₃ _ b₄ hs₄ now b₅ hs₅ createdAt b₆ hs₆
        have hb₄ := setCircuitState_step (recordSuccess_step hb₂ hs₃) hs₄
        have hb₆ := datetimeNow_step (monotonic_step hb₄ hs₅).1 hs₆
        exact ⟨{}, hb₆, .inl ⟨_, _, rfl, halone, rfl, rfl, rfl⟩⟩

/-! ## The handlers -/

def Struck (svc : Service) (c c' : Circuit) (out : Except PyExc GatewayResponse) : Prop :=
  ∀ n, c.Counts n →
    svc.circuits.failureThreshold ≤ strike n out ∨ c'.Counts (strike n out)

inductive Handed (route : ModelRoute) (st : LoopState) (e : PyExc) :
    Except PyExc (Pass GatewayResponse) → Prop
  | broke {err : AegisError} (h : settled route e = .aegis err) :
      Handed route st e (.ok (.broke (st.failed route err)))
  | next {err : AegisError} (h : settled route e = .aegis err) :
      Handed route st e (.ok (.next (st.failed route err)))
  | raised (h : settled route e = e) : Handed route st e (.error e)

theorem recordFailure_ensures {route : ModelRoute} (hroute : route.id = routeId)
    (hb : b.At routeId case began todo c) :
    (recordFailure route.id).Ensures (Bench.Step svc answer) b fun out b' =>
      out = .ok () ∧ ∃ t, b'.At routeId case began todo (c.recordFailure svc.circuits t) := by
  subst hroute
  simp only [recordFailure, Prog.ensures_bind, Prog.ensures_perform, Prog.onward_ok]
  intro state b₁ hs₁ _ b₂ hs₂
  obtain ⟨t, hb₁⟩ := recordFailure_step hb hs₁
  exact ⟨trivial, t, setCircuitState_step hb₁ hs₂⟩

theorem handleComplete_ensures {route : ModelRoute} (hroute : route.id = routeId)
    (hb : b.At routeId case began todo c) (st : LoopState) (e : PyExc) :
    (handleComplete route st (.error e)).Ensures (Bench.Step svc answer) b fun out b' =>
      Handed route st e out ∧ ∃ c', b'.At routeId case began todo c' ∧
        Struck svc c c' (.error (settled route e)) := by
  have hunstruck : (∀ n, strike n (.error (settled route e)) = n) →
      ∃ c', b.At routeId case began todo c' ∧ Struck svc c c' (.error (settled route e)) := by
    intro h
    refine ⟨c, hb, fun n hc => .inr ?_⟩
    rwa [h]
  cases e with
  | timeoutError =>
    rw [handleComplete, Prog.ensures_bind]
    apply (recordFailure_ensures hroute hb).mono
    rintro _ b' ⟨rfl, t, hb'⟩
    exact ⟨.next rfl, _, hb', fun n hc => hc.failure t⟩
  | aegis err =>
    cases err with
    | provider err =>
      rw [handleComplete, Prog.ensures_bind]
      apply (recordFailure_ensures hroute hb).mono
      rintro _ b' ⟨rfl, t, hb'⟩
      rw [Prog.onward_ok]
      split_ifs
      · exact ⟨.broke rfl, _, hb', fun n hc => hc.failure t⟩
      · exact ⟨.next rfl, _, hb', fun n hc => hc.failure t⟩
    | circuitOpen m =>
      rw [handleComplete, Prog.ensures_bind]
      intro _ b' hs
      exact ⟨.next rfl, c, setCircuitState_step hb hs, fun n hc => .inr hc⟩
    | schemaViolation m => exact ⟨.next rfl, hunstruck fun _ => rfl⟩
    | _ => exact ⟨.raised rfl, hunstruck fun _ => rfl⟩
  | _ => exact ⟨.raised rfl, hunstruck fun _ => rfl⟩

theorem candidateLoop_ensures {q : GatewayRequest} {started : ℚ} {route : ModelRoute}
    {candidate : RoutingCandidate} (hcandidate : svc.getRoute candidate.routeId = .ok route)
    (hq : q.maxLatencyMs = 120000) (hstarted : began ≤ started) (hroute : route.id = routeId)
    (havailable : c.available = true) (hb : b.At routeId case began todo c) :
    (svc.candidateLoop (caseExchange routeId q started)
        (svc.generatePass (caseExchange routeId q started)) [candidate] {}).Ensures
      (Bench.Step svc answer) b fun out b' =>
        SameOutcome out
            ((svc.caseAttempt answer routeId case q route).mapError (settled route)) ∧
          ∃ c', b'.At routeId case began todo c' ∧
            Struck svc c c' ((svc.caseAttempt answer routeId case q route).mapError
              (settled route)) := by
  rw [candidateLoop, hcandidate]
  simp only [Prog.ensures_bind, Prog.ensures_ofExcept, Prog.onward_ok, generatePass,
    Prog.ensures_attempt]
  apply (tryComplete_ensures hq hstarted hroute havailable hb candidate _).mono
  rintro _ b₁ ⟨c₁, hb₁, ⟨r, r', rfl, halone, htext, hschema, rfl⟩ | ⟨e, rfl, halone, hkept⟩⟩
  · rw [halone]
    exact ⟨.response htext hschema, _, hb₁, fun n _ => .inr ⟨rfl, rfl⟩⟩
  · rw [halone]
    apply (handleComplete_ensures hroute hb₁ {} e).mono
    rintro out b₂ ⟨hhanded, c₂, hb₂, hstruck⟩
    have hstruck' : Struck svc c c₂ (.error (settled route e)) := by
      intro n hc
      apply hstruck n
      rwa [hkept hc.closed]
    cases hhanded with
    | broke h | next h | raised h => exact ⟨.error (by rw [h]) (by rw [h]), c₂, hb₂, hstruck'⟩

/-! ## A whole case -/

theorem evaluationRequest_zero {case : EvaluationCase} {id : String} (hid : id.length = 36)
    {q : GatewayRequest} (hq : evaluationRequest case id = .ok q) :
    ∃ q₀, evaluationRequest case zeroUuid = .ok q₀ ∧ q = { q₀ with requestId := s!"eval-{id}" } ∧
      q.prompt = none ∧ q.maxLatencyMs = 120000 := by
  unfold evaluationRequest GatewayRequest.validate at hq ⊢
  split_ifs at hq with hvalid
  cases hq
  refine ⟨_, if_pos ?_, rfl, rfl, rfl⟩
  have hlength : lengthWithin 8 128 s!"eval-{zeroUuid}" = lengthWithin 8 128 s!"eval-{id}" := by
    simp only [lengthWithin, String.length_append, zeroUuid_length, hid, ToString.toString]
  simpa only [GatewayRequest.fieldsValid, hlength] using hvalid

theorem approach_ensures {q : GatewayRequest} (hprompt : q.prompt = none)
    (hb : b.At routeId case began todo c) :
    (svc.approach { request := q, forcedRouteId := some routeId, evaluation := true }).Ensures
      (Bench.Step svc answer) b fun out b' => ∃ started c', began ≤ started ∧
        b'.At routeId case began todo c' ∧ (c.state = .closed → c' = c) ∧
        ((∃ m, out = .error (.aegis (.noEligibleRoute m))) ∧
            (svc.forcedRoute routeId q = none ∨ c.state ≠ .closed) ∨
          ∃ d route candidate, out = .ok (caseExchange routeId q started, .decision d) ∧
            orderedCandidates d = [candidate] ∧ svc.forcedRoute routeId q = some route ∧
            c'.available = true ∧ candidate.routeId = route.id) := by
  simp only [approach, begin, Prog.ensures_bind, Prog.ensures_perform, Prog.onward_ok,
    resolvePrompt, hprompt, Prog.ensures_pure]
  intro started b₁ hs₁
  obtain ⟨hb₁, hstarted, -⟩ := monotonic_step hb hs₁
  change Prog.Ensures _ (svc.decide q (forcedOptions routeId) >>= fun d =>
    pure (caseExchange routeId q started, Origin.decision d)) b₁ _
  rw [Prog.ensures_bind]
  apply (decide_ensures q hb₁).mono
  rintro _ b₂ ⟨c', hb₂, hkept, ⟨⟨m, rfl⟩, hnone⟩ | ⟨d, route, candidate, rfl, hd⟩⟩
  · exact ⟨started, c', hstarted, hb₂, hkept, .inl ⟨⟨m, rfl⟩, hnone⟩⟩
  · exact ⟨started, c', hstarted, hb₂, hkept, .inr ⟨d, route, candidate, rfl, hd⟩⟩

theorem getRoute_eq {route : ModelRoute} (h : route ∈ svc.routes) :
    svc.getRoute route.id = .ok route := by
  obtain ⟨r, hr⟩ := getRoute_of_mem h
  obtain ⟨hmem, hid⟩ := getRoute_ok hr
  rw [hr, List.inj_on_of_nodup_map svc.routes_nodup hmem h hid]

theorem generate_ensures {id : String} (hid : id.length = 36) {q : GatewayRequest}
    (hq : evaluationRequest case id = .ok q) (hb : b.At routeId case began todo c) :
    (svc.generate { request := q, forcedRouteId := some routeId, evaluation := true }).Ensures
      (Bench.Step svc answer) b fun out b' => ∃ c', b'.At routeId case began todo c' ∧
        (SameOutcome out (svc.alone answer routeId case) ∧
            Struck svc c c' (svc.alone answer routeId case) ∨
          c.state ≠ .closed ∧ ∃ m, out = .error (.aegis (.noEligibleRoute m))) := by
  -- The new identifier makes no difference to the routing, nor to the answer.
  obtain ⟨q₀, hq₀, hsame, hprompt, hmax⟩ := evaluationRequest_zero hid hq
  have hforced : svc.forcedRoute routeId q = svc.forcedRoute routeId q₀ := by
    rw [hsame]
    rfl
  have hattempt : ∀ route, svc.caseAttempt answer routeId case q route =
      svc.caseAttempt answer routeId case q₀ route := by
    rw [hsame]
    exact fun route => rfl
  have halone : svc.alone answer routeId case = (match svc.forcedRoute routeId q with
      | none => .error (.aegis (.noEligibleRoute ""))
      | some route => (svc.caseAttempt answer routeId case q₀ route).mapError (settled route)) := by
    rw [alone, hq₀, hforced]
    rfl
  rw [generate, Prog.ensures_bind]
  apply (approach_ensures hprompt hb).mono
  rintro _ b₁ ⟨started, c₁, hstarted, hb₁, hkept, ⟨⟨m, rfl⟩, hnone⟩ |
    ⟨d, route, candidate, rfl, hordered, hroute, havailable, hid⟩⟩
  · -- No candidate: the request is not eligible, or the circuit was not closed.
    refine ⟨c₁, hb₁, ?_⟩
    by_cases hclosed : c.state = .closed
    · have hnone := hnone.resolve_right (not_not.mpr hclosed)
      rw [hnone] at halone
      rw [halone]
      refine .inl ⟨.error rfl rfl, fun n hc => .inr ?_⟩
      rwa [hkept hclosed]
    · exact .inr ⟨hclosed, m, rfl⟩
  · -- One candidate, and so one attempt.
    have hmem : route ∈ svc.routes := List.mem_of_find?_eq_some hroute
    have halone : svc.alone answer routeId case =
        (svc.caseAttempt answer routeId case q route).mapError (settled route) := by
      rw [halone, hroute, hattempt]
    have hrouteId : route.id = routeId :=
      id_of_accepted (by simpa using List.find?_some hroute)
    have hcandidate : svc.getRoute candidate.routeId = .ok route := by
      rw [hid]
      exact getRoute_eq hmem
    change Prog.Ensures _ (svc.candidateLoop _ _ (orderedCandidates d) {}) b₁ _
    rw [hordered]
    apply (candidateLoop_ensures hcandidate hmax hstarted hrouteId havailable hb₁).mono
    rintro out b₂ ⟨hout, c₂, hb₂, hstruck⟩
    rw [← halone] at hout hstruck
    refine ⟨c₂, hb₂, .inl ⟨hout, fun n hc => hstruck n ?_⟩⟩
    rwa [hkept hc.closed]

/-! ## All cases of a data set -/

theorem quality_congr (P : Platform) (case : EvaluationCase) {r r' : GatewayResponse}
    (h : r.text = r'.text) : P.quality case r = P.quality case r' := by
  simp only [Platform.quality, h]

theorem caseOutcome_same (routeId : String) (case : EvaluationCase)
    {out out' : Except PyExc GatewayResponse} (h : SameOutcome out out') :
    ∃ result, result.verdict = svc.caseVerdict routeId case out' ∧
      (svc.caseOutcome case routeId out = pure result ∨
        ∃ e, svc.caseOutcome case routeId out = raise e) := by
  cases h with
  | response htext hschema =>
    refine ⟨_, ?_, .inl rfl⟩
    simp [caseVerdict, caseResult, EvaluationCaseResult.verdict, hschema,
      quality_congr svc.platform case htext]
  | @error e e' hclass hexception =>
    refine ⟨caseFailure case routeId e, ?_, ?_⟩
    · simp [caseVerdict, caseFailure, EvaluationCaseResult.verdict, hclass]
    · by_cases he : e.isException = true
      · exact .inl (if_pos he)
      · exact .inr ⟨e, if_neg he⟩

theorem uuid4_step {cases : List EvaluationCase} (htodo : b.todo = case :: cases)
    (hcircuit : b.world.circuits.get routeId = c) {id : String}
    (hs : b.Step svc answer .uuid4 id b') :
    id.length = 36 ∧ b'.At routeId case b'.world.clock cases c := by
  obtain ⟨p, hid, rfl⟩ := hs
  refine ⟨hid, ⟨?_, ?_, hcircuit, le_rfl⟩⟩
  · rw [htodo]
    rfl
  · rw [htodo]
    rfl

theorem strikes_concat (n : Nat) (earlier : List EvaluationCase) (case : EvaluationCase) :
    svc.strikes answer routeId n (earlier ++ [case]) =
      strike (svc.strikes answer routeId n earlier) (svc.alone answer routeId case) := by
  simp [strikes]

theorem Trips.mono {n : Nat} {cases more : List EvaluationCase}
    (h : svc.Trips answer routeId n cases) (hmore : cases <+: more) :
    svc.Trips answer routeId n more := by
  obtain ⟨first, hfirst, hlimit⟩ := h
  exact ⟨first, hfirst.trans hmore, hlimit⟩

/-- A result that the case has alone, or the refusal of an open circuit. -/
def Recorded (svc : Service) (answer : CaseAnswers) (routeId : String) (n : Nat)
    (earlier : List EvaluationCase) (case : EvaluationCase) (result : EvaluationCaseResult) :
    Prop :=
  result.verdict = svc.caseVerdict routeId case (svc.alone answer routeId case) ∨
  svc.Trips answer routeId n earlier ∧ result.verdict =
    svc.caseVerdict routeId case (.error (.aegis (.noEligibleRoute "")))

/-- The circuit after some cases: it has opened, or it is closed and counts. -/
def Stands (svc : Service) (answer : CaseAnswers) (routeId : String) (n : Nat)
    (earlier : List EvaluationCase) (c : Circuit) : Prop :=
  svc.Trips answer routeId n earlier ∨ c.Counts (svc.strikes answer routeId n earlier)

theorem stands_concat {n : Nat} {earlier : List EvaluationCase} {c' : Circuit}
    (h : svc.Stands answer routeId n earlier c)
    (hstruck : Struck svc c c' (svc.alone answer routeId case)) :
    svc.Stands answer routeId n (earlier ++ [case]) c' := by
  rcases h with htrips | hcounts
  · exact .inl (htrips.mono (List.prefix_append _ _))
  · rw [Stands, strikes_concat]
    refine (hstruck _ hcounts).imp_left fun hlimit => ⟨_, List.prefix_rfl, ?_⟩
    rwa [strikes_concat]

/-- What one case records, and how it leaves the circuit. -/
theorem case_ensures {n : Nat} {earlier : List EvaluationCase}
    (h : svc.Stands answer routeId n earlier c) {id : String} (hid : id.length = 36)
    {q : GatewayRequest} (hq : evaluationRequest case id = .ok q)
    (hb : b.At routeId case began todo c) :
    (svc.generate { request := q, forcedRouteId := some routeId, evaluation := true }).Ensures
      (Bench.Step svc answer) b fun out b' => ∃ c' result, b'.At routeId case began todo c' ∧
        svc.Stands answer routeId n (earlier ++ [case]) c' ∧
        svc.Recorded answer routeId n earlier case result ∧
        (svc.caseOutcome case routeId out = pure result ∨
          ∃ e, svc.caseOutcome case routeId out = raise e) := by
  apply (generate_ensures hid hq hb).mono
  rintro out b' ⟨c', hb', ⟨hsame, hstruck⟩ | ⟨hopen, m, rfl⟩⟩
  · obtain ⟨result, hverdict, hresult⟩ := svc.caseOutcome_same routeId case hsame
    exact ⟨c', result, hb', stands_concat h hstruck, .inl hverdict, hresult⟩
  · have htrips := h.resolve_right fun hcounts => hopen hcounts.closed
    exact ⟨c', caseFailure case routeId _, hb', .inl (htrips.mono (List.prefix_append _ _)),
      .inr ⟨htrips, rfl⟩, .inl rfl⟩

theorem runCases_ensures {n : Nat} {earlier cases : List EvaluationCase}
    (htodo : b.todo = cases)
    (h : svc.Stands answer routeId n earlier (b.world.circuits.get routeId)) :
    (svc.runCases routeId cases).Ensures (Bench.Step svc answer) b fun out _ =>
      ∀ results, out = .ok results → results.length = cases.length ∧
        ∀ i case result, cases[i]? = some case → results[i]? = some result →
          svc.Recorded answer routeId n (earlier ++ cases.take i) case result := by
  -- `Stands` carries over what the cases so far have done to the circuit.
  induction cases generalizing b earlier with
  | nil =>
    rintro _ ⟨⟩
    exact ⟨rfl, by simp⟩
  | cons case cases ih =>
    simp only [runCases, Prog.ensures_bind, Prog.ensures_perform, Prog.onward_ok,
      Prog.ensures_ofExcept]
    intro id b₁ hs₁
    obtain ⟨hid, hb₁⟩ := uuid4_step htodo rfl hs₁
    cases hq : evaluationRequest case id with
    | error e =>
      rintro _ ⟨⟩
    | ok q =>
      rw [Prog.onward_ok, Prog.ensures_bind, Prog.ensures_attempt]
      apply (case_ensures h hid hq hb₁).mono
      rintro out b₂ ⟨c₂, result, hb₂, hstands, hrecorded, hresult | ⟨e, hraise⟩⟩
      all_goals rw [Prog.onward_ok, Prog.ensures_bind]
      · rw [hresult, Prog.ensures_pure, Prog.onward_ok, Prog.ensures_bind]
        apply (ih hb₂.todo (hb₂.circuit ▸ hstands)).mono
        rintro out b₃ hrest
        cases out with
        | error e =>
          rintro _ ⟨⟩
        | ok results =>
          obtain ⟨hlength, hall⟩ := hrest results rfl
          rintro _ ⟨⟩
          refine ⟨by simp [hlength], fun i case' result' hcase' hresult' => ?_⟩
          cases i with
          | zero =>
            cases hcase'
            cases hresult'
            simpa using hrecorded
          | succ i =>
            have hrest := hall i case' result' hcase' hresult'
            rwa [List.append_assoc, List.singleton_append] at hrest
      · rw [hraise]
        rintro _ ⟨⟩

/-! ## Whole evaluations -/

/-- The runner has come to its end, over a data set with these cases and from a closed circuit
that counts `n` failures. -/
inductive Evaluates (svc : Service) (answer : CaseAnswers) (routeId : String) (n : Nat)
    (cases : List EvaluationCase) : EvaluationRun → Prop
  | intro {b b' : Bench} {name : String} {version : Option String} {artifact : Artifact}
      {run : EvaluationRun}
      (hartifact : b.world.database.getArtifact .dataset name version = .ok artifact)
      (hcases : svc.platform.datasetCases artifact.content = .ok cases) (htodo : b.todo = cases)
      (hclosed : (b.world.circuits.get routeId).Counts n)
      (hbelow : n < svc.circuits.failureThreshold)
      (hrun : (svc.runEvaluation name version routeId).Ends (Bench.Step svc answer) b (.ok run)
        b') :
      Evaluates svc answer routeId n cases run

/-- The gateway can come to such a run, with nothing beside it. -/
theorem reachable_evaluation {b b' : Bench} {name : String} {version : Option String}
    {run : EvaluationRun} {c : State} {i : Nat}
    (hrun : (svc.runEvaluation name version routeId).Ends (Bench.Step svc answer) b (.ok run) b')
    (ht : c.tasks[i]? = some ⟨.runEvaluation name version routeId,
      svc.body (.runEvaluation name version routeId)⟩) (hworld : c.world = b.world) :
    ∃ c', svc.machine.Reachable c c' ∧ c'.world = b'.world ∧
      c'.Finished i (.runEvaluation name version routeId) (.ok (.evaluation run)) := by
  have hbody : (svc.body (.runEvaluation name version routeId)).Ends (Bench.Step svc answer) b
      (.ok (.evaluation run)) b' := hrun.bind (.pure _ _)
  obtain ⟨c', hreach, hfinished, hworld'⟩ :=
    Machine.reachable_of_ends Bench.world Bench.exec_of_step hbody ht hworld
  exact ⟨c', hreach, hworld', hfinished⟩

structure CasesReported (svc : Service) (answer : CaseAnswers) (routeId : String) (n : Nat)
    (cases : List EvaluationCase) (run : EvaluationRun) : Prop where
  passRate : run.passRate = (share (·.passed) run.results).getD 0
  meanQuality : run.meanQuality = (mean (·.qualityScore) run.results).getD 0
  schemaCompliance : run.schemaCompliance = share id (run.results.filterMap (·.schemaValid))
  length : run.results.length = cases.length
  recorded : ∀ i case result, cases[i]? = some case → run.results[i]? = some result →
    svc.Recorded answer routeId n (cases.take i) case result

theorem runEvaluation_ensures {n : Nat} {cases : List EvaluationCase} {name : String}
    {version : Option String} {artifact : Artifact}
    (hartifact : b.world.database.getArtifact .dataset name version = .ok artifact)
    (hcases : svc.platform.datasetCases artifact.content = .ok cases) (htodo : b.todo = cases)
    (hclosed : (b.world.circuits.get routeId).Counts n) :
    (svc.runEvaluation name version routeId).Ensures (Bench.Step svc answer) b fun out _ =>
      ∀ run, out = .ok run → svc.CasesReported answer routeId n cases run := by
  rw [runEvaluation, getArtifact, Prog.ensures_bind]
  intro a b₁ hs₁
  obtain ⟨p, w', hexec, -, rfl⟩ := hs₁
  cases hexec
  have hanswer : (b.world.after p).database.getArtifact .dataset name version = .ok artifact :=
    hartifact
  simp only [hanswer, raising, Except.mapError, Prog.ensures_ofExcept, Prog.onward_ok,
    Prog.ensures_bind, hcases]
  have hstands : svc.Stands answer routeId n [] ((b.world.after p).circuits.get routeId) :=
    .inr hclosed
  have hcases := runCases_ensures (b := { b with world := b.world.after p }) htodo hstands
  apply hcases.mono
  rintro out b₂ hresults
  cases out with
  | error e =>
    rintro _ ⟨⟩
  | ok results =>
    obtain ⟨hlength, hall⟩ := hresults results rfl
    rw [Prog.onward_ok]
    rintro id b₃ - createdAt b₄ - _ b₅ - _ ⟨⟩
    exact ⟨rfl, rfl, rfl, hlength, hall⟩

theorem reported_of_evaluates {n : Nat} {cases : List EvaluationCase} {run : EvaluationRun}
    (h : svc.Evaluates answer routeId n cases run) :
    svc.CasesReported answer routeId n cases run := by
  obtain ⟨hartifact, hcases, htodo, hclosed, -, hrun⟩ := h
  exact (Prog.ensures_iff _ _).mp (runEvaluation_ensures hartifact hcases htodo hclosed) _ _ hrun
    run rfl

theorem CasesReported.scores {n : Nat} {cases : List EvaluationCase} {run : EvaluationRun}
    (h : svc.CasesReported answer routeId n cases run) :
    run.passRate = (share (·.passed) (run.results.map (·.verdict))).getD 0 ∧
    run.meanQuality = (mean (·.qualityScore) (run.results.map (·.verdict))).getD 0 ∧
    run.schemaCompliance =
      share id ((run.results.map (·.verdict)).filterMap (·.schemaValid)) := by
  rw [share_map, mean_map, List.filterMap_map]
  exact ⟨h.passRate, h.meanQuality, h.schemaCompliance⟩

theorem not_trips_nil {n : Nat} (h : n < svc.circuits.failureThreshold) :
    ¬ svc.Trips answer routeId n [] := by
  rintro ⟨first, hfirst, hlimit⟩
  rw [List.prefix_nil.mp hfirst] at hlimit
  exact absurd h (not_lt.mpr hlimit)

/-- As long as the circuit does not open in front of a case, every case has its own result. -/
theorem CasesReported.verdicts {n : Nat} {cases : List EvaluationCase} {run : EvaluationRun}
    (h : svc.CasesReported answer routeId n cases run)
    (hopen : ¬ svc.Trips answer routeId n cases.dropLast) : run.results.map (·.verdict) =
      cases.map fun case => svc.caseVerdict routeId case (svc.alone answer routeId case) := by
  apply List.ext_getElem (by simp [h.length])
  intro i hi hi'
  rw [List.length_map] at hi hi'
  rw [List.getElem_map, List.getElem_map]
  have hrecorded := h.recorded i cases[i] run.results[i] (List.getElem?_eq_getElem hi')
    (List.getElem?_eq_getElem hi)
  refine hrecorded.resolve_right fun hrefused => hopen (hrefused.1.mono ?_)
  rw [List.dropLast_eq_take]
  exact List.take_prefix_take_left (by omega)

/-- The cases of an evaluation are independent up to the circuit of their route. A case has the
result that it has alone, unless the cases in front of it have opened the circuit: then it may be
refused instead. And the scores do not depend on the order, among the orders in which the circuit
does not open in front of a case. -/
theorem cases_independent {n : Nat} {cases : List EvaluationCase} {run : EvaluationRun}
    (h : svc.Evaluates answer routeId n cases run) :
    run.results.length = cases.length ∧
    (∀ i case result, cases[i]? = some case → run.results[i]? = some result →
      ∀ n₁ run₁, svc.Evaluates answer routeId n₁ [case] run₁ → ∃ own, run₁.results = [own] ∧
        (result.verdict = own.verdict ∨ svc.Trips answer routeId n (cases.take i) ∧
          result.verdict = svc.caseVerdict routeId case (.error (.aegis (.noEligibleRoute ""))))) ∧
    (¬ svc.Trips answer routeId n cases.dropLast → ∀ n' cases' run',
      svc.Evaluates answer routeId n' cases' run' → cases.Perm cases' →
      ¬ svc.Trips answer routeId n' cases'.dropLast →
        run.passRate = run'.passRate ∧ run.meanQuality = run'.meanQuality ∧
          run.schemaCompliance = run'.schemaCompliance) := by
  have hreported := reported_of_evaluates h
  refine ⟨hreported.length, fun i case result hcase hresult n₁ run₁ h₁ => ?_,
    fun hopen n' cases' run' h' hperm hopen' => ?_⟩
  · -- A run over the one case alone, which no earlier case can disturb.
    have hreported₁ := reported_of_evaluates h₁
    obtain ⟨own, hown⟩ := List.length_eq_one_iff.mp hreported₁.length
    have hbelow : n₁ < svc.circuits.failureThreshold := by
      cases h₁
      assumption
    have hverdict : own.verdict = svc.caseVerdict routeId case (svc.alone answer routeId case) := by
      simpa [hown] using hreported₁.verdicts (not_trips_nil hbelow)
    refine ⟨own, hown, ?_⟩
    rw [hverdict]
    exact hreported.recorded i case result hcase hresult
  · have hreported' := reported_of_evaluates h'
    -- Without an interruption each verdict is that of its case, wherever it stands.
    have hverdicts : (run.results.map (·.verdict)).Perm (run'.results.map (·.verdict)) := by
      rw [hreported.verdicts hopen, hreported'.verdicts hopen']
      exact hperm.map _
    obtain ⟨hpass, hmean, hschema⟩ := hreported.scores
    obtain ⟨hpass', hmean', hschema'⟩ := hreported'.scores
    rw [hpass, hmean, hschema, hpass', hmean', hschema', share_perm _ hverdicts,
      mean_perm _ hverdicts, share_perm _ (hverdicts.filterMap _)]
    exact ⟨rfl, rfl, rfl⟩

/-! ## Two cases, in either order -/

def benchNext (svc : Service) (answer : CaseAnswers) (b : Bench) :
    (o : Op) → Option (Ans o × Bench)
  | .uuid4 => some (zeroUuid,
      { world := b.world
        current := b.todo.head?.map fun case => (case, b.world.clock)
        todo := b.todo.tail })
  | .complete _ _ => b.current.bind fun c =>
      if b.world.clock < c.2 + 120 then
        some ((answer c.1).mapError fun e => .aegis (.provider e), b)
      else none
  | o =>
    if b.current.all fun c => b.world.clock < c.2 + 120 then
      (svc.exec b.world o .go).map fun r => (r.1, { b with world := r.2 })
    else none

theorem step_of_exec {o : Op} {a : Ans o}
    (h : (if b.current.all fun c => b.world.clock < c.2 + 120 then
      (svc.exec b.world o .go).map fun r => (r.1, { b with world := r.2 }) else none) =
        some (a, b')) :
    ∃ p w', svc.exec (b.world.after p) o .go = some (a, w') ∧ b.InTime (b.world.after p) ∧
      b' = { b with world := w' } := by
  split_ifs at h with htime
  obtain ⟨⟨a, w'⟩, hexec, hsome⟩ := Option.map_eq_some_iff.mp h
  cases hsome
  refine ⟨0, w', ?_, fun c hc => ?_, rfl⟩
  · rwa [World.after_zero]
  · rw [World.after_zero]
    simpa [Option.mem_def.mp hc] using htime

theorem step_of_benchNext (b : Bench) (o : Op) (a : Ans o) (b' : Bench)
    (h : benchNext svc answer b o = some (a, b')) : b.Step svc answer o a b' := by
  cases o with
  | uuid4 =>
    cases h
    exact ⟨0, zeroUuid_length, by rw [World.after_zero]⟩
  | complete q route =>
    obtain ⟨c, hc, h⟩ := Option.bind_eq_some_iff.mp h
    split_ifs at h with htime
    cases h
    refine ⟨0, c, hc, fun c' hc' => ?_, rfl, by rw [World.after_zero]⟩
    obtain rfl := Option.some.inj (hc.symm.trans hc')
    rwa [World.after_zero]
  | _ => exact step_of_exec h

def namedService : Service :=
  { Sample.service with
    platform := { Sample.platform with
      validateCase := fun item => match item with
        | .str id => .ok { id, messages := [⟨.user, "hello", none⟩] }
        | _ => .error invalidModel } }

def namedCase (id : String) : EvaluationCase := { id, messages := [⟨.user, "hello", none⟩] }

def namedAnswers : CaseAnswers := fun case =>
  if case.id = "refused" then .error { message := "unavailable", provider := "openai" }
  else .ok ⟨"hello", 1, 1, 1, "model-a"⟩

def namedDataset (ids : List String) : Artifact :=
  { dataset .null with content := [("cases", .arr (ids.map .str))] }

def namedBench (ids : List String) : Bench :=
  { world := { database := { artifacts := [namedDataset ids] } }
    todo := ids.map namedCase }

def namedRun (ids : List String) : Option (Except PyExc EvaluationRun × Bench) :=
  (namedService.runEvaluation "golden" none "primary").follow (benchNext namedService namedAnswers)
    (namedBench ids)

theorem evaluates_of_namedRun {ids : List String} {x : Except PyExc EvaluationRun × Bench}
    (hx : x ∈ namedRun ids) {run : EvaluationRun} (hrun : run ∈ x.1.toOption)
    (hcases : namedService.platform.datasetCases [("cases", .arr (ids.map .str))] =
      .ok (ids.map namedCase)) :
    namedService.Evaluates namedAnswers "primary" 0 (ids.map namedCase) run := by
  obtain ⟨out, b'⟩ := x
  cases out with
  | error e => cases hrun
  | ok run' =>
    cases hrun
    have hartifact : (namedBench ids).world.database.getArtifact .dataset "golden" none =
        .ok (namedDataset ids) := rfl
    exact .intro hartifact hcases rfl ⟨rfl, rfl⟩ (by decide)
      (Prog.ends_of_follow step_of_benchNext hx)

/-- Behind a case that is answered, a case fails as it does alone. -/
theorem cases_independent_named : ∃ run own,
    namedService.Evaluates namedAnswers "primary" 0 [namedCase "answered", namedCase "refused"]
      run ∧
    namedService.Evaluates namedAnswers "primary" 0 [namedCase "refused"] own ∧
    run.results.length = 2 ∧ ∀ result, run.results[1]? = some result → ∃ r, own.results = [r] ∧
      (result.verdict = r.verdict ∨
        namedService.Trips namedAnswers "primary" 0 [namedCase "answered"] ∧ result.verdict =
          namedService.caseVerdict "primary" (namedCase "refused")
            (.error (.aegis (.noEligibleRoute "")))) := by
  obtain ⟨x, hx, run, hrun⟩ : ∃ x ∈ namedRun ["answered", "refused"],
      ∃ run ∈ x.1.toOption, run.passRate = 1 / 2 := by decide +kernel
  obtain ⟨y, hy, own, hown⟩ : ∃ x ∈ namedRun ["refused"],
      ∃ run ∈ x.1.toOption, run.passRate = 0 := by decide +kernel
  have h := evaluates_of_namedRun hx hrun.1 rfl
  have h₁ := evaluates_of_namedRun hy hown.1 rfl
  obtain ⟨hlength, hown, -⟩ := cases_independent h
  exact ⟨run, own, h, h₁, hlength, fun result hresult => hown 1 _ result rfl hresult 0 own h₁⟩

/-- A case that is answered is refused behind one that is not, and the order decides what share of
the cases pass. -/
theorem hidden_case : ∃ run run' own,
    namedService.Evaluates namedAnswers "primary" 0 [namedCase "refused", namedCase "answered"]
      run ∧
    namedService.Evaluates namedAnswers "primary" 0 [namedCase "answered", namedCase "refused"]
      run' ∧
    namedService.Evaluates namedAnswers "primary" 0 [namedCase "answered"] own ∧
    run.results.map (·.verdict) =
      [⟨false, 0, none, some "ProviderError"⟩, ⟨false, 0, none, some "NoEligibleRouteError"⟩] ∧
    own.results.map (·.verdict) = [⟨true, 1, none, none⟩] ∧
    run.passRate = 0 ∧ run'.passRate = 1 / 2 := by
  obtain ⟨x, hx, run, hrun, hresults, hpass⟩ : ∃ x ∈ namedRun ["refused", "answered"],
      ∃ run ∈ x.1.toOption, run.results.map (·.verdict) =
        [⟨false, 0, none, some "ProviderError"⟩, ⟨false, 0, none, some "NoEligibleRouteError"⟩] ∧
        run.passRate = 0 := by decide +kernel
  obtain ⟨x', hx', run', hrun', hpass'⟩ : ∃ x ∈ namedRun ["answered", "refused"],
      ∃ run ∈ x.1.toOption, run.passRate = 1 / 2 := by decide +kernel
  obtain ⟨y, hy, own, hown, hresult⟩ : ∃ x ∈ namedRun ["answered"], ∃ run ∈ x.1.toOption,
      run.results.map (·.verdict) = [⟨true, 1, none, none⟩] := by decide +kernel
  exact ⟨run, run', own, evaluates_of_namedRun hx hrun rfl, evaluates_of_namedRun hx' hrun' rfl,
    evaluates_of_namedRun hy hown rfl, hresults, hresult, hpass, hpass'⟩

end Service

end AegisGateway
