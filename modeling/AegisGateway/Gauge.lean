import AegisGateway.Admission
import AegisGateway.LiveGuard

/-!
# The exported gauge

The gauge is a second copy of the states of the breakers. It is written from what a breaker has
answered, except that a refusal counts as an open circuit.
-/

open Coroutine

namespace AegisGateway

theorem CircuitState.gauge_injective : Function.Injective CircuitState.gauge := by
  intro a b h
  cases a <;> cases b <;> first | rfl | cases h

namespace Service

variable {svc : Service}

/-! ## Answers and writes -/

def due : GatewayEvent → Option (String × CircuitState)
  | ⟨.beforeRequest routeId, .ok state⟩ => some (routeId, state)
  | ⟨.beforeRequest routeId, .error _⟩ => some (routeId, .isOpen)
  | ⟨.recordSuccess routeId, state⟩ | ⟨.recordFailure routeId, state⟩ => some (routeId, state)
  | _ => none

def Pays : Option (String × CircuitState) → GatewayEvent → Prop
  | some (routeId, state), e => e.1 = .setCircuitState routeId state
  | none, _ => True

/-- Each answer is followed by its write. -/
def Told (tr : GatewayTrace) : Prop :=
  Along (fun _ e => due e) Pays none tr ∧ tr.foldl (fun _ e => due e) none = none

theorem closed_told : Prog.Closed Told where
  nil := ⟨trivial, rfl⟩
  append := by
    rintro tr tr' ⟨h, hend⟩ ⟨h', hend'⟩
    unfold Told
    rw [along_append, List.foldl_append, hend]
    exact ⟨⟨h, h'⟩, hend'⟩

theorem due_of_breakerless {e : GatewayEvent} (h : breaker e.1 = false) : due e = none := by
  rcases e with ⟨o, a⟩
  cases o <;> first | rfl | cases h

theorem told_idle {tr : GatewayTrace} (h : ∀ e ∈ tr, breaker e.1 = false) : Told tr := by
  have hstill : ∀ e ∈ tr, due e = none := fun e he => due_of_breakerless (h e he)
  exact ⟨(along_still_iff hstill).mpr fun _ _ => trivial, foldl_still hstill⟩

theorem told_cons {e : GatewayEvent} {tr : GatewayTrace} (he : breaker e.1 = false)
    (h : Told tr) : Told (e :: tr) :=
  closed_told.append (told_idle (List.forall_mem_singleton.mpr he)) h

theorem told_pair {e : GatewayEvent} {routeId : String} {state : CircuitState}
    (h : due e = some (routeId, state)) : Told [e, ev (.setCircuitState routeId state) ()] := by
  unfold Told
  rw [along_cons, along_cons, h]
  exact ⟨⟨trivial, rfl, trivial⟩, rfl⟩

theorem told_admitted (route : ModelRoute) (t : ℚ) (state : CircuitState) :
    Told (admitted route t state) := told_cons rfl (told_pair rfl)

/-! ## The attempts -/

theorem Handled.told {α : Type} {timeout : String} {route : ModelRoute} {st : LoopState}
    {e : PyExc} {tr : GatewayTrace} {out : Except PyExc (Pass α)}
    (h : Handled timeout route st e tr out) : Told tr := by
  cases h with
  | schemaViolation | unhandled => exact closed_told.nil
  | circuitOpen => exact told_idle (List.forall_mem_singleton.mpr rfl)
  | timeout | provider | invalidRequest => exact told_pair rfl

theorem StreamHandled.told {x : Exchange} {route : ModelRoute} {st : LoopState}
    {emitted : Bool} {e : PyExc} {tr : GatewayTrace} {out : Except PyExc (Pass Unit)}
    (h : StreamHandled x route st emitted e tr out) : Told tr := by
  have herror : ∀ e n now t, Told (x.errorEvents route e n now t) := fun e n now t =>
    told_idle fun e' he' => breaker_of_bookkeeping (errorEvents_bookkeeping x route e n now t e' he')
  cases emitted with
  | false => exact Handled.told h
  | true =>
    have h : Interrupted x route st e tr out := h
    cases h with
    | schemaViolation m now t => exact herror _ _ now t
    | circuitOpen => exact told_idle (List.forall_mem_singleton.mpr rfl)
    | timeout state now t | provider e state now t =>
      exact closed_told.append (told_pair rfl) (herror _ _ now t)
    | unhandled => exact closed_told.nil

theorem told_success {route : ModelRoute} {state : CircuitState} {now : ℚ} {createdAt : Int}
    {tr : GatewayTrace} (h : Told tr) :
    Told (successEvents route state ++ (ev .monotonic now :: ev .datetimeNow createdAt :: tr)) :=
  closed_told.append (told_pair rfl) (told_cons rfl (told_cons rfl h))

theorem told_keep (x : Exchange) (response : GatewayResponse) (createdAt : Int) :
    Told (x.keepEvents response createdAt) :=
  told_idle fun e he => breaker_of_bookkeeping (keepEvents_bookkeeping x response createdAt e he)

theorem generatePass_told {x : Exchange} {c : RoutingCandidate} {route : ModelRoute}
    {st : LoopState} {tr : GatewayTrace} {out : Except PyExc (Pass GatewayResponse)}
    (h : svc.GeneratePassRun x c route st tr out) : Told tr := by
  cases h with
  | deadline => exact told_idle (List.forall_mem_singleton.mpr rfl)
  | refused => exact told_cons rfl (told_pair rfl)
  | unconfigured ht hr hh => exact closed_told.append (told_admitted _ _ _) hh.told
  | failed ht hr he hh => exact closed_told.append (told_admitted _ _ _) (told_cons rfl hh.told)
  | succeeded ht hr ha =>
    exact closed_told.append (told_admitted _ _ _)
      (told_cons rfl (told_success (told_keep _ _ _)))

theorem streamPass_told {x : Exchange} {c : RoutingCandidate} {route : ModelRoute}
    {st : LoopState} {tr : GatewayTrace} {out : Except PyExc (Pass Unit)}
    (h : svc.StreamPassRun x c route st tr out) : Told tr := by
  have hrelay : ∀ {es r tr r' left}, RelayRun x route es r tr r' left → Told tr := fun h =>
    told_idle fun e he => breaker_of_attempting (attempting_of_relaying (h.relaying e he))
  cases h with
  | deadline => exact told_idle (List.forall_mem_singleton.mpr rfl)
  | refused => exact told_cons rfl (told_pair rfl)
  | unconfigured ht hr hh => exact closed_told.append (told_admitted _ _ _) hh.told
  | left ht hr hl => exact closed_told.append (told_admitted _ _ _) (told_cons rfl (hrelay hl))
  | failed ht hr hl he hh =>
    exact closed_told.append (told_admitted _ _ _)
      (told_cons rfl (closed_told.append (hrelay hl) hh.told))
  | succeeded ht hr hl hv =>
    refine closed_told.append (told_admitted _ _ _) (told_cons rfl ?_)
    refine closed_told.append (hrelay hl) (told_success ?_)
    exact closed_told.append (told_keep _ _ _) (told_cons rfl closed_told.nil)

theorem body_told (call : Call) : (svc.body call).Leaves Told :=
  body_keeps closed_told (fun _ => told_idle) (fun _ _ _ _ _ _ => generatePass_told)
    (fun _ _ _ _ _ _ => streamPass_told) call

/-! ## The write is next -/

def stepsOn (routeId : String) : Op → Bool
  | .beforeRequest r | .recordSuccess r | .recordFailure r => r = routeId
  | _ => false

theorem due_of_stepsOn {routeId : String} {e : GatewayEvent} (h : stepsOn routeId e.1 = true) :
    ∃ state, due e = some (routeId, state) := by
  rcases e with ⟨o, a⟩
  cases o with
  | beforeRequest r =>
    obtain rfl := of_decide_eq_true h
    cases a with
    | ok state => exact ⟨state, rfl⟩
    | error m => exact ⟨.isOpen, rfl⟩
  | recordSuccess r | recordFailure r =>
    obtain rfl := of_decide_eq_true h
    exact ⟨a, rfl⟩
  | _ => cases h

theorem next_of_due {c : State} (h : svc.machine.Reachable initial c)
    {log : List (Nat × GatewayEvent)} {i : Nat} {e : GatewayEvent} (hlog : c.log = log ++ [(i, e)])
    {routeId : String} {state : CircuitState} (hdue : due e = some (routeId, state)) :
    ∃ t k, c.tasks[i]? = some t ∧ t.rest = .op (.setCircuitState routeId state) k := by
  obtain ⟨⟨call, rest⟩, ht⟩ := h.task_of_mem (show (i, e) ∈ c.log by rw [hlog]; simp)
  have hend : (c.trace i).foldl (fun _ e => due e) none = some (routeId, state) := by
    obtain ⟨tr, tr', htrace, hnone⟩ := Pool.trace_split (show c.log = log ++ (i, e) :: [] from hlog)
    have htr' : tr' = [] := List.eq_nil_iff_forall_not_mem.mpr fun e he => by cases hnone e he
    rw [htrace, htr', List.foldl_append]
    exact hdue
  have hback : ∀ out, c.Finished i call out → False := by
    intro out hf
    have htold : Told (c.trace i) := Prog.AllRuns.run (body_told call) (h.finished hf)
    rw [htold.2] at hend
    cases hend
  cases rest with
  | op o k =>
    obtain ⟨tr', out, htold⟩ := Prog.AllRuns.ahead (body_told call) (h.onTheWay.2 i _ ht)
      (Classical.arbitrary (Ans o))
    have hpays := along_split htold.1 rfl
    rw [hend] at hpays
    obtain rfl : o = .setCircuitState routeId state := hpays
    exact ⟨_, k, ht, rfl⟩
  | pure a => exact (hback (.ok a) ht).elim
  | throw e => exact (hback (.error e) ht).elim

/-! ## What a breaker answers -/

theorem due_beforeRequest (routeId : String) (circuit : Circuit) :
    ∃ state, due ⟨.beforeRequest routeId, (circuit.beforeRequest routeId).1⟩ =
      some (routeId, state) ∧
        (circuit.state = state ↔ ¬ (circuit.state = .halfOpen ∧ circuit.probeInFlight = true)) := by
  unfold Circuit.beforeRequest
  split_ifs with hopen hhalf hprobe
  · exact ⟨.isOpen, rfl, by simp [hopen]⟩
  · exact ⟨.isOpen, rfl, by simp [hhalf, hprobe]⟩
  · exact ⟨circuit.state, rfl, by simp [hprobe]⟩
  · exact ⟨circuit.state, rfl, by simp [hhalf]⟩

/-- The circuit of the route is half open, and another request has its probe. -/
def Probed (svc : Service) (w : World) (routeId : String) : Prop :=
  ((w.circuits.get routeId).advance svc.circuits w.clock).state = .halfOpen ∧
    ((w.circuits.get routeId).advance svc.circuits w.clock).probeInFlight = true

instance (w : World) (routeId : String) : Decidable (svc.Probed w routeId) :=
  inferInstanceAs (Decidable (_ ∧ _))

theorem exec_due {w w' : World} {o : Op} {x : Input} {a : Ans o}
    (h : svc.exec w o x = some (a, w')) {routeId : String} (ho : stepsOn routeId o = true) :
    ∃ state, due ⟨o, a⟩ = some (routeId, state) ∧
      ((w'.circuits.get routeId).state = state ↔
        ¬ (o = .beforeRequest routeId ∧ svc.Probed w routeId)) := by
  cases o with
  | beforeRequest r =>
    obtain rfl := of_decide_eq_true ho
    cases x <;> cases h
    obtain ⟨state, hdue, hstate⟩ :=
      due_beforeRequest r ((w.circuits.get r).advance svc.circuits w.clock)
    refine ⟨state, hdue, ?_⟩
    simp only [Circuits.beforeRequest_get, if_true, Circuit.beforeRequest_state, true_and]
    exact hstate
  | recordSuccess r =>
    obtain rfl := of_decide_eq_true ho
    cases x <;> cases h
    refine ⟨_, rfl, ?_⟩
    simp [Circuits.recordSuccess]
  | recordFailure r =>
    obtain rfl := of_decide_eq_true ho
    cases x <;> cases h
    refine ⟨_, rfl, ?_⟩
    simp [Circuits.recordFailure]
  | _ => cases ho

theorem exec_write {w w' : World} {routeId : String} {state : CircuitState} {x : Input}
    {a : Ans (.setCircuitState routeId state)}
    (h : svc.exec w (.setCircuitState routeId state) x = some (a, w')) :
    w' = { w with gauge := w.gauge.insert routeId state.gauge } := by
  cases x <;> cases h
  rfl

/-- The gauge shows the circuit of the route as it is. -/
def Shows (w : World) (routeId : String) : Prop :=
  w.gauge.lookup routeId = some (w.circuits.get routeId).state.gauge

theorem shows_write_iff {w : World} {routeId : String} {state : CircuitState} :
    Shows { w with gauge := w.gauge.insert routeId state.gauge } routeId ↔
      (w.circuits.get routeId).state = state := by
  unfold Shows
  rw [AList.lookup_insert, Option.some.injEq, CircuitState.gauge_injective.eq_iff]
  exact eq_comm

/-! ## Any interleaving -/

def mover : Move Input Call → Option Nat
  | .run i _ => some i
  | _ => none

def writesGauge : GatewayM Outcome → Bool
  | .op (.setCircuitState _ _) _ => true
  | _ => false

/-- Nothing is awaited between an answer and its write, so no other task comes in between. -/
def Prompt (c : State) (m : Move Input Call) : Prop :=
  ∀ i < c.tasks.length, (c.tasks[i]?.any fun t => writesGauge t.rest) = true → mover m = some i

instance (c : State) (m : Move Input Call) : Decidable (Prompt c m) :=
  inferInstanceAs (Decidable (∀ i < c.tasks.length, _))

def entering : GatewayM Outcome → Option String
  | .op (.beforeRequest routeId) _ => some routeId
  | _ => none

/-- No request asks for admission while another one probes the route. -/
def Unprobed (svc : Service) (c : State) (m : Move Input Call) : Prop :=
  ∀ i ∈ mover m, ∀ t ∈ c.tasks[i]?, ∀ routeId ∈ entering t.rest, ¬ svc.Probed c.world routeId

instance (c : State) (m : Move Input Call) : Decidable (svc.Unprobed c m) :=
  inferInstanceAs (Decidable (∀ i ∈ mover m, _))

def LastShown (c : State) : Prop :=
  ∀ log i e j e' routeId, c.log = log ++ [(i, e), (j, e')] → stepsOn routeId e.1 = true →
    j = i ∧ (∃ state, e'.1 = .setCircuitState routeId state) ∧ Shows c.world routeId

/-- Every step of a breaker is followed by its write, and the gauge shows the route after it. -/
structure Truthful (c : State) : Prop where
  next : ∀ log i e routeId, c.log = log ++ [(i, e)] → stepsOn routeId e.1 = true →
    ∃ t state k, c.tasks[i]? = some t ∧ t.rest = .op (.setCircuitState routeId state) k
  shown : LastShown c

def Current (c : State) : Prop :=
  ∀ log i e routeId state, c.log = log ++ [(i, e)] → due e = some (routeId, state) →
    (c.world.circuits.get routeId).state = state

theorem stepsOn_of_due {e : GatewayEvent} {routeId : String} {state : CircuitState}
    (h : due e = some (routeId, state)) : stepsOn routeId e.1 = true := by
  rcases e with ⟨o, a⟩
  cases o with
  | beforeRequest r =>
    cases a <;> cases h <;> exact decide_eq_true rfl
  | recordSuccess r | recordFailure r =>
    cases h
    exact decide_eq_true rfl
  | _ => cases h

section Run

variable {c : State} {i : Nat} {x : Input} {call : Call} {o : Op} {k : Ans o → GatewayM Outcome}
  {a : Ans o} {w : World} (ht : c.tasks[i]? = some ⟨call, .op o k⟩)
  (he : svc.exec c.world o x = some (a, w))

include ht he

theorem current_run (hok : svc.Unprobed c (.run i x)) {routeId : String} {state : CircuitState}
    (hdue : due ⟨o, a⟩ = some (routeId, state)) : (w.circuits.get routeId).state = state := by
  obtain ⟨state', hdue', hstate⟩ := exec_due he (stepsOn_of_due hdue)
  obtain rfl : state = state' := by
    rw [hdue] at hdue'
    exact (Prod.mk.inj (Option.some.inj hdue')).2
  apply hstate.mpr
  rintro ⟨rfl, hprobed⟩
  exact hok i rfl _ ht routeId rfl hprobed

theorem shown_run (h : svc.machine.Reachable initial c) (hcur : Current c)
    (hok : Prompt c (.run i x)) {log : List (Nat × GatewayEvent)} {j : Nat} {e : GatewayEvent}
    (hlog : c.log = log ++ [(j, e)]) {routeId : String} (hstep : stepsOn routeId e.1 = true) :
    i = j ∧ (∃ state, o = .setCircuitState routeId state) ∧ Shows w routeId := by
  obtain ⟨state, hdue⟩ := due_of_stepsOn hstep
  obtain ⟨t, k', hj, hrest⟩ := next_of_due h hlog hdue
  have hwrites : (c.tasks[j]?.any fun t => writesGauge t.rest) = true := by
    rw [hj]
    simp [hrest, writesGauge]
  obtain rfl : i = j :=
    Option.some.inj (hok j (List.getElem?_eq_some_iff.mp hj).1 hwrites)
  rw [ht] at hj
  obtain rfl := Option.some.inj hj
  cases hrest
  obtain rfl := exec_write he
  exact ⟨rfl, ⟨state, rfl⟩, shows_write_iff.mpr (hcur log i e routeId state hlog hdue)⟩

end Run

theorem shown_of_reach {c : State}
    (h : svc.machine.Reach (fun c m => Prompt c m ∧ svc.Unprobed c m) initial c) :
    Current c ∧ LastShown c := by
  induction h with
  | start =>
    constructor
    · intro log i e routeId state hlog
      exact absurd hlog.symm (by simp [initial, Pool.empty])
    · intro log i e j e' routeId hlog
      exact absurd hlog.symm (by simp [initial, Pool.empty])
  | @next c c' m h hok hs ih =>
    obtain ⟨hcur, hshown⟩ := ih
    cases m with
    | start call =>
      cases hs
      exact ⟨hcur, hshown⟩
    | drift x =>
      obtain ⟨w, hw, rfl⟩ := Option.map_eq_some_iff.mp hs
      obtain ⟨clock, utc, -, rfl⟩ := drift_eq hw
      exact ⟨hcur, hshown⟩
    | run i x =>
      obtain ⟨call, o, k, a, w, ht, he, rfl⟩ := Machine.step_run hs
      constructor
      · intro log j e routeId state hlog hdue
        obtain ⟨-, hlast⟩ := List.append_inj' hlog rfl
        obtain ⟨rfl, rfl⟩ := Prod.mk.inj (List.cons.inj hlast).1
        exact current_run ht he hok.2 hdue
      · intro log j e j' e' routeId hlog hstep
        obtain ⟨hfront, hlast⟩ :=
          List.append_inj' (hlog.trans (List.append_cons log (j, e) [(j', e')])) rfl
        obtain ⟨rfl, rfl⟩ := Prod.mk.inj (List.cons.inj hlast).1
        exact shown_run ht he h.weaken hcur hok.1 hfront hstep

/-! ## When the gauge tells the truth -/

theorem truthful_of_reach {c : State}
    (h : svc.machine.Reach (fun c m => Prompt c m ∧ svc.Unprobed c m) initial c) : Truthful c where
  next := by
    intro log i e routeId hlog hstep
    obtain ⟨state, hdue⟩ := due_of_stepsOn hstep
    obtain ⟨t, k, ht, hrest⟩ := next_of_due h.weaken hlog hdue
    exact ⟨t, state, k, ht, hrest⟩
  shown := (shown_of_reach h).2

theorem step_shows_iff {c₀ c₁ c₂ : State} (h : svc.machine.Reachable initial c₀) {i : Nat}
    {x y : Input} {call : Call} {o : Op} {k : Ans o → GatewayM Outcome}
    (ht : c₀.tasks[i]? = some ⟨call, .op o k⟩) {routeId : String} (ho : stepsOn routeId o = true)
    (h₁ : svc.machine.step? c₀ (.run i x) = some c₁)
    (h₂ : svc.machine.step? c₁ (.run i y) = some c₂) :
    Shows c₂.world routeId ↔ ¬ (o = .beforeRequest routeId ∧ svc.Probed c₀.world routeId) := by
  have hreach := h.next trivial h₁
  obtain ⟨call', o', k', a, w, ht', he, rfl⟩ := Machine.step_run h₁
  rw [ht] at ht'
  cases ht'
  obtain ⟨state, hdue, hstate⟩ := exec_due he ho
  obtain ⟨t, k', ht₁, hrest⟩ := next_of_due hreach rfl hdue
  obtain ⟨call₂, o₂, k₂, a₂, w₂, ht₂, he₂, rfl⟩ := Machine.step_run h₂
  rw [ht₁] at ht₂
  cases Option.some.inj ht₂
  cases hrest
  obtain rfl := exec_write he₂
  rw [shows_write_iff]
  exact hstate

/-- In a run in which no request is refused for the probe of another one, the gauge shows the
route after every step of its breaker. In any run it shows it after the other steps, and not after
such a refusal. -/
theorem gauge_truthful (svc : Service) :
    (∀ c, svc.machine.Reach (fun c m => Prompt c m ∧ svc.Unprobed c m) initial c → Truthful c) ∧
    ∀ (c₀ c₁ c₂ : State) (i : Nat) (x y : Input) (call : Call) (o : Op)
      (k : Ans o → GatewayM Outcome) (routeId : String), svc.machine.Reachable initial c₀ →
      c₀.tasks[i]? = some ⟨call, .op o k⟩ → stepsOn routeId o = true →
      svc.machine.step? c₀ (.run i x) = some c₁ → svc.machine.step? c₁ (.run i y) = some c₂ →
        (Shows c₂.world routeId ↔ ¬ (o = .beforeRequest routeId ∧ svc.Probed c₀.world routeId)) :=
  ⟨fun _ h => truthful_of_reach h,
    fun _ _ _ _ _ _ _ _ _ _ h ht ho h₁ h₂ => step_shows_iff h ht ho h₁ h₂⟩

/-- The circuit of the first route opens. Later on one call waits for the other route, and another
call probes the first one. -/
def probingMoves : List (Move Input Call) :=
  .start (.generate Sample.request (some "primary")) :: Sample.goes 0 7 ++
    .run 0 outage :: Sample.goes 0 5 ++
    .drift (.later 2 0) :: .start (.generate Sample.request none) :: Sample.goes 1 8 ++
    .start (.generate Sample.request (some "primary")) :: Sample.goes 2 7

theorem gauge_truthful_probe : ∃ c : State, Truthful c ∧
    c.world.gauge.lookup "primary" = some 1 ∧
    (c.world.circuits.get "primary").state = .halfOpen := by
  obtain ⟨c, hm, hgauge, hstate⟩ : ∃ c ∈ backedService.machine.movesUnder?
      (fun c m => Decidable.decide (Prompt c m ∧ backedService.Unprobed c m)) initial probingMoves,
      c.world.gauge.lookup "primary" = some 1 ∧
        (c.world.circuits.get "primary").state = .halfOpen := by decide +kernel
  have hreach := Machine.reach_of_movesUnder (fun _ _ => of_decide_eq_true) _ .start hm
  exact ⟨c, (gauge_truthful backedService).1 c hreach, hgauge, hstate⟩

def refusedLast (routeId : String) (c : State) : Bool :=
  match c.log.reverse with
  | (j, ⟨.setCircuitState r' .isOpen, _⟩) :: (i, ⟨.beforeRequest r, .error _⟩) :: _ =>
    i = j && r = routeId && r' = routeId
  | _ => false

theorem log_of_refusedLast {routeId : String} {c : State} (h : refusedLast routeId c = true) :
    ∃ log i m, c.log = log ++ [(i, ev (.beforeRequest routeId) (.error m)),
      (i, ev (.setCircuitState routeId .isOpen) ())] := by
  unfold refusedLast at h
  split at h
  · next j r' _ i r m log hlog =>
    simp only [Bool.and_eq_true, decide_eq_true_eq] at h
    obtain ⟨⟨rfl, rfl⟩, rfl⟩ := h
    refine ⟨log.reverse, i, m, ?_⟩
    rw [← List.reverse_inj, hlog]
    simp
  · cases h

def refusedMoves : List (Move Input Call) := probingMoves ++ .run 1 outage :: Sample.goes 1 5

/-- The call is refused for the probe, and the gauge shows an open circuit where there is a half
open one. -/
theorem gauge_lies : ∃ c : State, backedService.machine.Reach Prompt initial c ∧
    (∃ log i m, c.log = log ++ [(i, ev (.beforeRequest "primary") (.error m)),
      (i, ev (.setCircuitState "primary" .isOpen) ())]) ∧
    c.world.gauge.lookup "primary" = some 2 ∧
    (c.world.circuits.get "primary").state = .halfOpen ∧ ¬ Truthful c := by
  obtain ⟨c, hm, hlast, hgauge, hstate⟩ : ∃ c ∈ backedService.machine.movesUnder?
      (fun c m => Decidable.decide (Prompt c m)) initial refusedMoves,
      refusedLast "primary" c = true ∧ c.world.gauge.lookup "primary" = some 2 ∧
        (c.world.circuits.get "primary").state = .halfOpen := by decide +kernel
  have hreach := Machine.reach_of_movesUnder (fun _ _ => of_decide_eq_true) _ .start hm
  obtain ⟨log, i, m, hlog⟩ := log_of_refusedLast hlast
  refine ⟨c, hreach, ⟨log, i, m, hlog⟩, hgauge, hstate, fun htruthful => ?_⟩
  have hstep : stepsOn "primary" (.beforeRequest "primary") = true := by decide
  obtain ⟨-, -, hshows⟩ := htruthful.shown log i _ i _ "primary" hlog hstep
  rw [Shows, hgauge, hstate] at hshows
  cases hshows

end Service

end AegisGateway
