import AegisGateway.Runs
import AegisGateway.System
import Mathlib.Data.List.Induction

/-!
# Admissions

An attempt that a circuit admits has to report back. A call is followed by the route it
was last admitted to and has not reported on, and the flag of a half-open circuit by
the call that holds its probe.
-/

open Coroutine JsonText

namespace AegisGateway

namespace Service

/-! ## One call -/

/-- A success, or a failure that a handler reports to the breaker. -/
def reportable {α : Type} : Except PyExc α → Bool
  | .ok _ | .error (.aegis (.provider _)) | .error .timeoutError => true
  | .error _ => false

/-- The route of the last admission, until it is reported on. -/
def pending (cur : Option String) : GatewayEvent → Option String
  | ⟨.beforeRequest routeId, .ok _⟩ => some routeId
  | ⟨.recordSuccess routeId, _⟩ | ⟨.recordFailure routeId, _⟩ =>
    if cur = some routeId then none else cur
  | _ => cur

/-- A provider ends its part with an answer that satisfies the schema, a `ProviderError` or a
timeout, and the consumer stays while an attempt is under way. -/
def wellEnded (svc : Service) (cur : Option String) : GatewayEvent → Bool
  | ⟨.complete q _, a⟩ => reportable (svc.judge q a)
  | ⟨.openStream q _, script⟩ => reportable (svc.scriptVerdict q script)
  | ⟨.yieldEvent _, .leaves⟩ => cur.isNone
  | _ => true

def reports (routeId : String) : GatewayEvent → Bool
  | ⟨.recordSuccess r, _⟩ | ⟨.recordFailure r, _⟩ => r = routeId
  | _ => false

/-- What a call does between an admission and the report on it. -/
def attempting : Op → Bool
  | .monotonic | .setCircuitState _ _ | .complete _ _ | .openStream _ _ | .yieldEvent _ => true
  | _ => false

def staysWith : Option String → GatewayEvent → Bool
  | none, _ => true
  | some routeId, e => attempting e.1 || reports routeId e

def attempts (svc : Service) : Monitor Op Ans (Option String) where
  next := pending
  rely cur e := svc.wellEnded cur e
  guar cur e := staysWith cur e

variable {svc : Service}

def breaker : Op → Bool
  | .beforeRequest _ | .recordSuccess _ | .recordFailure _ => true
  | _ => false

theorem pending_still {e : GatewayEvent} (h : breaker e.1 = false) (cur : Option String) :
    pending cur e = cur := by
  rcases e with ⟨o, a⟩
  cases o <;> first | rfl | cases h

theorem breaker_of_attempting {o : Op} (h : attempting o = true) : breaker o = false := by
  cases o <;> first | rfl | cases h

theorem attempts_idle {tr : GatewayTrace} (h : ∀ e ∈ tr, breaker e.1 = false) :
    Along pending (staysWith · ·) none tr ∧ tr.foldl pending none = none :=
  ⟨(along_still_iff fun e he => pending_still (h e he) none).mpr fun _ _ => rfl,
    foldl_still fun e he => pending_still (h e he) none⟩

theorem attempts_under_way {tr : GatewayTrace} (h : ∀ e ∈ tr, attempting e.1 = true)
    (routeId : String) : Along pending (staysWith · ·) (some routeId) tr ∧
      tr.foldl pending (some routeId) = some routeId := by
  have hstill := fun e he => pending_still (breaker_of_attempting (h e he)) (some routeId)
  exact ⟨(along_still_iff hstill).mpr fun e he => by simp [staysWith, h e he], foldl_still hstill⟩

theorem breaker_of_approaching {o : Op} (h : approaching o = true) : breaker o = false := by
  cases o <;> first | rfl | cases h

theorem breaker_of_bookkeeping {o : Op} (h : bookkeeping o = true) : breaker o = false := by
  cases o <;> first | rfl | cases h

theorem attempting_of_relaying {o : Op} (h : relaying o = true) : attempting o = true := by
  cases o <;> first | rfl | cases h

theorem breaker_of_controlling {o : Op} (h : controlling o = true) : breaker o = false := by
  cases o <;> first | rfl | cases h

def Settles (svc : Service) (tr : GatewayTrace) : Prop :=
  Along pending (svc.wellEnded · ·) none tr →
    Along pending (staysWith · ·) none tr ∧ tr.foldl pending none = none

theorem closed_settles : Prog.Closed svc.Settles :=
  Monitor.closed_settles (m := attempts svc) (s := none)

theorem settles_idle {tr : GatewayTrace} (h : ∀ e ∈ tr, breaker e.1 = false) :
    svc.Settles tr := fun _ => attempts_idle h

theorem Handled.reports {α : Type} {timeout : String} {route : ModelRoute} {st : LoopState}
    {e : PyExc} {tr : GatewayTrace} {out : Except PyExc (Pass α)}
    (h : Handled timeout route st e tr out) (he : reportable (.error e : Except PyExc Unit)) :
    ∃ state, tr = failureEvents route state := by
  cases h with
  | schemaViolation | circuitOpen => cases he
  | timeout state | provider e state | invalidRequest e state => exact ⟨state, rfl⟩
  | unhandled hu => unfold reportable at he; split at he <;> simp_all [PyExc.handled]

theorem reportable_error {α β : Type} {e : PyExc} (h : reportable (.error e : Except PyExc α)) :
    reportable (.error e : Except PyExc β) := by
  unfold reportable at h ⊢
  split at h <;> simp_all

theorem generatePass_settles {x : Exchange} {c : RoutingCandidate} {route : ModelRoute}
    {st : LoopState} {tr : GatewayTrace} {out : Except PyExc (Pass GatewayResponse)}
    (h : svc.GeneratePassRun x c route st tr out) : svc.Settles tr := by
  cases h with
  | deadline ht => exact settles_idle (by simp [breaker])
  | refused ht => intro _; simp [pending, staysWith, attempting, reports]
  | unconfigured ht hr hh =>
    obtain ⟨state, rfl⟩ := hh.reports rfl
    intro _
    simp [admitted, failureEvents, pending, staysWith, attempting, reports]
  | failed ht hr he hh =>
    intro hrely
    simp only [admitted, List.cons_append, List.nil_append, along_cons] at hrely
    have hrep : reportable (svc.judge x.request _) := hrely.2.2.2.1
    rw [he] at hrep
    obtain ⟨state, rfl⟩ := hh.reports (reportable_error hrep)
    simp [admitted, failureEvents, pending, staysWith, attempting, reports]
  | @succeeded _ _ _ t state state' a result parsed valid now createdAt createdAt' ht hr ha =>
    intro _
    have hk := attempts_idle (fun e he => breaker_of_bookkeeping
      (keepEvents_bookkeeping x (completeResponse x route c st.fallbackCount result parsed valid now
        createdAt) createdAt' e he))
    simpa [admitted, successEvents, pending, staysWith, attempting, reports, hk.2] using hk.1

theorem StreamHandled.reports {x : Exchange} {route : ModelRoute} {st : LoopState}
    {emitted : Bool} {e : PyExc} {tr : GatewayTrace} {out : Except PyExc (Pass Unit)}
    (h : StreamHandled x route st emitted e tr out)
    (he : reportable (.error e : Except PyExc Unit)) :
    ∃ state rest, tr = failureEvents route state ++ rest ∧ ∀ e ∈ rest, breaker e.1 = false := by
  cases emitted with
  | false =>
    obtain ⟨state, rfl⟩ := Handled.reports h he
    exact ⟨state, [], by simp, by simp⟩
  | true =>
    have h : Interrupted x route st e tr out := h
    cases h with
    | schemaViolation | circuitOpen => cases he
    | timeout state now t | provider e state now t =>
      exact ⟨state, _, rfl, fun e he =>
        breaker_of_bookkeeping (errorEvents_bookkeeping x route _ _ now t e he)⟩
    | unhandled hu => unfold reportable at he; split at he <;> simp_all [PyExc.handled]

theorem streamPass_settles {x : Exchange} {c : RoutingCandidate} {route : ModelRoute}
    {st : LoopState} {tr : GatewayTrace} {out : Except PyExc (Pass Unit)}
    (h : svc.StreamPassRun x c route st tr out) : svc.Settles tr := by
  cases h with
  | deadline ht => exact settles_idle (by simp [breaker])
  | refused ht => intro _; simp [pending, staysWith, attempting, reports]
  | unconfigured ht hr hh =>
    obtain ⟨state, rfl⟩ := hh.reports rfl
    intro _
    simp [admitted, failureEvents, pending, staysWith, attempting, reports]
  | left ht hr hl =>
    -- Leaving during an attempt is what the monitor relies on not to happen.
    intro hrely
    obtain ⟨e, he⟩ := hl.leaves.mp rfl
    have hstill := fun e he => pending_still
      (breaker_of_attempting (attempting_of_relaying (hl.relaying e he)))
      (some route.id)
    simp only [admitted, List.cons_append, List.nil_append, along_cons] at hrely
    have hleft := (along_still_iff hstill).mp hrely.2.2.2.2 _ he
    cases hleft
  | failed ht hr hl he hh =>
    intro hrely
    simp only [admitted, List.cons_append, List.nil_append, along_cons] at hrely
    have hrep : reportable (svc.scriptVerdict x.request _) := hrely.2.2.2.1
    rw [← hl.verdict, he] at hrep
    obtain ⟨state, rest, rfl, hrest⟩ := hh.reports (reportable_error hrep)
    have hrelay := attempts_under_way
      (fun e he => attempting_of_relaying (hl.relaying e he)) route.id
    have hrest := attempts_idle hrest
    simpa [admitted, failureEvents, pending, staysWith, attempting, reports, hrelay.2, hrest.2]
      using And.intro hrelay.1 hrest.1
  | @succeeded _ _ _ t state state' script tr r parsed valid now createdAt createdAt' consumer
      ht hr hl hv =>
    intro _
    have hrelay := attempts_under_way
      (fun e he => attempting_of_relaying (hl.relaying e he)) route.id
    have hk := attempts_idle (fun e he => breaker_of_bookkeeping
      (keepEvents_bookkeeping x (streamResponse x route c st.fallbackCount r parsed valid now
        createdAt) createdAt' e he))
    simpa [admitted, successEvents, pending, staysWith, attempting, reports, hrelay.2, hk.2]
      using And.intro hrelay.1 hk.1

/-! Only the attempts have to do with the breakers. -/

theorem GaveUp.breakerless {α : Type} {x : Exchange} {st : LoopState} {tr : GatewayTrace}
    {out : Except PyExc α} (h : GaveUp x st tr out) : ∀ e ∈ tr, breaker e.1 = false := by
  cases h with
  | unrecorded | assertion => exact List.forall_mem_nil _
  | recorded now t =>
    exact fun e he => breaker_of_bookkeeping (errorEvents_bookkeeping x _ _ _ now t e he)

theorem ApproachRun.breakerless {args : Arguments} {tr : GatewayTrace}
    {out : Except PyExc (Exchange × Origin)} (h : svc.ApproachRun args tr out) :
    ∀ e ∈ tr, breaker e.1 = false :=
  fun e he => breaker_of_approaching (h.approaching e he)

theorem ServedRun.breakerless {x : Exchange} {hit : GatewayResponse} {tr : GatewayTrace}
    {out : Except PyExc GatewayResponse} (h : ServedRun x hit tr out) :
    ∀ e ∈ tr, breaker e.1 = false := by
  cases h with
  | served now t t' =>
    have hl := fun e he => breaker_of_bookkeeping
      (bookkeeping_of_task (launchEvents_tasks x e he))
    simpa [Exchange.rowEvents, breaker] using hl

theorem StreamServedRun.breakerless {x : Exchange} {hit : GatewayResponse} {tr : GatewayTrace}
    {out : Except PyExc Unit} (h : StreamServedRun x hit tr out) :
    ∀ e ∈ tr, breaker e.1 = false := by
  cases h with
  | leftAtStart now | leftAtDelta now => simp [breaker, hitEvent]
  | served now t consumer =>
    have hl := fun e he => breaker_of_bookkeeping
      (bookkeeping_of_task (launchEvents_tasks x e he))
    simp only [Exchange.rowEvents, hitEvent, List.forall_mem_cons, List.forall_mem_append]
    exact ⟨rfl, rfl, rfl, ⟨rfl, rfl, by simp⟩, hl, rfl, by simp⟩

theorem body_keeps {P : GatewayTrace → Prop} (hP : Prog.Closed P)
    (hidle : ∀ tr : GatewayTrace, (∀ e ∈ tr, breaker e.1 = false) → P tr)
    (hgenerate : ∀ x c route st tr out, svc.GeneratePassRun x c route st tr out → P tr)
    (hstream : ∀ x c route st tr out, svc.StreamPassRun x c route st tr out → P tr) (call : Call) :
    (svc.body call).Leaves P := by
  refine body_leaves hP (fun args _ => ?_) (fun q forced _ => ?_) fun e he => hidle _ ?_
  · exact (svc.generate_runs args).mono fun _ _ h => h.keeps hP
      (fun _ _ h => hidle _ h.breakerless) (fun _ _ _ _ h => hidle _ h.breakerless)
      (fun _ _ _ _ h => hidle _ h.breakerless) hgenerate
  · exact (svc.stream_runs q forced).mono fun _ _ h => h.keeps hP
      (fun _ _ h => hidle _ h.breakerless) (fun _ _ _ _ h => hidle _ h.breakerless)
      (fun _ _ _ _ h => hidle _ h.breakerless) hstream
  · exact List.forall_mem_singleton.mpr (breaker_of_controlling (controlling_of_controls he))

/-- Every call reports on each of its admissions before the next one, and before it ends. -/
theorem body_settles (call : Call) : (attempts svc).Keeps none (svc.body call) :=
  body_keeps closed_settles (fun _ => settles_idle) (fun _ _ _ _ _ _ => generatePass_settles)
    (fun _ _ _ _ _ _ => streamPass_settles) call

/-! ## What an operation does to a flag -/

/-- The circuit was half open, and takes the attempt as its probe. -/
def takesProbe (routeId : String) : GatewayEvent → Bool
  | ⟨.beforeRequest r, .ok .halfOpen⟩ => r = routeId
  | _ => false

theorem exec_probeInFlight {w w' : World} {o : Op} {x : Input} {a : Ans o}
    (h : svc.exec w o x = some (a, w')) {routeId : String}
    (hf : (w'.circuits.get routeId).probeInFlight = true) :
    (w.circuits.get routeId).probeInFlight = true ∧ ¬ reports routeId ⟨o, a⟩ ∨
      takesProbe routeId ⟨o, a⟩ := by
  unfold exec at h
  split at h
  all_goals simp only [Option.some.injEq, reduceCtorEq] at h
  all_goals obtain ⟨rfl, rfl⟩ := Prod.mk.inj h
  case h_4 => exact .inl ⟨Circuits.isAvailable_probeInFlight hf, Bool.false_ne_true⟩
  case h_5 =>
    rcases Circuits.beforeRequest_probeInFlight hf with hf | ⟨rfl, hs⟩
    · exact .inl ⟨hf, Bool.false_ne_true⟩
    · exact .inr (by simp [hs, takesProbe])
  case h_6 =>
    obtain ⟨hne, hf⟩ := Circuits.recordSuccess_probeInFlight hf
    exact .inl ⟨hf, by simpa [reports] using hne.symm⟩
  case h_7 =>
    obtain ⟨hne, hf⟩ := Circuits.recordFailure_probeInFlight hf
    exact .inl ⟨hf, by simpa [reports] using hne.symm⟩
  case h_8 => exact .inl ⟨Circuits.snapshots_probeInFlight hf, Bool.false_ne_true⟩
  all_goals exact .inl ⟨hf, Bool.false_ne_true⟩

/-! ## All calls together -/

/-- Every attempt so far that has ended has ended in one of the ways that are reported. -/
def AllWellEnded (svc : Service) (c : State) : Prop :=
  ∀ i, Along pending (svc.wellEnded · ·) none (c.trace i)

theorem wellEnded_exists (o : Op) : ∃ a, ∀ cur, svc.wellEnded cur ⟨o, a⟩ := by
  cases o with
  | complete q route => exact ⟨.error .timeoutError, fun _ => rfl⟩
  | openStream q route => exact ⟨⟨[], some .timeoutError⟩, fun _ => rfl⟩
  | yieldEvent e => exact ⟨.resumes, fun _ => rfl⟩
  | _ => exact (ansNonempty _).elim fun a => ⟨a, fun _ => rfl⟩

def OnProbe (routeId : String) (tr : GatewayTrace) : Prop :=
  ∃ pre post, tr = pre ++ ⟨.beforeRequest routeId, .ok .halfOpen⟩ :: post ∧
    ∀ e ∈ post, attempting e.1

theorem OnProbe.pending {routeId : String} {tr : GatewayTrace} (h : OnProbe routeId tr) :
    tr.foldl pending none = some routeId := by
  obtain ⟨pre, post, rfl, hpost⟩ := h
  rw [List.foldl_append, List.foldl_cons]
  exact (attempts_under_way hpost routeId).2

theorem onProbe_of_takesProbe {routeId : String} {e : GatewayEvent} (h : takesProbe routeId e)
    (tr : GatewayTrace) : OnProbe routeId (tr ++ [e]) := by
  rcases e with ⟨o, a⟩
  unfold takesProbe at h
  split at h
  next heq =>
    obtain ⟨rfl, heq⟩ := Sigma.mk.inj heq
    obtain rfl : _ = routeId := by simpa using h
    exact ⟨tr, [], by simp [eq_of_heq heq], by simp⟩
  next => cases h

theorem OnProbe.snoc {routeId : String} {tr : GatewayTrace} {e : GatewayEvent}
    (h : OnProbe routeId tr) (hg : staysWith (tr.foldl Service.pending none) e)
    (hr : ¬ reports routeId e) : OnProbe routeId (tr ++ [e]) := by
  have ha : attempting e.1 = true := by simpa [h.pending, staysWith, hr] using hg
  obtain ⟨pre, post, rfl, hpost⟩ := h
  refine ⟨pre, post ++ [e], by simp, ?_⟩
  simpa [or_imp, forall_and] using ⟨hpost, ha⟩

/-- A flag belongs to a probe that has been admitted and not reported on. -/
theorem flag_onProbe {c : State} (h : svc.machine.Reachable initial c)
    (hok : svc.AllWellEnded c) {routeId : String}
    (hf : (c.world.circuits.get routeId).probeInFlight = true) :
    ∃ i, OnProbe routeId (c.trace i) := by
  induction h with
  | start => cases hf
  | @next c c' mv h _ hs ih =>
    have hokc : svc.AllWellEnded c := Machine.along_step hs hok
    cases mv with
    | start call =>
      cases hs
      exact ih hokc hf
    | drift x =>
      obtain ⟨w, hw, rfl⟩ := Option.map_eq_some_iff.mp hs
      obtain ⟨clock, utc, -, rfl⟩ := drift_eq hw
      exact ih hokc hf
    | run i x =>
      have hguar := Machine.Reach.guar (m := attempts svc) body_settles wellEnded_exists
        (h.next trivial hs) hok
      obtain ⟨call, o, k, a, w, -, he, rfl⟩ := Machine.step_run hs
      rcases exec_probeInFlight he hf with ⟨hflag, hrep⟩ | hprobe
      · obtain ⟨j, hj⟩ := ih hokc hflag
        refine ⟨j, ?_⟩
        have hg := hguar j
        rw [Machine.trace_snoc] at hg ⊢
        split_ifs with hij
        · rw [if_pos hij, along_append] at hg
          exact hj.snoc hg.2.1 hrep
        · rwa [List.append_nil]
      · refine ⟨i, ?_⟩
        rw [Machine.trace_snoc, if_pos rfl]
        exact onProbe_of_takesProbe hprobe _

/-! ## The course of an attempt -/

/-- After an admission: the attempt goes on to a report, with nothing else in between. -/
def Reported (routeId : String) (post : GatewayTrace) : Prop :=
  ∃ mid e rest, post = mid ++ e :: rest ∧ reports routeId e ∧ ∀ e' ∈ mid, attempting e'.1

/-- Task `i` holds the probe of the route, and its attempt goes on. -/
def Probing (c : State) (i : Nat) (routeId : String) : Prop :=
  c.Running i ∧ OnProbe routeId (c.trace i)

theorem reported_or_attempting {routeId : String} {post : GatewayTrace}
    (h : Along pending (staysWith · ·) (some routeId) post) :
    Reported routeId post ∨ ∀ e ∈ post, attempting e.1 := by
  induction post with
  | nil => simp
  | cons e post ih =>
    rw [along_cons] at h
    by_cases ha : attempting e.1 = true
    · rw [pending_still (breaker_of_attempting ha)] at h
      rcases ih h.2 with ⟨mid, e', rest, rfl, hr, hmid⟩ | hall
      · exact .inl ⟨e :: mid, e', rest, rfl, hr, List.forall_mem_cons.mpr ⟨ha, hmid⟩⟩
      · exact .inr (List.forall_mem_cons.mpr ⟨ha, hall⟩)
    · exact .inl ⟨[], e, post, rfl, by simpa [staysWith, ha] using h.1, by simp⟩

theorem running_of_pending {c : State} (h : svc.machine.Reachable initial c)
    (hok : svc.AllWellEnded c) {i : Nat} {routeId : String}
    (hp : (c.trace i).foldl pending none = some routeId) : c.Running i := by
  have hi : i < c.tasks.length := by
    by_contra hi
    rw [h.onTheWay.1 i (not_lt.mp hi)] at hp
    cases hp
  obtain ⟨⟨call, rest⟩, ht⟩ : ∃ t, c.tasks[i]? = some t := ⟨_, List.getElem?_eq_getElem hi⟩
  have hback := fun out (hf : c.Finished i call out) =>
    Machine.Reach.back (m := attempts svc) body_settles h hok hf
  cases rest with
  | op o k => exact ⟨call, o, k, ht⟩
  | pure a => exact absurd ((hback (.ok a) ht).symm.trans hp) nofun
  | throw e => exact absurd ((hback (.error e) ht).symm.trans hp) nofun

/-! ## No admission is leaked -/

theorem admission_reported {c : State} (h : svc.machine.Reachable initial c)
    (hok : svc.AllWellEnded c) {i : Nat} {routeId : String} {pre post : GatewayTrace}
    {state : CircuitState} (ht : c.trace i = pre ++ ⟨.beforeRequest routeId, .ok state⟩ :: post) :
    Reported routeId post ∨ c.Running i ∧ ∀ e ∈ post, attempting e.1 := by
  have hg := Machine.Reach.guar (m := attempts svc) body_settles wellEnded_exists h hok i
  rw [ht, along_append, along_cons] at hg
  rcases reported_or_attempting hg.2.2 with hr | ha
  · exact .inl hr
  · have hp : (c.trace i).foldl pending none = some routeId := by
      rw [ht, List.foldl_append, List.foldl_cons]
      exact (attempts_under_way ha routeId).2
    exact .inr ⟨running_of_pending h hok hp, ha⟩

/-- As long as every attempt ends in a way that is reported, each admission is reported on
before its attempt ends. Only the attempt that was admitted as the probe holds the flag of a
route, so once it has ended a half-open route is available, whatever other attempts are out. -/
theorem admissions_settle {c : State} (h : svc.machine.Reachable initial c)
    (hok : svc.AllWellEnded c) :
    (∀ i routeId pre state post,
      c.trace i = pre ++ ⟨.beforeRequest routeId, .ok state⟩ :: post →
        Reported routeId post ∨ c.Running i ∧ ∀ e ∈ post, attempting e.1) ∧
    (∀ routeId, (c.world.circuits.get routeId).probeInFlight = true → ∃ i, Probing c i routeId) ∧
      ∀ routeId, (∀ i, ¬ Probing c i routeId) →
        ((c.world.circuits.get routeId).advance svc.circuits c.world.clock).state = .halfOpen →
          (c.world.circuits.isAvailable svc.circuits c.world.clock routeId).1 = true := by
  have hflag : ∀ routeId, (c.world.circuits.get routeId).probeInFlight = true →
      ∃ i, Probing c i routeId := fun routeId hf => by
    obtain ⟨i, hi⟩ := flag_onProbe h hok hf
    exact ⟨i, running_of_pending h hok hi.pending, hi⟩
  refine ⟨fun i routeId pre state post ht => admission_reported h hok ht, hflag,
    fun routeId hno hhalf => (Circuit.available_iff _).mpr ⟨by simp [hhalf], fun _ => ?_⟩⟩
  apply Bool.eq_false_of_not_eq_true
  intro hp
  obtain ⟨i, hi⟩ := hflag routeId (Circuit.advance_probeInFlight hp)
  exact hno i hi

theorem allWellEnded_of_lt {c : State} (h : svc.machine.Reachable initial c)
    (hok : ∀ i < c.tasks.length, Along pending (svc.wellEnded · ·) none (c.trace i)) :
    svc.AllWellEnded c := by
  intro i
  rcases Nat.lt_or_ge i c.tasks.length with hi | hi
  · exact hok i hi
  · rw [h.onTheWay.1 i hi]
    trivial

def probeMoves (request : GatewayRequest) (answer : Input) : List (Move Input Call) :=
  .start (.generate request none) :: Sample.goes 0 7 ++
    .run 0 (.completion (.error .timeoutError)) :: Sample.goes 0 5 ++
    .drift (.later 2 0) :: .start (.generate request none) :: Sample.goes 1 7 ++
    [.run 1 answer]

/-- Two calls are admitted before the circuit opens. One fails, then the probe of a third one, and
the other is still out when the route is half open again. -/
def overtakenMoves : List (Move Input Call) :=
  .start (.generate Sample.request none) :: Sample.goes 0 7 ++
    .start (.generate Sample.request none) :: Sample.goes 1 7 ++
    .run 0 (.completion (.error .timeoutError)) :: Sample.goes 0 5 ++
    .drift (.later 2 0) :: .start (.generate Sample.request none) :: Sample.goes 2 7 ++
    .run 2 (.completion (.error .timeoutError)) :: Sample.goes 2 5 ++ [.drift (.later 2 0)]

theorem not_onProbe {routeId : String} {tr : GatewayTrace} (h : tr.any (takesProbe routeId) = false) :
    ¬ OnProbe routeId tr := by
  rintro ⟨pre, post, rfl, -⟩
  simp [takesProbe] at h

theorem admissions_settle_overtaken : ∃ c : State, Sample.service.machine.Reachable initial c ∧
    Sample.service.AllWellEnded c ∧ c.Running 1 ∧
    (c.world.circuits.isAvailable Sample.service.circuits c.world.clock "primary").1 = true := by
  obtain ⟨c, hm, hended, hclosed, hhalf, hlt⟩ :
      ∃ c ∈ Sample.service.machine.moves? initial overtakenMoves,
        c.tasks.map (·.rest.ended) = [true, false, true] ∧
        (c.trace 1).any (takesProbe "primary") = false ∧
        ((c.world.circuits.get "primary").advance Sample.service.circuits c.world.clock).state =
          .halfOpen ∧
        ∀ i < c.tasks.length,
          Along pending (Sample.service.wellEnded · ·) none (c.trace i) := by decide +kernel
  have hc := Machine.reachable_of_moves _ .start hm
  have hok := allWellEnded_of_lt hc hlt
  have hno : ∀ i, ¬ Probing c i "primary" := by
    rintro i ⟨hrun, hprobe⟩
    rw [Pool.running_iff, hended] at hrun
    rcases i with _ | _ | _ | i
    · cases hrun
    · exact not_onProbe hclosed hprobe
    · cases hrun
    · cases hrun
  exact ⟨c, hc, hok, Pool.running_iff.mpr (by rw [hended]; rfl),
    (admissions_settle hc hok).2.2 "primary" hno hhalf⟩

def schemaRequest : GatewayRequest :=
  { Sample.request with responseSchema := some [("type", .str "object")] }.inferCapabilities

/-- The probe answers with a text that is no JSON. No call is left, and the route waits for the
report on its probe. -/
theorem admission_leaks : ∃ c : State, Sample.service.machine.Reachable initial c ∧
    c.quiet = true ∧ (c.world.circuits.get "primary").state = .halfOpen ∧
    (c.world.circuits.get "primary").probeInFlight = true := by
  obtain ⟨c, hm, hd⟩ : ∃ c ∈ Sample.service.machine.moves? initial
      (probeMoves schemaRequest (Sample.completion "hello") ++ Sample.goes 1 3),
      c.quiet = true ∧ (c.world.circuits.get "primary").state = .halfOpen ∧
        (c.world.circuits.get "primary").probeInFlight = true := by decide +kernel
  exact ⟨c, Machine.reachable_of_moves _ .start hm, hd⟩

end Service

end AegisGateway
