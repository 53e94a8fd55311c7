import AegisGateway.Fallback

/-!
# Giving up

The loops of `generate` and `stream` end without an answer for few reasons. As long as there is
time they take up every candidate, and the error they raise is the one of the last.
-/

open Coroutine

namespace AegisGateway

namespace Service

variable {svc : Service}

/-! ## Candidates that come to nothing -/

def rejection (svc : Service) : GatewayEvent → Option PyExc
  | ⟨.complete q _, a⟩ =>
    match svc.judge q a with
    | .error e => some e
    | .ok _ => none
  | ⟨.openStream q _, script⟩ =>
    match svc.scriptVerdict q script with
    | .error e => some e
    | .ok _ => none
  | _ => none

def keptError (timeout : String) (route : ModelRoute) : PyExc → Option AegisError
  | .timeoutError => some (.provider (providerTimeoutError timeout route.provider))
  | .aegis (.provider e) => some (.provider e)
  | .aegis (.schemaViolation m) => some (.schemaViolation m)
  | .aegis (.circuitOpen m) => some (.circuitOpen m)
  | _ => none

def brokenOff (route : ModelRoute) : PyExc → Option AegisError
  | .timeoutError => some (.provider (streamInterruptedError streamTimeout route.provider))
  | .aegis (.provider e) => some (.provider (streamInterruptedError e.message route.provider))
  | .aegis (.schemaViolation m) => some (.schemaViolation m)
  | _ => none

/-- A route has had its turn, and nothing has come of it but an error. -/
inductive Spent (svc : Service) (timeout : String) (tr : GatewayTrace) (route : ModelRoute) :
    AegisError → Prop
  | refused {m : String} (h : ev (.beforeRequest route.id) (.error m) ∈ tr) :
      Spent svc timeout tr route (.circuitOpen m)
  | unconfigured (h : route.provider ∉ svc.adapters) :
      Spent svc timeout tr route (.provider (notConfigured route.provider))
  | rejected {e : GatewayEvent} {q : GatewayRequest} {exc : PyExc} {error : AegisError}
      (he : e ∈ tr) (hcall : providerCall e.1 = some (q, route))
      (hrejected : svc.rejection e = some exc) (hkept : keptError timeout route exc = some error) :
      Spent svc timeout tr route error

theorem Spent.mono {timeout : String} {tr tr' : GatewayTrace} {route : ModelRoute}
    {error : AegisError} (h : svc.Spent timeout tr route error) (hsub : tr ⊆ tr') :
    svc.Spent timeout tr' route error := by
  cases h with
  | refused h => exact .refused (hsub h)
  | unconfigured h => exact .unconfigured h
  | rejected he hcall hrejected hkept => exact .rejected (hsub he) hcall hrejected hkept

/-- What ends a call in the middle of an attempt: an exception that no handler knows, as when the
consumer leaves, or a failure behind output that the consumer has seen. -/
inductive Cut (svc : Service) (tr : GatewayTrace) : PyExc → Prop
  | unhandled {exc : PyExc} (h : exc.handled = false) : Cut svc tr exc
  | interrupted {e : GatewayEvent} {q : GatewayRequest} {route : ModelRoute} {exc : PyExc}
      {error : AegisError} (he : e ∈ tr) (hcall : providerCall e.1 = some (q, route))
      (hrejected : svc.rejection e = some exc) (hbroken : brokenOff route exc = some error)
      (hseen : ∃ v ∈ yielded tr, v.type = .delta) : Cut svc tr (.aegis error)

theorem Cut.mono {tr tr' : GatewayTrace} {exc : PyExc} (h : svc.Cut tr exc) (hsub : tr ⊆ tr')
    (hseen : ∀ v ∈ yielded tr, v ∈ yielded tr') : svc.Cut tr' exc := by
  cases h with
  | unhandled h => exact .unhandled h
  | interrupted he hcall hrejected hbroken hdelta =>
    obtain ⟨v, hv, htype⟩ := hdelta
    exact .interrupted (hsub he) hcall hrejected hbroken ⟨v, hseen v hv, htype⟩

/-! ## One candidate -/

inductive PassOver {α : Type} (svc : Service) (timeout : String) (x : Exchange) (route : ModelRoute)
    (st : LoopState) (tr : GatewayTrace) : Except PyExc (Pass α) → Prop
  | next {error : AegisError} (h : svc.Spent timeout tr route error) :
      PassOver svc timeout x route st tr (.ok (.next (st.failed route error)))
  | invalid {error : ProviderError} (h : svc.Spent timeout tr route (.provider error))
      (hc : error.code = "invalid_provider_request") :
      PassOver svc timeout x route st tr (.ok (.broke (st.failed route (.provider error))))
  | late {t : ℚ} (h : ev .monotonic t ∈ tr) (ht : remainingSeconds x.started x.request t ≤ 0) :
      PassOver svc timeout x route st tr (.ok (.broke (st.deadline route)))
  | answered (a : α) : PassOver svc timeout x route st tr (.ok (.returned a))
  | cut {exc : PyExc} (h : svc.Cut tr exc) : PassOver svc timeout x route st tr (.error exc)

theorem Handled.passOver {α : Type} {timeout : String} {x : Exchange} {route : ModelRoute}
    {st : LoopState} {exc : PyExc} {tr tr' : GatewayTrace} {out : Except PyExc (Pass α)}
    (h : Handled timeout route st exc tr out)
    (hspent : ∀ error, keptError timeout route exc = some error →
      svc.Spent timeout tr' route error) : svc.PassOver timeout x route st tr' out := by
  cases h with
  | schemaViolation m | circuitOpen m => exact .next (hspent _ rfl)
  | timeout state | provider e state he => exact .next (hspent _ rfl)
  | invalidRequest e state he => exact .invalid (hspent _ rfl) he
  | unhandled he => exact .cut (.unhandled he)

theorem GeneratePassRun.passOver {x : Exchange} {c : RoutingCandidate} {route : ModelRoute}
    {st : LoopState} {tr : GatewayTrace} {out : Except PyExc (Pass GatewayResponse)}
    (h : svc.GeneratePassRun x c route st tr out) :
    svc.PassOver completeTimeout x route st tr out := by
  cases h with
  | deadline ht => exact .late (by simp) ht
  | refused ht => exact .next (.refused (by simp))
  | unconfigured ht hr hh =>
    apply hh.passOver
    intro error hkept
    cases hkept
    exact .unconfigured hr
  | @failed _ _ _ t state a exc tr _ ht hr he hh =>
    refine hh.passOver fun error hkept => .rejected (List.mem_append_right _ List.mem_cons_self) rfl
      ?_ hkept
    have hjudge : svc.judge (attemptRequest x.request (remainingSeconds x.started x.request t)) a =
        .error exc := he
    simp [rejection, hjudge]
  | succeeded => exact .answered _

theorem StreamHandled.passOver {x : Exchange} {route : ModelRoute} {st : LoopState}
    {emitted : Bool} {exc : PyExc} {tr tr' : GatewayTrace} {out : Except PyExc (Pass Unit)}
    (h : StreamHandled x route st emitted exc tr out) {e : GatewayEvent} {q : GatewayRequest}
    (he : e ∈ tr') (hcall : providerCall e.1 = some (q, route))
    (hrejected : svc.rejection e = some exc)
    (hseen : emitted = true → ∃ v ∈ yielded tr', v.type = .delta) :
    svc.PassOver streamTimeout x route st tr' out := by
  have hspent : ∀ error, keptError streamTimeout route exc = some error →
      svc.Spent streamTimeout tr' route error := fun error => .rejected he hcall hrejected
  cases emitted with
  | false => exact Handled.passOver h hspent
  | true =>
    have hcut : ∀ error, brokenOff route exc = some error → svc.Cut tr' (.aegis error) :=
      fun error hbroken => .interrupted he hcall hrejected hbroken (hseen rfl)
    have h : Interrupted x route st exc tr out := h
    cases h with
    | schemaViolation | timeout | provider => exact .cut (hcut _ rfl)
    | circuitOpen m => exact .next (hspent _ rfl)
    | unhandled he => exact .cut (.unhandled he)

theorem StreamPassRun.passOver {x : Exchange} {c : RoutingCandidate} {route : ModelRoute}
    {st : LoopState} {tr : GatewayTrace} {out : Except PyExc (Pass Unit)}
    (h : svc.StreamPassRun x c route st tr out) :
    svc.PassOver streamTimeout x route st tr out := by
  cases h with
  | deadline ht => exact .late (by simp) ht
  | refused ht => exact .next (.refused (by simp))
  | unconfigured ht hr hh =>
    apply hh.passOver
    intro error hkept
    cases hkept
    exact .unconfigured hr
  | left => exact .cut (.unhandled rfl)
  | @failed _ _ _ t state script tr tr' r exc _ ht hr hl hverdict hh =>
    refine hh.passOver (List.mem_append_right _ List.mem_cons_self) rfl ?_ fun hemitted => ?_
    · have hscript : svc.scriptVerdict
          (attemptRequest x.request (remainingSeconds x.started x.request t)) script =
          .error exc := (hl.verdict _).symm.trans hverdict
      simp [rejection, hscript]
    · obtain ⟨v, hv, hdelta⟩ := (hl.emitted_iff.mp hemitted).resolve_left (by simp)
      refine ⟨v, ?_, hdelta⟩
      rw [yielded_append]
      apply List.mem_append_right _
      change v ∈ yielded (tr ++ tr')
      rw [yielded_append]
      exact List.mem_append_left _ hv
  | @succeeded _ _ _ t state state' script tr r parsed valid now createdAt createdAt' consumer =>
    cases consumer with
    | resumes => exact .answered _
    | leaves => exact .cut (.unhandled rfl)

/-! ## The loop -/

def lateError (route : ModelRoute) : AegisError :=
  .provider (providerTimeoutError "gateway deadline exhausted before provider attempt"
    route.provider)

/-- Why a call gives up with this exception, when `last` is the last error it has come to and
`rest` are the routes that have not had their turn. -/
inductive GivesUp (svc : Service) (x : Exchange) (tr : GatewayTrace) (last : Option AegisError) :
    List String → PyExc → Prop
  | exhausted {error : AegisError} (h : last = some error) : GivesUp svc x tr last [] (.aegis error)
  | invalid {rest : List String} {error : ProviderError} (h : last = some (.provider error))
      (hc : error.code = "invalid_provider_request") :
      GivesUp svc x tr last rest (.aegis (.provider error))
  | late {t : ℚ} {route : ModelRoute} {rest : List String} (h : ev .monotonic t ∈ tr)
      (ht : remainingSeconds x.started x.request t ≤ 0) (hr : route ∈ svc.routes) :
      GivesUp svc x tr last (route.id :: rest) (.aegis (last.getD (lateError route)))
  | cut {id : String} {rest : List String} {exc : PyExc} (h : svc.Cut tr exc) :
      GivesUp svc x tr last (id :: rest) exc

theorem GivesUp.mono {x : Exchange} {tr tr' : GatewayTrace} {last : Option AegisError}
    {rest : List String} {exc : PyExc} (h : svc.GivesUp x tr last rest exc) (hsub : tr ⊆ tr')
    (hseen : ∀ v ∈ yielded tr, v ∈ yielded tr') : svc.GivesUp x tr' last rest exc := by
  cases h with
  | exhausted h => exact .exhausted h
  | invalid h hc => exact .invalid h hc
  | late h ht hr => exact .late (hsub h) ht hr
  | cut h => exact .cut (h.mono hsub hseen)

abbrev TriedRoutes : Type := List (ModelRoute × AegisError)

def TriedRoutes.lastError (tried : TriedRoutes) (before : Option AegisError) : Option AegisError :=
  (tried.getLast?.map (·.2)).or before

theorem TriedRoutes.lastError_cons (p : ModelRoute × AegisError) (tried : TriedRoutes)
    (before : Option AegisError) :
    TriedRoutes.lastError (p :: tried) before = tried.lastError (some p.2) := by
  cases tried with
  | nil => rfl
  | cons p' tried => simp [TriedRoutes.lastError, List.getLast?_cons]

/-- The candidates have had their turns up to those of `rest`, and the call gives up. -/
def Surrenders (svc : Service) (timeout : String) (x : Exchange) (order : List String)
    (tr : GatewayTrace) (before : Option AegisError) (exc : PyExc) : Prop :=
  ∃ (tried : TriedRoutes) (rest : List String), order = tried.map (·.1.id) ++ rest ∧
    (∀ p ∈ tried, p.1 ∈ svc.routes ∧ svc.Spent timeout tr p.1 p.2) ∧
    svc.GivesUp x tr (tried.lastError before) rest exc

theorem GaveUp.error_eq {α : Type} {x : Exchange} {st : LoopState} {tr : GatewayTrace}
    {exc : PyExc} (h : GaveUp x st tr (.error exc : Except PyExc α)) (hst : LoopState.Failing st) :
    ∃ error, st.lastError = some error ∧ exc = .aegis error := by
  cases h with
  | unrecorded he => exact ⟨_, he, rfl⟩
  | recorded now t he => exact ⟨_, he, rfl⟩
  | assertion h =>
    rcases h with h | h
    · exact absurd hst.1 (by simp [h])
    · exact absurd hst.2 (by simp [h])

theorem getRoute_unhandled {routeId : String} {exc : PyExc} (h : svc.getRoute routeId = .error exc) :
    exc.handled = false := by
  unfold getRoute at h
  split at h
  next => cases h
  next =>
    cases h
    rfl

theorem Surrenders.next {timeout : String} {x : Exchange} {route : ModelRoute} {order : List String}
    {tr tr' : GatewayTrace} {before : Option AegisError} {error : AegisError} {exc : PyExc}
    (hroute : route ∈ svc.routes) (hspent : svc.Spent timeout tr route error)
    (h : svc.Surrenders timeout x order tr' (some error) exc) :
    svc.Surrenders timeout x (route.id :: order) (tr ++ tr') before exc := by
  obtain ⟨tried, rest, rfl, htried, hgives⟩ := h
  refine ⟨(route, error) :: tried, rest, rfl, List.forall_mem_cons.mpr ⟨⟨hroute, ?_⟩, ?_⟩, ?_⟩
  · exact hspent.mono (List.subset_append_left _ _)
  · exact fun p hp => ⟨(htried p hp).1, (htried p hp).2.mono (List.subset_append_right _ _)⟩
  · rw [TriedRoutes.lastError_cons]
    apply hgives.mono (List.subset_append_right _ _)
    intro v hv
    rw [yielded_append]
    exact List.mem_append_right _ hv

theorem LoopRun.surrenders {α : Type} {timeout : String} {x : Exchange} {R : PassRel α}
    (hR : ∀ {c route st tr out}, R c route st tr out → svc.PassOver timeout x route st tr out)
    {cs : List RoutingCandidate} {st : LoopState} {tr : GatewayTrace} {out : Except PyExc α}
    (h : svc.LoopRun x R cs st tr out) (hst : LoopState.Noted st)
    (hany : cs ≠ [] ∨ LoopState.Failing st) {exc : PyExc} (hout : out = .error exc) :
    svc.Surrenders timeout x (cs.map (·.routeId)) tr st.lastError exc := by
  induction h with
  | exhausted hg =>
    subst hout
    obtain ⟨error, hlast, rfl⟩ := hg.error_eq (hany.resolve_left (by simp))
    exact ⟨[], [], rfl, by simp, .exhausted hlast⟩
  | unknown hr =>
    cases hout
    exact ⟨[], _, rfl, by simp, .cut (.unhandled (getRoute_unhandled hr))⟩
  | raised hr hp =>
    cases hout
    cases hR hp with
    | cut hcut => exact ⟨[], _, rfl, by simp, .cut hcut⟩
  | returned => cases hout
  | @broke c cs st st' tr tr' route out hr hp hg =>
    subst hout
    obtain ⟨hroute, hid⟩ := getRoute_ok hr
    rw [List.map_cons, ← hid]
    cases hR hp with
    | @invalid error hspent hc =>
      obtain ⟨_, hlast, rfl⟩ := hg.error_eq ⟨rfl, rfl⟩
      cases hlast
      refine ⟨[(route, .provider error)], _, rfl, ?_, .invalid rfl hc⟩
      exact List.forall_mem_singleton.mpr ⟨hroute, hspent.mono (List.subset_append_left _ _)⟩
    | @late t ht hlate =>
      obtain ⟨error, hlast, rfl⟩ := hg.error_eq (deadline_failing hst route)
      -- The deadline is only kept if no other error has been.
      have herror : error = st.lastError.getD (lateError route) := by
        cases hbefore : st.lastError with
        | none =>
          rw [LoopState.deadline, hbefore] at hlast
          exact (Option.some.inj hlast).symm
        | some e =>
          rw [LoopState.deadline, hbefore] at hlast
          exact Option.some.inj (hlast.symm.trans hbefore)
      rw [herror]
      exact ⟨[], _, rfl, by simp, .late (List.mem_append_left _ ht) hlate hroute⟩
  | @next c cs st st' tr tr' route out hr hp h ih =>
    obtain ⟨hroute, hid⟩ := getRoute_ok hr
    rw [List.map_cons, ← hid]
    cases hR hp with
    | @next error hspent =>
      exact .next hroute hspent (ih (fun _ => rfl) (.inr ⟨rfl, rfl⟩) hout)

/-! ## Whole calls -/

/-- What a call that fails has gone through: it has not come to a decision, or its consumer has
left while the cache was answering, or it has given up on the candidates of its decision. -/
inductive Failure (svc : Service) (args : Arguments) (timeout : String) (tr : GatewayTrace)
    (exc : PyExc) : Prop
  | undecided (h : Prog.Run (svc.approach args) tr (.error exc)) : Failure svc args timeout tr exc
  | left {pre post : GatewayTrace} {x : Exchange} {hit : GatewayResponse} (htr : tr = pre ++ post)
      (h : Prog.Run (svc.approach args) pre (.ok (x, .cache hit))) (hexc : exc = .generatorExit) :
      Failure svc args timeout tr exc
  | surrendered {pre post : GatewayTrace} {x : Exchange} {d : RoutingDecision}
      (htr : tr = pre ++ post) (h : Prog.Run (svc.approach args) pre (.ok (x, .decision d)))
      (hs : svc.Surrenders timeout x (turns d) post none exc) : Failure svc args timeout tr exc

theorem LoopRun.failure {α : Type} {timeout : String} {args : Arguments} {R : Exchange → PassRel α}
    (hR : ∀ {x c route st tr out}, R x c route st tr out → svc.PassOver timeout x route st tr out)
    {pre post : GatewayTrace} {x : Exchange} {d : RoutingDecision} {exc : PyExc}
    (hrun : Prog.Run (svc.approach args) pre (.ok (x, .decision d)))
    (ha : svc.ApproachRun args pre (.ok (x, .decision d)))
    (hl : svc.LoopRun x (R x) (orderedCandidates d) {} post (.error exc)) :
    svc.Failure args timeout (pre ++ post) exc := by
  have hnoted : LoopState.Noted {} := fun h => by cases h
  cases ha with
  | decided hb hxs hd =>
    have hs := hl.surrenders (fun hp => hR hp) hnoted (.inl (orderedCandidates_ne_nil hd)) rfl
    rw [map_orderedCandidates hxs hd] at hs
    exact .surrendered rfl hrun hs

theorem generate_failure (args : Arguments) : (svc.generate args).AllRuns fun tr out =>
    ∀ exc, out = .error exc → svc.Failure args completeTimeout tr exc := by
  rw [generate, Prog.allRuns_bind]
  apply ((svc.approach_runs args).and (Prog.allRuns_run _)).mono
  intro pre out h
  obtain ⟨ha, hrun⟩ := h
  rcases out with e | ⟨x, hit | d⟩
  · rintro exc ⟨⟩
    exact .undecided hrun
  · rw [Prog.then_ok]
    apply (serveCached_runs x hit).mono
    rintro post out hs exc rfl
    cases hs
  · apply (svc.candidateLoop_runs x (svc.generatePass_runs x) _ _).mono
    rintro post out hl exc rfl
    exact hl.failure (fun hp => hp.passOver) hrun ha

theorem StreamServedRun.left {x : Exchange} {hit : GatewayResponse} {tr : GatewayTrace} {exc : PyExc}
    (h : StreamServedRun x hit tr (.error exc)) : exc = .generatorExit := by
  generalize hout : (.error exc : Except PyExc Unit) = out at h
  cases h with
  | leftAtStart | leftAtDelta =>
    cases hout
    rfl
  | served now t consumer =>
    cases consumer with
    | resumes => cases hout
    | leaves =>
      cases hout
      rfl

theorem stream_failure (q : GatewayRequest) (forced : Option String) :
    (svc.stream q forced).AllRuns fun tr out => ∀ exc, out = .error exc →
      svc.Failure { request := q, forcedRouteId := forced } streamTimeout tr exc := by
  rw [stream, Prog.allRuns_bind]
  apply ((svc.approach_runs _).and (Prog.allRuns_run _)).mono
  intro pre out h
  obtain ⟨ha, hrun⟩ := h
  rcases out with e | ⟨x, hit | d⟩
  · rintro exc ⟨⟩
    exact .undecided hrun
  · rw [Prog.then_ok]
    apply (streamCached_runs x hit).mono
    rintro post out hs exc rfl
    exact .left rfl hrun hs.left
  · apply (svc.candidateLoop_runs x (svc.streamPass_runs x) _ _).mono
    rintro post out hl exc rfl
    exact hl.failure (fun hp => hp.passOver) hrun ha

def timeoutText : Call → String
  | .stream _ _ => streamTimeout
  | _ => completeTimeout

/-- No call gives up early. If one has failed after its decision, then each candidate has had its
turn, in order, and nothing has come of it but an error: its circuit refused, its provider has no
adapter, or its answer was rejected. Candidates are left out only at the deadline, behind a request
that a provider calls invalid, behind output that the consumer of a stream has seen, or for an
exception that no handler knows. And the error that is raised is the one of the last turn. -/
theorem failures_earned {c : State} (h : svc.machine.Reachable initial c) {i : Nat} {call : Call}
    {args : Arguments} (hargs : callArguments call = some args) {exc : PyExc}
    (hfailed : c.Finished i call (.error exc)) :
    svc.Failure args (timeoutText call) (c.trace i) exc := by
  have hall : (svc.body call).AllRuns fun tr out =>
      ∀ exc, out = .error exc → svc.Failure args (timeoutText call) tr exc := by
    have herror : ∀ {α β : Type} {f : α → β} {out : Except PyExc α} {exc : PyExc},
        out.map f = .error exc → out = .error exc := by
      rintro α β f (e | a) exc hout <;> cases hout
      rfl
    cases call with
    | generate q forced | shadow q routeId releaseId =>
      cases hargs
      exact (Prog.allRuns_map _ _ _).mpr ((generate_failure _).mono
        fun tr out hfail exc hout => hfail exc (herror hout))
    | stream q forced =>
      cases hargs
      exact (Prog.allRuns_map _ _ _).mpr ((stream_failure q forced).mono
        fun tr out hfail exc hout => hfail exc (herror hout))
    | _ => cases hargs
  exact hall.run (h.finished hfailed) exc rfl

/-! A call with two candidates. The provider of the one has no adapter, the other is down. -/

def outageError : PyExc :=
  .aegis (.provider
    { message := "unavailable", provider := "openai", code := "provider_unavailable" })

def spentMoves : List (Move Input Call) :=
  .start (.generate Sample.request none) ::
    (Sample.goes 0 13 ++ .run 0 (.completion (.error outageError)) :: Sample.goes 0 5)

def thrown : GatewayM Outcome → Option PyExc
  | .throw exc => some exc
  | _ => none

theorem eq_of_thrown {p : GatewayM Outcome} {exc : PyExc} (h : thrown p = some exc) :
    p = Prog.ofExcept (.error exc) := by
  cases p with
  | throw e =>
    cases h
    rfl
  | _ => cases h

theorem failures_earned_spent : ∃ c : State, strayService.machine.Reachable initial c ∧
    c.Finished 0 (.generate Sample.request none) (.error outageError) ∧
    strayService.Failure { request := Sample.request } completeTimeout (c.trace 0) outageError ∧
    calledRoutes (c.trace 0) = ["primary"] := by
  obtain ⟨c, hm, hthrown, hcalled⟩ : ∃ c ∈ strayService.machine.moves? initial spentMoves,
      (∀ t ∈ c.tasks[0]?, thrown t.rest = some outageError) ∧
        calledRoutes (c.trace 0) = ["primary"] := by decide +kernel
  have hc := Machine.reachable_of_moves _ .start hm
  obtain ⟨⟨call, rest⟩, ht, rfl⟩ := Machine.task_of_moves hm
  obtain rfl := eq_of_thrown (hthrown _ ht)
  exact ⟨c, hc, ht, failures_earned hc rfl ht, hcalled⟩

end Service

end AegisGateway
