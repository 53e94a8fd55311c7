import AegisGateway.Isolation
import AegisGateway.Lib.Draining
import AegisGateway.Lib.Totals
import AegisGateway.Shadow

/-!
# Shutdown

`aclose` gathers the tasks that are in the background when it is called. That is enough: they come
to an end in whatever order they run, and none of them starts another.
-/

open Coroutine

namespace AegisGateway

namespace Service

variable {svc : Service}

/-- What `_track` is given: shadows and assessments. -/
def background : Call → Bool
  | .shadow _ _ _ | .assess _ => true
  | _ => false

def backgroundRank (call : Call) : Nat := if background call then 0 else 1

theorem responsive : svc.machine.Responsive := by
  intro w o
  cases o with
  | uuid4 => exact ⟨.uuid "", nofun⟩
  | complete q route => exact ⟨.completion (.error .timeoutError), nofun⟩
  | openStream q route => exact ⟨.script ⟨[], none⟩, nofun⟩
  | yieldEvent v => exact ⟨.consumer .resumes, nofun⟩
  | _ => exact ⟨.go, nofun⟩

/-! ## What is started -/

theorem background_of_launches {x : Exchange} {call : Call} (h : Launches x call) :
    background call = true := by
  cases h <;> rfl

theorem spawned_of_oneExchange {args : Arguments} {tr : GatewayTrace}
    (h : svc.OneExchange args tr) : ∀ e ∈ tr, ∀ call ∈ spawned e.1, background call = true := by
  rintro ⟨o, a⟩ he call hcall
  cases o with
  | createTask started =>
    obtain rfl := List.mem_singleton.mp hcall
    rcases h with hp | ⟨tr₀, tr₁, x, rfl, hb, hx⟩
    · cases hp _ he
    · rcases List.mem_append.mp he with he | he
      · cases hb.preliminary _ he
      · exact background_of_launches ((hx _ he).task call rfl)
  | _ => cases hcall

theorem spawned_of_controlling {o : Op} (h : controlling o = true) : spawned o = [] := by
  cases o <;> first | rfl | cases h

theorem body_spawns (call : Call) :
    (svc.body call).Emits fun e => ∀ started ∈ spawned e.1, background started = true :=
  body_leaves (Prog.closed_forall _)
    (fun args _ => (generate_oneExchange args).mono fun _ h => spawned_of_oneExchange h)
    (fun q forced _ => (stream_oneExchange q forced).mono fun _ h => spawned_of_oneExchange h)
    fun e he => by
      simp [spawned_of_controlling (controlling_of_controls he)]

theorem AssessRun.spawned {id : String} {tr : GatewayTrace} {out : Except PyExc RollbackDecision}
    (h : AssessRun id tr out) : ∀ e ∈ tr, Service.spawned e.1 = [] := by
  cases h <;> simp [assessed, Service.spawned]

theorem background_spawns {call : Call} (h : background call = true) :
    (svc.body call).Emits fun e => spawned e.1 = [] := by
  cases call with
  | shadow q routeId releaseId => exact (body_aside rfl).mono fun _ hev e he => (hev e he).1
  | assess releaseId => exact Prog.leaves_map ((assess_runs releaseId).mono fun _ _ h => h.spawned) _
  | _ => cases h

theorem ranked : svc.machine.Ranked backgroundRank := by
  intro call
  change (svc.body call).Emits fun e =>
    ∀ started ∈ spawned e.1, backgroundRank started < backgroundRank call
  cases hcall : background call with
  | true =>
    apply (background_spawns hcall).mono
    intro tr hnone e he started hstarted
    rw [hnone e he] at hstarted
    cases hstarted
  | false =>
    apply (body_spawns call).mono
    intro tr hback e he started hstarted
    simp [backgroundRank, hcall, hback e he started hstarted]

/-! ## How much is started -/

def startsOf (e : GatewayEvent) : Nat := (spawned e.1).length

theorem starts_of_still {tr : GatewayTrace} (h : ∀ e ∈ tr, spawned e.1 = []) :
    accrued startsOf tr = 0 :=
  accrued_eq_zero fun e he => by rw [startsOf, h e he]; rfl

theorem spawned_of_approaching {o : Op} (h : approaching o = true) : spawned o = [] := by
  cases o <;> first | rfl | cases h

theorem spawned_of_relaying {o : Op} (h : relaying o = true) : spawned o = [] := by
  cases o <;> first | rfl | cases h

theorem starts_assessEvents (x : Exchange) : accrued startsOf x.assessEvents ≤ 1 := by
  unfold Exchange.assessEvents
  split
  · exact le_rfl
  · exact Nat.zero_le _

theorem starts_launchEvents (x : Exchange) : accrued startsOf x.launchEvents ≤ 2 := by
  have hassess := starts_assessEvents x
  have hshadow : accrued startsOf x.shadowEvents ≤ 1 := by
    unfold Exchange.shadowEvents
    cases x.assignment.shadowRouteId with
    | none => exact Nat.zero_le _
    | some routeId => exact le_rfl
  unfold Exchange.launchEvents
  split_ifs
  · exact Nat.zero_le _
  · rw [accrued_append]
    omega

theorem starts_keepEvents (x : Exchange) (response : GatewayResponse) (t : Int) :
    accrued startsOf (x.keepEvents response t) ≤ 2 := by
  have hlaunch := starts_launchEvents x
  have hkept : accrued startsOf ((if x.evaluation then [] else x.rowEvents response t) ++
      x.putEvents response) = 0 := by
    apply starts_of_still
    unfold Exchange.rowEvents Exchange.putEvents
    split_ifs <;> simp [spawned]
  rw [Exchange.keepEvents, ← List.append_assoc, accrued_append, hkept]
  omega

theorem starts_errorEvents (x : Exchange) (route : ModelRoute) (error : AegisError) (n : Nat)
    (now : ℚ) (t : Int) : accrued startsOf (x.errorEvents route error n now t) ≤ 2 := by
  have hassess := starts_assessEvents x
  rw [Exchange.errorEvents, accrued_append, starts_of_still (by simp [spawned])]
  omega

theorem GaveUp.starts {α : Type} {x : Exchange} {st : LoopState} {tr : GatewayTrace}
    {out : Except PyExc α} (h : GaveUp x st tr out) : accrued startsOf tr ≤ 2 := by
  cases h with
  | unrecorded | assertion => exact Nat.zero_le _
  | recorded now t => exact starts_errorEvents x _ _ _ now t

def PassStarts {α : Type} (tr : GatewayTrace) (out : Except PyExc (Pass α)) : Prop :=
  accrued startsOf tr = 0 ∨
    accrued startsOf tr ≤ 2 ∧ ∀ st, out ≠ .ok (.next st) ∧ out ≠ .ok (.broke st)

theorem starts_admitted (route : ModelRoute) (t : ℚ) (state : CircuitState) :
    accrued startsOf (admitted route t state) = 0 := rfl

theorem starts_successEvents (route : ModelRoute) (state : CircuitState) :
    accrued startsOf (successEvents route state) = 0 := rfl

theorem Handled.starts {α : Type} {timeout : String} {route : ModelRoute} {st : LoopState}
    {e : PyExc} {tr : GatewayTrace} {out : Except PyExc (Pass α)}
    (h : Handled timeout route st e tr out) : accrued startsOf tr = 0 := by
  cases h <;> rfl

theorem starts_skip {e : GatewayEvent} (h : spawned e.1 = []) (tr : GatewayTrace) :
    accrued startsOf (e :: tr) = accrued startsOf tr := by
  rw [accrued_cons, startsOf, h]
  exact Nat.zero_add _

theorem starts_relay {x : Exchange} {route : ModelRoute} {es : List ProviderStreamEvent}
    {r r' : Relay} {tr : GatewayTrace} {left : Bool} (h : RelayRun x route es r tr r' left) :
    accrued startsOf tr = 0 :=
  starts_of_still fun e he => spawned_of_relaying (h.relaying e he)

theorem GeneratePassRun.starts {x : Exchange} {c : RoutingCandidate} {route : ModelRoute}
    {st : LoopState} {tr : GatewayTrace} {out : Except PyExc (Pass GatewayResponse)}
    (h : svc.GeneratePassRun x c route st tr out) : PassStarts tr out := by
  cases h with
  | deadline | refused => exact .inl rfl
  | unconfigured ht hr hh =>
    left
    rw [accrued_append, starts_admitted, hh.starts]
  | failed ht hr he hh =>
    left
    rw [accrued_append, starts_admitted, starts_skip rfl, hh.starts]
  | succeeded ht hr ha =>
    refine .inr ⟨?_, fun st => ⟨by simp, by simp⟩⟩
    rw [accrued_append, starts_admitted, starts_skip rfl, accrued_append, starts_successEvents,
      starts_skip rfl, starts_skip rfl, Nat.zero_add, Nat.zero_add]
    exact starts_keepEvents x _ _

theorem StreamHandled.starts {x : Exchange} {route : ModelRoute} {st : LoopState} {emitted : Bool}
    {e : PyExc} {tr : GatewayTrace} {out : Except PyExc (Pass Unit)}
    (h : StreamHandled x route st emitted e tr out) : PassStarts tr out := by
  cases emitted with
  | false => exact .inl (Handled.starts h)
  | true =>
    have h : Interrupted x route st e tr out := h
    cases h with
    | schemaViolation m now t =>
      exact .inr ⟨starts_errorEvents x route _ _ now t, fun st => ⟨by simp, by simp⟩⟩
    | circuitOpen | unhandled => exact .inl rfl
    | timeout state now t | provider e state now t =>
      refine .inr ⟨?_, fun st => ⟨by simp, by simp⟩⟩
      have hfailed : accrued startsOf (failureEvents route state) = 0 := rfl
      rw [accrued_append, hfailed, Nat.zero_add]
      exact starts_errorEvents x route _ _ now t

theorem StreamPassRun.starts {x : Exchange} {c : RoutingCandidate} {route : ModelRoute}
    {st : LoopState} {tr : GatewayTrace} {out : Except PyExc (Pass Unit)}
    (h : svc.StreamPassRun x c route st tr out) : PassStarts tr out := by
  cases h with
  | deadline | refused => exact .inl rfl
  | unconfigured ht hr hh =>
    left
    rw [accrued_append, starts_admitted, hh.starts]
  | left ht hr hl =>
    left
    rw [accrued_append, starts_admitted, starts_skip rfl, starts_relay hl]
  | failed ht hr hl hv hh =>
    have hstarts := hh.starts
    unfold PassStarts at hstarts ⊢
    rwa [accrued_append, starts_admitted, starts_skip rfl, accrued_append, starts_relay hl,
      Nat.zero_add, Nat.zero_add]
  | @succeeded _ _ _ t state state' script tr r parsed valid now createdAt createdAt' consumer
      ht hr hl hv =>
    refine .inr ⟨?_, fun st => by cases consumer <;> exact ⟨by simp, by simp⟩⟩
    rw [accrued_append, starts_admitted, starts_skip rfl, accrued_append, starts_relay hl,
      accrued_append, starts_successEvents, starts_skip rfl, starts_skip rfl, accrued_append,
      starts_skip rfl, accrued_nil, Nat.zero_add, Nat.zero_add, Nat.zero_add, Nat.add_zero]
    exact starts_keepEvents x _ _

theorem LoopRun.starts {α : Type} {x : Exchange} {R : PassRel α}
    (hR : ∀ c route st tr out, R c route st tr out → PassStarts tr out)
    {cs : List RoutingCandidate} {st : LoopState} {tr : GatewayTrace} {out : Except PyExc α}
    (h : svc.LoopRun x R cs st tr out) : accrued startsOf tr ≤ 2 := by
  induction h with
  | exhausted h => exact h.starts
  | unknown => exact Nat.zero_le _
  | raised hr hp | returned hr hp =>
    rcases hR _ _ _ _ _ hp with hzero | ⟨hle, -⟩
    · exact hzero.trans_le (Nat.zero_le _)
    · exact hle
  | broke hr hp h =>
    rcases hR _ _ _ _ _ hp with hzero | ⟨-, hends⟩
    · rw [accrued_append, hzero, Nat.zero_add]
      exact h.starts
    · exact absurd rfl (hends _).2
  | next hr hp h ih =>
    rcases hR _ _ _ _ _ hp with hzero | ⟨-, hends⟩
    · rw [accrued_append, hzero, Nat.zero_add]
      exact ih
    · exact absurd rfl (hends _).1

theorem ServedRun.starts {x : Exchange} {hit : GatewayResponse} {tr : GatewayTrace}
    {out : Except PyExc GatewayResponse} (h : ServedRun x hit tr out) : accrued startsOf tr ≤ 2 := by
  cases h with
  | served now t t' =>
    rw [starts_skip rfl, starts_skip rfl, accrued_append,
      starts_of_still (by simp [Exchange.rowEvents, spawned]), Nat.zero_add]
    exact starts_launchEvents x

theorem StreamServedRun.starts {x : Exchange} {hit : GatewayResponse} {tr : GatewayTrace}
    {out : Except PyExc Unit} (h : StreamServedRun x hit tr out) : accrued startsOf tr ≤ 2 := by
  cases h with
  | leftAtStart | leftAtDelta => exact Nat.zero_le _
  | served now t consumer =>
    rw [starts_skip rfl, starts_skip rfl, starts_skip rfl, accrued_append,
      starts_of_still (by simp [Exchange.rowEvents, spawned]), accrued_append, starts_skip rfl,
      accrued_nil, Nat.zero_add, Nat.add_zero]
    exact starts_launchEvents x

theorem CallRun.starts {α : Type} {args : Arguments}
    {served : Exchange → GatewayResponse → GatewayTrace → Except PyExc α → Prop}
    {R : Exchange → PassRel α}
    (hserved : ∀ x hit tr out, served x hit tr out → accrued startsOf tr ≤ 2)
    (hR : ∀ x c route st tr out, R x c route st tr out → PassStarts tr out)
    {tr : GatewayTrace} {out : Except PyExc α} (h : svc.CallRun args served R tr out) :
    accrued startsOf tr ≤ 2 := by
  have happroach : ∀ {tr out}, svc.ApproachRun args tr out → accrued startsOf tr = 0 := fun h =>
    starts_of_still fun e he => spawned_of_approaching (h.approaching e he)
  cases h with
  | stopped h => exact (happroach h).trans_le (Nat.zero_le _)
  | served h hs =>
    rw [accrued_append, happroach h, Nat.zero_add]
    exact hserved _ _ _ _ hs
  | looped h hl =>
    rw [accrued_append, happroach h, Nat.zero_add]
    exact hl.starts (hR _)

/-- The tasks that a call may start: a shadow and an assessment. -/
def startsAllowed (call : Call) : Nat := if background call then 0 else 2

theorem body_starts (call : Call) :
    (svc.body call).Leaves fun tr => accrued startsOf tr ≤ startsAllowed call := by
  cases hcall : background call with
  | true =>
    apply (background_spawns hcall).mono
    intro tr hnone
    rw [starts_of_still hnone]
    exact Nat.zero_le _
  | false =>
    have hallowed : startsAllowed call = 2 := by simp [startsAllowed, hcall]
    rw [hallowed]
    have hgenerate : ∀ args, (svc.generate args).Leaves fun tr => accrued startsOf tr ≤ 2 :=
      fun args => (svc.generate_runs args).mono fun _ _ h =>
        h.starts (fun _ _ _ _ => ServedRun.starts) fun _ _ _ _ _ _ => GeneratePassRun.starts
    cases hargs : callArguments call with
    | some args =>
      cases call with
      | generate q forced | shadow q routeId releaseId => exact Prog.leaves_map (hgenerate _) _
      | stream q forced =>
        refine Prog.leaves_map ((svc.stream_runs q forced).mono fun _ _ h => ?_) _
        exact h.starts (fun _ _ _ _ => StreamServedRun.starts) fun _ _ _ _ _ _ => StreamPassRun.starts
      | _ => cases hargs
    | none =>
      -- The control plane tracks no task.
      have hclosed := Prog.closed_forall fun e : GatewayEvent => spawned e.1 = []
      have hnone : (svc.body call).Emits fun e => spawned e.1 = [] := by
        refine body_leaves_cases hclosed (fun args h => ?_) (fun q forced h => ?_) fun e he => ?_
        · rcases h with h | ⟨request, forcedRouteId, rfl⟩
          · rw [hargs] at h
            cases h
          · exact generate_noTask (.inr ⟨rfl, rfl⟩)
        · subst h
          cases hargs
        · exact List.forall_mem_singleton.mpr (spawned_of_controlling (controlling_of_controls he))
      apply hnone.mono
      intro tr hnone
      rw [starts_of_still hnone]
      exact Nat.zero_le _

/-- The tasks of the background are at most two for each of the others. -/
theorem starts_le {c : State} (h : svc.machine.Reachable initial c) :
    accrued startsOf (c.log.map (·.2)) ≤ 2 * (c.tasks.filter fun t => !background t.call).length := by
  have htask : ∀ i t, c.tasks[i]? = some t →
      accrued startsOf (c.trace i) ≤ startsAllowed t.call := fun i t ht =>
    Prog.Leaves.steps (fun tr tr' hwhole => by rw [accrued_append] at hwhole; omega)
      (body_starts t.call) (h.onTheWay.2 i t ht)
  have hle := h.accrued_le htask
  have hsum : ∀ l : List (Task Op Ans PyExc Outcome Call),
      (l.map fun t => startsAllowed t.call).sum =
        2 * (l.filter fun t => !background t.call).length := by
    intro l
    induction l with
    | nil => rfl
    | cons t l ih =>
      rw [List.map_cons, List.sum_cons, ih, startsAllowed, List.filter_cons]
      cases background t.call with
      | true => simp
      | false => simp; omega
  rwa [hsum] at hle

/-! ## Shutdown -/

/-- Nobody calls any more. -/
def closed (_ : State) (m : Move Input Call) : Prop := ∀ call, m ≠ .start call

/-- The gateway never has more than two tasks in the background for each of its calls. Once no call
comes in it drains, whatever the providers answer and whatever becomes of the world in between:
no order of the tasks goes on for ever, and none stops before all of them have ended. And if only
the background is left, to wait for the tasks that are there is to wait for all of them. -/
theorem shutdown_drains {c : State} (h : svc.machine.Reachable initial c) :
    accrued startsOf (c.log.map (·.2)) ≤
      2 * (c.tasks.filter fun t => !background t.call).length ∧
    (∀ run : Nat → State, run 0 = c → ∃ n, ¬ svc.machine.Turn (run n) (run (n + 1))) ∧
    (∀ c', svc.machine.Reach closed c c' →
      (c'.quiet = true ↔ ∀ c'', ¬ svc.machine.Turn c' c'')) ∧
    ((∀ t ∈ c.tasks, t.rest.ended = false → background t.call = true) →
      ∀ c', svc.machine.Reach closed c c' →
        (∀ i t, i < c.tasks.length → c'.tasks[i]? = some t → t.rest.ended = true) →
          c'.quiet = true) := by
  refine ⟨starts_le h, Machine.turns_end ranked h.onTheWay,
    fun c' _ => Machine.quiet_iff_no_turn responsive, fun hback c' hrun hgathered => ?_⟩
  have hlast : ∀ t ∈ c.tasks, t.rest.ended = false → backgroundRank t.call = 0 :=
    fun t hmem hended => by simp [backgroundRank, hback t hmem hended]
  have hcalls := Machine.calls_of_reach ranked (fun _ _ hok => hok) h.onTheWay hlast hrun
  have hlength : c'.tasks.length = c.tasks.length := by
    simpa using congrArg List.length hcalls
  apply List.all_eq_true.mpr
  intro t hmem
  obtain ⟨i, hi⟩ := List.mem_iff_getElem?.mp hmem
  exact hgathered i t (hlength ▸ (List.getElem?_eq_some_iff.mp hi).1) hi

def drainingMoves : List (Move Input Call) :=
  Sample.goes 3 5 ++ .run 3 (Sample.completion "hello") :: Sample.goes 3 6

def runsTask : Move Input Call → Bool
  | .run _ _ => true
  | _ => false

theorem closed_of_runsTask {c : State} {m : Move Input Call} (h : runsTask m = true) :
    closed c m := by
  rintro call rfl
  cases h

/-- A call has ended and its shadow has not: the shadow is all there is to wait for. -/
theorem shutdown_drains_shadowed : ∃ c c' : State, Sample.service.machine.Reachable initial c ∧
    c.quiet = false ∧ Sample.service.machine.Reach closed c c' ∧ c'.quiet = true := by
  obtain ⟨c, hm, hbusy, hback, c', hm', hgathered⟩ :
      ∃ c ∈ Sample.service.machine.moves? initial (setUp ++ .start (.generate Sample.request none) ::
        (Sample.goes 2 7 ++ .run 2 (Sample.completion "hello") :: Sample.goes 2 7)),
        c.quiet = false ∧
        (∀ t ∈ c.tasks, t.rest.ended = false → background t.call = true) ∧
        ∃ c' ∈ Sample.service.machine.movesUnder? (fun _ m => runsTask m) c drainingMoves,
          ∀ t ∈ c'.tasks, t.rest.ended = true := by decide +kernel
  have hreach := Machine.reachable_of_moves _ .start hm
  have hclosed : Sample.service.machine.Reach closed c c' :=
    Machine.reach_of_movesUnder (fun _ _ hruns => closed_of_runsTask hruns) _ .start hm'
  exact ⟨c, c', hreach, hbusy, hclosed, (shutdown_drains hreach).2.2.2 hback c' hclosed
    fun _ t _ ht => hgathered t (List.mem_of_getElem? ht)⟩

end Service

end AegisGateway
