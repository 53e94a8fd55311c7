import AegisGateway.Isolation
import AegisGateway.Lib.Totals
import AegisGateway.Quota

/-!
# Tenants

The limiter stands in front of every call that is made for a tenant, and of no other: what gets
past it in any window is within burst and rate, whatever runs beside it.
-/

open Coroutine

namespace AegisGateway

namespace Service

variable {svc : Service}

/-! ## What an answer takes -/

def trying : Op → Bool
  | .monotonic | .datetimeNow | .beforeRequest _ | .setCircuitState _ _ | .recordSuccess _
  | .recordFailure _ | .complete _ _ | .openStream _ _ | .yieldEvent _ | .recordMetric _
  | .cachePut _ _ _ | .createTask _ => true
  | _ => false

theorem trying_of_settling {o : Op} (h : settling o = true) : trying o = true := by
  cases o <;> first | rfl | cases h

theorem trying_of_bookkeeping {o : Op} (h : bookkeeping o = true) : trying o = true := by
  cases o <;> first | rfl | cases h

theorem trying_of_relaying {o : Op} (h : relaying o = true) : trying o = true := by
  cases o <;> first | rfl | cases h

theorem GeneratePassRun.trying {x : Exchange} {c : RoutingCandidate} {route : ModelRoute}
    {st : LoopState} {tr : GatewayTrace} {out : Except PyExc (Pass GatewayResponse)}
    (h : svc.GeneratePassRun x c route st tr out) : ∀ e ∈ tr, trying e.1 = true := by
  cases h with
  | deadline | refused => simp [Service.trying]
  | unconfigured ht hr hh =>
    simp only [List.forall_mem_append]
    exact ⟨by simp [admitted, Service.trying], fun e he => trying_of_settling (hh.settling e he)⟩
  | failed ht hr he hh =>
    simp only [List.forall_mem_append, List.forall_mem_cons]
    exact ⟨by simp [admitted, Service.trying], rfl,
      fun e he => trying_of_settling (hh.settling e he)⟩
  | succeeded ht hr ha =>
    simp only [List.forall_mem_append, List.forall_mem_cons]
    exact ⟨by simp [admitted, Service.trying], rfl, by simp [successEvents, Service.trying], rfl, rfl,
      fun e he => trying_of_bookkeeping (keepEvents_bookkeeping x _ _ e he)⟩

theorem StreamPassRun.trying {x : Exchange} {c : RoutingCandidate} {route : ModelRoute}
    {st : LoopState} {tr : GatewayTrace} {out : Except PyExc (Pass Unit)}
    (h : svc.StreamPassRun x c route st tr out) : ∀ e ∈ tr, trying e.1 = true := by
  cases h with
  | deadline | refused => simp [Service.trying]
  | unconfigured ht hr hh =>
    simp only [List.forall_mem_append]
    exact ⟨by simp [admitted, Service.trying], fun e he => trying_of_settling (hh.settling e he)⟩
  | left ht hr hl =>
    simp only [List.forall_mem_append, List.forall_mem_cons]
    exact ⟨by simp [admitted, Service.trying], rfl,
      fun e he => trying_of_relaying (hl.relaying e he)⟩
  | failed ht hr hl he hh =>
    simp only [List.forall_mem_append, List.forall_mem_cons]
    exact ⟨by simp [admitted, Service.trying], rfl,
      fun e he => trying_of_relaying (hl.relaying e he),
      fun e he => trying_of_settling (hh.settling e he)⟩
  | succeeded ht hr hl hv =>
    simp only [List.forall_mem_append, List.forall_mem_cons]
    exact ⟨by simp [admitted, Service.trying], rfl,
      fun e he => trying_of_relaying (hl.relaying e he), by simp [successEvents, Service.trying],
      rfl, rfl, fun e he => trying_of_bookkeeping (keepEvents_bookkeeping x _ _ e he), rfl, by simp⟩

theorem LoopRun.trying {α : Type} {x : Exchange} {R : PassRel α}
    (hR : ∀ c route st tr out, R c route st tr out → ∀ e ∈ tr, Service.trying e.1 = true)
    {cs : List RoutingCandidate} {st : LoopState} {tr : GatewayTrace} {out : Except PyExc α}
    (h : svc.LoopRun x R cs st tr out) : ∀ e ∈ tr, Service.trying e.1 = true :=
  h.keeps (Prog.closed_forall _)
    (fun _ _ _ hgave e he => trying_of_settling (hgave.settling e he)) hR

theorem ServedRun.trying {x : Exchange} {hit : GatewayResponse} {tr : GatewayTrace}
    {out : Except PyExc GatewayResponse} (h : ServedRun x hit tr out) :
    ∀ e ∈ tr, Service.trying e.1 = true := by
  cases h with
  | served now t t' =>
    have hlaunch := fun e he => trying_of_settling (settling_of_task (launchEvents_tasks x e he))
    simpa [Exchange.rowEvents, Service.trying] using hlaunch

theorem StreamServedRun.trying {x : Exchange} {hit : GatewayResponse} {tr : GatewayTrace}
    {out : Except PyExc Unit} (h : StreamServedRun x hit tr out) :
    ∀ e ∈ tr, Service.trying e.1 = true := by
  cases h with
  | leftAtStart now | leftAtDelta now => simp [Service.trying, hitEvent]
  | served now t consumer =>
    have hlaunch := fun e he => trying_of_settling (settling_of_task (launchEvents_tasks x e he))
    simp only [Exchange.rowEvents, hitEvent, List.forall_mem_cons, List.forall_mem_append]
    exact ⟨rfl, rfl, rfl, ⟨rfl, rfl, by simp⟩, hlaunch, rfl, by simp⟩

/-! ## Paying for a call -/

def grantOf (key : String) : GatewayEvent → Nat
  | ⟨.consume k, .ok _⟩ => if k = key then 1 else 0
  | _ => 0

def unmetered : Op → Bool
  | .consume _ => false
  | _ => true

theorem grantOf_unmetered {e : GatewayEvent} (h : unmetered e.1 = true) (key : String) :
    grantOf key e = 0 := by
  rcases e with ⟨o, a⟩
  cases o <;> first | rfl | cases h

theorem unmetered_of_trying {o : Op} (h : trying o = true) : unmetered o = true := by
  cases o <;> first | rfl | cases h

theorem granted_unmetered {tr : GatewayTrace} (h : ∀ e ∈ tr, unmetered e.1 = true) (key : String) :
    accrued (grantOf key) tr = 0 :=
  accrued_eq_zero fun e he => grantOf_unmetered (h e he) key

/-- The tokens that a call may take from a key. -/
def owed (args : Arguments) (key : String) : Nat :=
  if args.online ∧ args.request.tenantId = key then 1 else 0

/-- What `_begin` does up to the limiter, the lookup of the prompt. -/
def upfront : Op → Bool
  | .monotonic | .getArtifact _ _ _ | .consume _ => true
  | _ => false

structure Paid (args : Arguments) (tr : GatewayTrace) : Prop where
  once : ∀ key, accrued (grantOf key) tr ≤ owed args key
  first : args.online = true → ∀ pre e post, tr = pre ++ e :: post → upfront e.1 = false →
    accrued (grantOf args.request.tenantId) pre = 1

section Paid

variable {args : Arguments} {tr tr' : GatewayTrace}

theorem Paid.before (h : Paid args (tr ++ tr')) : Paid args tr where
  once key := by
    have hwhole := h.once key
    rw [accrued_append] at hwhole
    omega
  first honline pre e post htr hpre := h.first honline pre e (post ++ tr') (by simp [htr]) hpre

theorem Paid.after (h : Paid args tr)
    (hpaid : args.online = true → accrued (grantOf args.request.tenantId) tr = 1)
    (htr' : ∀ e ∈ tr', unmetered e.1 = true) : Paid args (tr ++ tr') where
  once key := by
    rw [accrued_append, granted_unmetered htr', Nat.add_zero]
    exact h.once key
  first := by
    intro honline pre e post htr hpre
    rcases Prog.split_append htr with ⟨mid, hmid, -⟩ | ⟨mid, rfl, rfl⟩
    · exact h.first honline pre e mid hmid hpre
    · have hmid : ∀ e ∈ mid, unmetered e.1 = true := fun e he =>
        htr' e (List.mem_append_left _ he)
      rw [accrued_append, granted_unmetered hmid, hpaid honline]

theorem Paid.of_upfront (honce : ∀ key, accrued (grantOf key) tr ≤ owed args key)
    (htr : ∀ e ∈ tr, upfront e.1 = true) : Paid args tr where
  once := honce
  first := by
    rintro - pre e post rfl hlater
    rw [htr e (by simp)] at hlater
    cases hlater

end Paid

theorem resolvePrompt_upfront (q : GatewayRequest) : (svc.resolvePrompt q).Emits fun e =>
    upfront e.1 = true ∧ unmetered e.1 = true := by
  unfold resolvePrompt
  split
  · exact Prog.leaves_pure (Prog.closed_forall _) _
  · refine Prog.leaves_bind (Prog.closed_forall _) ?_ fun _ =>
      Prog.leaves_ofExcept (Prog.closed_forall _) _
    exact Prog.leaves_op (Prog.closed_forall _) (fun a => by simp [upfront, unmetered]) fun a =>
      Prog.leaves_ofExcept (Prog.closed_forall _) _

theorem assignmentFor_unmetered (args : Arguments) (q : GatewayRequest) :
    (svc.assignmentFor args q).Emits fun e => unmetered e.1 = true := by
  have hclosed := Prog.closed_forall fun e : GatewayEvent => unmetered e.1 = true
  unfold assignmentFor
  split
  · exact Prog.leaves_pure hclosed _
  · split_ifs
    · exact Prog.leaves_pure hclosed _
    · apply Prog.leaves_bind hclosed (Prog.leaves_perform fun a => by simp [unmetered])
      intro live
      exact Prog.leaves_pure hclosed _

theorem consume_pays (key : String) : (consume key).AllRuns fun tr out =>
    (∀ e ∈ tr, upfront e.1 = true) ∧
      (∀ key', accrued (grantOf key') tr ≤ if key = key' then 1 else 0) ∧
        ((∃ u, out = .ok u) → accrued (grantOf key) tr = 1) := by
  simp only [consume, Prog.allRuns_op, Prog.allRuns_ofExcept]
  intro a
  cases a with
  | error e => simp [grantOf, upfront, Except.map]
  | ok left => simp [grantOf, upfront]

theorem begin_pays (args : Arguments) : (svc.begin args).AllRuns fun tr out =>
    Paid args tr ∧ ((∃ x, out = .ok x) → args.online = true →
      accrued (grantOf args.request.tenantId) tr = 1) := by
  simp only [begin, Prog.allRuns_bind, Prog.allRuns_perform, Prog.then_ok]
  intro started
  apply ((svc.resolvePrompt_runs args.request).and (resolvePrompt_upfront args.request)).mono
  rintro tr₁ out ⟨⟨-, hresolved⟩, h₁⟩
  have hup : ∀ e ∈ [ev .monotonic started] ++ tr₁, upfront e.1 = true := by
    simpa [upfront] using fun e he => (h₁ e he).1
  have hfree : ∀ key, accrued (grantOf key) ([ev .monotonic started] ++ tr₁) = 0 :=
    granted_unmetered (by simpa [unmetered] using fun e he => (h₁ e he).2)
  cases out with
  | error e =>
    exact ⟨.of_upfront (fun key => (hfree key).trans_le (Nat.zero_le _)) hup, by simp⟩
  | ok q' =>
    rw [Prog.then_ok, Prog.allRuns_bind]
    -- The template changes the messages only, so the token is one of the caller's own tenant.
    have htenant : q'.tenantId = args.request.tenantId := by
      obtain ⟨added, rfl, -⟩ := (hresolved q' rfl).messages
      rfl
    have hconsume : (Prog.when (!args.evaluation && !args.shadow) (consume q'.tenantId)).AllRuns
        fun tr out => (∀ e ∈ tr, upfront e.1 = true) ∧
          (∀ key, accrued (grantOf key) tr ≤ owed args key) ∧
            ((∃ u, out = .ok u) → args.online = true →
              accrued (grantOf args.request.tenantId) tr = 1) := by
      refine .when (fun honline => ?_) (fun hoffline => ?_)
      · rw [htenant]
        apply (consume_pays _).mono
        rintro tr out ⟨hfirst, hle, hone⟩
        refine ⟨hfirst, fun key => ?_, fun hok _ => hone hok⟩
        have honline : args.online = true := honline
        simpa [owed, honline] using hle key
      · exact ⟨by simp, by simp, fun _ honline => absurd honline hoffline⟩
    apply hconsume.mono
    rintro tr₂ out ⟨hfirst, h₂, hone⟩
    have hwhole : ∀ key, accrued (grantOf key) (([ev .monotonic started] ++ tr₁) ++ tr₂) =
        accrued (grantOf key) tr₂ := fun key => by rw [accrued_append, hfree, Nat.zero_add]
    have hpaid : Paid args (([ev .monotonic started] ++ tr₁) ++ tr₂) :=
      .of_upfront (fun key => hwhole key ▸ h₂ key) (List.forall_mem_append.mpr ⟨hup, hfirst⟩)
    cases out with
    | error e =>
      rw [Prog.then_error, ← List.append_assoc]
      exact ⟨hpaid, by simp⟩
    | ok u =>
      rw [Prog.then_ok, Prog.allRuns_bind]
      apply Prog.AllRuns.mono (assignmentFor_unmetered args q')
      intro tr₃ out h₃
      have hone : args.online = true → accrued (grantOf args.request.tenantId)
          (([ev .monotonic started] ++ tr₁) ++ tr₂) = 1 := fun honline =>
        hwhole _ ▸ hone ⟨u, rfl⟩ honline
      cases out with
      | error e =>
        rw [Prog.then_error, ← List.append_assoc, ← List.append_assoc]
        exact ⟨hpaid.after hone h₃, by simp⟩
      | ok a =>
        rw [Prog.then_ok, Prog.allRuns_pure, List.append_nil, ← List.append_assoc,
          ← List.append_assoc]
        refine ⟨hpaid.after hone h₃, fun _ honline => ?_⟩
        rw [accrued_append, granted_unmetered h₃, hone honline]

theorem approach_pays (args : Arguments) : (svc.approach args).AllRuns fun tr out =>
    Paid args tr ∧ ((∃ a, out = .ok a) → args.online = true →
      accrued (grantOf args.request.tenantId) tr = 1) := by
  rw [approach, Prog.allRuns_bind]
  apply (begin_pays args).mono
  rintro tr out ⟨hpaid, hone⟩
  cases out with
  | error e => exact ⟨hpaid, by simp⟩
  | ok x =>
    rw [Prog.then_ok, Prog.allRuns_bind]
    have hone := hone ⟨x, rfl⟩
    have hafter : ∀ {tr' : GatewayTrace}, (∀ e ∈ tr', unmetered e.1 = true) →
        Paid args (tr ++ tr') ∧ (args.online = true →
          accrued (grantOf args.request.tenantId) (tr ++ tr') = 1) := fun htr' =>
      ⟨hpaid.after hone htr', fun honline => by
        rw [accrued_append, granted_unmetered htr', hone honline]⟩
    apply (cached_runs x).mono
    rintro _ _ (⟨rfl, rfl⟩ | ⟨hit, -, -, rfl, rfl⟩)
    · rw [Prog.then_ok, Prog.allRuns_bind]
      apply (svc.decide_runs x.request x.options).mono
      rintro _ out ⟨xs, -, rfl, -⟩
      have hasked : ∀ e ∈ missEvents x ++ asked xs, unmetered e.1 = true := by
        refine List.forall_mem_append.mpr ⟨?_, fun e he => ?_⟩
        · unfold missEvents
          split_ifs <;> simp [unmetered]
        · obtain ⟨a, -, rfl⟩ := List.mem_map.mp he
          rfl
      cases out with
      | error e => exact ⟨(hafter hasked).1, by simp⟩
      | ok d =>
        rw [Prog.then_ok, Prog.allRuns_pure, List.append_nil]
        exact ⟨(hafter hasked).1, fun _ => (hafter hasked).2⟩
    · have hget : ∀ e ∈ [ev (.cacheGet x.request x.ns) (some hit)], unmetered e.1 = true := by
        simp [unmetered]
      rw [Prog.then_ok, Prog.allRuns_pure, List.append_nil]
      exact ⟨(hafter hget).1, fun _ => (hafter hget).2⟩

theorem paid_call {α : Type} {args : Arguments} {f : Exchange × Origin → GatewayM α}
    (hf : ∀ a, (f a).Emits fun e => trying e.1 = true) :
    (svc.approach args >>= f).Leaves (Paid args) := by
  rw [Prog.Leaves, Prog.allRuns_bind]
  apply (approach_pays args).mono
  rintro tr out ⟨hpaid, hone⟩
  cases out with
  | error e => exact hpaid
  | ok a =>
    refine (hf a).mono fun tr' htr' => hpaid.after (hone ⟨a, rfl⟩) fun e he => ?_
    exact unmetered_of_trying (htr' e he)

theorem generate_paid (args : Arguments) : (svc.generate args).Leaves (Paid args) := by
  refine paid_call fun ⟨x, origin⟩ => ?_
  cases origin with
  | cache hit => exact (serveCached_runs x hit).mono fun _ _ hs => hs.trying
  | decision d =>
    exact (svc.candidateLoop_runs x (svc.generatePass_runs x) _ _).mono fun _ _ hl =>
      hl.trying fun _ _ _ _ _ => GeneratePassRun.trying

theorem stream_paid (q : GatewayRequest) (forced : Option String) :
    (svc.stream q forced).Leaves (Paid { request := q, forcedRouteId := forced }) := by
  refine paid_call fun ⟨x, origin⟩ => ?_
  cases origin with
  | cache hit => exact (streamCached_runs x hit).mono fun _ _ hs => hs.trying
  | decision d =>
    exact (svc.candidateLoop_runs x (svc.streamPass_runs x) _ _).mono fun _ _ hl =>
      hl.trying fun _ _ _ _ _ => StreamPassRun.trying

theorem body_paid {call : Call} {args : Arguments} (h : callArguments call = some args) :
    (svc.body call).Leaves (Paid args) := by
  cases call with
  | generate q forced | shadow q routeId releaseId =>
    cases h
    exact Prog.leaves_map (generate_paid _) _
  | stream q forced =>
    cases h
    exact Prog.leaves_map (stream_paid q forced) _
  | _ => cases h

theorem Paid.offline {args : Arguments} {tr : GatewayTrace} (h : Paid args tr)
    (hargs : args.online = false) (key : String) : accrued (grantOf key) tr = 0 := by
  have hle := h.once key
  rw [owed, if_neg (by simp [hargs])] at hle
  exact Nat.le_zero.mp hle

theorem closed_ungranted :
    Prog.Closed fun tr : GatewayTrace => ∀ key, accrued (grantOf key) tr = 0 where
  nil := fun _ => rfl
  append := fun h h' key => by rw [accrued_append, h key, h' key]

theorem unmetered_of_controlling {o : Op} (h : controlling o = true) : unmetered o = true := by
  cases o <;> first | rfl | cases h

theorem body_ungranted {call : Call} (h : callArguments call = none) :
    (svc.body call).Leaves fun tr => ∀ key, accrued (grantOf key) tr = 0 := by
  refine body_leaves closed_ungranted (fun args hargs => ?_) (fun q forced hcall => ?_)
    fun e he key => ?_
  · rcases hargs with hargs | hargs
    · rw [h] at hargs
      cases hargs
    · refine (generate_paid args).mono fun tr hpaid => hpaid.offline ?_
      simp [Arguments.online, hargs]
  · subst hcall
    cases h
  · rw [accrued_cons, accrued_nil,
      grantOf_unmetered (unmetered_of_controlling (controlling_of_controls he))]
    rfl

/-! ## The grants of a run -/

def taken (key : String) (c : State) : Nat := accrued (grantOf key) (c.log.map (·.2))

/-- What an event takes at time `t`. -/
def entry (t : ℚ) : GatewayEvent → List Consume
  | ⟨.consume key, .ok _⟩ => [⟨t, key, 1⟩]
  | _ => []

/-- A run with the tokens it has granted, the newest first, each under the key it was asked for and
at the clock that the limiter has read. -/
inductive Grants (svc : Service) : State → List Consume → Prop
  | start : Grants svc initial []
  | quiet {c c' : State} {led : List Consume} {m : Move Input Call} (h : Grants svc c led)
      (hs : svc.machine.step? c m = some c') (hlog : c'.log = c.log) : Grants svc c' led
  | event {c c' : State} {led : List Consume} {m : Move Input Call} {i : Nat} {e : GatewayEvent}
      (h : Grants svc c led) (hs : svc.machine.step? c m = some c')
      (hlog : c'.log = c.log ++ [(i, e)]) : Grants svc c' (entry c.world.clock e ++ led)

theorem entry_unmetered {e : GatewayEvent} (h : unmetered e.1 = true) (t : ℚ) : entry t e = [] := by
  rcases e with ⟨o, a⟩
  cases o <;> first | rfl | cases h

theorem own_entry (key : String) (t : ℚ) (e : GatewayEvent) :
    (Buckets.own key (entry t e)).length = grantOf key e := by
  rcases e with ⟨o, a⟩
  cases o with
  | consume k =>
    cases a with
    | error m => rfl
    | ok left => by_cases hkey : k = key <;> simp [entry, grantOf, Buckets.own, hkey]
  | _ => rfl

theorem mem_entry {t : ℚ} {e : GatewayEvent} {r : Consume} (h : r ∈ entry t e) :
    r.time = t ∧ r.tokens = 1 := by
  rcases e with ⟨o, a⟩
  cases o with
  | consume key =>
    cases a with
    | error m => cases h
    | ok left =>
      obtain rfl := List.mem_singleton.mp h
      exact ⟨rfl, rfl⟩
  | _ => cases h

/-- What holds of the tokens of a run: one for each in the log, and the buckets are what they have
left. -/
structure Ledger (svc : Service) (c : State) (led : List Consume) : Prop where
  accounts : Buckets.Accounts svc.limiter c.world.clock (c.world.buckets, led)
  complete : ∀ key, (Buckets.own key led).length = taken key c
  units : ∀ r ∈ led, r.tokens = 1

/-- Only `consume` touches the buckets, and no operation the clock. -/
theorem exec_buckets {w w' : World} {o : Op} {x : Input} {a : Ans o}
    (h : svc.exec w o x = some (a, w')) : w'.clock = w.clock ∧
      ((∃ key, o = .consume key ∧ HEq a (w.buckets.consume svc.limiter w.clock key 1).1 ∧
          w'.buckets = (w.buckets.consume svc.limiter w.clock key 1).2) ∨
        unmetered o = true ∧ w'.buckets = w.buckets) := by
  unfold exec at h
  split at h
  all_goals cases h
  all_goals first
    | exact ⟨rfl, .inr ⟨rfl, rfl⟩⟩
    | exact ⟨rfl, .inl ⟨_, rfl, HEq.rfl, rfl⟩⟩

theorem taken_snoc {c c' : State} {i : Nat} {e : GatewayEvent} (h : c'.log = c.log ++ [(i, e)])
    (key : String) : taken key c' = taken key c + grantOf key e := by
  rw [taken, h, List.map_append, accrued_append]
  rfl

theorem Ledger.initial : svc.Ledger initial [] where
  accounts := fun key => Buckets.keeps_none
  complete := fun key => rfl
  units := by simp

section Step

variable {c c' : State} {led : List Consume} {m : Move Input Call} {i : Nat} {e : GatewayEvent}

theorem event_step (hs : svc.machine.step? c m = some c') (hlog : c'.log = c.log ++ [(i, e)]) :
    ∃ x, svc.exec c.world e.1 x = some (e.2, c'.world) := by
  cases m with
  | start call =>
    cases hs
    exact absurd (congrArg List.length hlog) (by simp)
  | drift x =>
    obtain ⟨w, -, rfl⟩ := Option.map_eq_some_iff.mp hs
    exact absurd (congrArg List.length hlog) (by simp)
  | run j x =>
    obtain ⟨call, o, k, a, w, -, hexec, rfl⟩ := Machine.step_run hs
    obtain ⟨-, he⟩ := Prod.mk.inj (List.singleton_inj.mp (List.append_cancel_left hlog))
    subst he
    exact ⟨x, hexec⟩

theorem Ledger.quiet (h : svc.Ledger c led) (hs : svc.machine.step? c m = some c')
    (hlog : c'.log = c.log) : svc.Ledger c' led := by
  cases m with
  | start call =>
    cases hs
    exact ⟨h.accounts, h.complete, h.units⟩
  | drift x =>
    obtain ⟨w, hw, rfl⟩ := Option.map_eq_some_iff.mp hs
    obtain ⟨clock, utc, hle, rfl⟩ := drift_eq hw
    exact ⟨fun key => (h.accounts key).later hle, h.complete, h.units⟩
  | run j x =>
    obtain ⟨call, o, k, a, w, -, -, rfl⟩ := Machine.step_run hs
    exact absurd (congrArg List.length hlog) (by simp)

/-- One call of `consume` is one entry, if it is admitted. -/
theorem Ledger.event (h : svc.Ledger c led) (hs : svc.machine.step? c m = some c')
    (hlog : c'.log = c.log ++ [(i, e)]) : svc.Ledger c' (entry c.world.clock e ++ led) := by
  obtain ⟨x, hexec⟩ := event_step hs hlog
  have hcomplete : ∀ key, (Buckets.own key (entry c.world.clock e ++ led)).length =
      taken key c' := fun key => by
    rw [Buckets.own, List.filter_append, List.length_append, taken_snoc hlog, ← own_entry key,
      ← h.complete key, Nat.add_comm]
    rfl
  have hunits : ∀ r ∈ entry c.world.clock e ++ led, r.tokens = 1 :=
    List.forall_mem_append.mpr ⟨fun r hr => (mem_entry hr).2, h.units⟩
  refine ⟨?_, hcomplete, hunits⟩
  rcases e with ⟨o, a⟩
  obtain ⟨hclock, ⟨key, rfl, ha, hbuckets⟩ | ⟨ho, hbuckets⟩⟩ := exec_buckets hexec
  · have hserve := h.accounts.serve (r := ⟨c.world.clock, key, 1⟩) le_rfl
    unfold Buckets.serve at hserve
    obtain rfl : a = _ := eq_of_heq ha
    rw [hclock, hbuckets]
    rcases hconsume : c.world.buckets.consume svc.limiter c.world.clock key 1 with ⟨out, buckets⟩
    rw [hconsume] at hserve
    cases out <;> exact hserve
  · rw [entry_unmetered ho, List.nil_append, hclock, hbuckets]
    exact h.accounts

end Step

theorem Grants.ledger {c : State} {led : List Consume} (h : svc.Grants c led) :
    svc.Ledger c led := by
  induction h with
  | start => exact .initial
  | quiet _ hs hlog ih => exact ih.quiet hs hlog
  | event _ hs hlog ih => exact ih.event hs hlog

theorem clock_step {c c' : State} {m : Move Input Call} (hs : svc.machine.step? c m = some c') :
    c.world.clock ≤ c'.world.clock := by
  cases m with
  | start call =>
    cases hs
    exact le_rfl
  | drift x =>
    obtain ⟨w, hw, rfl⟩ := Option.map_eq_some_iff.mp hs
    obtain ⟨clock, utc, hle, rfl⟩ := drift_eq hw
    exact hle
  | run i x =>
    obtain ⟨call, o, k, a, w, -, hexec, rfl⟩ := Machine.step_run hs
    exact (exec_buckets hexec).1.ge

theorem grants_run {c c' : State} {led : List Consume} (h : svc.Grants c led)
    (hrun : svc.machine.Reachable c c') : c.world.clock ≤ c'.world.clock ∧
      ∃ new, svc.Grants c' (new ++ led) ∧ ∀ r ∈ new, c.world.clock ≤ r.time := by
  induction hrun with
  | start => exact ⟨le_rfl, [], h, by simp⟩
  | @next c₁ c₂ m _ _ hs ih =>
    obtain ⟨hclock, new, hnew, hpast⟩ := ih
    have hlater := hclock.trans (clock_step hs)
    rcases Machine.log_step hs with hlog | ⟨i, x, e, -, hlog⟩
    · exact ⟨hlater, new, hnew.quiet hs hlog, hpast⟩
    · refine ⟨hlater, entry c₁.world.clock e ++ new, ?_, ?_⟩
      · rw [List.append_assoc]
        exact hnew.event hs hlog
      · exact List.forall_mem_append.mpr ⟨fun r hr => hclock.trans_eq (mem_entry hr).1.symm, hpast⟩

/-- The answer of the limiter, against the tokens it has granted to this key. -/
theorem Grants.answer {c c' : State} {led : List Consume} (h : svc.Grants c led)
    {m : Move Input Call} (hs : svc.machine.step? c m = some c') {i : Nat} {key : String}
    {a : Ans (.consume key)} (hlog : c'.log = c.log ++ [(i, ev (.consume key) a)]) :
    (∃ left, a = .ok left) ↔
      Buckets.WithinLaw svc.limiter (Buckets.own key led) ⟨c.world.clock, key, 1⟩ := by
  obtain ⟨x, hexec⟩ := event_step hs hlog
  obtain ⟨-, ⟨key', ho, ha, -⟩ | ⟨ho, -⟩⟩ := exec_buckets hexec
  · obtain rfl := Op.consume.inj ho
    have ha := eq_of_heq ha
    subst ha
    have hburst : (1 : ℚ) ≤ svc.limiter.burst := mod_cast svc.limiter.burst_pos
    exact Buckets.admits_iff (r := ⟨c.world.clock, key, 1⟩) (h.ledger.accounts key) one_pos hburst
  · cases ho

theorem Ledger.spent {c : State} {led : List Consume} (h : svc.Ledger c led) {rs : List Consume}
    (hrs : rs ⊆ led) : Buckets.spent rs = rs.length := by
  have hunits : ∀ r ∈ rs, r.tokens = 1 := fun r hr => h.units r (hrs hr)
  rw [Buckets.spent, List.map_congr_left hunits, List.map_const', List.sum_replicate, nsmul_eq_mul,
    mul_one]

theorem Ledger.window {c c' : State} {led new : List Consume} (h : svc.Ledger c' (new ++ led))
    (hclock : c.world.clock ≤ c'.world.clock) (hpast : ∀ r ∈ new, c.world.clock ≤ r.time)
    (key : String) : ((Buckets.own key new).length : ℚ) ≤
      svc.limiter.burst + svc.limiter.ratePerSecond * (c'.world.clock - c.world.clock) := by
  have hkeeps := h.accounts key
  have hwindow := TokenBucket.window_le (Nat.cast_nonneg _) svc.limiter.rate_pos.le hkeeps.granted
    hclock
  have hnew : ∀ r ∈ Buckets.own key new,
      c.world.clock ≤ r.time ∧ r.time ≤ c'.world.clock := fun r hr => by
    have hmem := List.mem_filter.mp hr
    refine ⟨hpast r hmem.1, hkeeps.past ⟨r.time, r.tokens⟩ (List.mem_map.mpr ⟨r, ?_, rfl⟩)⟩
    exact List.mem_filter.mpr ⟨List.mem_append_left _ hmem.1, hmem.2⟩
  have hsub : Buckets.own key new ++ ((Buckets.own key led).filter fun r =>
      c.world.clock ≤ r.time ∧ r.time ≤ c'.world.clock) = (Buckets.own key (new ++ led)).filter
        fun r => c.world.clock ≤ r.time ∧ r.time ≤ c'.world.clock := by
    rw [Buckets.own, Buckets.own, Buckets.own, List.filter_append, List.filter_append]
    congr 1
    exact (List.filter_eq_self.mpr fun r hr => by simpa using hnew r hr).symm
  rw [Buckets.window_spent, ← hsub, h.spent, List.length_append, Nat.cast_add] at hwindow
  · have hold : (0 : ℚ) ≤ (((Buckets.own key led).filter fun r =>
        c.world.clock ≤ r.time ∧ r.time ≤ c'.world.clock).length : ℚ) := Nat.cast_nonneg _
    linarith
  · rw [hsub]
    exact fun r hr => (List.mem_filter.mp (List.mem_filter.mp hr).1).1

/-! ## The tasks of a tenant -/

/-- The task is a call for the tenant that has got past the limiter. -/
def letThrough (key : String) (c : State) (i : Nat) : Bool :=
  ((c.tasks[i]?.bind fun t => callArguments t.call).any fun args =>
    args.online && args.request.tenantId == key) &&
  (c.trace i).any fun e => !upfront e.1

/-- The tasks that got past the limiter and were started when there were `n` already. -/
def letThroughSince (key : String) (n : Nat) (c : State) : Finset (Fin c.tasks.length) :=
  Finset.univ.filter fun i => n ≤ i.val ∧ letThrough key c i.val = true

theorem paid_of_reachable {c : State} (h : svc.machine.Reachable initial c) {i : Nat}
    {t : Task Op Ans PyExc Outcome Call} (ht : c.tasks[i]? = some t) {args : Arguments}
    (hargs : callArguments t.call = some args) : Paid args (c.trace i) :=
  Prog.Leaves.steps (fun _ _ => Paid.before) (body_paid hargs) (h.onTheWay.2 i t ht)

theorem granted_of_letThrough {c : State} (h : svc.machine.Reachable initial c) {key : String}
    {i : Nat} (hi : letThrough key c i = true) : 1 ≤ accrued (grantOf key) (c.trace i) := by
  unfold letThrough at hi
  rw [Bool.and_eq_true] at hi
  obtain ⟨hcall, hevent⟩ := hi
  obtain ⟨args, hbind, hargs⟩ := (Option.any_eq_true _ _).mp hcall
  obtain ⟨t, ht, hcallArgs⟩ := Option.bind_eq_some_iff.mp hbind
  rw [Bool.and_eq_true] at hargs
  obtain ⟨honline, hkey⟩ := hargs
  obtain ⟨e, he, hpre⟩ := List.any_eq_true.mp hevent
  obtain ⟨pre, post, hsplit⟩ := List.append_of_mem he
  have hone := (paid_of_reachable h ht hcallArgs).first honline pre e post hsplit (by simpa using hpre)
  rw [beq_iff_eq.mp hkey] at hone
  rw [hsplit, accrued_append]
  omega

theorem log_of_run {c c' : State} (h : svc.machine.Reachable c c') :
    ∃ later, c'.log = c.log ++ later := by
  induction h with
  | start => exact ⟨[], (List.append_nil _).symm⟩
  | next _ _ hs ih =>
    obtain ⟨later, hlater⟩ := ih
    rcases Machine.log_step hs with hsame | ⟨i, x, e, -, hsnoc⟩
    · exact ⟨later, hsame.trans hlater⟩
    · exact ⟨later ++ [(i, e)], by rw [hsnoc, hlater, List.append_assoc]⟩

theorem letThrough_le {c c' : State} (h : svc.machine.Reachable initial c)
    (hrun : svc.machine.Reachable c c') (key : String) :
    taken key c + (letThroughSince key c.tasks.length c').card ≤ taken key c' := by
  have h' : svc.machine.Reachable initial c' := h.trans hrun
  obtain ⟨later, hlater⟩ := log_of_run hrun
  have hlt : ∀ e ∈ later, e.1 < c'.tasks.length := fun e he => by
    obtain ⟨t, ht⟩ := h'.task_of_mem (i := e.1) (e := e.2) (by simp [hlater, he])
    exact (List.getElem?_eq_some_iff.mp ht).1
  -- A new task has done everything in the meantime.
  have hnew : ∀ i, c.tasks.length ≤ i →
      c'.trace i = (later.filter fun e => e.1 == i).map (·.2) := fun i hi => by
    have hnone : c.trace i = [] := h.onTheWay.1 i hi
    rw [Pool.trace, hlater, List.filter_append, List.map_append]
    change c.trace i ++ _ = _
    rw [hnone, List.nil_append]
  rw [taken, taken, hlater, List.map_append, accrued_append,
    Machine.accrued_log_of_lt (grantOf key) hlt, letThroughSince, Finset.card_filter]
  refine Nat.add_le_add_left (Finset.sum_le_sum fun i _ => ?_) _
  split_ifs with hi
  · rw [← hnew i.val hi.1]
    exact granted_of_letThrough h' hi.2
  · exact Nat.zero_le _

/-- Whatever the order of the moves: in any stretch of a run a tenant is granted no more than burst
and rate allow, and no more of the calls that have been started meanwhile get past the limiter.
A call takes one token of its own tenant before anything else but the lookup of its prompt; a
shadow, an evaluation and the control plane take none. Every run has its record of grants, and
the limiter refuses exactly what would break the law against them. -/
theorem quotas_kept {c c' : State} (h : svc.machine.Reachable initial c)
    (hrun : svc.machine.Reachable c c') :
    (∀ key, (taken key c' : ℚ) ≤ (taken key c : ℚ) +
      (svc.limiter.burst + svc.limiter.ratePerSecond * (c'.world.clock - c.world.clock))) ∧
    (∀ key, ((letThroughSince key c.tasks.length c').card : ℚ) ≤
      svc.limiter.burst + svc.limiter.ratePerSecond * (c'.world.clock - c.world.clock)) ∧
    (∀ i t, c'.tasks[i]? = some t →
      (∀ args, callArguments t.call = some args → Paid args (c'.trace i)) ∧
      (callArguments t.call = none → ∀ key, accrued (grantOf key) (c'.trace i) = 0)) ∧
    (∃ led, svc.Grants c' led) ∧
    ∀ led, svc.Grants c' led → ∀ m c'' i key a, svc.machine.step? c' m = some c'' →
      c''.log = c'.log ++ [(i, ev (.consume key) a)] →
      ((∃ left, a = .ok left) ↔
        Buckets.WithinLaw svc.limiter (Buckets.own key led) ⟨c'.world.clock, key, 1⟩) := by
  have h' : svc.machine.Reachable initial c' := h.trans hrun
  obtain ⟨-, led, hled, -⟩ := grants_run .start h
  rw [List.append_nil] at hled
  obtain ⟨hclock, new, hnew, hpast⟩ := grants_run hled hrun
  have hgranted : ∀ key, (taken key c' : ℚ) ≤
      taken key c + (svc.limiter.burst +
        svc.limiter.ratePerSecond * (c'.world.clock - c.world.clock)) := fun key => by
    rw [← hnew.ledger.complete key, ← hled.ledger.complete key, Buckets.own, List.filter_append,
      List.length_append, Nat.cast_add, add_comm]
    exact add_le_add le_rfl (hnew.ledger.window hclock hpast key)
  refine ⟨hgranted, fun key => ?_, fun i t ht => ⟨fun args hargs => ?_, fun hargs => ?_⟩,
    ⟨_, hnew⟩, fun led' hled' m c'' i key a hs hlog => hled'.answer hs hlog⟩
  · -- Each of these calls has taken a token since.
    have hle : (taken key c : ℚ) +
        (letThroughSince key c.tasks.length c').card ≤ taken key c' :=
      mod_cast letThrough_le h hrun key
    have hkey := hgranted key
    linarith
  · exact paid_of_reachable h' ht hargs
  · refine Prog.Leaves.steps (fun tr tr' hnone key => ?_) (body_ungranted hargs)
      (h'.onTheWay.2 i t ht)
    have hwhole := hnone key
    rw [accrued_append] at hwhole
    omega

def oneByOne : Service :=
  { Sample.service with
    limiter := { ratePerSecond := 1, burst := 1, rate_pos := Buckets.slow_rate_pos,
                 burst_pos := Nat.one_pos } }

/-- Two calls at once: the first one is answered, the second has come to the limiter. -/
def crowdedMoves : List (Move Input Call) :=
  [.start (.generate Sample.request none), .start (.generate Sample.request none)] ++
    Sample.goes 0 7 ++ Sample.goes 1 1

def turnedAway (key : String) : GatewayEvent → Bool
  | ⟨.consume k, .error _⟩ => k == key
  | _ => false

theorem turnedAway_eq {key : String} {e : GatewayEvent} (h : turnedAway key e = true) :
    ∃ m, e = ev (.consume key) (.error m) := by
  rcases e with ⟨o, a⟩
  cases o with
  | consume k =>
    cases a with
    | error m => exact ⟨m, by rw [beq_iff_eq.mp h]⟩
    | ok left => cases h
  | _ => cases h

theorem quotas_kept_crowded : ∃ c c' : State, oneByOne.machine.Reachable initial c ∧
    oneByOne.machine.step? c (.run 1 .go) = some c' ∧
    (∃ m, c'.log = c.log ++ [(1, ev (.consume "tenant-a") (.error m))]) ∧
    (letThroughSince "tenant-a" 0 c).card = 1 ∧
    ((letThroughSince "tenant-a" 0 c).card : ℚ) ≤
      oneByOne.limiter.burst + oneByOne.limiter.ratePerSecond * (c.world.clock - 0) ∧
    ∃ led, oneByOne.Grants c led ∧ ¬ Buckets.WithinLaw oneByOne.limiter
      (Buckets.own "tenant-a" led) ⟨c.world.clock, "tenant-a", 1⟩ := by
  obtain ⟨c, hm, c', hs, hcard, hlast, hlonger⟩ :
      ∃ c ∈ oneByOne.machine.moves? initial crowdedMoves,
        ∃ c' ∈ oneByOne.machine.step? c (.run 1 .go), (letThroughSince "tenant-a" 0 c).card = 1 ∧
          c'.log.getLast?.any (fun e => turnedAway "tenant-a" e.2) = true ∧
            c.log.length < c'.log.length := by decide +kernel
  have hreach := Machine.reachable_of_moves _ .start hm
  obtain ⟨-, hpast, -, ⟨led, hled⟩, hlaw⟩ := quotas_kept .start hreach
  rcases Machine.log_step hs with hlog | ⟨i, x, e, hrun, hlog⟩
  · exact absurd (congrArg List.length hlog) hlonger.ne'
  · obtain ⟨rfl, -⟩ := Move.run.inj hrun
    rw [hlog, List.getLast?_concat] at hlast
    obtain ⟨m, rfl⟩ := turnedAway_eq hlast
    refine ⟨c, c', hreach, hs, ⟨m, hlog⟩, hcard, hpast "tenant-a", led, hled, fun hwithin => ?_⟩
    obtain ⟨left, hleft⟩ := (hlaw led hled _ _ _ _ _ hs hlog).mpr hwithin
    cases hleft

end Service

end AegisGateway
