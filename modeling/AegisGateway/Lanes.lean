import AegisGateway.CacheUse
import AegisGateway.Releases

/-!
# Lanes of the cache

What a call reads from the cache, a call of the same lane has written there: one with the
same forced route, or one under the same release and the same preferred route.
-/

open Coroutine JsonText

namespace AegisGateway

/-! ## Namespaces -/

theorem colon_notMem {route : ModelRoute} (h : route.idValid = true) : ':' ∉ route.id.toList := by
  intro hmem
  simp only [ModelRoute.idValid, Bool.and_eq_true, List.all_eq_true] at h
  exact absurd (h.2 ':' hmem) (by decide)

theorem piece_inj {xs xs' ys ys' : List Char} (h : ':' ∉ xs) (h' : ':' ∉ xs')
    (he : xs ++ ':' :: ys = xs' ++ ':' :: ys') : xs = xs' ∧ ys = ys' := by
  induction xs generalizing xs' with
  | nil =>
    cases xs' with
    | nil => exact ⟨rfl, (List.cons.inj he).2⟩
    | cons c xs' =>
      obtain ⟨rfl, -⟩ := List.cons.inj he
      simp at h'
  | cons c xs ih =>
    cases xs' with
    | nil =>
      obtain ⟨rfl, -⟩ := List.cons.inj he
      simp at h
    | cons c' xs' =>
      obtain ⟨rfl, hrest⟩ := List.cons.inj he
      obtain ⟨rfl, hys⟩ := ih (fun hc => h (List.mem_cons_of_mem _ hc))
        (fun hc => h' (List.mem_cons_of_mem _ hc)) hrest
      exact ⟨rfl, hys⟩

theorem release_namespace_inj {a b r s : String} (hr : ':' ∉ r.toList) (hs : ':' ∉ s.toList)
    (h : s!"release:{a}:route:{r}" = s!"release:{b}:route:{s}") : a = b ∧ r = s := by
  have hchars : "release:".toList ++ (a.toList ++ (":route:".toList ++ r.toList)) =
      "release:".toList ++ (b.toList ++ (":route:".toList ++ s.toList)) := by
    simpa [toString] using congrArg String.toList h
  have hrest := List.append_cancel_left hchars
  have hrev : r.toList.reverse ++ ':' :: ("etuor:".toList ++ a.toList.reverse) =
      s.toList.reverse ++ ':' :: ("etuor:".toList ++ b.toList.reverse) := by
    simpa using congrArg List.reverse hrest
  obtain ⟨hroute, hid⟩ := piece_inj (by simpa using hr) (by simpa using hs) hrev
  exact ⟨String.toList_inj.mp (List.reverse_injective (List.append_cancel_left hid)),
    String.toList_inj.mp (List.reverse_injective hroute)⟩

def Routed (a : ReleaseAssignment) : Prop :=
  a.releaseId = none ∧ a.preferredRouteId = none ∨
    ∃ id r, a.releaseId = some id ∧ a.preferredRouteId = some r ∧ ':' ∉ r.toList

theorem lane_of_namespace {a a' : ReleaseAssignment} (ha : Routed a) (ha' : Routed a')
    (h : cacheNamespace a none = cacheNamespace a' none) :
    a.releaseId = a'.releaseId ∧ a.preferredRouteId = a'.preferredRouteId := by
  unfold cacheNamespace at h
  rcases ha with ⟨hid, hr⟩ | ⟨id, r, hid, hr, hcolon⟩ <;>
  rcases ha' with ⟨hid', hr'⟩ | ⟨id', r', hid', hr', hcolon'⟩ <;>
  rw [hid, hid', hr, hr']
  · exact ⟨rfl, rfl⟩
  · rw [hid, hid'] at h
    simpa [toString] using congrArg (fun s => s.toList.head?) h
  · rw [hid, hid'] at h
    simpa [toString] using congrArg (fun s => s.toList.head?) h
  · rw [hid, hid', hr, hr'] at h
    obtain ⟨rfl, rfl⟩ := release_namespace_inj hcolon hcolon' h
    exact ⟨rfl, rfl⟩

namespace Service

variable {svc : Service}

/-! ## What a call does with the cache -/

structure CacheUse (svc : Service) (x : Exchange) (e : GatewayEvent) : Prop where
  get : ∀ q ns, e.1 = .cacheGet q ns → x.cacheAllowed = true ∧ q = x.request ∧ ns = x.ns
  put : ∀ q response ns, e.1 = .cachePut q response ns →
    x.cacheAllowed = true ∧ q = x.request ∧ ns = x.ns ∧ svc.Checked x.request response

def usesCache : Op → Bool
  | .cacheGet _ _ | .cachePut _ _ _ => true
  | _ => false

theorem cacheUse_of_none {x : Exchange} {e : GatewayEvent} (h : usesCache e.1 = false) :
    svc.CacheUse x e := by
  rcases e with ⟨o, a⟩
  constructor
  all_goals
    intros
    subst_vars
    cases h

theorem cacheUse_of_forall {x : Exchange} {tr : GatewayTrace}
    (h : ∀ e ∈ tr, usesCache e.1 = false) : ∀ e ∈ tr, svc.CacheUse x e :=
  fun e he => cacheUse_of_none (h e he)

theorem usesCache_of_settling {o : Op} (h : settling o = true) : usesCache o = false := by
  cases o <;> first | rfl | cases h

theorem usesCache_of_relaying {o : Op} (h : relaying o = true) : usesCache o = false := by
  cases o <;> first | rfl | cases h

theorem usesCache_of_aside {o : Op} (h : aside o = true) : usesCache o = false := by
  cases o <;> first | rfl | cases h

theorem usesCache_of_preliminary {o : Op} (h : preliminary o = true) : usesCache o = false := by
  cases o <;> first | rfl | cases h

theorem usesCache_of_controls {call : Call} {o : Op} (h : controls call o = true) :
    usesCache o = false := by
  cases o <;> first | rfl | cases h

theorem keepEvents_cacheUse {x : Exchange} {response : GatewayResponse}
    (h : svc.Checked x.request response) (t : Int) :
    ∀ e ∈ x.keepEvents response t, svc.CacheUse x e := by
  have hrow : ∀ e ∈ (if x.evaluation then [] else x.rowEvents response t), svc.CacheUse x e := by
    apply cacheUse_of_forall
    unfold Exchange.rowEvents
    split_ifs <;> simp [usesCache]
  have hput : ∀ e ∈ x.putEvents response, svc.CacheUse x e := by
    unfold Exchange.putEvents
    split_ifs with hc
    · rw [List.forall_mem_singleton]
      constructor <;> simp [h, hc.1]
    · simp
  have hlaunch : ∀ e ∈ x.launchEvents, svc.CacheUse x e := cacheUse_of_forall fun e he =>
    usesCache_of_settling (settling_of_task (launchEvents_tasks x e he))
  simp only [Exchange.keepEvents, List.forall_mem_append]
  exact ⟨hrow, hput, hlaunch⟩

theorem admitted_cacheUse (x : Exchange) (route : ModelRoute) (t : ℚ) (state : CircuitState) :
    ∀ e ∈ admitted route t state, svc.CacheUse x e :=
  cacheUse_of_forall (by simp [admitted, usesCache])

theorem successEvents_cacheUse (x : Exchange) (route : ModelRoute) (state : CircuitState) :
    ∀ e ∈ successEvents route state, svc.CacheUse x e :=
  cacheUse_of_forall (by simp [successEvents, usesCache])

theorem GeneratePassRun.cacheUse {x : Exchange} {c : RoutingCandidate} {route : ModelRoute}
    {st : LoopState} {tr : GatewayTrace} {out : Except PyExc (Pass GatewayResponse)}
    (h : svc.GeneratePassRun x c route st tr out) : ∀ e ∈ tr, svc.CacheUse x e := by
  have hsettle : ∀ {timeout e tr} {out : Except PyExc (Pass GatewayResponse)},
      Handled timeout route st e tr out → ∀ e ∈ tr, svc.CacheUse x e := fun hh =>
    cacheUse_of_forall fun e he => usesCache_of_settling (hh.settling e he)
  cases h with
  | deadline | refused => exact cacheUse_of_forall (by simp [usesCache])
  | unconfigured ht hr hh =>
    rw [List.forall_mem_append]
    exact ⟨admitted_cacheUse x _ _ _, hsettle hh⟩
  | failed ht hr he hh =>
    simp only [List.forall_mem_append, List.forall_mem_cons]
    exact ⟨admitted_cacheUse x _ _ _, cacheUse_of_none rfl, hsettle hh⟩
  | succeeded ht hr ha =>
    simp only [List.forall_mem_append, List.forall_mem_cons]
    refine ⟨admitted_cacheUse x _ _ _, cacheUse_of_none rfl, successEvents_cacheUse x _ _,
      cacheUse_of_none rfl, cacheUse_of_none rfl, keepEvents_cacheUse ?_ _⟩
    exact checked_of_judge ha

theorem StreamPassRun.cacheUse {x : Exchange} {c : RoutingCandidate} {route : ModelRoute}
    {st : LoopState} {tr : GatewayTrace} {out : Except PyExc (Pass Unit)}
    (h : svc.StreamPassRun x c route st tr out) : ∀ e ∈ tr, svc.CacheUse x e := by
  have hrelay : ∀ {es r tr r' left}, RelayRun x route es r tr r' left →
      ∀ e ∈ tr, svc.CacheUse x e := fun h =>
    cacheUse_of_forall fun e he => usesCache_of_relaying (h.relaying e he)
  cases h with
  | deadline | refused => exact cacheUse_of_forall (by simp [usesCache])
  | unconfigured ht hr hh =>
    rw [List.forall_mem_append]
    exact ⟨admitted_cacheUse x _ _ _,
      cacheUse_of_forall fun e he => usesCache_of_settling (hh.settling e he)⟩
  | left ht hr hl =>
    simp only [List.forall_mem_append, List.forall_mem_cons]
    exact ⟨admitted_cacheUse x _ _ _, cacheUse_of_none rfl, hrelay hl⟩
  | failed ht hr hl he hh =>
    simp only [List.forall_mem_append, List.forall_mem_cons]
    exact ⟨admitted_cacheUse x _ _ _, cacheUse_of_none rfl, hrelay hl,
      cacheUse_of_forall fun e he => usesCache_of_settling (hh.settling e he)⟩
  | succeeded ht hr hl hv =>
    simp only [List.forall_mem_append, List.forall_mem_cons]
    refine ⟨admitted_cacheUse x _ _ _, cacheUse_of_none rfl, hrelay hl,
      successEvents_cacheUse x _ _, cacheUse_of_none rfl, cacheUse_of_none rfl,
      keepEvents_cacheUse ?_ _, cacheUse_of_none rfl, by simp⟩
    exact checked_of_streamVerdict hv

/-! ## The exchange of a call -/

/-- The call is still on its way to its exchange, or everything since then is `φ` of the exchange
that it has come to. -/
def Own (svc : Service) (φ : Exchange → GatewayEvent → Prop) (args : Arguments)
    (tr : GatewayTrace) : Prop :=
  (∀ e ∈ tr, preliminary e.1) ∨ ∃ tr₀ tr₁ x, tr = tr₀ ++ tr₁ ∧
    Prog.Run (svc.begin args) tr₀ (.ok x) ∧ svc.Begun args tr₀ x ∧ ∀ e ∈ tr₁, φ x e

theorem Own.prefix {φ : Exchange → GatewayEvent → Prop} {args : Arguments} {tr tr' : GatewayTrace}
    (h : svc.Own φ args (tr ++ tr')) : svc.Own φ args tr := by
  rcases h with hp | ⟨tr₀, tr₁, x, htr, hrun, hb, hx⟩
  · exact .inl fun e he => hp e (List.mem_append_left _ he)
  · rcases List.append_eq_append_iff.mp htr with ⟨mid, rfl, -⟩ | ⟨mid, rfl, rfl⟩
    · exact .inl fun e he => hb.preliminary e (List.mem_append_left _ he)
    · exact .inr ⟨tr₀, mid, x, rfl, hrun, hb, fun e he => hx e (List.mem_append_left _ he)⟩

theorem approach_own {α : Type} {φ : Exchange → GatewayEvent → Prop} (args : Arguments)
    {serve : Exchange → GatewayResponse → GatewayM α}
    {loop : Exchange → RoutingDecision → GatewayM α}
    (hget : ∀ x a, x.cacheAllowed = true → φ x (ev (.cacheGet x.request x.ns) a))
    (hask : ∀ x routeId a, φ x (ev (.isAvailable routeId) a))
    (hserve : ∀ x hit, x.evaluation = false → (serve x hit).Emits (φ x))
    (hloop : ∀ x d, x.evaluation = args.evaluation → (loop x d).Emits (φ x)) :
    (svc.approach args >>= fun a => match a with
      | (x, .cache hit) => serve x hit
      | (x, .decision d) => loop x d).Leaves (svc.Own φ args) := by
  have hmiss : ∀ x xs, ∀ e ∈ missEvents x ++ asked xs, φ x e := by
    intro x xs
    rw [List.forall_mem_append]
    constructor
    · unfold missEvents
      split_ifs with hc
      · exact List.forall_mem_singleton.mpr (hget x none hc.1)
      · simp
    · intro e he
      obtain ⟨a, -, rfl⟩ := List.mem_map.mp he
      exact hask x _ _
  rw [Prog.Leaves, Prog.allRuns_bind, approach, Prog.allRuns_bind]
  apply ((svc.begin_runs args).and (Prog.allRuns_run _)).mono
  rintro tr₀ out ⟨⟨hp, hb⟩, hrun⟩
  cases out with
  | error e => exact .inl hp
  | ok x =>
    rw [Prog.then_ok, Prog.allRuns_bind]
    apply (cached_runs x).mono
    rintro _ _ (⟨rfl, rfl⟩ | ⟨hit, hc, -, rfl, rfl⟩)
    · -- Nothing is found, and the router asks the circuits.
      rw [Prog.then_ok, Prog.allRuns_bind]
      apply (svc.decide_runs x.request x.options).mono
      rintro _ _ ⟨xs, -, rfl, rfl⟩
      cases hd : svc.conclude x.request x.options (svc.passed x.request x.options xs)
          (turnedDown x.request x.options xs) with
      | error e => exact .inr ⟨tr₀, _, x, rfl, hrun, hb x rfl, hmiss x xs⟩
      | ok d =>
        rw [Prog.then_ok, Prog.allRuns_pure, Prog.then_ok]
        refine (hloop x d (hb x rfl).evaluation).mono fun tr' h => .inr ⟨tr₀, _, x,
          List.append_assoc _ _ _, hrun, hb x rfl, List.forall_mem_append.mpr ⟨?_, h⟩⟩
        simpa using hmiss x xs
    · -- The answer comes from the cache, so the exchange is none of an evaluation.
      have hx : x.evaluation = false := by simp_all [Exchange.cacheAllowed]
      rw [Prog.then_ok, Prog.allRuns_pure, Prog.then_ok]
      refine (hserve x hit hx).mono fun tr' h => .inr ⟨tr₀, _, x, List.append_assoc _ _ _, hrun,
        hb x rfl, List.forall_mem_append.mpr ⟨?_, h⟩⟩
      rw [List.append_nil, List.forall_mem_singleton]
      exact hget x (some hit) hc

theorem body_own {φ : Exchange → GatewayEvent → Prop}
    (hgenerate : ∀ args, (svc.generate args).Leaves (svc.Own φ args))
    (hstream : ∀ q forced,
      (svc.stream q forced).Leaves (svc.Own φ { request := q, forcedRouteId := forced }))
    {call : Call} {args : Arguments} (h : callArguments call = some args) :
    (svc.body call).Leaves (svc.Own φ args) := by
  cases call with
  | generate q forced | shadow q routeId releaseId =>
    cases h
    exact Prog.leaves_map (hgenerate _) _
  | stream q forced =>
    cases h
    exact Prog.leaves_map (hstream q forced) _
  | _ => cases h

abbrev UsesOwn (svc : Service) (args : Arguments) (tr : GatewayTrace) : Prop :=
  svc.Own svc.CacheUse args tr

theorem cacheUse_get {x : Exchange} {a : Option GatewayResponse} (h : x.cacheAllowed = true) :
    svc.CacheUse x (ev (.cacheGet x.request x.ns) a) := by
  constructor <;> simp [h]

theorem GaveUp.cacheUse {α : Type} {x : Exchange} {st : LoopState} {tr : GatewayTrace}
    {out : Except PyExc α} (h : GaveUp x st tr out) : ∀ e ∈ tr, svc.CacheUse x e :=
  cacheUse_of_forall fun e he => usesCache_of_settling (h.settling e he)

theorem candidateLoop_emits {α : Type} {x : Exchange} {R : PassRel α} {φ : GatewayEvent → Prop}
    {pass : RoutingCandidate → ModelRoute → LoopState → GatewayM (Pass α)}
    (hpass : ∀ c route st, (pass c route st).AllRuns (R c route st))
    (hgave : ∀ st tr (out : Except PyExc α), GaveUp x st tr out → ∀ e ∈ tr, φ e)
    (hR : ∀ c route st tr out, R c route st tr out → ∀ e ∈ tr, φ e)
    (cs : List RoutingCandidate) (st : LoopState) :
    (svc.candidateLoop x pass cs st).Emits φ := by
  apply (svc.candidateLoop_runs x hpass cs st).mono
  intro tr out h e he
  rcases h.events hgave hR e he with hx | ⟨_, _, _, _, hx⟩
  · exact hx
  · exact hx

theorem generate_usesOwn (args : Arguments) : (svc.generate args).Leaves (svc.UsesOwn args) :=
  approach_own args (fun _ _ => cacheUse_get) (fun _ _ _ => cacheUse_of_none rfl)
    (fun x hit _ => (serveCached_runs x hit).mono fun _ _ h =>
      cacheUse_of_forall fun e he => usesCache_of_aside (h.aside e he))
    fun x _ _ => candidateLoop_emits (svc.generatePass_runs x) (fun _ _ _ => GaveUp.cacheUse)
      (fun _ _ _ _ _ h => h.cacheUse) _ _

theorem stream_usesOwn (q : GatewayRequest) (forced : Option String) :
    (svc.stream q forced).Leaves (svc.UsesOwn { request := q, forcedRouteId := forced }) :=
  approach_own _ (fun _ _ => cacheUse_get) (fun _ _ _ => cacheUse_of_none rfl)
    (fun x hit _ => (streamCached_runs x hit).mono fun _ _ h =>
      cacheUse_of_forall fun e he => usesCache_of_aside (h.aside e he))
    fun x _ _ => candidateLoop_emits (svc.streamPass_runs x) (fun _ _ _ => GaveUp.cacheUse)
      (fun _ _ _ _ _ h => h.cacheUse) _ _

theorem body_usesOwn {call : Call} {args : Arguments} (h : callArguments call = some args) :
    (svc.body call).Leaves (svc.UsesOwn args) :=
  body_own generate_usesOwn stream_usesOwn h

theorem evaluation_cacheless {args : Arguments} (h : args.evaluation = true) :
    (svc.generate args).Emits fun e => usesCache e.1 = false := by
  apply (generate_usesOwn args).mono
  intro tr huses e he
  rcases huses with hp | ⟨tr₀, tr₁, x, rfl, -, hb, hx⟩
  · exact usesCache_of_preliminary (hp e he)
  rcases List.mem_append.mp he with he | he
  · exact usesCache_of_preliminary (hb.preliminary e he)
  have hoff : x.cacheAllowed = false := by simp [Exchange.cacheAllowed, hb.evaluation, h]
  rcases e with ⟨o, a⟩
  cases o with
  | cacheGet q ns => exact absurd ((hx _ he).get q ns rfl).1 (by simp [hoff])
  | cachePut q response ns => exact absurd ((hx _ he).put q response ns rfl).1 (by simp [hoff])
  | _ => rfl

theorem body_cacheless {call : Call} (h : callArguments call = none) :
    (svc.body call).Emits fun e => usesCache e.1 = false := by
  refine body_leaves (Prog.closed_forall _) (fun args hargs => ?_) (fun q forced hcall => ?_)
    fun e he => List.forall_mem_singleton.mpr (usesCache_of_controls he)
  · rcases hargs with hargs | heval
    · rw [h] at hargs
      cases hargs
    · exact evaluation_cacheless heval
  · rw [hcall] at h
    cases h

/-- The task has come to its exchange. -/
def Exchanges (svc : Service) (c : State) (i : Nat) (x : Exchange) : Prop :=
  ∃ t args tr₀ tr₁, c.tasks[i]? = some t ∧ callArguments t.call = some args ∧
    c.trace i = tr₀ ++ tr₁ ∧ Prog.Run (svc.begin args) tr₀ (.ok x) ∧ svc.Begun args tr₀ x

theorem Exchanges.unique {c : State} {i : Nat} {x x' : Exchange} (h : svc.Exchanges c i x)
    (h' : svc.Exchanges c i x') : x = x' := by
  obtain ⟨t, args, tr₀, tr₁, ht, hargs, htr, hrun, -⟩ := h
  obtain ⟨t', args', tr₀', tr₁', ht', hargs', htr', hrun', -⟩ := h'
  obtain rfl := Option.some.inj (ht.symm.trans ht')
  obtain rfl := Option.some.inj (hargs.symm.trans hargs')
  rcases List.append_eq_append_iff.mp (htr.symm.trans htr') with ⟨mid, rfl, -⟩ | ⟨mid, rfl, -⟩
  · exact Except.ok.inj (hrun.unique hrun').2
  · exact (Except.ok.inj (hrun'.unique hrun).2).symm

/-- Whoever uses the cache does it for its exchange. -/
theorem exchange_of_use {c : State} (h : svc.machine.Reachable initial c) {i : Nat}
    {e : GatewayEvent} (he : (i, e) ∈ c.log) (huse : usesCache e.1 = true) :
    ∃ x, svc.Exchanges c i x ∧ svc.CacheUse x e := by
  have hmem := Pool.mem_trace.mpr he
  obtain ⟨t, ht⟩ := h.task_of_mem he
  have hsteps := h.onTheWay.2 i t ht
  cases hargs : callArguments t.call with
  | none =>
    have hoff := Prog.Emits.steps (body_cacheless hargs) hsteps e hmem
    rw [huse] at hoff
    cases hoff
  | some args =>
    rcases Prog.Leaves.steps (fun _ _ => Own.prefix) (body_usesOwn hargs) hsteps with
      hp | ⟨tr₀, tr₁, x, htr, hrun, hb, hx⟩
    · rw [usesCache_of_preliminary (hp e hmem)] at huse
      cases huse
    · refine ⟨x, ⟨t, args, tr₀, tr₁, ht, hargs, htr, hrun, hb⟩, ?_⟩
      rw [htr] at hmem
      rcases List.mem_append.mp hmem with hmem | hmem
      · rw [usesCache_of_preliminary (hb.preliminary e hmem)] at huse
        cases huse
      · exact hx e hmem

/-! ## Where a hit comes from -/

def PutBy (svc : Service) (c : State) (s : Entries.Slot) : Prop :=
  ∃ j q response ns, (j, ev (.cachePut q response ns) ()) ∈ c.log ∧
    s.1 = svc.platform.fingerprint q ns ∧ s.2.scope = svc.platform.scope q ns ∧
      s.2.response = { response with cacheHit := false }

theorem PutBy.mono {c c' : State} {s : Entries.Slot} (h : svc.PutBy c s) (hlog : c.log ⊆ c'.log) :
    svc.PutBy c' s := by
  obtain ⟨j, q, response, ns, hput, hrest⟩ := h
  exact ⟨j, q, response, ns, hlog hput, hrest⟩

theorem putBy_of_reachable {c : State} (h : svc.machine.Reachable initial c) :
    ∀ s ∈ c.world.cache.entries, svc.PutBy c s := by
  refine h.invariant (fun c => ∀ s ∈ c.world.cache.entries, svc.PutBy c s)
    (fun s hs => by cases hs) fun c m c' _ hput _ hs s hmem => ?_
  cases m with
  | start call =>
    cases hs
    exact hput s hmem
  | drift x =>
    obtain ⟨w, hw, rfl⟩ := Option.map_eq_some_iff.mp hs
    obtain ⟨clock, utc, -, rfl⟩ := drift_eq hw
    exact hput s hmem
  | run i x =>
    obtain ⟨call, o, k, a, w, -, hexec, rfl⟩ := Machine.step_run hs
    rcases exec_cache hexec hmem with hmem | ⟨q, response, ns, rfl, hstored⟩
    · exact (hput s hmem).mono (List.subset_append_left _ _)
    · exact ⟨i, q, response, ns, by simp, hstored⟩

theorem exec_cacheGet {w w' : World} {q : GatewayRequest} {ns : String} {x : Input}
    {a : Option GatewayResponse} (h : svc.exec w (.cacheGet q ns) x = some (a, w')) :
    a = (Entries.get svc.platform svc.cache w.clock w.cache q ns).1 := by
  cases x with
  | go => exact (Prod.mk.inj (Option.some.inj h)).1.symm
  | _ => cases h

/-- A hit has been put before, for a request of the same scope. -/
theorem put_of_hit (hsha : Function.Injective svc.platform.sha256)
    (hfloat : FloatText svc.platform.floatRepr) {c : State}
    (h : svc.machine.Reachable initial c) {pre post : List (Nat × GatewayEvent)} {i : Nat}
    {q : GatewayRequest} {ns : String} {hit : GatewayResponse}
    (hlog : c.log = pre ++ (i, ev (.cacheGet q ns) (some hit)) :: post) :
    ∃ j q' response ns', (j, ev (.cachePut q' response ns') ()) ∈ pre ∧
      hit = { response with cacheHit := true } ∧ SameScope q q' ns ns' := by
  obtain ⟨c₁, x, c₂, h₁, rfl, -, hstep, hlog₂, -⟩ := h.at hlog (by simp [initial, Pool.empty])
  obtain ⟨call, o, k, a, w, -, hexec, rfl⟩ := Machine.step_run hstep
  cases List.append_cancel_left hlog₂
  obtain ⟨s, hs, -, hscope, rfl⟩ := Entries.get_hit (exec_cacheGet hexec).symm
  obtain ⟨j, q', response, ns', hput, -, hscope', hresponse⟩ := putBy_of_reachable h₁ s hs
  refine ⟨j, q', response, ns', hput, by rw [hresponse], ?_⟩
  exact scope_inj hsha hfloat (hscope.symm.trans hscope')

/-! ## The routes of a release -/

def Listed (svc : Service) (r : Release) : Prop :=
  (∃ route ∈ svc.routes, route.id = r.baselineRouteId) ∧
    ∃ route ∈ svc.routes, route.id = r.candidateRouteId

theorem listed_of_fixed {r r' : Release} (h : r.fixed = r'.fixed) (hr : svc.Listed r) :
    svc.Listed r' := by
  have hbase : r.baselineRouteId = r'.baselineRouteId := congrArg (·.baselineRouteId) h
  have hcandidate : r.candidateRouteId = r'.candidateRouteId := congrArg (·.candidateRouteId) h
  unfold Listed
  rw [← hbase, ← hcandidate]
  exact hr

/-- What is added to the table has passed the check of the API. -/
def AddsListed (svc : Service) (e : GatewayEvent) : Prop :=
  ∀ r, e.1 = .createRelease r → svc.Listed r

theorem apiCreateRelease_listed (body : Release) :
    (svc.apiCreateRelease body).Emits svc.AddsListed := by
  unfold Prog.Emits Prog.Leaves
  rw [apiCreateRelease, Prog.allRuns_bind, Prog.allRuns_ofExcept]
  cases hbase : svc.getRoute body.baselineRouteId with
  | error e => simp
  | ok route =>
    rw [Prog.then_ok, Prog.allRuns_bind, Prog.allRuns_ofExcept]
    cases hcandidate : svc.getRoute body.candidateRouteId with
    | error e => simp
    | ok route' =>
      simp only [Prog.then_ok, Prog.allRuns_op, Prog.allRuns_ofExcept, List.nil_append,
        List.forall_mem_singleton]
      intro a r hr
      obtain rfl := Op.createRelease.inj hr
      exact ⟨⟨route, getRoute_ok hbase⟩, ⟨route', getRoute_ok hcandidate⟩⟩

theorem body_addsListed (call : Call) : (svc.body call).Emits svc.AddsListed := by
  by_cases hcall : createdBody call = none
  · have hserving : ∀ e : GatewayEvent, serving e.1 = true → svc.AddsListed e := by
      intro e he r hr
      rw [hr] at he
      cases he
    refine body_leaves (Prog.closed_forall _)
      (fun args _ => (generate_serving args).mono fun _ h e he => hserving e (h e he))
      (fun q forced _ => (stream_serving q forced).mono fun _ h e he => hserving e (h e he))
      fun e he => List.forall_mem_singleton.mpr fun r hr => ?_
    rw [hr] at he
    have hbody : createdBody call = some r := of_decide_eq_true he
    rw [hcall] at hbody
    cases hbody
  · cases call with
    | createRelease body => exact Prog.leaves_map (apiCreateRelease_listed body) _
    | _ => exact absurd rfl hcall

theorem listed_of_reachable {c : State} (h : svc.machine.Reachable initial c) :
    ∀ r ∈ table c, svc.Listed r := by
  refine Machine.Reach.world_invariant (fun w => ∀ r ∈ w.database.releases, svc.Listed r)
    svc.AddsListed (fun r hr => by cases hr) body_addsListed ?_ ?_ h
  · intro w o x a w' hlisted hexec hadds r hr
    have hstep := exec_releases hexec
    generalize w'.database.releases = rs at hstep hr
    cases hstep with
    | other | taken | missing => exact hlisted r hr
    | created hfresh =>
      rcases List.mem_append.mp hr with hr | hr
      · exact hlisted r hr
      · obtain rfl := List.mem_singleton.mp hr
        exact hadds r rfl
    | written =>
      obtain ⟨r₀, hr₀, rfl⟩ := List.mem_map.mp hr
      exact listed_of_fixed (restated_fixed ..).symm (hlisted r₀ hr₀)
  · intro w x w' hlisted hw
    obtain ⟨clock, utc, -, rfl⟩ := drift_eq hw
    exact hlisted

theorem mem_of_getLive {db : Database} {name : String} {r : Release}
    (h : db.getLive name = some r) : r ∈ db.releases := by
  rcases Option.or_eq_some_iff.mp h with h | ⟨-, h⟩
  · exact (List.mem_filter.mp (Database.newestBy_mem h)).1
  · exact (List.mem_filter.mp (Database.newestBy_mem h)).1

theorem exec_getLive {w w' : World} {name : String} {x : Input} {a : Option Release}
    (h : svc.exec w (.getLive name) x = some (a, w')) : a = w.database.getLive name := by
  cases x with
  | go => exact (Prod.mk.inj (Option.some.inj h)).1.symm
  | _ => cases h

theorem listed_of_live {c : State} (h : svc.machine.Reachable initial c) {i : Nat} {name : String}
    {r : Release} (he : ev (.getLive name) (some r) ∈ c.trace i) : svc.Listed r := by
  obtain ⟨c₁, x, w', hc₁, hexec⟩ := h.answered he
  exact listed_of_reachable hc₁ r (mem_of_getLive (exec_getLive hexec).symm)

theorem assignTo_routed (hroutes : ∀ route ∈ svc.routes, route.idValid = true) {r : Release}
    (hr : svc.Listed r) (q : GatewayRequest) : Routed (svc.platform.assignTo q r) := by
  obtain ⟨⟨route, hroute, hid⟩, route', hroute', hid'⟩ := hr
  have hbase : ':' ∉ r.baselineRouteId.toList := hid ▸ colon_notMem (hroutes route hroute)
  have hcandidate : ':' ∉ r.candidateRouteId.toList := hid' ▸ colon_notMem (hroutes route' hroute')
  unfold Platform.assignTo
  split
  · exact .inr ⟨_, _, rfl, rfl, hcandidate⟩
  · refine .inr ⟨_, _, rfl, rfl, ?_⟩
    split_ifs
    · exact hcandidate
    · exact hbase
  · exact .inl ⟨rfl, rfl⟩

theorem Exchanges.routed (hroutes : ∀ route ∈ svc.routes, route.idValid = true) {c : State}
    (h : svc.machine.Reachable initial c) {i : Nat} {x : Exchange} (hx : svc.Exchanges c i x)
    (hc : x.cacheAllowed = true) : Routed x.assignment := by
  obtain ⟨t, args, tr₀, tr₁, -, hargs, htr, -, hb⟩ := hx
  rcases hb.assigned with hover | ⟨-, ⟨-, hnone⟩ | ⟨-, live, hlive, hassign⟩⟩
  · have hshadow : args.shadow = true := by
      generalize t.call = call at hargs
      cases call <;> cases hargs <;> first | rfl | cases hover
    simp [Exchange.cacheAllowed, hb.shadow, hshadow] at hc
  · rw [hnone]
    exact .inl ⟨rfl, rfl⟩
  · rw [hassign]
    cases live with
    | none => exact .inl ⟨rfl, rfl⟩
    | some r =>
      have hmem : ev (.getLive "default") (some r) ∈ c.trace i := by
        rw [htr]
        exact List.mem_append_left _ hlive
      exact assignTo_routed hroutes (listed_of_live h hmem) x.request

/-! ## Lanes -/

structure SameLane (x x' : Exchange) : Prop where
  forcedRouteId : x.forcedRouteId = x'.forcedRouteId
  release : x.forcedRouteId = none → x.assignment.releaseId = x'.assignment.releaseId ∧
    x.assignment.preferredRouteId = x'.assignment.preferredRouteId

theorem sameLane_of_ns {x x' : Exchange} (hx : Routed x.assignment) (hx' : Routed x'.assignment)
    (h : x.ns = x'.ns) : SameLane x x' := by
  have hforced := forced_of_namespace h
  refine ⟨hforced, fun hnone => lane_of_namespace hx hx' ?_⟩
  have hns := h
  unfold Exchange.ns at hns
  rwa [hnone, ← hforced, hnone] at hns

/-- A call of the lane has put the answer, in this part of the log. -/
def FromLane (svc : Service) (c : State) (pre : List (Nat × GatewayEvent)) (x : Exchange)
    (hit : GatewayResponse) : Prop :=
  ∃ j x' response, (j, ev (.cachePut x'.request response x'.ns) ()) ∈ pre ∧
    svc.Exchanges c j x' ∧ x'.cacheAllowed = true ∧ SameLane x x' ∧
    hit = { response with cacheHit := true }

theorem fromLane_of_hit (hsha : Function.Injective svc.platform.sha256)
    (hfloat : FloatText svc.platform.floatRepr)
    (hroutes : ∀ route ∈ svc.routes, route.idValid = true) {c : State}
    (h : svc.machine.Reachable initial c) {pre post : List (Nat × GatewayEvent)} {i : Nat}
    {q : GatewayRequest} {ns : String} {hit : GatewayResponse}
    (hlog : c.log = pre ++ (i, ev (.cacheGet q ns) (some hit)) :: post) {x : Exchange}
    (hx : svc.Exchanges c i x) : svc.FromLane c pre x hit := by
  have hmem : (i, ev (.cacheGet q ns) (some hit)) ∈ c.log := by simp [hlog]
  obtain ⟨x₁, hx₁, huse⟩ := exchange_of_use h hmem rfl
  obtain rfl := hx₁.unique hx
  obtain ⟨hc, rfl, rfl⟩ := huse.get q ns rfl
  obtain ⟨j, q', response, ns', hput, hhit, hsame⟩ := put_of_hit hsha hfloat h hlog
  have hmem' : (j, ev (.cachePut q' response ns') ()) ∈ c.log := by
    rw [hlog]
    exact List.mem_append_left _ hput
  obtain ⟨x', hx', huse'⟩ := exchange_of_use h hmem' rfl
  obtain ⟨hc', rfl, rfl, -⟩ := huse'.put q' response ns' rfl
  exact ⟨j, x', response, hput, hx', hc',
    sameLane_of_ns (hx.routed hroutes h hc) (hx'.routed hroutes h hc') hsame.ns, hhit⟩

theorem forced_hit (hsha : Function.Injective svc.platform.sha256)
    (hfloat : FloatText svc.platform.floatRepr) {c : State}
    (h : svc.machine.Reachable initial c) {i : Nat} {q : GatewayRequest} {ns : String}
    {hit : GatewayResponse} (he : (i, ev (.cacheGet q ns) (some hit)) ∈ c.log) {x : Exchange}
    (hx : svc.Exchanges c i x) {id : String} (hid : x.forcedRouteId = some id) :
    hit.routeId = id := by
  obtain ⟨x₁, hx₁, huse⟩ := exchange_of_use h he rfl
  obtain rfl := hx₁.unique hx
  obtain ⟨-, rfl, rfl⟩ := huse.get q ns rfl
  obtain ⟨assignment, forced, route, hns, -, hroute, hmeets⟩ :=
    hit_storable hsha hfloat h (Pool.mem_trace.mpr he)
  rw [← hroute]
  exact hmeets.forced id ((forced_of_namespace hns).symm.trans hid)

/-- Only calls without canary, shadow or evaluation use the cache, each for its own exchange.
What they find has been put by a call of the same lane, and an answer with `cache_hit` is such a
find. -/
theorem lanes_isolated (hsha : Function.Injective svc.platform.sha256)
    (hfloat : FloatText svc.platform.floatRepr)
    (hroutes : ∀ route ∈ svc.routes, route.idValid = true) {c : State}
    (h : svc.machine.Reachable initial c) :
    (∀ i e, (i, e) ∈ c.log → usesCache e.1 = true → ∃ x, svc.Exchanges c i x ∧
      x.evaluation = false ∧ x.shadow = false ∧ x.assignment.canary = false) ∧
    (∀ pre i q ns hit post, c.log = pre ++ (i, ev (.cacheGet q ns) (some hit)) :: post →
      ∀ x, svc.Exchanges c i x → svc.FromLane c pre x hit ∧
        ∀ id, x.forcedRouteId = some id → hit.routeId = id) ∧
    ∀ i t, c.tasks[i]? = some t → (callArguments t.call).isSome = true →
      (∀ r, t.rest = .pure (.response r) → r.cacheHit = true → CachedFrom (c.trace i) r) ∧
      ∀ q forced, t.call = .stream q forced → ∀ pre v a post r,
        c.trace i = pre ++ ev (.yieldEvent v) a :: post → v.response = some r →
          r.cacheHit = true → CachedFrom pre r := by
  refine ⟨fun i e he huse => ?_, fun pre i q ns hit post hlog x hx => ⟨?_, fun id hid => ?_⟩,
    fun i t ht hargs => ⟨fun r hrest hhit => ?_, fun q forced hcall pre v a post r htr hr hhit => ?_⟩⟩
  · obtain ⟨x, hx, hcache⟩ := exchange_of_use h he huse
    have hc : x.cacheAllowed = true := by
      rcases e with ⟨o, a⟩
      cases o with
      | cacheGet q ns => exact (hcache.get q ns rfl).1
      | cachePut q response ns => exact (hcache.put q response ns rfl).1
      | _ => cases huse
    simp only [Exchange.cacheAllowed, Bool.and_eq_true, Bool.not_eq_true'] at hc
    exact ⟨x, hx, hc.1.1, hc.1.2, hc.2⟩
  · exact fromLane_of_hit hsha hfloat hroutes h hlog hx
  · have hmem : (i, ev (.cacheGet q ns) (some hit)) ∈ c.log := by simp [hlog]
    exact forced_hit hsha hfloat h hmem hx hid
  · obtain ⟨args, hargs⟩ := Option.isSome_iff_exists.mp hargs
    exact (answers_of_reachable h ht hargs hrest).cached hhit
  · exact (yieldsAnswers_of_reachable h ht hcall pre v a post r htr hr).cached hhit

/-! The same request twice, and the second time it is answered from the cache. -/

def twiceRequest : GatewayRequest := { Sample.request with cacheMode := .default }

def twice : List Call := [.generate twiceRequest none, .generate twiceRequest none]

def twiceMoves : List (Move Input Call) :=
  Sample.goes 0 8 ++ .run 0 (Sample.completion "hello") :: Sample.goes 0 7 ++ Sample.goes 1 3

def inDefaultLane : Op → Bool
  | .cacheGet _ ns | .cachePut _ _ ns => ns = "default"
  | _ => true

def asksCache : Op → Bool
  | .cacheGet _ _ => true
  | _ => false

theorem Exchanges.request_eq {c : State} {i : Nat} {x : Exchange} (hx : svc.Exchanges c i x)
    {q : GatewayRequest} {forced : Option String} (hprompt : q.prompt = none)
    (hcalls : ∀ t ∈ c.tasks, t.call = .generate q forced) : x.request = q := by
  obtain ⟨t, args, tr₀, tr₁, ht, hargs, -, -, hb⟩ := hx
  rw [hcalls t (List.mem_of_getElem? ht)] at hargs
  obtain rfl := Option.some.inj hargs
  rcases hb.resolved with ⟨-, hrequest⟩ | ⟨ref, artifact, hsome, -⟩
  · exact hrequest
  · rw [hprompt] at hsome
    cases hsome

theorem lanes_isolated_call : ∃ (c : State) (pre : List (Nat × GatewayEvent))
    (hit : GatewayResponse) (x : Exchange), Sample.service.machine.Reachable initial c ∧
    c.log = pre ++ [(1, ev (.cacheGet twiceRequest "default") (some hit))] ∧
    Sample.service.Exchanges c 1 x ∧ x.assignment.canary = false ∧
    Sample.service.FromLane c pre x hit := by
  obtain ⟨c₀, hstart, hcalls₀⟩ : ∃ c₀,
      Sample.service.machine.moves? initial (twice.map .start) = some c₀ ∧
        c₀.tasks.map (·.call) = twice := ⟨_, rfl, rfl⟩
  obtain ⟨c, hm, c', hs, hlast, hlonger, hlane, hsingle, hlive, htwo⟩ :
      ∃ c ∈ (Sample.service.machine.moves? initial (twice.map .start)).bind fun c₀ =>
          Sample.service.machine.moves? c₀ twiceMoves,
        ∃ c' ∈ Sample.service.machine.step? c (.run 1 .go),
          c'.log.getLast?.any (fun e => asksCache e.2.1) = true ∧ c.log.length < c'.log.length ∧
            (∀ e ∈ c'.log, inDefaultLane e.2.1 = true) ∧ c.world.cache.entries.length = 1 ∧
              (∀ s ∈ c.world.cache.entries, c.world.clock < s.2.expiresAt) ∧
                c'.tasks.length = 2 := by decide +kernel
  rw [hstart, Option.bind_some] at hm
  have hc := Machine.reachable_of_moves _ (Machine.reachable_of_moves _ .start hstart) hm
  have hc' := hc.trans (.next .start trivial hs)
  have hcalls : ∀ t ∈ c'.tasks, t.call = .generate twiceRequest none := by
    have hprefix := (Machine.calls_moves hm).trans (Machine.calls_step hs)
    rw [hcalls₀] at hprefix
    have htasks := hprefix.eq_of_length (by simp [twice, htwo])
    intro t ht
    have hcall : t.call ∈ c'.tasks.map (·.call) := List.mem_map_of_mem ht
    rw [← htasks] at hcall
    simpa [twice] using hcall
  rcases Machine.log_step hs with hlog | ⟨i, x, ⟨o, a⟩, hrun, hlog⟩
  · exact absurd (congrArg List.length hlog) hlonger.ne'
  obtain ⟨rfl, rfl⟩ := Move.run.inj hrun
  rw [hlog, List.getLast?_concat] at hlast
  cases o with
  | cacheGet q ns =>
    obtain ⟨call, o, k, a', w, -, hexec, heq⟩ := Machine.step_run hs
    have hlog' : c'.log = c.log ++ [(1, ⟨o, a'⟩)] := by rw [heq]
    cases List.append_cancel_left (hlog.symm.trans hlog')
    have hmem : (1, ev (.cacheGet q ns) a) ∈ c'.log := by simp [hlog]
    obtain ⟨x, hx, huse⟩ := exchange_of_use hc' hmem rfl
    obtain ⟨-, rfl, rfl⟩ := huse.get q ns rfl
    -- The only entry is that of the first call, which has asked the same in the same lane.
    obtain ⟨s, hsingle⟩ := List.length_eq_one_iff.mp hsingle
    obtain ⟨j, q', response, ns', hput, hkey, hscope, -⟩ := putBy_of_reachable hc s (by simp [hsingle])
    have hput' : (j, ev (.cachePut q' response ns') ()) ∈ c'.log := by simp [hlog, hput]
    obtain ⟨x', hx', huse'⟩ := exchange_of_use hc' hput' rfl
    obtain ⟨-, rfl, rfl, -⟩ := huse'.put q' response ns' rfl
    have hlane₁ : x.ns = "default" := of_decide_eq_true (hlane _ hmem)
    have hlane₀ : x'.ns = "default" := of_decide_eq_true (hlane _ hput')
    rw [hx'.request_eq rfl hcalls, hlane₀] at hkey hscope
    rw [hx.request_eq rfl hcalls, hlane₁] at hexec hlog
    have hexec : Sample.service.exec c.world (.cacheGet twiceRequest "default") .go = some (a, w) :=
      hexec
    have ha := (exec_cacheGet hexec).trans
      (Entries.get_single hsingle (hlive s (by simp [hsingle])) hkey hscope)
    rw [ha] at hlog
    have hroutes : ∀ route ∈ Sample.service.routes, route.idValid = true := by decide +kernel
    obtain ⟨hown, hfrom, -⟩ := lanes_isolated Sample.sha256_injective Sample.floatText hroutes hc'
    obtain ⟨x₁, hx₁, -, -, hcanary⟩ := hown 1 _ hmem rfl
    obtain rfl := hx₁.unique hx
    exact ⟨c', c.log, _, x₁, hc', hlog, hx, hcanary, (hfrom _ _ _ _ _ [] hlog x₁ hx).1⟩
  | _ => cases hlast

end Service

end AegisGateway
