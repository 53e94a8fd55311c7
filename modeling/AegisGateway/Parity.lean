import AegisGateway.Lib.Alone
import AegisGateway.Provenance
import AegisGateway.System

/-!
# `generate` and `stream` on one request

The two loops are run from one world, one with the answers of the adapters and one with their
streams. While they go from candidate to candidate the worlds stay the same. What they leave
behind differs in times only.
-/

open Coroutine JsonText

namespace AegisGateway

/-! ## What the gateway runs against -/

structure Pause where
  seconds : ℚ
  microseconds : Nat
  nonneg : 0 ≤ seconds

namespace Pause

instance : Zero Pause := ⟨0, 0, Rat.le_refl⟩

instance : Add Pause where
  add p p' :=
    { seconds := p.seconds + p'.seconds
      microseconds := p.microseconds + p'.microseconds
      nonneg := add_nonneg p.nonneg p'.nonneg }

theorem zero_def : (0 : Pause) = ⟨0, 0, Rat.le_refl⟩ := rfl

theorem add_def (p p' : Pause) : p + p' =
    ⟨p.seconds + p'.seconds, p.microseconds + p'.microseconds, add_nonneg p.nonneg p'.nonneg⟩ :=
  rfl

end Pause

def World.after (w : World) (p : Pause) : World :=
  { w with clock := w.clock + p.seconds, utc := w.utc + p.microseconds }

theorem World.after_zero (w : World) : w.after 0 = w := by
  simp [World.after, Pause.zero_def]

theorem World.after_add (w : World) (p p' : Pause) : w.after (p + p') = (w.after p).after p' := by
  simp [World.after, Pause.add_def, add_assoc]

/-- What an adapter does about an attempt: its answer, and what it would stream. -/
structure Conduct where
  answer : Except PyExc ProviderResult
  script : Script

/-- The adapters, and how long an operation takes. -/
structure Surroundings where
  conduct : GatewayRequest → ModelRoute → Conduct
  pause : Op → Pause

/-! ## Up to times -/

def GatewayResponse.timeless (r : GatewayResponse) : GatewayResponse :=
  { r with ttftMs := 0, latencyMs := 0, createdAt := 0 }

def RequestMetric.timeless (m : RequestMetric) : RequestMetric :=
  { m with ttftMs := 0, latencyMs := 0, createdAt := 0 }

/-- The entry keeps the time at which it expires. -/
def Entry.timeless (e : Entry) : Entry := { e with response := e.response.timeless }

def Entries.timeless (es : Entries) : List (String × Entry) :=
  es.entries.map fun s => (s.1, s.2.timeless)

def Op.timeless : Op → Op
  | .recordMetric m => .recordMetric m.timeless
  | .cachePut q response ns => .cachePut q response.timeless ns
  | o => o

/-- Two worlds that differ at most in their clocks and in the times that rows and cached
responses carry. -/
structure World.Alike (w w' : World) : Prop where
  circuits : w.circuits = w'.circuits
  buckets : w.buckets = w'.buckets
  gauge : w.gauge = w'.gauge
  cache : w.cache.timeless = w'.cache.timeless
  rows : w.database.requestMetrics.map (·.timeless) = w'.database.requestMetrics.map (·.timeless)
  tables : { w.database with requestMetrics := [] } = { w'.database with requestMetrics := [] }

theorem World.Alike.refl (w : World) : w.Alike w := ⟨rfl, rfl, rfl, rfl, rfl, rfl⟩

/-- Two failures that no handler of the loops tells apart. -/
inductive PyExc.Alike : PyExc → PyExc → Prop
  | provider {e e' : ProviderError} (h : e.code = e'.code) :
      Alike (.aegis (.provider e)) (.aegis (.provider e'))
  | circuitOpen (m m' : String) : Alike (.aegis (.circuitOpen m)) (.aegis (.circuitOpen m'))
  | schemaViolation (m m' : String) :
      Alike (.aegis (.schemaViolation m)) (.aegis (.schemaViolation m'))
  | timeoutError : Alike .timeoutError .timeoutError
  | unhandled {e : PyExc} (h : e.handled = false) : Alike e e

theorem PyExc.Alike.refl (e : PyExc) : e.Alike e := by
  cases e with
  | aegis err =>
    cases err with
    | provider => exact .provider rfl
    | circuitOpen => exact .circuitOpen _ _
    | schemaViolation => exact .schemaViolation _ _
    | _ => exact .unhandled rfl
  | timeoutError => exact .timeoutError
  | _ => exact .unhandled rfl

def PyExc.SameCode : PyExc → PyExc → Prop
  | .aegis e, .aegis e' => e.code = e'.code
  | e, e' => e = e'

theorem PyExc.SameCode.refl (e : PyExc) : e.SameCode e := by
  cases e <;> rfl

/-! ## Adapters that stream what they answer -/

def delivered (events : List ProviderStreamEvent) : List String :=
  events.filterMap fun e => if e.type = .delta then some e.delta else none

/-- A stream fails as the answer does, with no delta in front. Or it has the text and the
tokens of the answer, which comes from the route's model and satisfies the schema; a text that
does not satisfy it is a failure, and has no delta either. -/
inductive Conduct.Streams (P : Platform) (q : GatewayRequest) (route : ModelRoute) :
    Conduct → Prop
  | fails {e e' : PyExc} {events : List ProviderStreamEvent} (he : e.Alike e')
      (hquiet : delivered events = []) : Streams P q route ⟨.error e, ⟨events, some e'⟩⟩
  | answers {r : ProviderResult} {events : List ProviderStreamEvent}
      (htext : String.join (delivered events) = r.text)
      (husage : Service.lastUsage events = (r.inputTokens, r.outputTokens))
      (hmodel : r.rawModel = route.model)
      (hschema : (∃ v, P.validateSchema q r.text = .ok v) ∨ delivered events = []) :
      Streams P q route ⟨.ok r, ⟨events, none⟩⟩

namespace Service

variable (svc : Service) (env : Surroundings)

def input : Op → Input
  | .uuid4 => .uuid ""
  | .complete q route => .completion (env.conduct q route).answer
  | .openStream q route => .script (env.conduct q route).script
  | .yieldEvent _ => .consumer .resumes
  | _ => .go

theorem exec_input (w : World) (o : Op) : (svc.exec w o (input env o)).isSome := by
  cases o <;> rfl

def relayedEvent (requestId : String) (route : ModelRoute) (type : GatewayEventType)
    (delta : String) : GatewayStreamEvent :=
  { type
    requestId
    routeId := route.id
    provider := route.provider
    model := route.model
    delta
    response := none }

/-- Relaying takes time with every event that is passed on, and the first delta is timed. -/
def relayPause (requestId : String) (route : ModelRoute) : Bool → List ProviderStreamEvent → Pause
  | _, [] => 0
  | emitted, e :: events =>
    match e.type with
    | .start => env.pause (.yieldEvent (relayedEvent requestId route .start "")) +
        relayPause requestId route emitted events
    | .delta => (if emitted then 0 else env.pause .monotonic) +
        (env.pause (.yieldEvent (relayedEvent requestId route .delta e.delta)) +
          relayPause requestId route true events)
    | _ => relayPause requestId route emitted events

/-- An answer takes as long as the stream of the same attempt. How long any other operation
takes does not depend on the times it writes down. -/
def span : Op → Pause
  | .complete q route => env.pause (.openStream q route) +
      relayPause env q.requestId route false (env.conduct q route).script.events
  | o => env.pause o.timeless

def serve (w : World) (o : Op) : Ans o × World :=
  (svc.exec (w.after (span env o)) o (input env o)).get (svc.exec_input env _ o)

/-- One call with nothing beside it. -/
abbrev runs {α : Type} (p : GatewayM α) (w : World) : Ran Op Ans PyExc α World :=
  p.execute (svc.serve env) w

/-- A call that runs alone is a call of the gateway. -/
theorem reachable_runs {c : State} {i : Nat} {call : Call} {p : GatewayM Outcome}
    (ht : c.tasks[i]? = some ⟨call, p⟩) :
    ∃ c', svc.machine.Reachable c c' ∧ c'.Finished i call (svc.runs env p c.world).outcome ∧
      c'.world = (svc.runs env p c.world).world ∧
      c'.trace i = c.trace i ++ (svc.runs env p c.world).trace := by
  refine Machine.reachable_execute (fun w o => ?_) ht
  refine ⟨.later (span env o).seconds (span env o).microseconds, w.after (span env o),
    input env o, if_pos (span env o).nonneg, ?_⟩
  exact (Option.some_get (svc.exec_input env (w.after (span env o)) o)).symm

/-- Every adapter streams what it answers. -/
def Streaming : Prop := ∀ q route, (env.conduct q route).Streams svc.platform q route

/-! ## What both calls have in common -/

/-- What a candidate meets: the gate of its circuit, and the call of its provider. -/
inductive Trial where
  | gate (routeId : String)
  | call (request : GatewayRequest) (route : ModelRoute)

def trialOf : Op → Option Trial
  | .beforeRequest routeId => some (.gate routeId)
  | .complete q route | .openStream q route => some (.call q route)
  | _ => none

def trials (tr : GatewayTrace) : List Trial := tr.filterMap fun e => trialOf e.1

@[simp]
theorem trials_nil : trials [] = [] := rfl

theorem trials_cons (e : GatewayEvent) (tr : GatewayTrace) :
    trials (e :: tr) = (trialOf e.1).toList ++ trials tr := by
  unfold trials
  rw [List.filterMap_cons]
  cases trialOf e.1 <;> rfl

@[simp]
theorem trials_append (tr tr' : GatewayTrace) : trials (tr ++ tr') = trials tr ++ trials tr' :=
  List.filterMap_append

def answered (tr : GatewayTrace) : Option GatewayResponse :=
  (yielded tr).getLast?.bind (·.response)

theorem answered_append {tr tr' : GatewayTrace} {r : GatewayResponse} (h : answered tr' = some r) :
    answered (tr ++ tr') = some r := by
  obtain ⟨v, hv, hr⟩ := Option.bind_eq_some_iff.mp h
  rw [answered, yielded_append, List.getLast?_append, hv]
  exact hr

inductive Ending (tr : GatewayTrace) : Except PyExc GatewayResponse → Except PyExc Unit → Prop
  | response {r r' : GatewayResponse} (hr : answered tr = some r')
      (h : r.timeless = r'.timeless) : Ending tr (.ok r) (.ok ())
  | error {e e' : PyExc} (h : e.SameCode e') : Ending tr (.error e) (.error e')

/-- A complete call and a stream that have come to the same. -/
structure Parity (g : Ran Op Ans PyExc GatewayResponse World) (s : Ran Op Ans PyExc Unit World) :
    Prop where
  trials : trials g.trace = trials s.trace
  world : g.world.Alike s.world
  ending : Ending s.trace g.outcome s.outcome

theorem Ending.append {tr' : GatewayTrace} {out : Except PyExc GatewayResponse}
    {out' : Except PyExc Unit} (h : Ending tr' out out') (tr : GatewayTrace) :
    Ending (tr ++ tr') out out' := by
  cases h with
  | response hr h => exact .response (answered_append hr) h
  | error h => exact .error h

theorem Parity.after {g : Ran Op Ans PyExc GatewayResponse World}
    {s : Ran Op Ans PyExc Unit World} (h : Parity g s) {tr tr' : GatewayTrace}
    (ht : Service.trials tr = Service.trials tr') : Parity (g.after tr) (s.after tr') where
  trials := by rw [Ran.after_trace, Ran.after_trace, trials_append, trials_append, ht, h.trials]
  world := h.world
  ending := h.ending.append tr'

/-! ## One candidate -/

/-- The variables of the two loops, up to the texts of their errors. -/
structure Abreast (st st' : LoopState) : Prop where
  count : st.fallbackCount = st'.fallbackCount
  code : st.lastError.map (·.code) = st'.lastError.map (·.code)
  route : st.lastErrorRoute = st'.lastErrorRoute

theorem Abreast.failed {st st' : LoopState} (h : Abreast st st') (route : ModelRoute)
    {e e' : AegisError} (he : e.code = e'.code) :
    Abreast (st.failed route e) (st'.failed route e') :=
  ⟨congrArg (· + 1) h.count, congrArg some he, rfl⟩

theorem Abreast.deadline {st st' : LoopState} (h : Abreast st st') (route : ModelRoute) :
    Abreast (st.deadline route) (st'.deadline route) := by
  have hsome : st.lastError.isSome = st'.lastError.isSome := by
    simpa using congrArg Option.isSome h.code
  unfold LoopState.deadline
  rw [hsome]
  split_ifs
  · exact h
  · exact h.failed route rfl

inductive Moves : Except PyExc (Pass GatewayResponse) → Except PyExc (Pass Unit) → Prop
  | broke {st st' : LoopState} (h : Abreast st st') : Moves (.ok (.broke st)) (.ok (.broke st'))
  | next {st st' : LoopState} (h : Abreast st st') : Moves (.ok (.next st)) (.ok (.next st'))
  | raised {e e' : PyExc} (h : e.SameCode e') : Moves (.error e) (.error e')

inductive Side (g : Ran Op Ans PyExc (Pass GatewayResponse) World)
    (s : Ran Op Ans PyExc (Pass Unit) World) : Prop
  | moves (hw : g.world = s.world) (ht : trials g.trace = trials s.trace)
      (h : Moves g.outcome s.outcome)
  | returned {r : GatewayResponse} (hg : g.outcome = .ok (.returned r))
      (hs : s.outcome = .ok (.returned ()))
      (h : Parity ⟨g.world, g.trace, .ok r⟩ ⟨s.world, s.trace, .ok ()⟩)

theorem Side.after {g : Ran Op Ans PyExc (Pass GatewayResponse) World}
    {s : Ran Op Ans PyExc (Pass Unit) World} (h : Side g s) {tr tr' : GatewayTrace}
    (ht : trials tr = trials tr') : Side (g.after tr) (s.after tr') := by
  cases h with
  | moves hw ht' h => exact .moves hw (by simp [ht, ht']) h
  | returned hg hs h => exact .returned hg hs (h.after ht)

theorem runs_recordFailure (routeId : String) (w : World) :
    ∃ w' tr, svc.runs env (recordFailure routeId) w = ⟨w', tr, .ok ()⟩ ∧ trials tr = [] :=
  ⟨_, _, rfl, rfl⟩

theorem handled_side {e e' : PyExc} (he : e.Alike e') (x : Exchange) (route : ModelRoute)
    {st st' : LoopState} (hst : Abreast st st') (w : World) :
    Side (svc.runs env (handleComplete route st (.error e)) w)
      (svc.runs env (handleStream x route st' false (.error e')) w) := by
  cases he with
  | provider hcode =>
    obtain ⟨w', tr, hrun, htr⟩ := svc.runs_recordFailure env route.id w
    simp only [handleComplete, handleStream, Prog.execute_bind, hrun, Ran.andThen_ok, hcode,
      Bool.false_eq_true, if_false]
    refine Side.after ?_ rfl
    split_ifs with hbreak
    · exact .moves rfl rfl (.broke (hst.failed route hcode))
    · exact .moves rfl rfl (.next (hst.failed route hcode))
  | circuitOpen m m' => exact .moves rfl rfl (.next (hst.failed route rfl))
  | schemaViolation m m' => exact .moves rfl rfl (.next (hst.failed route rfl))
  | timeoutError =>
    obtain ⟨w', tr, hrun, htr⟩ := svc.runs_recordFailure env route.id w
    have hcode : (AegisError.provider (providerTimeoutError completeTimeout route.provider)).code =
        (AegisError.provider (providerTimeoutError streamTimeout route.provider)).code := rfl
    simp only [handleComplete, handleStream, Prog.execute_bind, hrun, Ran.andThen_ok,
      Bool.false_eq_true, if_false]
    exact Side.after (.moves rfl rfl (.next (hst.failed route hcode))) rfl
  | unhandled h =>
    have hraise : handleComplete route st (.error e) = raise e ∧
        handleStream x route st' false (.error e) = raise e := by
      cases e with
      | aegis err => cases err <;> first | exact ⟨rfl, rfl⟩ | cases h
      | timeoutError => cases h
      | _ => exact ⟨rfl, rfl⟩
    rw [hraise.1, hraise.2]
    exact .moves rfl rfl (.raised (PyExc.SameCode.refl e))

/-! ## The stream of an attempt -/

structure Carried (events : List ProviderStreamEvent) (r r' : Relay) : Prop where
  text : r'.textParts = r.textParts ++ delivered events
  emitted : r'.emitted = (r.emitted || (delivered events != []))
  tokens : (r'.inputTokens, r'.outputTokens) =
    events.foldl usageAfter (r.inputTokens, r.outputTokens)

theorem serve_monotonic (w : World) : svc.serve env w .monotonic =
    ((w.after (env.pause .monotonic)).clock, w.after (env.pause .monotonic)) := rfl

theorem serve_datetimeNow (w : World) : svc.serve env w .datetimeNow =
    ((w.after (env.pause .datetimeNow)).utc, w.after (env.pause .datetimeNow)) := rfl

theorem runs_deltaTime (r : Relay) (w : World) :
    ∃ tr t, svc.runs env (deltaTime r) w =
        ⟨w.after (if r.emitted then 0 else env.pause .monotonic), tr, .ok t⟩ ∧
      trials tr = [] := by
  unfold deltaTime
  split_ifs with h
  · exact ⟨[], _, by rw [World.after_zero]; rfl, rfl⟩
  · exact ⟨_, _, rfl, rfl⟩

theorem Carried.nil (r : Relay) : Carried [] r r :=
  ⟨(List.append_nil _).symm, (Bool.or_false _).symm, rfl⟩

theorem runs_yield (v : GatewayStreamEvent) (w : World) : svc.runs env (yieldEvent v) w =
    ⟨w.after (env.pause (.yieldEvent v)), [ev (.yieldEvent v) .resumes], .ok ()⟩ := rfl

theorem runs_relay (x : Exchange) (route : ModelRoute) (ending : Option PyExc)
    (events : List ProviderStreamEvent) (r : Relay) (w : World) :
    ∃ tr r', svc.runs env (relay x route ending events r) w =
        ⟨w.after (relayPause env x.request.requestId route r.emitted events), tr,
          .ok (r', ending)⟩ ∧
      trials tr = [] ∧ Carried events r r' := by
  -- Each event takes its own time, and `relayPause` adds it up in the same order.
  induction events generalizing r w with
  | nil => exact ⟨[], r, by rw [relayPause, World.after_zero]; rfl, rfl, .nil r⟩
  | cons e events ih =>
    unfold relay relayPause
    cases htype : e.type with
    | start =>
      obtain ⟨tr, r', hrun, htr, h⟩ :=
        ih r (w.after (env.pause (.yieldEvent (streamEvent x route .start "" none))))
      refine ⟨ev (.yieldEvent (streamEvent x route .start "" none)) .resumes :: tr, r', ?_, htr, ?_⟩
      · simp only [Prog.execute_bind, Prog.execute_attempt, runs_yield, Ran.andThen_ok, hrun,
          Ran.after_mk, World.after_add]
        rfl
      · exact ⟨by simp [h.text, delivered, htype], by simp [h.emitted, delivered, htype],
          by simp [h.tokens, usageAfter, htype]⟩
    | delta =>
      obtain ⟨tr₀, t, htime, htr₀⟩ := svc.runs_deltaTime env r w
      obtain ⟨tr, r', hrun, htr, h⟩ := ih
        { r with emitted := true, firstDeltaAt := t, textParts := r.textParts ++ [e.delta] }
        ((w.after (if r.emitted then 0 else env.pause .monotonic)).after
          (env.pause (.yieldEvent (streamEvent x route .delta e.delta none))))
      refine ⟨tr₀ ++ ev (.yieldEvent (streamEvent x route .delta e.delta none)) .resumes :: tr, r',
        ?_, ?_, ?_⟩
      · simp only [Prog.execute_bind, htime, Ran.andThen_ok, Prog.execute_attempt, runs_yield, hrun,
          Ran.after_mk, World.after_add]
        rfl
      · rw [trials_append, htr₀]
        exact htr
      · exact ⟨by simp [h.text, delivered, htype], by simp [h.emitted, delivered, htype],
          by simp [h.tokens, usageAfter, htype]⟩
    | usage =>
      obtain ⟨tr, r', hrun, htr, h⟩ := ih
        { r with inputTokens := e.inputTokens.getD 0, outputTokens := e.outputTokens.getD 0 } w
      exact ⟨tr, r', hrun, htr, by simp [h.text, delivered, htype],
        by simp [h.emitted, delivered, htype], by simp [h.tokens, usageAfter, htype]⟩
    | done | error =>
      obtain ⟨tr, r', hrun, htr, h⟩ := ih r w
      exact ⟨tr, r', hrun, htr, by simp [h.text, delivered, htype],
        by simp [h.emitted, delivered, htype], by simp [h.tokens, usageAfter, htype]⟩

/-! ## What a call leaves behind -/

def Idle (w : World) (r : Ran Op Ans PyExc Unit World) : Prop :=
  ∃ p tr, r = ⟨w.after p, tr, .ok ()⟩ ∧ trials tr = []

theorem runs_createTask (call : Call) (w : World) :
    Idle w (svc.runs env (perform (.createTask call)) w) := ⟨_, _, rfl, rfl⟩

theorem runs_launchReleaseAssessment (x : Exchange) (w : World) :
    Idle w (svc.runs env x.launchReleaseAssessment w) := by
  unfold Exchange.launchReleaseAssessment
  split
  · exact svc.runs_createTask env _ w
  · exact ⟨0, [], by rw [World.after_zero]; rfl, rfl⟩

theorem runs_launchShadow (x : Exchange) (w : World) :
    Idle w (svc.runs env x.launchShadow w) := by
  unfold Exchange.launchShadow
  split
  · exact ⟨0, [], by rw [World.after_zero]; rfl, rfl⟩
  · exact svc.runs_createTask env _ w

theorem runs_launchPostResponse (x : Exchange) (w : World) :
    Idle w (svc.runs env x.launchPostResponse w) := by
  unfold Exchange.launchPostResponse
  simp only [Prog.execute_when, Prog.execute_bind]
  split_ifs
  · obtain ⟨p, tr, hshadow, htr⟩ := svc.runs_launchShadow env x w
    obtain ⟨p', tr', hassess, htr'⟩ := svc.runs_launchReleaseAssessment env x (w.after p)
    refine ⟨p + p', tr ++ tr', ?_, by rw [trials_append, htr, htr']; rfl⟩
    simp only [hshadow, Ran.andThen_ok, hassess, Ran.after_mk, World.after_add]
  · exact ⟨0, [], by rw [World.after_zero], rfl⟩

def noting (w : World) (m : RequestMetric) : World :=
  { w with database := w.database.recordMetric m }

def storing (w : World) (q : GatewayRequest) (r : GatewayResponse) (ns : String) : World :=
  { w with cache := Entries.put svc.platform svc.cache w.clock w.cache q r ns }

theorem alike_after {w w' : World} (h : w.Alike w') (p p' : Pause) :
    (w.after p).Alike (w'.after p') :=
  ⟨h.circuits, h.buckets, h.gauge, h.cache, h.rows, h.tables⟩

theorem alike_afterwards {w w' : World} (h : w.Alike w') (p : Pause) : w.Alike (w'.after p) :=
  ⟨h.circuits, h.buckets, h.gauge, h.cache, h.rows, h.tables⟩

theorem alike_noting {w w' : World} (h : w.Alike w') {m m' : RequestMetric}
    (hm : m.timeless = m'.timeless) : (noting w m).Alike (noting w' m') :=
  ⟨h.circuits, h.buckets, h.gauge, h.cache, by simp [noting, Database.recordMetric, h.rows, hm],
    h.tables⟩

theorem timeless_trim (max : Nat) (es : Entries) (key : String) {e e' : Entry}
    (h : e.timeless = e'.timeless) : (Entries.trim max (es.insert key e)).timeless =
      (Entries.trim max (es.insert key e')).timeless := by
  change (((⟨key, e⟩ :: List.kerase key es.entries : List Entries.Slot).take max).map _) =
    ((⟨key, e'⟩ :: List.kerase key es.entries : List Entries.Slot).take max).map _
  rw [List.map_take, List.map_take, List.map_cons, List.map_cons, h]

theorem alike_storing {w w' : World} (h : w.Alike w') (hcache : w.cache = w'.cache)
    (hclock : w.clock = w'.clock) (q : GatewayRequest) {r r' : GatewayResponse}
    (hr : r.timeless = r'.timeless) (ns : String) :
    (svc.storing w q r ns).Alike (svc.storing w' q r' ns) where
  circuits := h.circuits
  buckets := h.buckets
  gauge := h.gauge
  cache := by
    rw [storing, storing, hcache, hclock]
    apply timeless_trim _ _ _
    have hstored : ({ r with cacheHit := false } : GatewayResponse).timeless =
        ({ r' with cacheHit := false } : GatewayResponse).timeless :=
      congrArg (fun r : GatewayResponse => { r with cacheHit := false }) hr
    rw [Entry.timeless, Entry.timeless, hstored]
  rows := h.rows
  tables := h.tables

theorem responseRow_timeless (x : Exchange) {r r' : GatewayResponse} (h : r.timeless = r'.timeless)
    (t t' : Int) : (x.responseRow r t).timeless = (x.responseRow r' t').timeless := by
  simp only [GatewayResponse.timeless, GatewayResponse.mk.injEq] at h
  obtain ⟨-, hroute, hprovider, -, -, -, hschema, husage, -, -, hhit, hcount, hregret, -⟩ := h
  simp only [Exchange.responseRow, RequestMetric.timeless, hroute, hprovider, hschema, husage,
    hhit, hcount, hregret]

def rowPause (x : Exchange) (r : GatewayResponse) : Pause :=
  env.pause .datetimeNow + env.pause (.recordMetric (x.responseRow r 0).timeless)

theorem rowPause_congr (x : Exchange) {r r' : GatewayResponse} (h : r.timeless = r'.timeless) :
    rowPause env x r = rowPause env x r' := by
  rw [rowPause, rowPause, responseRow_timeless x h 0 0]

theorem runs_recordResponse (x : Exchange) (r : GatewayResponse) (w : World) :
    ∃ t tr, svc.runs env (x.recordResponse r) w =
        ⟨noting (w.after (rowPause env x r)) (x.responseRow r t), tr, .ok ()⟩ ∧ trials tr = [] := by
  let t := (w.after (env.pause .datetimeNow)).utc
  refine ⟨t, [ev .datetimeNow t, ev (.recordMetric (x.responseRow r t)) ()], ?_, rfl⟩
  simp only [Exchange.recordResponse, Prog.execute_bind, Prog.execute_perform, Ran.andThen_ok,
    Ran.after_mk, rowPause, World.after_add]
  rfl

theorem serve_cachePut (q : GatewayRequest) (r : GatewayResponse) (ns : String) (w : World) :
    svc.serve env w (.cachePut q r ns) =
      ((), svc.storing (w.after (env.pause (.cachePut q r.timeless ns))) q r ns) := rfl

def Kept (g s : Ran Op Ans PyExc Unit World) : Prop :=
  ∃ w w' tr tr', g = ⟨w, tr, .ok ()⟩ ∧ s = ⟨w', tr', .ok ()⟩ ∧ w.Alike w' ∧ trials tr = [] ∧
    trials tr' = []

theorem Kept.after {g s : Ran Op Ans PyExc Unit World} (h : Kept g s) {tr tr' : GatewayTrace}
    (ht : trials tr = []) (ht' : trials tr' = []) : Kept (g.after tr) (s.after tr') := by
  obtain ⟨w, w', tr₁, tr₂, rfl, rfl, hw, h₁, h₂⟩ := h
  exact ⟨w, w', tr ++ tr₁, tr' ++ tr₂, rfl, rfl, hw, by simp [ht, h₁], by simp [ht', h₂]⟩

theorem kept_launch (x : Exchange) {w w' : World} (h : w.Alike w') :
    Kept (svc.runs env x.launchPostResponse w) (svc.runs env x.launchPostResponse w') := by
  obtain ⟨p, tr, hrun, htr⟩ := svc.runs_launchPostResponse env x w
  obtain ⟨p', tr', hrun', htr'⟩ := svc.runs_launchPostResponse env x w'
  exact ⟨_, _, tr, tr', hrun, hrun', alike_after h p p', htr, htr'⟩

theorem kept_keep (x : Exchange) (hx : x.evaluation = false) {r r' : GatewayResponse}
    (h : r.timeless = r'.timeless) (w : World) :
    Kept (svc.runs env (keep x r) w) (svc.runs env (keep x r') w) := by
  obtain ⟨t, tr, hrow, htr⟩ := svc.runs_recordResponse env x r w
  obtain ⟨t', tr', hrow', htr'⟩ := svc.runs_recordResponse env x r' w
  rw [rowPause_congr env x h] at hrow
  have hrows := alike_noting (World.Alike.refl (w.after (rowPause env x r')))
    (responseRow_timeless x h t t')
  unfold keep
  simp only [Prog.execute_bind, Prog.execute_when, hx, Bool.not_false, if_true, hrow, hrow',
    Ran.andThen_ok]
  refine Kept.after ?_ htr htr'
  split_ifs with hput
  · simp only [Prog.execute_perform, serve_cachePut, Ran.andThen_ok, h]
    refine Kept.after (svc.kept_launch env x ?_) rfl rfl
    exact svc.alike_storing (alike_after hrows _ _) rfl rfl _ h _
  · exact svc.kept_launch env x hrows

/-! ## The answers -/

theorem Kept.parity {g s : Ran Op Ans PyExc Unit World} (h : Kept g s)
    {f : Unit → World → Ran Op Ans PyExc GatewayResponse World}
    {f' : Unit → World → Ran Op Ans PyExc Unit World}
    (hf : ∀ w w', w.Alike w' → Parity (f () w) (f' () w')) :
    Parity (g.andThen f) (s.andThen f') := by
  obtain ⟨w, w', tr, tr', rfl, rfl, hw, htr, htr'⟩ := h
  exact (hf w w' hw).after (htr.trans htr'.symm)

theorem kept_row (x : Exchange) {r r' : GatewayResponse} (h : r.timeless = r'.timeless)
    {w w' : World} (hw : w.Alike w') :
    Kept (svc.runs env (x.recordResponse r) w) (svc.runs env (x.recordResponse r') w') := by
  obtain ⟨t, tr, hrow, htr⟩ := svc.runs_recordResponse env x r w
  obtain ⟨t', tr', hrow', htr'⟩ := svc.runs_recordResponse env x r' w'
  exact ⟨_, _, tr, tr', hrow, hrow',
    alike_noting (alike_after hw _ _) (responseRow_timeless x h t t'), htr, htr'⟩

theorem served_parity (x : Exchange) (hit : GatewayResponse) (w : World) :
    Parity (svc.runs env (serveCached x hit) w) (svc.runs env (streamCached x hit) w) := by
  unfold serveCached streamCached
  simp only [Prog.execute_bind, Prog.execute_perform, Ran.andThen_ok, serve_monotonic, runs_yield]
  simp only [Ran.after_after]
  refine Parity.after ?_ rfl
  refine Kept.parity (svc.kept_row env x ?_ ?_) fun w₁ w₂ h₁ =>
    Kept.parity (svc.kept_launch env x h₁) fun w₃ w₄ h₂ => ?_
  · rfl
  · exact ⟨rfl, rfl, rfl, rfl, rfl, rfl⟩
  · exact ⟨rfl, alike_afterwards h₂ _, .response rfl rfl⟩

theorem andThen_parity {α : Type} (r : Ran Op Ans PyExc α World)
    {f : α → World → Ran Op Ans PyExc GatewayResponse World}
    {f' : α → World → Ran Op Ans PyExc Unit World}
    (h : ∀ a, r.outcome = .ok a → Parity (f a r.world) (f' a r.world)) :
    Parity (r.andThen f) (r.andThen f') := by
  obtain ⟨w, tr, out⟩ := r
  cases out with
  | ok a => exact (h a rfl).after rfl
  | error e => exact ⟨rfl, .refl w, .error (.refl e)⟩

theorem recordError_congr (x : Exchange) (route : ModelRoute) {e e' : AegisError}
    (h : e.code = e'.code) (n : Nat) : x.recordError route e n = x.recordError route e' n := by
  have hrow : x.errorRow route e n = x.errorRow route e' n := by
    funext latencyMs createdAt
    simp only [Exchange.errorRow, h]
  rw [Exchange.recordError, Exchange.recordError, hrow]

theorem gaveUp_parity (x : Exchange) {st st' : LoopState} (h : Abreast st st') (w : World) :
    Parity (svc.runs env (giveUp x st) w) (svc.runs env (giveUp x st') w) := by
  obtain ⟨n, error, route⟩ := st
  obtain ⟨n', error', route'⟩ := st'
  obtain ⟨rfl, hcode, rfl⟩ := h
  have hassert : Parity (svc.runs env (raise (.other "AssertionError")) w)
      (svc.runs env (raise (.other "AssertionError")) w) := ⟨rfl, .refl w, .error rfl⟩
  cases error with
  | none =>
    obtain rfl : error' = none := by simpa using hcode.symm
    exact hassert
  | some e =>
    obtain ⟨e', rfl, he⟩ := Option.map_eq_some_iff.mp hcode.symm
    cases route with
    | none => exact hassert
    | some route =>
      simp only [giveUp, Prog.execute_bind, recordError_congr x route he.symm]
      exact andThen_parity _ fun _ _ => ⟨rfl, .refl _, .error he.symm⟩

/-! ## The attempts -/

/-- What the two `try` blocks come to. -/
inductive Attempted : Ran Op Ans PyExc (Tried GatewayResponse) World →
    Ran Op Ans PyExc (Bool × Except PyExc (Tried Unit)) World → Prop
  | failed {w : World} {tr tr' : GatewayTrace} {e e' : PyExc} (ht : trials tr = trials tr')
      (he : e.Alike e') : Attempted ⟨w, tr, .error e⟩ ⟨w, tr', .ok (false, .error e')⟩
  | deadline {w : World} {tr tr' : GatewayTrace} (ht : trials tr = trials tr') :
      Attempted ⟨w, tr, .ok .deadline⟩ ⟨w, tr', .ok (false, .ok .deadline)⟩
  | done {w w' : World} {tr tr' : GatewayTrace} {r : GatewayResponse} {emitted : Bool}
      (h : Parity ⟨w, tr, .ok r⟩ ⟨w', tr', .ok ()⟩) :
      Attempted ⟨w, tr, .ok (.done r)⟩ ⟨w', tr', .ok (emitted, .ok (.done ()))⟩

theorem Attempted.after {g : Ran Op Ans PyExc (Tried GatewayResponse) World}
    {s : Ran Op Ans PyExc (Bool × Except PyExc (Tried Unit)) World} (h : Attempted g s)
    {tr tr' : GatewayTrace} (ht : trials tr = trials tr') :
    Attempted (g.after tr) (s.after tr') := by
  cases h with
  | failed ht' he => exact .failed (by simp [ht, ht']) he
  | deadline ht' => exact .deadline (by simp [ht, ht'])
  | done h => exact .done (h.after ht)

/-- The rest of the two `try` blocks, once the text is there. -/
def finishComplete (x : Exchange) (c : RoutingCandidate) (route : ModelRoute) (fallbackCount : Nat)
    (result : ProviderResult) : GatewayM (Tried GatewayResponse) := do
  let (parsed, schemaValid) ← Prog.ofExcept (svc.platform.validateSchema x.request result.text)
  recordSuccess route.id
  let now ← perform .monotonic
  let createdAt ← perform .datetimeNow
  let response :=
    completeResponse x route c fallbackCount result parsed schemaValid now createdAt
  keep x response
  pure (.done response)

theorem runs_outcome {α β : Type} (p : GatewayM α) (b : β) (w : World) :
    svc.runs env (do
      let outcome ← p.attempt
      pure (b, outcome)) w =
      ⟨(svc.runs env p w).world, (svc.runs env p w).trace,
        .ok (b, (svc.runs env p w).outcome)⟩ := by
  simp only [Prog.execute_bind, Prog.execute_attempt, Ran.andThen_ok, Prog.execute_pure,
    Ran.after_mk, List.append_nil]

theorem runs_recordSuccess (routeId : String) (w : World) :
    ∃ w' tr, svc.runs env (recordSuccess routeId) w = ⟨w', tr, .ok ()⟩ ∧ trials tr = [] :=
  ⟨_, _, rfl, rfl⟩

theorem response_timeless (x : Exchange) (c : RoutingCandidate) (route : ModelRoute) (n : Nat)
    {result : ProviderResult} {r : Relay} (htext : String.join r.textParts = result.text)
    (htokens : (r.inputTokens, r.outputTokens) = (result.inputTokens, result.outputTokens))
    (hmodel : result.rawModel = route.model) (parsed : Json) (schemaValid : Option Bool)
    (now : ℚ) (t : Int) :
    (completeResponse x route c n result parsed schemaValid now t).timeless =
      (streamResponse x route c n r parsed schemaValid now t).timeless := by
  obtain ⟨hin, hout⟩ := Prod.mk.inj htokens
  simp only [completeResponse, streamResponse, GatewayResponse.timeless, htext, hin, hout, hmodel]

theorem finish_attempted (x : Exchange) (hx : x.evaluation = false) (c : RoutingCandidate)
    (route : ModelRoute) (n : Nat) {result : ProviderResult} {r : Relay}
    (htext : String.join r.textParts = result.text)
    (htokens : (r.inputTokens, r.outputTokens) = (result.inputTokens, result.outputTokens))
    (hmodel : result.rawModel = route.model)
    (hschema : (∃ v, svc.platform.validateSchema x.request result.text = .ok v) ∨
      r.emitted = false) (w : World) :
    Attempted (svc.runs env (svc.finishComplete x c route n result) w)
      (svc.runs env (do
        let outcome ← (svc.finishStream x c route n r).attempt
        pure (r.emitted, outcome)) w) := by
  rw [runs_outcome]
  cases hv : svc.platform.validateSchema x.request result.text with
  | error e =>
    -- A text that the schema cannot be applied to has not been streamed.
    have hquiet : r.emitted = false := hschema.resolve_left (by simp [hv])
    have hg : svc.runs env (svc.finishComplete x c route n result) w = ⟨w, [], .error e⟩ := by
      simp only [finishComplete, hv, Prog.execute_bind, Prog.execute_ofExcept, Ran.andThen_error]
    have hs : svc.runs env (svc.finishStream x c route n r) w = ⟨w, [], .error e⟩ := by
      simp only [finishStream, htext, hv, Prog.execute_bind, Prog.execute_ofExcept,
        Ran.andThen_error]
    rw [hg, hs, hquiet]
    exact .failed rfl (.refl e)
  | ok v =>
    obtain ⟨parsed, schemaValid⟩ := v
    obtain ⟨w₁, tr₁, hsuccess, htr₁⟩ := svc.runs_recordSuccess env route.id w
    have halike := response_timeless x c route n htext htokens hmodel parsed schemaValid
      (w₁.after (env.pause .monotonic)).clock
      ((w₁.after (env.pause .monotonic)).after (env.pause .datetimeNow)).utc
    obtain ⟨w₃, w₄, tr₃, tr₄, hg, hs, hw, htr₃, htr₄⟩ := svc.kept_keep env x hx halike
      ((w₁.after (env.pause .monotonic)).after (env.pause .datetimeNow))
    simp only [finishComplete, finishStream, htext, hv, Prog.execute_bind, Prog.execute_ofExcept,
      Ran.andThen_ok, hsuccess, Prog.execute_perform, serve_monotonic, serve_datetimeNow, hg, hs,
      runs_yield, Prog.execute_pure, Ran.after_mk, List.append_nil]
    refine .done ⟨?_, alike_afterwards hw _, .response ?_ halike⟩
    · simp [trials_cons, trialOf, htr₁, htr₃, htr₄]
    · exact answered_append (answered_append (answered_append (answered_append
        (answered_append rfl))))

theorem runs_complete (q : GatewayRequest) (route : ModelRoute) (w : World) :
    svc.runs env (complete q route) w = ⟨w.after (span env (.complete q route)),
      [ev (.complete q route) (env.conduct q route).answer], (env.conduct q route).answer⟩ := by
  simp only [complete, Prog.execute_op, Prog.execute_ofExcept]
  rfl

theorem serve_openStream (q : GatewayRequest) (route : ModelRoute) (w : World) :
    svc.serve env w (.openStream q route) =
      ((env.conduct q route).script, w.after (env.pause (.openStream q route))) := rfl

theorem call_attempted (henv : svc.Streaming env) (x : Exchange) (hx : x.evaluation = false)
    (c : RoutingCandidate) (route : ModelRoute) (n : Nat) (remaining : ℚ) (w : World) :
    Attempted
      (svc.runs env (do
        let result ← complete (attemptRequest x.request remaining) route
        svc.finishComplete x c route n result) w)
      (svc.runs env (do
        let script ← perform (.openStream (attemptRequest x.request remaining) route)
        match ← relay x route script.ending script.events {} with
        | (r, some e) => pure (r.emitted, .error e)
        | (r, none) =>
          let outcome ← (svc.finishStream x c route n r).attempt
          pure (r.emitted, outcome)) w) := by
  have hpace : span env (.complete (attemptRequest x.request remaining) route) =
      env.pause (.openStream (attemptRequest x.request remaining) route) +
        relayPause env x.request.requestId route false
          (env.conduct (attemptRequest x.request remaining) route).script.events := rfl
  have hstreams := henv (attemptRequest x.request remaining) route
  have hcall : trialOf (.complete (attemptRequest x.request remaining) route) =
    trialOf (.openStream (attemptRequest x.request remaining) route) := rfl
  obtain ⟨tr, r, hrelay, htr, hcarried⟩ := svc.runs_relay env x route
    (env.conduct (attemptRequest x.request remaining) route).script.ending
    (env.conduct (attemptRequest x.request remaining) route).script.events {}
    (w.after (env.pause (.openStream (attemptRequest x.request remaining) route)))
  rw [← World.after_add, ← hpace] at hrelay
  simp only [Prog.execute_bind, runs_complete, Prog.execute_perform, serve_openStream, hrelay,
    Ran.andThen_ok]
  generalize env.conduct (attemptRequest x.request remaining) route = conduct at hstreams hcarried
  cases hstreams with
  | fails he hquiet =>
    -- Nothing has been streamed in front of the failure.
    have hemitted : r.emitted = false := by simp [hcarried.emitted, hquiet]
    simp only [Ran.andThen_error, Ran.after_mk, Prog.execute_pure, hemitted]
    exact .failed (by simp [trials_cons, htr, trialOf]) he
  | answers htext husage hmodel hschema =>
    simp only [Ran.andThen_ok, Ran.after_after]
    refine Attempted.after (svc.finish_attempted env x hx c route n ?_ ?_ hmodel ?_ _) ?_
    · rw [hcarried.text]
      exact htext
    · exact hcarried.tokens.trans husage
    · exact hschema.imp id fun hquiet => by simp [hcarried.emitted, hquiet]
    · simp [trials_cons, htr, trialOf]

theorem try_attempted (henv : svc.Streaming env) (x : Exchange) (hx : x.evaluation = false)
    (c : RoutingCandidate) (route : ModelRoute) (n : Nat) (w : World) :
    Attempted (svc.runs env (svc.tryComplete x c route n) w)
      (svc.runs env (svc.tryStream x c route n) w) := by
  unfold tryComplete tryStream
  simp only [Prog.execute_bind, Prog.execute_attempt]
  generalize (svc.enter x route).execute (svc.serve env) w = entered
  obtain ⟨w₁, tr₁, out⟩ := entered
  cases out with
  | error e => exact .failed (by simp) (.refl e)
  | ok remaining =>
    cases remaining with
    | none => exact .deadline (by simp)
    | some remaining =>
      have h := svc.call_attempted env henv x hx c route n remaining w₁
      exact h.after rfl

theorem pass_side (henv : svc.Streaming env) (x : Exchange) (hx : x.evaluation = false)
    (c : RoutingCandidate) (route : ModelRoute) {st st' : LoopState} (hst : Abreast st st')
    (w : World) :
    Side (svc.runs env (svc.generatePass x c route st) w)
      (svc.runs env (svc.streamPass x c route st') w) := by
  have hcount := hst.count
  have h := svc.try_attempted env henv x hx c route st.fallbackCount w
  unfold generatePass streamPass
  rw [← hcount]
  simp only [runs, Prog.execute_bind, Prog.execute_attempt] at h ⊢
  generalize (svc.tryComplete x c route st.fallbackCount).execute (svc.serve env) w = g at h ⊢
  generalize (svc.tryStream x c route st.fallbackCount).execute (svc.serve env) w = s at h ⊢
  cases h with
  | failed ht he => exact (svc.handled_side env he x route hst _).after ht
  | deadline ht => exact Side.after (.moves rfl rfl (.broke (hst.deadline route))) ht
  | done h => exact .returned rfl rfl (by simpa [handleComplete, handleStream] using h)

theorem loop_parity (henv : svc.Streaming env) (x : Exchange) (hx : x.evaluation = false)
    (cs : List RoutingCandidate) {st st' : LoopState} (hst : Abreast st st') (w : World) :
    Parity (svc.runs env (svc.candidateLoop x (svc.generatePass x) cs st) w)
      (svc.runs env (svc.candidateLoop x (svc.streamPass x) cs st') w) := by
  induction cs generalizing st st' w with
  | nil => exact svc.gaveUp_parity env x hst w
  | cons c cs ih =>
    unfold candidateLoop
    simp only [Prog.execute_bind]
    apply andThen_parity _
    intro route _
    have hside := svc.pass_side env henv x hx c route hst
      ((Prog.ofExcept (svc.getRoute c.routeId)).execute (svc.serve env) w).world
    simp only [runs] at hside
    generalize (svc.generatePass x c route st).execute (svc.serve env) _ = g at hside ⊢
    generalize (svc.streamPass x c route st').execute (svc.serve env) _ = s at hside ⊢
    obtain ⟨w₁, tr, out⟩ := g
    obtain ⟨w₂, tr', out'⟩ := s
    cases hside with
    | moves hw ht h =>
      obtain rfl : w₁ = w₂ := hw
      cases h with
      | broke h => exact (svc.gaveUp_parity env x h w₁).after ht
      | next h => exact (ih h w₁).after ht
      | raised h => exact ⟨ht, .refl w₁, .error h⟩
    | returned hg hs h =>
      obtain rfl : out = _ := hg
      obtain rfl : out' = _ := hs
      simpa [Ran.after_mk] using h

/-! ## The two calls -/

/-- One request and one state come to the same, whether the answer is complete or streamed. -/
theorem calls_agree (henv : svc.Streaming env) (q : GatewayRequest) (forced : Option String)
    (w : World) :
    Parity (svc.runs env (svc.generate { request := q, forcedRouteId := forced }) w)
      (svc.runs env (svc.stream q forced) w) := by
  have hrun := (svc.approach_runs { request := q, forcedRouteId := forced }).run
    (Prog.execute_run (svc.serve env) _ w)
  unfold generate stream
  simp only [Prog.execute_bind]
  apply andThen_parity _
  intro a ha
  rw [ha] at hrun
  generalize Ran.trace _ = tr at hrun
  cases hrun with
  | hit hb => exact svc.served_parity env _ _ _
  | decided hb => exact svc.loop_parity env henv _ hb.evaluation _ ⟨rfl, rfl, rfl⟩ _

/-! An adapter that answers with the empty object, in two pieces, and a cache that keeps it. -/

def inTwo : List ProviderStreamEvent :=
  [{ type := .start }, { type := .delta, delta := "\x7b" }, { type := .delta, delta := "\x7d" },
    { type := .usage, inputTokens := some 3, outputTokens := some 1 }, { type := .done }]

def twoPieces : Surroundings where
  conduct _ route := ⟨.ok ⟨"\x7b\x7d", 3, 1, 1, route.model⟩, ⟨inTwo, none⟩⟩
  pause _ := 0

theorem streaming_twoPieces : Sample.service.Streaming twoPieces := by
  intro q route
  have htext : String.join (delivered inTwo) = "\x7b\x7d" := by decide +kernel
  refine .answers htext rfl rfl (.inl ?_)
  cases h : q.responseSchema with
  | none => exact ⟨(.null, none), by simp [Platform.validateSchema, h]⟩
  | some schema => exact ⟨(.obj [], some true), by simp [Platform.validateSchema, h]; rfl⟩

def cachedRequest : GatewayRequest := { Sample.request with cacheMode := .default }

theorem calls_agree_twoPieces : Parity
    (Sample.service.runs twoPieces (Sample.service.generate { request := cachedRequest }) {})
    (Sample.service.runs twoPieces (Sample.service.stream cachedRequest none) {}) :=
  Sample.service.calls_agree twoPieces streaming_twoPieces cachedRequest none {}

/-- The answer reports when its first token came, of the stream the gateway measures it. -/
theorem cached_times_differ : Sample.service.Streaming twoPieces ∧
    (Sample.service.runs twoPieces (Sample.service.generate { request := cachedRequest })
      {}).world.cache ≠
    (Sample.service.runs twoPieces (Sample.service.stream cachedRequest none) {}).world.cache := by
  refine ⟨streaming_twoPieces, fun h => ?_⟩
  have htimes := congrArg (fun es : Entries => es.entries.map (·.2.response.ttftMs)) h
  revert htimes
  decide +kernel

end Service

end AegisGateway
