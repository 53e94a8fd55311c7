import AegisGateway.Runs

/-!
# Where streamed text comes from

Once a delta has reached the consumer the loop does not go on to another candidate, so
all deltas of a call come from one route, and its answer is put together from them.
-/

open Coroutine

namespace AegisGateway

namespace Service

/-! ## What the consumer sees -/

def yielded (tr : GatewayTrace) : List GatewayStreamEvent := tr.filterMap fun e => yieldOf e.1

def deltasOf (vs : List GatewayStreamEvent) : List String :=
  (vs.filter (·.type = .delta)).map (·.delta)

@[simp]
theorem yielded_nil : yielded [] = [] := rfl

@[simp]
theorem yielded_append (tr tr' : GatewayTrace) :
    yielded (tr ++ tr') = yielded tr ++ yielded tr' :=
  List.filterMap_append

@[simp]
theorem yielded_yield (v : GatewayStreamEvent) (a : Consumer) (tr : GatewayTrace) :
    yielded (ev (.yieldEvent v) a :: tr) = v :: yielded tr := rfl

theorem yielded_eq_nil {tr : GatewayTrace} (h : ∀ e ∈ tr, yieldOf e.1 = none) : yielded tr = [] :=
  List.filterMap_eq_nil_iff.mpr h

theorem mem_yielded {v : GatewayStreamEvent} {tr : GatewayTrace} :
    v ∈ yielded tr ↔ ∃ e ∈ tr, e.1 = .yieldEvent v := by
  unfold yielded
  rw [List.mem_filterMap]
  refine exists_congr fun e => and_congr_right fun _ => ?_
  rcases e with ⟨o, a⟩
  cases o <;> simp [yieldOf]

@[simp]
theorem deltasOf_append (vs vs' : List GatewayStreamEvent) :
    deltasOf (vs ++ vs') = deltasOf vs ++ deltasOf vs' := by
  simp [deltasOf]

def startsAttempt : Op → Bool
  | .beforeRequest _ | .openStream _ _ | .complete _ _ => true
  | _ => false

structure Provenance (tr : GatewayTrace) : Prop where
  /-- All deltas carry one route. -/
  route : ∀ v ∈ yielded tr, ∀ v' ∈ yielded tr, v.type = .delta → v'.type = .delta →
    v.routeId = v'.routeId
  /-- No attempt follows a delta. -/
  committed : ∀ pre v a post, tr = pre ++ ev (.yieldEvent v) a :: post → v.type = .delta →
    ∀ e ∈ post, startsAttempt e.1 = false
  /-- The answer comes last, and it is made of the deltas. -/
  done : ∀ pre v post, yielded tr = pre ++ v :: post → v.type = .done → post = [] ∧
    ∃ r, v.response = some r ∧ r.routeId = v.routeId ∧ r.text = String.join (deltasOf pre) ∧
      ∀ v' ∈ pre, v'.type = .delta → v'.routeId = r.routeId

theorem Provenance.prefix {tr tr' : GatewayTrace} (h : Provenance (tr ++ tr')) : Provenance tr where
  route := fun v hv v' hv' => h.route v (by simp [hv]) v' (by simp [hv'])
  committed := fun pre v a post htr hdelta e he =>
    h.committed pre v a (post ++ tr') (by simp [htr]) hdelta e (by simp [he])
  done := by
    intro pre v post htr hdone
    obtain ⟨hpost, hr⟩ := h.done pre v (post ++ yielded tr') (by simp [htr]) hdone
    exact ⟨(List.append_eq_nil_iff.mp hpost).1, hr⟩

def Undelivered (tr : GatewayTrace) : Prop :=
  ∀ v ∈ yielded tr, v.type ≠ .delta ∧ v.type ≠ .done

theorem undelivered_of_quiet {tr : GatewayTrace} (h : ∀ e ∈ tr, yieldOf e.1 = none) :
    Undelivered tr := by
  intro v hv
  rw [yielded_eq_nil h] at hv
  cases hv

theorem Undelivered.deltasOf {tr : GatewayTrace} (h : Undelivered tr) :
    deltasOf (yielded tr) = [] := by
  unfold Service.deltasOf
  rw [List.map_eq_nil_iff, List.filter_eq_nil_iff]
  exact fun v hv => by simp [(h v hv).1]

theorem Provenance.after {tr tr' : GatewayTrace} (h : Undelivered tr) (h' : Provenance tr') :
    Provenance (tr ++ tr') where
  route := by
    intro v hv v' hv' hdelta hdelta'
    rw [yielded_append, List.mem_append] at hv hv'
    rcases hv with hv | hv
    · exact absurd hdelta (h v hv).1
    rcases hv' with hv' | hv'
    · exact absurd hdelta' (h v' hv').1
    exact h'.route v hv v' hv' hdelta hdelta'
  committed := by
    intro pre v a post htr hdelta
    rcases Prog.split_append htr with ⟨mid, rfl, -⟩ | ⟨mid, rfl, rfl⟩
    · exact absurd hdelta (h v (by simp)).1
    · exact h'.committed mid v a post rfl hdelta
  done := by
    intro pre v post htr hdone
    rw [yielded_append] at htr
    rcases Prog.split_append htr with ⟨mid, hmid, -⟩ | ⟨mid, rfl, hmid⟩
    · exact absurd hdone (h v (by simp [hmid])).2
    · obtain ⟨hpost, r, hr, hid, htext, hroute⟩ := h'.done mid v post hmid hdone
      refine ⟨hpost, r, hr, hid, by simp [htext, h.deltasOf], fun v' hv' hdelta => ?_⟩
      rcases List.mem_append.mp hv' with hv' | hv'
      · exact absurd hdelta (h v' hv').1
      · exact hroute v' hv' hdelta

theorem Provenance.of_undelivered {tr : GatewayTrace} (h : Undelivered tr) : Provenance tr where
  route := fun v hv _ _ hdelta => absurd hdelta (h v hv).1
  committed := by
    rintro pre v a post rfl hdelta
    exact absurd hdelta (h v (by simp)).1
  done := fun pre v post htr hdone => absurd hdone (h v (by simp [htr])).2

theorem Provenance.of_route {tr : GatewayTrace} (routeId : String)
    (hstarts : ∀ e ∈ tr, startsAttempt e.1 = false) (hroute : ∀ v ∈ yielded tr, v.routeId = routeId)
    (hdone : ∀ pre v post, yielded tr = pre ++ v :: post → v.type = .done → post = [] ∧
      ∃ r, v.response = some r ∧ r.routeId = routeId ∧ r.text = String.join (deltasOf pre)) :
    Provenance tr where
  route := fun v hv v' hv' _ _ => (hroute v hv).trans (hroute v' hv').symm
  committed := by
    rintro pre v a post rfl - e he
    exact hstarts e (by simp [he])
  done := by
    intro pre v post htr hd
    obtain ⟨hpost, r, hr, hid, htext⟩ := hdone pre v post htr hd
    refine ⟨hpost, r, hr, hid.trans (hroute v (by simp [htr])).symm, htext, fun v' hv' _ => ?_⟩
    exact (hroute v' (by simp [htr, hv'])).trans hid.symm

variable {svc : Service}

/-! ## Attempts -/

/-- The libraries know nothing of the errors of the gateway. -/
structure Foreign (P : Platform) : Prop where
  jsonLoads : ∀ text e, P.jsonLoads text = .error e → ∀ err, e ≠ .aegis err
  jsonschemaValidate : ∀ j schema e, P.jsonschemaValidate j schema = .error e → ∀ err, e ≠ .aegis err

theorem validateSchema_error {P : Platform} (hP : Foreign P) {q : GatewayRequest} {text : String}
    {e : PyExc} (h : P.validateSchema q text = .error e) :
    (∃ m, e = .aegis (.schemaViolation m)) ∨ ∀ err, e ≠ .aegis err := by
  unfold Platform.validateSchema at h
  split at h
  next => cases h
  next schema _ =>
    dsimp only at h
    split at h
    next => cases h
    next => exact .inl ⟨_, (Except.error.inj h).symm⟩
    next => exact .inl ⟨_, (Except.error.inj h).symm⟩
    next e' _ _ hchecked =>
      obtain rfl := Except.error.inj h
      right
      cases hl : P.jsonLoads text with
      | error e =>
        simp only [hl, bind, Except.bind, Except.error.injEq] at hchecked
        exact hchecked ▸ hP.jsonLoads text e hl
      | ok parsed =>
        cases hv : P.jsonschemaValidate parsed schema with
        | error e =>
          simp only [hl, hv, bind, Except.bind, Except.error.injEq] at hchecked
          exact hchecked ▸ hP.jsonschemaValidate parsed schema e hv
        | ok u => simp [hl, hv, bind, Except.bind, pure, Except.pure] at hchecked

/-- A provider never answers that a circuit is open: only the breakers do. -/
def ownEnding : GatewayEvent → Bool
  | ⟨.openStream _ _, script⟩ =>
    match script.ending with
    | some (.aegis (.circuitOpen _)) => false
    | _ => true
  | _ => true

theorem ending_of_own {q : GatewayRequest} {route : ModelRoute} {script : Script}
    (h : ownEnding (ev (.openStream q route) script) = true) (m : String) :
    script.ending ≠ some (.aegis (.circuitOpen m)) := by
  intro hm
  simp [ownEnding, hm] at h

theorem streamVerdict_ne (hP : Foreign svc.platform) {q : GatewayRequest} {script : Script}
    (hs : ∀ m, script.ending ≠ some (.aegis (.circuitOpen m))) {r : Relay} {e : PyExc}
    (h : svc.streamVerdict q script r = .error e) (m : String) : e ≠ .aegis (.circuitOpen m) := by
  unfold streamVerdict at h
  split at h
  next e' he =>
    cases h
    exact fun h => hs m (he.trans (congrArg some h))
  next =>
    rcases validateSchema_error hP h with ⟨m', rfl⟩ | hne
    · simp
    · exact hne _

theorem handled_quiet {α : Type} {timeout : String} {route : ModelRoute} {st : LoopState}
    {e : PyExc} {tr : GatewayTrace} {out : Except PyExc (Pass α)}
    (h : Handled timeout route st e tr out) : ∀ e ∈ tr, yieldOf e.1 = none := by
  cases h <;> simp [failureEvents, yieldOf]

theorem startsAttempt_of_settling {o : Op} (h : settling o = true) : startsAttempt o = false := by
  cases o <;> first | rfl | cases h

theorem startsAttempt_of_relaying {o : Op} (h : relaying o = true) : startsAttempt o = false := by
  cases o <;> first | rfl | cases h

theorem startsAttempt_of_bookkeeping {o : Op} (h : bookkeeping o = true) : startsAttempt o = false := by
  cases o <;> first | rfl | cases h

theorem RelayRun.textParts_yielded {x : Exchange} {route : ModelRoute}
    {es : List ProviderStreamEvent} {r r' : Relay} {tr : GatewayTrace} {left : Bool}
    (h : RelayRun x route es r tr r' left) :
    r'.textParts = r.textParts ++ deltasOf (yielded tr) := by
  induction h with
  | nil => simp [deltasOf]
  | start _ _ ih => simpa [deltasOf, streamEvent] using ih
  | startLeft => simp [deltasOf, streamEvent]
  | delta _ ht _ ih =>
    rcases ht with rfl | ⟨t, rfl⟩ <;> simp [ih, Relay.delta, deltasOf, streamEvent, yielded, yieldOf]
  | deltaLeft _ ht =>
    rcases ht with rfl | ⟨t, rfl⟩ <;> simp [Relay.delta, deltasOf, streamEvent, yielded, yieldOf]
  | usage _ _ ih => simpa [Relay.usage] using ih
  | other _ _ ih => exact ih

theorem RelayRun.emitted_iff {x : Exchange} {route : ModelRoute} {es : List ProviderStreamEvent}
    {r r' : Relay} {tr : GatewayTrace} {left : Bool} (h : RelayRun x route es r tr r' left) :
    r'.emitted = true ↔ r.emitted = true ∨ ∃ v ∈ yielded tr, v.type = .delta := by
  induction h with
  | nil => simp
  | start _ _ ih => simpa [streamEvent] using ih
  | startLeft => simp [streamEvent]
  | delta _ ht _ ih =>
    rcases ht with rfl | ⟨t, rfl⟩ <;> simp [ih, Relay.delta, streamEvent, yielded, yieldOf]
  | deltaLeft _ ht =>
    rcases ht with rfl | ⟨t, rfl⟩ <;> simp [Relay.delta, streamEvent, yielded, yieldOf]
  | usage _ _ ih => simpa [Relay.usage] using ih
  | other _ _ ih => exact ih

theorem RelayRun.quiet_of_not_emitted {x : Exchange} {route : ModelRoute}
    {es : List ProviderStreamEvent} {r : Relay} {tr : GatewayTrace} {left : Bool}
    (h : RelayRun x route es {} tr r left) (hr : r.emitted = false) : Undelivered tr := by
  intro v hv
  obtain ⟨e, he, hev⟩ := mem_yielded.mp hv
  obtain ⟨type, delta, htype, rfl⟩ := h.yields e he v hev
  refine ⟨fun hdelta => ?_, htype⟩
  have hemitted := h.emitted_iff.mpr (.inr ⟨_, hv, hdelta⟩)
  rw [hr] at hemitted
  cases hemitted

/-- An attempt of `stream`: it delivers from its route only, and if it has delivered anything it
is the last one. -/
structure PassProvenance (tr : GatewayTrace) (out : Except PyExc (Pass Unit)) : Prop where
  provenance : Provenance tr
  goesOn : ∀ p, out = .ok p → p ≠ .returned () → Undelivered tr

theorem passProvenance_of_quiet {tr : GatewayTrace} {out : Except PyExc (Pass Unit)}
    (h : Undelivered tr) : PassProvenance tr out :=
  ⟨.of_undelivered h, fun _ _ _ => h⟩

theorem Interrupted.raises {x : Exchange} {route : ModelRoute} {st : LoopState} {e : PyExc}
    {tr : GatewayTrace} {out : Except PyExc (Pass Unit)} (h : Interrupted x route st e tr out)
    (he : ∀ m, e ≠ .aegis (.circuitOpen m)) : ∃ e', out = .error e' := by
  cases h with
  | circuitOpen m => exact absurd rfl (he m)
  | _ => exact ⟨_, rfl⟩

theorem openStream_quiet (route : ModelRoute) (t : ℚ) (state : CircuitState) (q : GatewayRequest)
    (script : Script) : Undelivered (admitted route t state ++ [ev (.openStream q route) script]) :=
  undelivered_of_quiet (by simp [admitted, yieldOf])

theorem RelayRun.provenance {x : Exchange} {route : ModelRoute} {es : List ProviderStreamEvent}
    {r : Relay} {tr : GatewayTrace} {left : Bool} (h : RelayRun x route es {} tr r left)
    (tr' : GatewayTrace) (hstarts : ∀ e ∈ tr', startsAttempt e.1 = false)
    (hyields : ∀ v ∈ yielded tr', v.routeId = route.id)
    (hdone : ∀ pre v post, yielded tr' = pre ++ v :: post → v.type = .done → pre = [] ∧ post = [] ∧
      ∃ a, v.response = some a ∧ a.routeId = route.id ∧ a.text = String.join r.textParts) :
    Provenance (tr ++ tr') := by
  refine .of_route route.id ?_ ?_ ?_
  · rw [List.forall_mem_append]
    exact ⟨fun e he => startsAttempt_of_relaying (h.relaying e he), hstarts⟩
  · rw [yielded_append, List.forall_mem_append]
    refine ⟨fun v hv => ?_, hyields⟩
    obtain ⟨e, he, hev⟩ := mem_yielded.mp hv
    obtain ⟨type, delta, -, rfl⟩ := h.yields e he v hev
    rfl
  · intro pre v post htr hd
    rw [yielded_append] at htr
    rcases Prog.split_append htr with ⟨mid, hmid, -⟩ | ⟨mid, rfl, hmid⟩
    · have hv : v ∈ yielded tr := by simp [hmid]
      obtain ⟨e, he, hev⟩ := mem_yielded.mp hv
      obtain ⟨type, delta, htype, rfl⟩ := h.yields e he v hev
      exact absurd hd htype
    · obtain ⟨rfl, hpost, a, ha, hid, htext⟩ := hdone mid v post hmid hd
      refine ⟨hpost, a, ha, hid, ?_⟩
      rw [htext, h.textParts_yielded, List.append_nil]
      rfl

def finishEvents (x : Exchange) (route : ModelRoute) (response : GatewayResponse)
    (state : CircuitState) (now : ℚ) (createdAt createdAt' : Int) (consumer : Consumer) :
    GatewayTrace :=
  successEvents route state ++ (ev .monotonic now :: ev .datetimeNow createdAt ::
    (x.keepEvents response createdAt' ++
      [ev (.yieldEvent (streamEvent x route .done "" (some response))) consumer]))

theorem finishEvents_yielded (x : Exchange) (route : ModelRoute) (response : GatewayResponse)
    (state : CircuitState) (now : ℚ) (createdAt createdAt' : Int) (consumer : Consumer) :
    yielded (finishEvents x route response state now createdAt createdAt' consumer) =
      [streamEvent x route .done "" (some response)] := by
  have hsuccess : yielded (successEvents route state) = [] :=
    yielded_eq_nil (by simp [successEvents, yieldOf])
  have htimes : yielded [ev .monotonic now, ev .datetimeNow createdAt] = [] := rfl
  have hkeep : yielded (x.keepEvents response createdAt') = [] :=
    yielded_eq_nil fun e he => yieldOf_of_bookkeeping (keepEvents_bookkeeping x response _ e he)
  have hsplit : finishEvents x route response state now createdAt createdAt' consumer =
      successEvents route state ++ ([ev .monotonic now, ev .datetimeNow createdAt] ++
        (x.keepEvents response createdAt' ++
          [ev (.yieldEvent (streamEvent x route .done "" (some response))) consumer])) := rfl
  rw [hsplit, yielded_append, yielded_append, yielded_append, hsuccess, htimes, hkeep]
  rfl

theorem finishEvents_starts (x : Exchange) (route : ModelRoute) (response : GatewayResponse)
    (state : CircuitState) (now : ℚ) (createdAt createdAt' : Int) (consumer : Consumer) :
    ∀ e ∈ finishEvents x route response state now createdAt createdAt' consumer,
      startsAttempt e.1 = false := by
  have hkeep : ∀ e ∈ x.keepEvents response createdAt', startsAttempt e.1 = false :=
    fun e he => startsAttempt_of_bookkeeping (keepEvents_bookkeeping x response _ e he)
  unfold finishEvents
  simp only [List.forall_mem_append, List.forall_mem_cons]
  exact ⟨by simp [successEvents, startsAttempt], rfl, rfl, hkeep, rfl, by simp⟩

theorem StreamPassRun.provenance (hP : Foreign svc.platform) {x : Exchange} {c : RoutingCandidate}
    {route : ModelRoute} {st : LoopState} {tr : GatewayTrace} {out : Except PyExc (Pass Unit)}
    (h : svc.StreamPassRun x c route st tr out) (hown : ∀ e ∈ tr, ownEnding e = true) :
    PassProvenance tr out := by
  cases h with
  | deadline | refused => exact passProvenance_of_quiet (undelivered_of_quiet (by simp [yieldOf]))
  | unconfigured ht hr hh =>
    refine passProvenance_of_quiet (undelivered_of_quiet ?_)
    rw [List.forall_mem_append]
    exact ⟨by simp [admitted, yieldOf], handled_quiet hh⟩
  | @left _ _ _ t state script tr r ht hr hl =>
    refine ⟨?_, by simp⟩
    have hp := hl.provenance [] (by simp) (by simp) (by simp)
    rw [List.append_nil] at hp
    simpa using hp.after (openStream_quiet route t state _ script)
  | @failed _ _ _ t state script tr tr' r e _ ht hr hl he hh =>
    have hscript : ∀ m, script.ending ≠ some (.aegis (.circuitOpen m)) :=
      ending_of_own (hown _ (List.mem_append_right _ List.mem_cons_self))
    have hsettling : ∀ e ∈ tr', yieldOf e.1 = none :=
      fun e he => yieldOf_of_settling (hh.settling e he)
    have hp := hl.provenance tr'
      (fun e he => startsAttempt_of_settling (hh.settling e he))
      (by simp [yielded_eq_nil hsettling]) (by simp [yielded_eq_nil hsettling])
    have hwhole := hp.after (openStream_quiet route t state (attemptRequest x.request
      (remainingSeconds x.started x.request t)) script)
    refine ⟨by simpa using hwhole, ?_⟩
    rintro p rfl hreturned
    cases hem : r.emitted with
    | true =>
      -- With output out, each handler raises.
      rw [hem] at hh
      obtain ⟨e', he'⟩ := Interrupted.raises hh (streamVerdict_ne hP hscript he)
      cases he'
    | false =>
      -- Without any, the consumer has nothing to show for the attempt.
      have hquiet : Undelivered (tr ++ tr') := by
        intro v hv
        rw [yielded_append, yielded_eq_nil hsettling, List.append_nil] at hv
        exact hl.quiet_of_not_emitted hem v hv
      intro v hv
      apply hquiet v
      have hadmitted : yielded (admitted route t state) = [] :=
        yielded_eq_nil (by simp [admitted, yieldOf])
      rw [yielded_append, hadmitted] at hv
      exact hv
  | @succeeded _ _ _ t state state' script tr r parsed valid now createdAt createdAt' consumer
      ht hr hl hv =>
    refine ⟨?_, ?_⟩
    · generalize hresponse : streamResponse x route c st.fallbackCount r parsed valid now createdAt =
        response
      have htext : response.text = String.join r.textParts := by rw [← hresponse]; rfl
      have hid : response.routeId = route.id := by rw [← hresponse]; rfl
      have hyielded := finishEvents_yielded x route response state' now createdAt createdAt' consumer
      have hp := hl.provenance _ (finishEvents_starts x route response state' now createdAt createdAt'
        consumer) (by rw [hyielded, List.forall_mem_singleton]; rfl) ?_
      · simpa [finishEvents] using hp.after (openStream_quiet route t state (attemptRequest x.request
          (remainingSeconds x.started x.request t)) script)
      · intro pre v post hsplit hd
        rw [hyielded] at hsplit
        cases pre with
        | nil =>
          obtain ⟨rfl, rfl⟩ := List.cons.inj hsplit
          exact ⟨rfl, rfl, response, rfl, hid, htext⟩
        | cons v' pre => simp at hsplit
    · rintro p hp hreturned
      cases consumer with
      | resumes =>
        cases hp
        exact absurd rfl hreturned
      | leaves => cases hp

/-! ## The loop -/

theorem LoopRun.provenance {x : Exchange} {R : PassRel Unit}
    (hR : ∀ c route st tr out, R c route st tr out → (∀ e ∈ tr, ownEnding e = true) →
      PassProvenance tr out)
    {cs : List RoutingCandidate} {st : LoopState} {tr : GatewayTrace} {out : Except PyExc Unit}
    (h : svc.LoopRun x R cs st tr out) (hown : ∀ e ∈ tr, ownEnding e = true) : Provenance tr := by
  have hgaveUp : ∀ {st tr out}, GaveUp (α := Unit) x st tr out → Provenance tr := fun h =>
    .of_undelivered (undelivered_of_quiet fun e he => yieldOf_of_settling (h.settling e he))
  induction h with
  | exhausted h => exact hgaveUp h
  | unknown => exact .of_undelivered (undelivered_of_quiet (by simp))
  | raised hr hp | returned hr hp => exact (hR _ _ _ _ _ hp hown).provenance
  | broke hr hp h =>
    rw [List.forall_mem_append] at hown
    exact (hgaveUp h).after ((hR _ _ _ _ _ hp hown.1).goesOn _ rfl (by simp))
  | next hr hp h ih =>
    rw [List.forall_mem_append] at hown
    exact (ih hown.2).after ((hR _ _ _ _ _ hp hown.1).goesOn _ rfl (by simp))

/-! ## Answers from the cache -/

theorem StreamServedRun.provenance {x : Exchange} {hit : GatewayResponse} {tr : GatewayTrace}
    {out : Except PyExc Unit} (h : StreamServedRun x hit tr out) : Provenance tr := by
  cases h with
  | leftAtStart now =>
    refine .of_undelivered fun v hv => ?_
    obtain rfl : v = cachedEvent x (streamedHit x hit now) .start "" none := by
      simpa [yielded, hitEvent, yieldOf] using hv
    simp [cachedEvent]
  | leftAtDelta now =>
    have hyielded : yielded [ev .monotonic now,
        hitEvent x (streamedHit x hit now) .start "" none .resumes,
        hitEvent x (streamedHit x hit now) .delta (streamedHit x hit now).text none .leaves] =
          [cachedEvent x (streamedHit x hit now) .start "" none,
            cachedEvent x (streamedHit x hit now) .delta (streamedHit x hit now).text none] := rfl
    refine .of_route hit.routeId (by simp [hitEvent, startsAttempt]) ?_ ?_
    · rw [hyielded]
      simp [cachedEvent, streamedHit, Exchange.servedFromCache]
    · intro pre v post htr hdone
      rw [hyielded] at htr
      have hv : v ∈ pre ++ v :: post := by simp
      rw [← htr] at hv
      rcases List.mem_pair.mp hv with rfl | rfl <;> cases hdone
  | served now t consumer =>
    generalize hresponse : streamedHit x hit now = response
    have hid : response.routeId = hit.routeId := by rw [← hresponse]; rfl
    have hrow : ∀ e ∈ x.rowEvents response t, settling e.1 = true := by
      simp [Exchange.rowEvents, settling]
    have hlaunch : ∀ e ∈ x.launchEvents, settling e.1 = true :=
      fun e he => settling_of_task (launchEvents_tasks x e he)
    have hyielded : yielded (ev .monotonic now :: hitEvent x response .start "" none .resumes ::
        hitEvent x response .delta response.text none .resumes :: (x.rowEvents response t ++
          (x.launchEvents ++ [hitEvent x response .done "" (some response) consumer]))) =
            [cachedEvent x response .start "" none, cachedEvent x response .delta response.text none,
              cachedEvent x response .done "" (some response)] := by
      have hquiet : yielded (x.rowEvents response t) = [] ∧ yielded x.launchEvents = [] :=
        ⟨yielded_eq_nil fun e he => yieldOf_of_settling (hrow e he),
          yielded_eq_nil fun e he => yieldOf_of_settling (hlaunch e he)⟩
      have hlast : yielded (x.rowEvents response t ++ (x.launchEvents ++
          [hitEvent x response .done "" (some response) consumer])) =
            [cachedEvent x response .done "" (some response)] := by
        rw [yielded_append, yielded_append, hquiet.1, hquiet.2]
        rfl
      exact congrArg (cachedEvent x response .start "" none ::
        cachedEvent x response .delta response.text none :: ·) hlast
    refine .of_route hit.routeId ?_ ?_ ?_
    · simp only [List.forall_mem_cons, List.forall_mem_append]
      exact ⟨rfl, rfl, rfl, fun e he => startsAttempt_of_settling (hrow e he),
        fun e he => startsAttempt_of_settling (hlaunch e he), rfl, by simp⟩
    · rw [hyielded]
      simp [cachedEvent, hid]
    · intro pre v post htr hdone
      rw [hyielded] at htr
      -- The answer comes third. Neither of the events in front of it is one.
      rcases pre with _ | ⟨start, _ | ⟨delta, _ | ⟨done, pre⟩⟩⟩
      · obtain ⟨rfl, -⟩ := List.cons.inj htr
        cases hdone
      · obtain ⟨rfl, -⟩ := List.cons.inj (List.cons.inj htr).2
        cases hdone
      · simp only [List.cons_append, List.nil_append, List.cons.injEq] at htr
        obtain ⟨rfl, rfl, rfl, rfl⟩ := htr
        exact ⟨rfl, response, rfl, hid, by simp [deltasOf, cachedEvent, String.join]⟩
      · simp at htr

/-! ## Calls -/

theorem ApproachRun.quiet {args : Arguments} {tr : GatewayTrace}
    {out : Except PyExc (Exchange × Origin)} (h : svc.ApproachRun args tr out) : Undelivered tr :=
  undelivered_of_quiet fun e he => yieldOf_of_approaching (h.approaching e he)

theorem stream_provenance (hP : Foreign svc.platform) (q : GatewayRequest)
    (forced : Option String) :
    (svc.stream q forced).Leaves fun tr => (∀ e ∈ tr, ownEnding e = true) → Provenance tr := by
  apply (svc.stream_runs q forced).mono
  intro tr out h hown
  cases h with
  | stopped h => exact .of_undelivered h.quiet
  | served h hs => exact hs.provenance.after h.quiet
  | looped h hl =>
    rw [List.forall_mem_append] at hown
    exact (hl.provenance (fun _ _ _ _ _ hp => hp.provenance hP) hown.2).after h.quiet

theorem ownEnding_exists (o : Op) : ∃ a, ownEnding ⟨o, a⟩ = true := by
  cases o with
  | openStream q route => exact ⟨⟨[], none⟩, rfl⟩
  | _ => exact (ansNonempty _).elim fun a => ⟨a, rfl⟩

/-- Whatever the providers do, and wherever they stop. -/
theorem streams_provenance (hP : Foreign svc.platform) {c : State}
    (h : svc.machine.Reachable initial c) {i : Nat} {t : Task Op Ans PyExc Outcome Call}
    (ht : c.tasks[i]? = some t) {q : GatewayRequest} {forced : Option String}
    (hcall : t.call = .stream q forced) (hown : ∀ e ∈ c.trace i, ownEnding e = true) :
    Provenance (c.trace i) := by
  have hsteps := h.onTheWay.2 i t ht
  rw [hcall] at hsteps
  exact Prog.Leaves.steps_under ownEnding_exists (fun _ _ => Provenance.prefix)
    (Prog.leaves_map (stream_provenance hP q forced) fun _ => Outcome.streamed) hsteps hown

theorem sample_foreign : Foreign Sample.platform where
  jsonLoads := by
    intro text e h err
    simp only [Sample.platform] at h
    split_ifs at h
    cases h
    simp
  jsonschemaValidate := by
    intro j schema e h
    cases h

def twoDeltas : Script :=
  ⟨[⟨.start, "", none, none⟩, ⟨.delta, "hel", none, none⟩, ⟨.delta, "lo", none, none⟩,
    ⟨.done, "", none, none⟩], none⟩

def twoDeltaMoves : List (Move Input Call) :=
  .start (.stream Sample.request none) :: (Sample.goes 0 7 ++
    [.run 0 (.script twoDeltas), .run 0 (.consumer .resumes), .run 0 .go,
      .run 0 (.consumer .resumes), .run 0 (.consumer .resumes)] ++ Sample.goes 0 6 ++
    [.run 0 (.consumer .resumes)])

theorem streams_provenance_deltas : ∃ c : State, Sample.service.machine.Reachable initial c ∧
    (yielded (c.trace 0)).map (·.type) = [.start, .delta, .delta, .done] ∧
    Provenance (c.trace 0) := by
  obtain ⟨c, hm, hown, htypes⟩ : ∃ c ∈ Sample.service.machine.moves? initial twoDeltaMoves,
      (∀ e ∈ c.trace 0, ownEnding e = true) ∧
        (yielded (c.trace 0)).map (·.type) = [.start, .delta, .delta, .done] := by decide +kernel
  have hc := Machine.reachable_of_moves _ .start hm
  obtain ⟨t, ht, hcall⟩ := Machine.task_of_moves hm
  exact ⟨c, hc, htypes, streams_provenance sample_foreign hc ht hcall hown⟩

end Service

end AegisGateway
