import AegisGateway.Adapters
import AegisGateway.Lib.Monitor
import AegisGateway.Provenance

/-!
# Completed streams

The loop over the events of a provider does not look for `done`. A stream counts as
complete when it has ended without an exception and its text satisfies the schema.
-/

open Coroutine JsonText

namespace AegisGateway

namespace Service

variable {svc : Service}

/-- What tells that a stream has been a success: to the consumer, to the evidence, to the
breaker and to the cache. -/
def succeeds : Op → Bool
  | .recordSuccess _ | .cachePut _ _ _ => true
  | .recordMetric m => m.success
  | .yieldEvent v => v.type = .done
  | _ => false

def opened : GatewayEvent → Option Script
  | ⟨.openStream _ _, script⟩ => some script
  | _ => none

/-- A success follows a script that is terminal. -/
def CompletedOnly (tr : GatewayTrace) : Prop :=
  ∀ pre e mid e' post script, tr = pre ++ e :: (mid ++ e' :: post) → opened e = some script →
    (∀ e'' ∈ mid, opened e'' = none) → succeeds e'.1 = true → script.terminal = true

def lastOpened (tr : GatewayTrace) : Option Script := (tr.filterMap opened).getLast?

/-- A script that ends with an answer is terminal. -/
def conclusive (svc : Service) : GatewayEvent → Bool
  | ⟨.openStream q _, script⟩ =>
    match svc.scriptVerdict q script with
    | .ok _ => script.terminal
    | .error _ => true
  | _ => true

/-! ## Following the scripts -/

def cutOff (cut : Bool) (e : GatewayEvent) : Bool :=
  match opened e with
  | some script => !script.terminal
  | none => cut

def honest (cut : Bool) (e : GatewayEvent) : Prop := cut = true → succeeds e.1 = false

theorem foldl_cutOff {tr : GatewayTrace} (h : ∀ e ∈ tr, opened e = none) (cut : Bool) :
    tr.foldl cutOff cut = cut :=
  foldl_still fun e he => by simp [cutOff, h e he]

theorem completedOnly_of_along {cut : Bool} {tr : GatewayTrace} (h : Along cutOff honest cut tr) :
    CompletedOnly tr := by
  intro pre e mid e' post script htr he hmid hsucceeds
  have hsplit : tr = (pre ++ e :: mid) ++ e' :: post := by simp [htr]
  have hhonest := along_split h hsplit
  by_contra hterminal
  have hcut : (pre ++ e :: mid).foldl cutOff cut = true := by
    rw [List.foldl_append, List.foldl_cons, foldl_cutOff hmid]
    simp [cutOff, he, Bool.eq_false_of_not_eq_true hterminal]
  have hfails := hhonest hcut
  rw [hsucceeds] at hfails
  cases hfails

theorem along_of_failing {tr : GatewayTrace} (h : ∀ e ∈ tr, succeeds e.1 = false) (cut : Bool) :
    Along cutOff honest cut tr :=
  along_of_forall fun e he _ _ => h e he

theorem along_of_complete {tr : GatewayTrace} (h : ∀ e ∈ tr, opened e = none) :
    Along cutOff honest false tr := by
  apply (along_still_iff fun e he => by simp [cutOff, h e he]).mpr
  intro e _ hcut
  cases hcut

theorem succeeds_of_approaching {o : Op} (h : approaching o = true) : succeeds o = false := by
  cases o <;> first | rfl | cases h

theorem opened_of_approaching {e : GatewayEvent} (h : approaching e.1 = true) : opened e = none := by
  rcases e with ⟨o, a⟩
  cases o <;> first | rfl | cases h

theorem opened_of_relaying {e : GatewayEvent} (h : relaying e.1 = true) : opened e = none := by
  rcases e with ⟨o, a⟩
  cases o <;> first | rfl | cases h

theorem opened_of_bookkeeping {e : GatewayEvent} (h : bookkeeping e.1 = true) :
    opened e = none := by
  rcases e with ⟨o, a⟩
  cases o <;> first | rfl | cases h

theorem opened_of_settling {e : GatewayEvent} (h : settling e.1 = true) : opened e = none := by
  rcases e with ⟨o, a⟩
  cases o <;> first | rfl | cases h

theorem errorEvents_fail (x : Exchange) (route : ModelRoute) (error : AegisError) (n : Nat)
    (now : ℚ) (t : Int) : ∀ e ∈ x.errorEvents route error n now t, succeeds e.1 = false := by
  have htask : ∀ e ∈ x.assessEvents, succeeds e.1 = false := by
    intro e he
    obtain ⟨call, rfl⟩ := assessEvents_tasks x e he
    rfl
  simpa [Exchange.errorEvents, succeeds, Exchange.errorRow] using htask

theorem GaveUp.fails {α : Type} {x : Exchange} {st : LoopState} {tr : GatewayTrace}
    {out : Except PyExc α} (h : GaveUp x st tr out) : ∀ e ∈ tr, succeeds e.1 = false := by
  cases h with
  | unrecorded | assertion => simp
  | recorded now t => exact errorEvents_fail x _ _ _ now t

theorem Handled.fails {α : Type} {timeout : String} {route : ModelRoute} {st : LoopState}
    {e : PyExc} {tr : GatewayTrace} {out : Except PyExc (Pass α)}
    (h : Handled timeout route st e tr out) : ∀ e ∈ tr, succeeds e.1 = false := by
  cases h <;> simp [failureEvents, succeeds]

theorem StreamHandled.fails {x : Exchange} {route : ModelRoute} {st : LoopState} {emitted : Bool}
    {e : PyExc} {tr : GatewayTrace} {out : Except PyExc (Pass Unit)}
    (h : StreamHandled x route st emitted e tr out) : ∀ e ∈ tr, succeeds e.1 = false := by
  cases emitted with
  | false => exact Handled.fails h
  | true =>
    have h : Interrupted x route st e tr out := h
    cases h with
    | schemaViolation m now t => exact errorEvents_fail x route _ _ now t
    | circuitOpen => simp [succeeds]
    | timeout state now t | provider e state now t =>
      simpa [failureEvents, succeeds] using errorEvents_fail x route _ _ now t
    | unhandled => simp

theorem RelayRun.fails {x : Exchange} {route : ModelRoute} {es : List ProviderStreamEvent}
    {r r' : Relay} {tr : GatewayTrace} {left : Bool} (h : RelayRun x route es r tr r' left) :
    ∀ e ∈ tr, succeeds e.1 = false := by
  intro e he
  have hrelaying := h.relaying e he
  have hyields := h.yields e he
  rcases e with ⟨o, a⟩
  cases o with
  | yieldEvent v =>
    obtain ⟨type, delta, htype, rfl⟩ := hyields v rfl
    exact decide_eq_false htype
  | _ => first | rfl | cases hrelaying

/-! ## Attempts -/

theorem RelayRun.conclusive_eq {x : Exchange} {route' : ModelRoute} {script : Script}
    {r : Relay} {tr : GatewayTrace} (h : RelayRun x route' script.events {} tr r false)
    {v : Json × Option Bool} (hv : svc.streamVerdict x.request script r = .ok v)
    (route : ModelRoute) {remaining : ℚ} :
    svc.conclusive (ev (.openStream (attemptRequest x.request remaining) route) script) =
      script.terminal := by
  have hverdict : svc.scriptVerdict (attemptRequest x.request remaining) script = .ok v := by
    rw [← h.verdict]
    exact hv
  simp [conclusive, hverdict]

theorem StreamPassRun.along {x : Exchange} {c : RoutingCandidate} {route : ModelRoute}
    {st : LoopState} {tr : GatewayTrace} {out : Except PyExc (Pass Unit)}
    (h : svc.StreamPassRun x c route st tr out) (hc : ∀ e ∈ tr, svc.conclusive e = true)
    (cut : Bool) : Along cutOff honest cut tr := by
  have hadmitted : ∀ t state, ∀ e ∈ admitted route t state, succeeds e.1 = false := by
    simp [admitted, succeeds]
  cases h with
  | deadline | refused => exact along_of_failing (by simp [succeeds]) cut
  | unconfigured ht hr hh =>
    refine along_of_failing ?_ cut
    rw [List.forall_mem_append]
    exact ⟨hadmitted _ _, hh.fails⟩
  | left ht hr hl =>
    refine along_of_failing ?_ cut
    simp only [List.forall_mem_append, List.forall_mem_cons]
    exact ⟨hadmitted _ _, rfl, hl.fails⟩
  | failed ht hr hl he hh =>
    refine along_of_failing ?_ cut
    simp only [List.forall_mem_append, List.forall_mem_cons]
    exact ⟨hadmitted _ _, rfl, hl.fails, hh.fails⟩
  | @succeeded _ _ _ t state state' script tr r parsed valid now createdAt createdAt' consumer
      ht hr hl hv =>
    have hterminal : script.terminal = true := by
      rw [← hl.conclusive_eq hv route]
      exact hc _ (List.mem_append_right _ List.mem_cons_self)
    rw [along_append, along_cons]
    refine ⟨along_of_failing (hadmitted _ _) cut, fun _ => rfl, ?_⟩
    have hstate : ∀ cut, cutOff cut (ev (.openStream (attemptRequest x.request
        (remainingSeconds x.started x.request t)) route) script) = false := by
      simp [cutOff, opened, hterminal]
    rw [hstate]
    apply along_of_complete
    simp only [List.forall_mem_append, List.forall_mem_cons]
    exact ⟨fun e he => opened_of_relaying (hl.relaying e he), by simp [successEvents, opened], rfl,
      rfl, fun e he => opened_of_bookkeeping (keepEvents_bookkeeping x _ _ e he), rfl, by simp⟩

theorem LoopRun.along {x : Exchange} {cs : List RoutingCandidate} {st : LoopState}
    {tr : GatewayTrace} {out : Except PyExc Unit}
    (h : svc.LoopRun x (svc.StreamPassRun x) cs st tr out)
    (hc : ∀ e ∈ tr, svc.conclusive e = true) (cut : Bool) : Along cutOff honest cut tr := by
  induction h generalizing cut with
  | exhausted h => exact along_of_failing h.fails cut
  | unknown => trivial
  | raised hr hp | returned hr hp => exact hp.along hc cut
  | broke hr hp h =>
    rw [List.forall_mem_append] at hc
    rw [along_append]
    exact ⟨hp.along hc.1 cut, along_of_failing h.fails _⟩
  | next hr hp h ih =>
    rw [List.forall_mem_append] at hc
    rw [along_append]
    exact ⟨hp.along hc.1 cut, ih hc.2 _⟩

theorem StreamServedRun.opened {x : Exchange} {hit : GatewayResponse} {tr : GatewayTrace}
    {out : Except PyExc Unit} (h : StreamServedRun x hit tr out) : ∀ e ∈ tr, opened e = none := by
  cases h with
  | leftAtStart now | leftAtDelta now => simp [hitEvent, Service.opened]
  | served now t consumer =>
    have hrow : ∀ e ∈ x.rowEvents (streamedHit x hit now) t, Service.opened e = none := by
      simp [Exchange.rowEvents, Service.opened]
    have hlaunch : ∀ e ∈ x.launchEvents, Service.opened e = none :=
      fun e he => opened_of_settling (settling_of_task (launchEvents_tasks x e he))
    simp only [List.forall_mem_cons, List.forall_mem_append]
    exact ⟨rfl, rfl, rfl, hrow, hlaunch, rfl, by simp⟩

theorem stream_along (q : GatewayRequest) (forced : Option String) :
    (svc.stream q forced).Leaves fun tr =>
      (∀ e ∈ tr, svc.conclusive e = true) → Along cutOff honest false tr := by
  apply (svc.stream_runs q forced).mono
  intro tr out h hc
  cases h with
  | stopped h => exact along_of_failing (fun e he => succeeds_of_approaching (h.approaching e he)) _
  | served h hs =>
    refine along_of_complete (List.forall_mem_append.mpr ⟨fun e he => ?_, hs.opened⟩)
    exact opened_of_approaching (h.approaching e he)
  | looped h hl =>
    rw [List.forall_mem_append] at hc
    rw [along_append]
    exact ⟨along_of_failing (fun e he => succeeds_of_approaching (h.approaching e he)) _,
      hl.along hc.2 _⟩

/-! ## Complete runs -/

theorem CompletedOnly.append {tr tr' : GatewayTrace} (h : CompletedOnly (tr ++ tr')) :
    CompletedOnly tr ∧ CompletedOnly tr' := by
  refine ⟨fun pre e mid e' post script htr => ?_, fun pre e mid e' post script htr => ?_⟩
  · exact h pre e mid e' (post ++ tr') script (by simp [htr])
  · exact h (tr ++ pre) e mid e' post script (by simp [htr])

theorem conclusive_of_opened {e : GatewayEvent} (h : opened e = none) :
    svc.conclusive e = true := by
  rcases e with ⟨o, a⟩
  cases o <;> first | rfl | cases h

theorem conclusive_of_error {q : GatewayRequest} {route : ModelRoute} {script : Script} {e : PyExc}
    (h : svc.scriptVerdict q script = .error e) :
    svc.conclusive (ev (.openStream q route) script) = true := by
  simp [conclusive, h]

/-- The consumer has followed the stream. -/
def Followed (tr : GatewayTrace) : Prop := ∀ v, ev (.yieldEvent v) .leaves ∉ tr

theorem StreamPassRun.conclusive {x : Exchange} {c : RoutingCandidate} {route : ModelRoute}
    {st : LoopState} {tr : GatewayTrace} {out : Except PyExc (Pass Unit)}
    (h : svc.StreamPassRun x c route st tr out) (hf : Followed tr) (hc : CompletedOnly tr) :
    ∀ e ∈ tr, svc.conclusive e = true := by
  have hadmitted : ∀ t state, ∀ e ∈ admitted route t state, svc.conclusive e = true := by
    simp [admitted, Service.conclusive]
  have hrelay : ∀ {es r r' tr left}, RelayRun x route es r tr r' left →
      ∀ e ∈ tr, svc.conclusive e = true :=
    fun h e he => conclusive_of_opened (opened_of_relaying (h.relaying e he))
  have hsettling : ∀ {tr : GatewayTrace}, (∀ e ∈ tr, settling e.1 = true) →
      ∀ e ∈ tr, svc.conclusive e = true :=
    fun h e he => conclusive_of_opened (opened_of_settling (h e he))
  cases h with
  | deadline | refused => simp [Service.conclusive]
  | unconfigured ht hr hh =>
    rw [List.forall_mem_append]
    exact ⟨hadmitted _ _, hsettling hh.settling⟩
  | left ht hr hl =>
    obtain ⟨v, hv⟩ := hl.leaves.mp rfl
    exact absurd hv fun hv => hf v (by simp [hv])
  | failed ht hr hl he hh =>
    have hverdict : svc.streamVerdict x.request _ _ = _ := hl.verdict x.request
    rw [he] at hverdict
    simp only [List.forall_mem_append, List.forall_mem_cons]
    exact ⟨hadmitted _ _, conclusive_of_error hverdict.symm, hrelay hl, hsettling hh.settling⟩
  | @succeeded _ _ _ t state state' script tr r parsed valid now createdAt createdAt' consumer
      ht hr hl hv =>
    -- The report to the breaker is the first thing that follows the script.
    have hterminal : script.terminal = true :=
      hc (admitted route t state) _ tr (ev (.recordSuccess route.id) state') _ script rfl rfl
        (fun e he => opened_of_relaying (hl.relaying e he)) rfl
    have hscript : svc.conclusive (ev (.openStream (attemptRequest x.request
        (remainingSeconds x.started x.request t)) route) script) = true := by
      rw [hl.conclusive_eq hv]
      exact hterminal
    simp only [List.forall_mem_append, List.forall_mem_cons]
    exact ⟨hadmitted _ _, hscript, hrelay hl, by simp [successEvents, Service.conclusive], rfl, rfl,
      fun e he => conclusive_of_opened (opened_of_bookkeeping (keepEvents_bookkeeping x _ _ e he)),
      rfl, by simp⟩

theorem LoopRun.conclusive {x : Exchange} {cs : List RoutingCandidate} {st : LoopState}
    {tr : GatewayTrace} {out : Except PyExc Unit}
    (h : svc.LoopRun x (svc.StreamPassRun x) cs st tr out) (hf : Followed tr)
    (hc : CompletedOnly tr) : ∀ e ∈ tr, svc.conclusive e = true := by
  have hgaveUp : ∀ {st tr out}, GaveUp (α := Unit) x st tr out →
      ∀ e ∈ tr, svc.conclusive e = true :=
    fun h e he => conclusive_of_opened (opened_of_settling (h.settling e he))
  induction h with
  | exhausted h => exact hgaveUp h
  | unknown => simp
  | raised hr hp | returned hr hp => exact hp.conclusive hf hc
  | broke hr hp h =>
    rw [List.forall_mem_append]
    exact ⟨hp.conclusive (fun v hv => hf v (by simp [hv])) hc.append.1, hgaveUp h⟩
  | next hr hp h ih =>
    rw [List.forall_mem_append]
    exact ⟨hp.conclusive (fun v hv => hf v (by simp [hv])) hc.append.1,
      ih (fun v hv => hf v (by simp [hv])) hc.append.2⟩

theorem stream_conclusive (q : GatewayRequest) (forced : Option String) :
    (svc.stream q forced).Leaves fun tr =>
      Followed tr → CompletedOnly tr → ∀ e ∈ tr, svc.conclusive e = true := by
  apply (svc.stream_runs q forced).mono
  intro tr out h hf hc
  have happroach : ∀ {tr out}, svc.ApproachRun { request := q, forcedRouteId := forced } tr out →
      ∀ e ∈ tr, svc.conclusive e = true :=
    fun h e he => conclusive_of_opened (opened_of_approaching (h.approaching e he))
  cases h with
  | stopped h => exact happroach h
  | served h hs =>
    rw [List.forall_mem_append]
    exact ⟨happroach h, fun e he => conclusive_of_opened (hs.opened e he)⟩
  | looped h hl =>
    rw [List.forall_mem_append]
    exact ⟨happroach h, hl.conclusive (fun v hv => hf v (by simp [hv])) hc.append.2⟩

theorem finishEvents_opened (x : Exchange) (route : ModelRoute) (response : GatewayResponse)
    (state : CircuitState) (now : ℚ) (createdAt createdAt' : Int) (consumer : Consumer) :
    ∀ e ∈ finishEvents x route response state now createdAt createdAt' consumer,
      opened e = none := by
  unfold finishEvents
  simp only [List.forall_mem_append, List.forall_mem_cons]
  exact ⟨by simp [successEvents, opened], rfl, rfl,
    fun e he => opened_of_bookkeeping (keepEvents_bookkeeping x response _ e he), rfl, by simp⟩

theorem StreamHandled.not_returned {x : Exchange} {route : ModelRoute} {st : LoopState}
    {emitted : Bool} {e : PyExc} {tr : GatewayTrace} {out : Except PyExc (Pass Unit)}
    (h : StreamHandled x route st emitted e tr out) : out ≠ .ok (.returned ()) := by
  rintro rfl
  cases emitted with
  | true =>
    have h : Interrupted x route st e tr (.ok (.returned ())) := h
    cases h
  | false =>
    have h : Handled streamTimeout route st e tr (.ok (.returned ())) := h
    cases h

theorem lastOpened_append (tr : GatewayTrace) {e : GatewayEvent} {script : Script}
    (he : opened e = some script) {tr' : GatewayTrace} (h : ∀ e ∈ tr', opened e = none) :
    lastOpened (tr ++ e :: tr') = some script := by
  have hrest : tr'.filterMap opened = [] := List.filterMap_eq_nil_iff.mpr h
  rw [lastOpened, List.filterMap_append, List.filterMap_cons_some he, hrest]
  simp

theorem StreamPassRun.lastOpened {x : Exchange} {c : RoutingCandidate} {route : ModelRoute}
    {st : LoopState} {tr' : GatewayTrace} {out : Except PyExc (Pass Unit)}
    (h : svc.StreamPassRun x c route st tr' out) (hout : out = .ok (.returned ()))
    (hc : ∀ e ∈ tr', svc.conclusive e = true) {script : Script} (tr : GatewayTrace)
    (hlast : lastOpened (tr ++ tr') = some script) : script.terminal = true := by
  cases h with
  | deadline | refused | left => cases hout
  | unconfigured _ _ hh => cases hh <;> cases hout
  | failed _ _ _ _ hh => exact absurd hout hh.not_returned
  | @succeeded _ _ _ t state state' script' tr'' r parsed valid now createdAt createdAt' consumer
      ht hr hl hv =>
    have hterminal : script'.terminal = true := by
      rw [← hl.conclusive_eq hv route]
      exact hc _ (List.mem_append_right _ List.mem_cons_self)
    have hfinish := finishEvents_opened x route (streamResponse x route c st.fallbackCount r parsed
      valid now createdAt) state' now createdAt createdAt' consumer
    have hrest := List.forall_mem_append.mpr
      ⟨fun e he => opened_of_relaying (hl.relaying e he), hfinish⟩
    have hopened := lastOpened_append (tr ++ admitted route t state) (e := ev (.openStream
      (attemptRequest x.request (remainingSeconds x.started x.request t)) route) script') rfl hrest
    rw [List.append_assoc] at hopened
    obtain rfl := Option.some.inj (hlast.symm.trans hopened)
    exact hterminal

/-- A stream that ends well ends with a terminal script, if it has opened any. -/
theorem stream_lastOpened (q : GatewayRequest) (forced : Option String) :
    (svc.stream q forced).AllRuns fun tr out => (∀ e ∈ tr, svc.conclusive e = true) →
      out = .ok () → ∀ script, lastOpened tr = some script → script.terminal = true := by
  apply (svc.stream_runs q forced).mono
  intro tr out h hc hout script hlast
  have hnone : ∀ {tr : GatewayTrace}, (∀ e ∈ tr, opened e = none) → tr.filterMap opened = [] :=
    fun h => List.filterMap_eq_nil_iff.mpr h
  cases h with
  | stopped h => cases hout
  | served h hs =>
    rw [lastOpened, hnone (List.forall_mem_append.mpr
      ⟨fun e he => opened_of_approaching (h.approaching e he), hs.opened⟩)] at hlast
    cases hlast
  | looped h hl =>
    subst hout
    obtain ⟨c, -, route, st, tr₀, tr', -, rfl, hp⟩ := hl.returns
    exact hp.lastOpened rfl (fun e he => hc e (by simp [he])) (_ ++ tr₀) (by simpa using hlast)

theorem conclusive_exists (o : Op) : ∃ a, svc.conclusive ⟨o, a⟩ = true := by
  cases o with
  | openStream q route => exact ⟨⟨[], some .timeoutError⟩, rfl⟩
  | _ => exact (ansNonempty _).elim fun a => ⟨a, rfl⟩

/-- How an attempt leaves the loop when its stream has been cut off: the call breaks off if the
consumer has seen a delta, and else the loop goes on, unless no handler knows the exception. -/
def CutShort (tr : GatewayTrace) (out : Except PyExc (Pass Unit)) : Prop :=
  ((∃ v ∈ yielded tr, v.type = .delta) → ∃ e, out = .error e) ∧
  ((∀ v ∈ yielded tr, v.type ≠ .delta) →
    (∃ st, out = .ok (.next st) ∨ out = .ok (.broke st)) ∨ ∃ e, e.handled = false ∧ out = .error e)

theorem Handled.goesOn {timeout : String} {route : ModelRoute} {st : LoopState} {e : PyExc}
    {tr : GatewayTrace} {out : Except PyExc (Pass Unit)} (h : Handled timeout route st e tr out) :
    (∃ st, out = .ok (.next st) ∨ out = .ok (.broke st)) ∨
      ∃ e, e.handled = false ∧ out = .error e := by
  cases h with
  | unhandled he => exact .inr ⟨e, he, rfl⟩
  | invalidRequest => exact .inl ⟨_, .inr rfl⟩
  | _ => exact .inl ⟨_, .inl rfl⟩

theorem StreamPassRun.cutShort (hP : Foreign svc.platform) {x : Exchange} {c : RoutingCandidate}
    {route : ModelRoute} {st : LoopState} {tr : GatewayTrace} {out : Except PyExc (Pass Unit)}
    (h : svc.StreamPassRun x c route st tr out) (hf : Followed tr)
    (hown : ∀ e ∈ tr, ownEnding e = true) (hc : ∀ e ∈ tr, svc.conclusive e = true)
    {e : GatewayEvent} (he : e ∈ tr) {script : Script} (hopened : opened e = some script)
    (hcut : script.terminal = false) : CutShort tr out := by
  have hadmitted : ∀ t state, ∀ e ∈ admitted route t state, opened e = none := by
    simp [admitted, opened]
  have hno : ∀ {tr : GatewayTrace}, (∀ e ∈ tr, opened e = none) → e ∉ tr := by
    intro tr hnone hmem
    rw [hnone e hmem] at hopened
    cases hopened
  cases h with
  | deadline | refused => exact absurd he (hno (by simp [opened]))
  | unconfigured ht hr hh =>
    refine absurd he (hno (List.forall_mem_append.mpr ⟨hadmitted _ _, fun e he => ?_⟩))
    exact opened_of_settling (hh.settling e he)
  | left ht hr hl =>
    obtain ⟨v, hv⟩ := hl.leaves.mp rfl
    exact absurd hv fun hv => hf v (by simp [hv])
  | @failed _ _ _ t state script' tr tr' r e' _ ht hr hl hverdict hh =>
    have hquiet : yielded tr' = [] :=
      yielded_eq_nil fun e he => yieldOf_of_settling (hh.settling e he)
    have hstart : yielded (admitted route t state) = [] :=
      yielded_eq_nil (by simp [admitted, yieldOf])
    have hyielded : yielded (admitted route t state ++ ev (.openStream (attemptRequest x.request
        (remainingSeconds x.started x.request t)) route) script' :: (tr ++ tr')) = yielded tr := by
      rw [yielded_append, hstart]
      change yielded (tr ++ tr') = _
      rw [yielded_append, hquiet, List.append_nil]
    unfold CutShort
    rw [hyielded]
    have hemitted := hl.emitted_iff
    cases hem : r.emitted with
    | true =>
      have hown' := ending_of_own (hown _ (List.mem_append_right _ List.mem_cons_self))
      rw [hem] at hh
      refine ⟨fun _ => Interrupted.raises hh (streamVerdict_ne hP hown' hverdict), fun hnone => ?_⟩
      obtain ⟨v, hv, hdelta⟩ := (hemitted.mp hem).resolve_left (by simp)
      exact absurd hdelta (hnone v hv)
    | false =>
      rw [hem] at hh
      refine ⟨fun hdelta => ?_, fun _ => Handled.goesOn hh⟩
      have htrue := hemitted.mpr (.inr hdelta)
      rw [hem] at htrue
      cases htrue
  | @succeeded _ _ _ t state state' script' tr r parsed valid now createdAt createdAt' consumer
      ht hr hl hv =>
    -- Only a terminal script is taken for an answer.
    have hterminal : script'.terminal = true := by
      rw [← hl.conclusive_eq hv route]
      exact hc _ (List.mem_append_right _ List.mem_cons_self)
    have hfinish := finishEvents_opened x route (streamResponse x route c st.fallbackCount r parsed
      valid now createdAt) state' now createdAt createdAt' consumer
    rcases List.mem_append.mp he with he | he
    · exact absurd he (hno (hadmitted _ _))
    rcases List.mem_cons.mp he with rfl | he
    · obtain rfl : script' = script := Option.some.inj hopened
      rw [hterminal] at hcut
      cases hcut
    · refine absurd he (hno (List.forall_mem_append.mpr ⟨fun e he => ?_, hfinish⟩))
      exact opened_of_relaying (hl.relaying e he)

/-- In every reachable state: as long as each script that ends with an answer is terminal, only
terminal scripts count as complete, so the stream of an adapter only with the last event of its
protocol, and the others are failures. Of a call that is over, with a consumer that has stayed,
the converse holds too. -/
theorem streams_complete (hP : Foreign svc.platform) {c : State}
    (h : svc.machine.Reachable initial c) {i : Nat} {t : Task Op Ans PyExc Outcome Call}
    (ht : c.tasks[i]? = some t) {q : GatewayRequest} {forced : Option String}
    (hcall : t.call = .stream q forced) :
    ((∀ e ∈ c.trace i, svc.conclusive e = true) →
      CompletedOnly (c.trace i) ∧ (t.rest = .pure .streamed →
        ∀ script, lastOpened (c.trace i) = some script →
          script.terminal = true ∧ LastRead svc.platform script)) ∧
    (t.rest.ended = true → Followed (c.trace i) →
      (CompletedOnly (c.trace i) ↔ ∀ e ∈ c.trace i, svc.conclusive e = true)) ∧
    ∀ x candidate route st, (svc.streamPass x candidate route st).AllRuns fun tr out =>
      Followed tr → (∀ e ∈ tr, ownEnding e = true) → (∀ e ∈ tr, svc.conclusive e = true) →
        ∀ e ∈ tr, ∀ script, opened e = some script → script.terminal = false →
          CutShort tr out := by
  obtain ⟨call, rest⟩ := t
  obtain rfl : call = .stream q forced := hcall
  have hsteps := h.onTheWay.2 i _ ht
  have honly : (∀ e ∈ c.trace i, svc.conclusive e = true) → CompletedOnly (c.trace i) := fun hc =>
    completedOnly_of_along (Prog.Leaves.steps_under conclusive_exists
      (fun tr tr' h => ((along_append false tr tr').mp h).1)
      (Prog.leaves_map (stream_along q forced) fun _ => Outcome.streamed) hsteps hc)
  refine ⟨fun hc => ⟨honly hc, fun hrest script hlast => ?_⟩, fun hended hf =>
    ⟨fun hcompleted => ?_, honly⟩, fun x candidate route st => ?_⟩
  · obtain rfl : rest = .pure .streamed := hrest
    have hall := (Prog.allRuns_map _ (fun _ => Outcome.streamed)
      fun tr out => (∀ e ∈ tr, svc.conclusive e = true) → out = .ok .streamed →
        ∀ script, lastOpened tr = some script → script.terminal = true).mpr
      ((stream_lastOpened q forced).mono fun tr out hl hc hout => hl hc (by
        cases out with
        | error e => cases hout
        | ok u => rfl))
    have hrun : Prog.Run (svc.body _) _ (.ok .streamed) := h.finished ht
    have hterminal := hall.run hrun hc rfl script hlast
    exact ⟨hterminal, lastRead_of_terminal hterminal⟩
  · obtain ⟨out, rfl⟩ := Prog.eq_ofExcept_of_ended hended
    have hall : (svc.body (.stream q forced)).Leaves _ :=
      Prog.leaves_map (stream_conclusive q forced) fun _ => Outcome.streamed
    exact Prog.AllRuns.run hall (h.finished ht) hf hcompleted
  · exact (svc.streamPass_runs x candidate route st).mono fun tr out hp hf hown hc e he script
      hopened hcut => hp.cutShort hP hf hown hc he hopened hcut

theorem streams_complete_deltas : ∃ c : State, Sample.service.machine.Reachable initial c ∧
    (yielded (c.trace 0)).map (·.type) = [.start, .delta, .delta, .done] ∧
    CompletedOnly (c.trace 0) := by
  obtain ⟨c, hm, hc, htypes⟩ : ∃ c ∈ Sample.service.machine.moves? initial twoDeltaMoves,
      (∀ e ∈ c.trace 0, Sample.service.conclusive e = true) ∧
        (yielded (c.trace 0)).map (·.type) = [.start, .delta, .delta, .done] := by decide +kernel
  have hreach := Machine.reachable_of_moves _ .start hm
  obtain ⟨t, ht, hcall⟩ := Machine.task_of_moves hm
  exact ⟨c, hreach, htypes, ((streams_complete sample_foreign hreach ht hcall).1 hc).1⟩

/-! ## Streams of the adapters -/

theorem adapterScript_own {provider : String}
    {body : Wire → List ProviderStreamEvent × Option AdapterExc} {w : Except AdapterExc Wire}
    (q : GatewayRequest) (route : ModelRoute) :
    ownEnding (ev (.openStream q route) (adapterScript provider body w)) = true := by
  cases h : (adapterScript provider body w).ending with
  | none => simp [ownEnding, h]
  | some e =>
    obtain ⟨err, rfl⟩ := adapterScript_ending h
    simp [ownEnding, h]

/-! ## Two runs -/

def deltaPayload : String := "\x7b\"type\": \"response.output_text.delta\", \"delta\": \"hel\"\x7d"

def wirePlatform : Platform :=
  { Sample.platform with
    jsonLoads := fun text =>
      if text = deltaPayload then
        .ok (.obj [("type", .str "response.output_text.delta"), ("delta", .str "hel")])
      else Sample.platform.jsonLoads text }

def wireService : Service := { Sample.service with platform := wirePlatform }

def wireConversions : Conversions where
  str
    | .str s => s
    | _ => ""
  int
    | .int n => .ok n
    | _ => .error .unexpected

def truncatedScript : Script :=
  openaiStream wirePlatform wireConversions (.ok { lines := ["data: " ++ deltaPayload, ""] })

def truncatedMoves : List (Move Input Call) :=
  .start (.stream { Sample.request with cacheMode := .default } none) :: (Sample.goes 0 8 ++
    [.run 0 (.script truncatedScript), .run 0 (.consumer .resumes), .run 0 .go,
      .run 0 (.consumer .resumes)] ++ Sample.goes 0 7 ++ [.run 0 (.consumer .resumes)])

/-- Half an answer is reported to the breaker, recorded, cached and handed out as a whole one. -/
theorem truncated_completes : ∃ c : State, wireService.machine.Reachable initial c ∧
    ((c.trace 0).filterMap opened).map Script.terminal = [false] ∧
    (∃ e ∈ c.trace 0, (match e.1 with | .recordSuccess _ => true | _ => false) = true) ∧
    c.world.database.requestMetrics.map (·.success) = [true] ∧
    c.world.cache.entries.map (·.2.response.text) = ["hel"] ∧
    (yielded (c.trace 0)).map (·.type) = [.start, .delta, .done] := by
  obtain ⟨c, hm, hd⟩ : ∃ c ∈ wireService.machine.moves? initial truncatedMoves,
      ((c.trace 0).filterMap opened).map Script.terminal = [false] ∧
      (∃ e ∈ c.trace 0, (match e.1 with | .recordSuccess _ => true | _ => false) = true) ∧
      c.world.database.requestMetrics.map (·.success) = [true] ∧
      c.world.cache.entries.map (·.2.response.text) = ["hel"] ∧
      (yielded (c.trace 0)).map (·.type) = [.start, .delta, .done] := by decide +kernel
  exact ⟨c, Machine.reachable_of_moves _ .start hm, hd⟩

end Service

end AegisGateway
