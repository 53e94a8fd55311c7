import AegisGateway.Completion
import AegisGateway.Exchanges

/-!
# Evidence

A call that has found an answer or a route writes one row when it ends: the row of its
response, or that of its error. An exception without a handler leaves it without a row.
-/

open Coroutine JsonText

namespace AegisGateway

namespace Service

variable {svc : Service}

/-! ## Rows -/

def rowOf : Op → Option RequestMetric
  | .recordMetric m => some m
  | _ => none

def rows (tr : GatewayTrace) : List RequestMetric := tr.filterMap fun e => rowOf e.1

@[simp]
theorem rows_append (tr tr' : GatewayTrace) : rows (tr ++ tr') = rows tr ++ rows tr' :=
  List.filterMap_append

theorem rows_eq_nil {tr : GatewayTrace} (h : ∀ e ∈ tr, rowOf e.1 = none) : rows tr = [] :=
  List.filterMap_eq_nil_iff.mpr h

theorem rowOf_of_approaching {o : Op} (h : approaching o = true) : rowOf o = none := by
  cases o <;> first | rfl | cases h

theorem rowOf_of_relaying {o : Op} (h : relaying o = true) : rowOf o = none := by
  cases o <;> first | rfl | cases h

theorem rowOf_of_task {e : GatewayEvent} (h : ∃ call, e = ev (.createTask call) ()) :
    rowOf e.1 = none := by
  obtain ⟨call, rfl⟩ := h
  rfl

theorem rows_errorEvents (x : Exchange) (route : ModelRoute) (error : AegisError) (n : Nat)
    (now : ℚ) (t : Int) : rows (x.errorEvents route error n now t) =
      [x.errorRow route error n ((now - x.started) * 1000) t] := by
  have hassess : rows x.assessEvents = [] :=
    rows_eq_nil fun e he => rowOf_of_task (assessEvents_tasks x e he)
  rw [Exchange.errorEvents, rows_append, hassess]
  rfl

theorem rows_rowEvents (x : Exchange) (response : GatewayResponse) (t : Int) :
    rows (x.rowEvents response t) = [x.responseRow response t] := rfl

theorem rows_launchEvents (x : Exchange) : rows x.launchEvents = [] :=
  rows_eq_nil fun e he => rowOf_of_task (launchEvents_tasks x e he)

theorem rows_keepEvents {x : Exchange} (hx : x.evaluation = false) (response : GatewayResponse)
    (t : Int) : rows (x.keepEvents response t) = [x.responseRow response t] := by
  have hput : rows (x.putEvents response) = [] := by
    apply rows_eq_nil
    unfold Exchange.putEvents
    split_ifs <;> simp [rowOf]
  have hrow : rows (if x.evaluation then [] else x.rowEvents response t) =
      [x.responseRow response t] := by
    simp [hx, rows_rowEvents]
  rw [Exchange.keepEvents, rows_append, rows_append, hput, rows_launchEvents, hrow]
  rfl

theorem rows_admitted (route : ModelRoute) (t : ℚ) (state : CircuitState) :
    rows (admitted route t state) = [] := rfl

theorem rows_successEvents (route : ModelRoute) (state : CircuitState) :
    rows (successEvents route state) = [] := rfl

theorem rows_failureEvents (route : ModelRoute) (state : CircuitState) :
    rows (failureEvents route state) = [] := rfl

theorem rows_handled {α : Type} {timeout : String} {route : ModelRoute} {st : LoopState}
    {e : PyExc} {tr : GatewayTrace} {out : Except PyExc (Pass α)}
    (h : Handled timeout route st e tr out) : rows tr = [] := by
  cases h <;> rfl

/-! ## What a call leaves behind -/

def Evidenced {α : Type} (tr : GatewayTrace) : Except PyExc α → Prop
  | .ok _ => ∃ row, rows tr = [row] ∧ row.success = true ∧ row.errorCode = none
  | .error e => ∃ err row, e = .aegis err ∧ rows tr = [row] ∧ row.success = false ∧
      row.errorCode = some err.code

theorem Evidenced.after {α : Type} {tr tr' : GatewayTrace} {out : Except PyExc α}
    (h : Evidenced tr' out) (htr : rows tr = []) : Evidenced (tr ++ tr') out := by
  cases out with
  | ok a =>
    obtain ⟨row, hrow, hs⟩ := h
    exact ⟨row, by rw [rows_append, htr, hrow]; rfl, hs⟩
  | error e =>
    obtain ⟨err, row, he, hrow, hs⟩ := h
    exact ⟨err, row, he, by rw [rows_append, htr, hrow]; rfl, hs⟩

theorem Evidenced.rows_ne_nil {α : Type} {tr : GatewayTrace} {out : Except PyExc α}
    (h : Evidenced tr out) : rows tr ≠ [] := by
  cases out with
  | ok a =>
    obtain ⟨row, hrow, -⟩ := h
    simp [hrow]
  | error e =>
    obtain ⟨err, row, -, hrow, -⟩ := h
    simp [hrow]

/-- An answer of a provider that some branch of the loop is for. -/
def expected (svc : Service) : GatewayEvent → Bool
  | ⟨.complete q _, a⟩ =>
    match svc.judge q a with
    | .ok _ => true
    | .error e => e.handled
  | ⟨.openStream q _, script⟩ =>
    match svc.scriptVerdict q script with
    | .ok _ => true
    | .error e => e.handled
  | _ => true

/-- A price is multiplied by the count as a float, which raises `OverflowError` from here on. -/
def countable (tokens : Nat) : Bool := tokens < 2 ^ 1024 - 2 ^ 970

/-- An answer that is accepted comes with counts that a cost can be computed from. The costs of the
model are exact and know no such bound. -/
def counted (svc : Service) : GatewayEvent → Bool
  | ⟨.complete q _, a⟩ =>
    match svc.judge q a with
    | .ok (result, _) => countable result.inputTokens && countable result.outputTokens
    | .error _ => true
  | ⟨.openStream q _, script⟩ =>
    match svc.scriptVerdict q script with
    | .ok _ => countable (lastUsage script.events).1 && countable (lastUsage script.events).2
    | .error _ => true
  | _ => true

def callVerdict (svc : Service) : GatewayEvent → Option (Except PyExc Unit)
  | ⟨.complete q _, a⟩ => some ((svc.judge q a).map fun _ => ())
  | ⟨.openStream q _, script⟩ => some ((svc.scriptVerdict q script).map fun _ => ())
  | _ => none

def answers (svc : Service) (e : GatewayEvent) : Bool :=
  match svc.callVerdict e with
  | some (.ok _) => true
  | _ => false

def LoopState.Noted (st : LoopState) : Prop :=
  st.lastError.isSome = true → st.lastErrorRoute.isSome = true

/-- What an attempt leaves behind, by the way its candidate leaves the loop. -/
structure PassEvidence {α : Type} (tr : GatewayTrace) (out : Except PyExc (Pass α)) : Prop where
  returned : ∀ a, out = .ok (.returned a) → Evidenced tr (.ok a : Except PyExc α)
  goesOn : ∀ st, out = .ok (.next st) ∨ out = .ok (.broke st) →
    rows tr = [] ∧ st.lastError.isSome = true ∧ LoopState.Noted st
  raised : ∀ e, out = .error e → Evidenced tr (.error e : Except PyExc α)

theorem GaveUp.evidenced {α : Type} {x : Exchange} (hx : x.evaluation = false) {st : LoopState}
    (he : st.lastError.isSome = true) (hst : LoopState.Noted st) {tr : GatewayTrace}
    {out : Except PyExc α} (h : GaveUp x st tr out) : Evidenced tr out := by
  cases h with
  | unrecorded _ _ hx' =>
    rw [hx] at hx'
    cases hx'
  | recorded now t he hr hx => exact ⟨_, _, rfl, rows_errorEvents x _ _ _ now t, rfl, rfl⟩
  | assertion hnone =>
    have hr := hst he
    rcases hnone with hnone | hnone
    · simp [hnone] at he
    · simp [hnone] at hr

theorem failed_noted (st : LoopState) (route : ModelRoute) (e : AegisError) :
    (st.failed route e).lastError.isSome = true ∧ LoopState.Noted (st.failed route e) :=
  ⟨rfl, fun _ => rfl⟩

theorem deadline_noted {st : LoopState} (hst : LoopState.Noted st) (route : ModelRoute) :
    (st.deadline route).lastError.isSome = true ∧ LoopState.Noted (st.deadline route) := by
  unfold LoopState.deadline
  split_ifs with h
  · exact ⟨h, hst⟩
  · exact failed_noted st route _

theorem Handled.evidence {α : Type} {timeout : String} {route : ModelRoute} {st : LoopState}
    {e : PyExc} (he : e.handled = true) {tr tr' : GatewayTrace} {out : Except PyExc (Pass α)}
    (h : Handled timeout route st e tr' out) (htr : rows tr = []) :
    PassEvidence (tr ++ tr') out := by
  have hrows : rows (tr ++ tr') = [] := by rw [rows_append, htr, rows_handled h]; rfl
  refine ⟨fun a hout => ?_, fun st' hout => ?_, fun e' hout => ?_⟩
  · subst hout
    cases h
  · have hst : st'.lastError.isSome = true ∧ LoopState.Noted st' := by
      cases h with
      | unhandled => rcases hout with hout | hout <;> cases hout
      | _ =>
        rcases hout with hout | hout <;> cases hout
        exact failed_noted st route _
    exact ⟨hrows, hst⟩
  · subst hout
    cases h with
    | unhandled hu =>
      rw [he] at hu
      cases hu

theorem Interrupted.evidence {x : Exchange} {route : ModelRoute} {st : LoopState}
    {e : PyExc} (he : e.handled = true) {tr tr' : GatewayTrace} {out : Except PyExc (Pass Unit)}
    (h : Interrupted x route st e tr' out) (htr : rows tr = []) :
    PassEvidence (tr ++ tr') out := by
  have hrow : ∀ err now t, rows (x.errorEvents route err st.fallbackCount now t) = [x.errorRow route
      err st.fallbackCount ((now - x.started) * 1000) t] := fun err => rows_errorEvents x route err _
  cases h with
  | schemaViolation m now t =>
    refine ⟨nofun, by simp, ?_⟩
    rintro _ ⟨⟩
    exact ⟨_, _, rfl, by rw [rows_append, htr, hrow]; rfl, rfl, rfl⟩
  | circuitOpen m =>
    refine ⟨nofun, fun st' hout => ?_, nofun⟩
    rcases hout with hout | hout <;> cases hout
    exact ⟨by rw [rows_append, htr]; rfl, failed_noted st route _⟩
  | timeout state now t | provider e state now t =>
    refine ⟨nofun, by simp, ?_⟩
    rintro _ ⟨⟩
    exact ⟨_, _, rfl, by rw [rows_append, rows_append, htr, hrow, rows_failureEvents]; rfl, rfl, rfl⟩
  | unhandled hu =>
    rw [he] at hu
    cases hu

/-! ## Attempts -/

theorem expected_error {q : GatewayRequest} {route : ModelRoute} {script : Script} {e : PyExc}
    (h : svc.expected (ev (.openStream q route) script) = true)
    (he : svc.scriptVerdict q script = .error e) : e.handled = true := by
  simpa [expected, he] using h

theorem GeneratePassRun.evidence {x : Exchange} (hx : x.evaluation = false) {c : RoutingCandidate}
    {route : ModelRoute} {st : LoopState} (hst : LoopState.Noted st) {tr : GatewayTrace}
    {out : Except PyExc (Pass GatewayResponse)} (h : svc.GeneratePassRun x c route st tr out)
    (hexp : ∀ e ∈ tr, svc.expected e = true) : PassEvidence tr out := by
  cases h with
  | deadline ht =>
    refine ⟨by simp, ?_, by simp⟩
    rintro st' (⟨⟨⟩⟩ | ⟨⟨⟩⟩)
    exact ⟨rfl, deadline_noted hst route⟩
  | refused ht =>
    refine ⟨by simp, ?_, by simp⟩
    rintro st' (⟨⟨⟩⟩ | ⟨⟨⟩⟩)
    exact ⟨rfl, failed_noted st route _⟩
  | unconfigured ht hr hh => exact hh.evidence rfl (rows_admitted _ _ _)
  | @failed _ _ _ t state a e tr _ ht hr he hh =>
    have hhandled : e.handled = true := by
      have hanswer := hexp _ (List.mem_append_right _ List.mem_cons_self)
      have hjudge : svc.judge (attemptRequest x.request
          (remainingSeconds x.started x.request t)) a = .error e := he
      simpa [expected, hjudge] using hanswer
    have hsplit : admitted route t state ++ (ev (.complete (attemptRequest x.request
        (remainingSeconds x.started x.request t)) route) a :: tr) =
          (admitted route t state ++ [ev (.complete (attemptRequest x.request
            (remainingSeconds x.started x.request t)) route) a]) ++ tr := by simp
    rw [hsplit]
    exact hh.evidence hhandled rfl
  | @succeeded _ _ _ t state state' a result parsed valid now createdAt createdAt' ht hr ha =>
    refine ⟨?_, by simp, by simp⟩
    rintro _ ⟨⟩
    refine ⟨x.responseRow (completeResponse x route c st.fallbackCount result parsed valid now
      createdAt) createdAt', ?_, rfl, rfl⟩
    rw [rows_append, rows_admitted]
    change rows (successEvents route state' ++ _) = _
    rw [rows_append, rows_successEvents]
    exact rows_keepEvents hx _ createdAt'

theorem rows_relay {x : Exchange} {route : ModelRoute} {es : List ProviderStreamEvent}
    {r r' : Relay} {tr : GatewayTrace} {left : Bool} (h : RelayRun x route es r tr r' left) :
    rows tr = [] :=
  rows_eq_nil fun e he => rowOf_of_relaying (h.relaying e he)

theorem rows_opened {x : Exchange} {route : ModelRoute} {es : List ProviderStreamEvent}
    {r r' : Relay} {tr : GatewayTrace} {left : Bool} (h : RelayRun x route es r tr r' left) (t : ℚ)
    (state : CircuitState) (q : GatewayRequest) (script : Script) :
    rows (admitted route t state ++ ev (.openStream q route) script :: tr) = [] := by
  rw [rows_append, rows_admitted]
  exact (rows_relay h : rows tr = [])

theorem StreamPassRun.evidence {x : Exchange} (hx : x.evaluation = false) {c : RoutingCandidate}
    {route : ModelRoute} {st : LoopState} (hst : LoopState.Noted st) {tr : GatewayTrace}
    {out : Except PyExc (Pass Unit)} (h : svc.StreamPassRun x c route st tr out)
    (hf : Followed tr) (hexp : ∀ e ∈ tr, svc.expected e = true) : PassEvidence tr out := by
  cases h with
  | deadline ht =>
    refine ⟨by simp, ?_, by simp⟩
    rintro st' (⟨⟨⟩⟩ | ⟨⟨⟩⟩)
    exact ⟨rfl, deadline_noted hst route⟩
  | refused ht =>
    refine ⟨by simp, ?_, by simp⟩
    rintro st' (⟨⟨⟩⟩ | ⟨⟨⟩⟩)
    exact ⟨rfl, failed_noted st route _⟩
  | unconfigured ht hr hh => exact hh.evidence rfl (rows_admitted _ _ _)
  | left ht hr hl =>
    obtain ⟨v, hv⟩ := hl.leaves.mp rfl
    exact absurd hv fun hv => hf v (by simp [hv])
  | @failed _ _ _ t state script tr tr' r e _ ht hr hl he hh =>
    -- The handlers know every error that an expected script comes to.
    have hhandled : e.handled = true := by
      have hscript := hexp _ (List.mem_append_right _ List.mem_cons_self)
      apply expected_error hscript
      rw [← hl.verdict]
      exact he
    have hquiet := rows_opened hl t state
      (attemptRequest x.request (remainingSeconds x.started x.request t)) script
    rw [← List.cons_append, ← List.append_assoc]
    cases hem : r.emitted with
    | true =>
      rw [hem] at hh
      exact Interrupted.evidence hhandled hh hquiet
    | false =>
      rw [hem] at hh
      exact Handled.evidence hhandled hh hquiet
  | @succeeded _ _ _ t state state' script tr r parsed valid now createdAt createdAt' consumer
      ht hr hl hv =>
    have hrow : rows (admitted route t state ++ (ev (.openStream (attemptRequest x.request
        (remainingSeconds x.started x.request t)) route) script :: (tr ++ finishEvents x route
          (streamResponse x route c st.fallbackCount r parsed valid now createdAt) state' now
          createdAt createdAt' consumer))) = [x.responseRow (streamResponse x route c
            st.fallbackCount r parsed valid now createdAt) createdAt'] := by
      rw [rows_append, rows_admitted]
      change rows (tr ++ _) = _
      rw [rows_append, rows_relay hl, finishEvents, rows_append, rows_successEvents]
      change rows (x.keepEvents _ createdAt' ++ _) = _
      rw [rows_append, rows_keepEvents hx]
      rfl
    cases consumer with
    | resumes =>
      refine ⟨?_, by simp, by simp⟩
      rintro _ ⟨⟩
      exact ⟨_, hrow, rfl, rfl⟩
    | leaves =>
      -- A consumer that leaves has not followed the stream.
      refine absurd (List.mem_append_right _ (List.mem_cons_of_mem _ (List.mem_append_right _ ?_)))
        (hf (streamEvent x route .done "" (some (streamResponse x route c st.fallbackCount r parsed
          valid now createdAt))))
      simp

/-! ## Answers without a branch -/

theorem expected_of_settling {e : GatewayEvent} (h : settling e.1 = true) :
    svc.expected e = true := by
  rcases e with ⟨o, a⟩
  cases o <;> first | rfl | cases h

theorem expected_of_bookkeeping {e : GatewayEvent} (h : bookkeeping e.1 = true) :
    svc.expected e = true := by
  rcases e with ⟨o, a⟩
  cases o <;> first | rfl | cases h

theorem expected_of_relaying {e : GatewayEvent} (h : relaying e.1 = true) :
    svc.expected e = true := by
  rcases e with ⟨o, a⟩
  cases o <;> first | rfl | cases h

theorem expected_of_approaching {e : GatewayEvent} (h : approaching e.1 = true) :
    svc.expected e = true := by
  rcases e with ⟨o, a⟩
  cases o <;> first | rfl | cases h

/-- Either every answer has been for some branch, or an exception has left without a row. -/
def Escaped {α : Type} (svc : Service) (tr : GatewayTrace) (out : Except PyExc α) : Prop :=
  (∀ e ∈ tr, svc.expected e = true) ∨ rows tr = [] ∧ ∃ e, out = .error e

theorem Handled.escaped {α : Type} {timeout : String} {route : ModelRoute} {st : LoopState}
    {e : PyExc} {tr : GatewayTrace} {out : Except PyExc (Pass α)}
    (h : Handled timeout route st e tr out) (he : e.handled = false) : tr = [] ∧ out = .error e := by
  cases h with
  | unhandled => exact ⟨rfl, rfl⟩
  | _ => cases he

theorem StreamHandled.escaped {x : Exchange} {route : ModelRoute} {st : LoopState} {emitted : Bool}
    {e : PyExc} {tr : GatewayTrace} {out : Except PyExc (Pass Unit)}
    (h : StreamHandled x route st emitted e tr out) (he : e.handled = false) :
    tr = [] ∧ out = .error e := by
  cases emitted with
  | false => exact Handled.escaped h he
  | true =>
    have h : Interrupted x route st e tr out := h
    cases h with
    | unhandled => exact ⟨rfl, rfl⟩
    | _ => cases he

theorem expected_admitted (route : ModelRoute) (t : ℚ) (state : CircuitState) :
    ∀ e ∈ admitted route t state, svc.expected e = true := by
  simp [admitted, expected]

theorem GeneratePassRun.escaped {x : Exchange} {c : RoutingCandidate} {route : ModelRoute}
    {st : LoopState} {tr : GatewayTrace} {out : Except PyExc (Pass GatewayResponse)}
    (h : svc.GeneratePassRun x c route st tr out) : svc.Escaped tr out := by
  cases h with
  | deadline | refused => exact .inl (by simp [expected])
  | unconfigured ht hr hh =>
    refine .inl (List.forall_mem_append.mpr ⟨expected_admitted _ _ _, fun e he => ?_⟩)
    exact expected_of_settling (hh.settling e he)
  | @failed _ _ _ t state a e tr _ ht hr he hh =>
    have hjudge : svc.judge (attemptRequest x.request (remainingSeconds x.started x.request t)) a =
        .error e := he
    cases hhandled : e.handled with
    | true =>
      left
      simp only [List.forall_mem_append, List.forall_mem_cons]
      refine ⟨expected_admitted _ _ _, ?_, fun e he => expected_of_settling (hh.settling e he)⟩
      simpa [expected, hjudge] using hhandled
    | false =>
      obtain ⟨rfl, rfl⟩ := hh.escaped hhandled
      exact .inr ⟨rfl, e, rfl⟩
  | @succeeded _ _ _ t state state' a result parsed valid now createdAt createdAt' ht hr ha =>
    have hjudge : svc.judge (attemptRequest x.request (remainingSeconds x.started x.request t)) a =
        .ok (result, parsed, valid) := ha
    left
    simp only [List.forall_mem_append, List.forall_mem_cons]
    exact ⟨expected_admitted _ _ _, by simp [expected, hjudge], by simp [successEvents, expected],
      rfl, rfl, fun e he => expected_of_bookkeeping (keepEvents_bookkeeping x _ _ e he)⟩

theorem StreamPassRun.escaped {x : Exchange} {c : RoutingCandidate} {route : ModelRoute}
    {st : LoopState} {tr : GatewayTrace} {out : Except PyExc (Pass Unit)}
    (h : svc.StreamPassRun x c route st tr out) (hf : Followed tr) : svc.Escaped tr out := by
  have hrelay : ∀ {es r tr r' left}, RelayRun x route es r tr r' left →
      ∀ e ∈ tr, svc.expected e = true :=
    fun h e he => expected_of_relaying (h.relaying e he)
  cases h with
  | deadline | refused => exact .inl (by simp [expected])
  | unconfigured ht hr hh =>
    refine .inl (List.forall_mem_append.mpr ⟨expected_admitted _ _ _, fun e he => ?_⟩)
    exact expected_of_settling (hh.settling e he)
  | left ht hr hl =>
    obtain ⟨v, hv⟩ := hl.leaves.mp rfl
    exact absurd hv fun hv => hf v (by simp [hv])
  | @failed _ _ _ t state script tr tr' r e _ ht hr hl he hh =>
    have hverdict : svc.streamVerdict _ script r = _ :=
      hl.verdict (attemptRequest x.request (remainingSeconds x.started x.request t))
    have hscript : svc.scriptVerdict (attemptRequest x.request
        (remainingSeconds x.started x.request t)) script = .error e := by
      rw [← hverdict]
      exact he
    cases hhandled : e.handled with
    | true =>
      left
      simp only [List.forall_mem_append, List.forall_mem_cons]
      refine ⟨expected_admitted _ _ _, ?_, hrelay hl,
        fun e he => expected_of_settling (hh.settling e he)⟩
      simpa [expected, hscript] using hhandled
    | false =>
      -- No handler takes the exception, so it leaves without a row.
      obtain ⟨rfl, rfl⟩ := hh.escaped hhandled
      refine .inr ⟨?_, e, rfl⟩
      rw [List.append_nil]
      exact rows_opened hl ..
  | @succeeded _ _ _ t state state' script tr r parsed valid now createdAt createdAt' consumer
      ht hr hl hv =>
    have hverdict : svc.streamVerdict _ script r = _ :=
      hl.verdict (attemptRequest x.request (remainingSeconds x.started x.request t))
    have hscript : svc.scriptVerdict (attemptRequest x.request
        (remainingSeconds x.started x.request t)) script = .ok (parsed, valid) := by
      rw [← hverdict]
      exact hv
    left
    simp only [List.forall_mem_append, List.forall_mem_cons]
    exact ⟨expected_admitted _ _ _, by simp [expected, hscript], hrelay hl,
      by simp [successEvents, expected], rfl, rfl,
      fun e he => expected_of_bookkeeping (keepEvents_bookkeeping x _ _ e he), rfl, by simp⟩

/-! ## The loop -/

def stays : GatewayEvent → Bool
  | ⟨.yieldEvent _, .leaves⟩ => false
  | _ => true

theorem followed_iff {tr : GatewayTrace} : Followed tr ↔ ∀ e ∈ tr, stays e = true := by
  constructor
  · rintro h ⟨o, a⟩ he
    cases o with
    | yieldEvent v =>
      cases a with
      | resumes => rfl
      | leaves => exact absurd he (h v)
    | _ => rfl
  · intro h v hv
    cases h _ hv

/-- Attempts that leave what they should, on traces of events that satisfy `φ`. -/
structure SoundPass {α : Type} (svc : Service) (φ : GatewayEvent → Prop) (R : PassRel α) :
    Prop where
  escaped : ∀ {c route st tr out}, R c route st tr out → (∀ e ∈ tr, φ e) → svc.Escaped tr out
  evidence : ∀ {c route st tr out}, LoopState.Noted st → R c route st tr out → (∀ e ∈ tr, φ e) →
    (∀ e ∈ tr, svc.expected e = true) → PassEvidence tr out

theorem generate_sound {x : Exchange} (hx : x.evaluation = false) :
    SoundPass svc (fun _ => True) (svc.GeneratePassRun x) where
  escaped h _ := h.escaped
  evidence hst h _ hexp := h.evidence hx hst hexp

theorem stream_sound {x : Exchange} (hx : x.evaluation = false) :
    SoundPass svc (stays · = true) (svc.StreamPassRun x) where
  escaped h hφ := h.escaped (followed_iff.mpr hφ)
  evidence hst h hφ hexp := h.evidence hx hst (followed_iff.mpr hφ) hexp

section Loop

variable {α : Type} {x : Exchange} {φ : GatewayEvent → Prop} {R : PassRel α}
  {cs : List RoutingCandidate} {st : LoopState} {tr : GatewayTrace} {out : Except PyExc α}

theorem LoopRun.evidenced (hR : SoundPass svc φ R) (hx : x.evaluation = false)
    (hknown : ∀ c ∈ cs, ∃ route, svc.getRoute c.routeId = .ok route) (hst : LoopState.Noted st)
    (hany : cs ≠ [] ∨ st.lastError.isSome = true) (h : svc.LoopRun x R cs st tr out)
    (hφ : ∀ e ∈ tr, φ e) (hexp : ∀ e ∈ tr, svc.expected e = true) : Evidenced tr out := by
  induction h with
  | exhausted h => exact h.evidenced hx (hany.resolve_left (by simp)) hst
  | unknown hr =>
    obtain ⟨route, hroute⟩ := hknown _ List.mem_cons_self
    rw [hr] at hroute
    cases hroute
  | raised hr hp => exact (hR.evidence hst hp hφ hexp).raised _ rfl
  | returned hr hp => exact (hR.evidence hst hp hφ hexp).returned _ rfl
  | broke hr hp h =>
    rw [List.forall_mem_append] at hφ hexp
    obtain ⟨hrows, herror, hnoted⟩ := (hR.evidence hst hp hφ.1 hexp.1).goesOn _ (.inr rfl)
    exact (h.evidenced hx herror hnoted).after hrows
  | next hr hp h ih =>
    rw [List.forall_mem_append] at hφ hexp
    obtain ⟨hrows, herror, hnoted⟩ := (hR.evidence hst hp hφ.1 hexp.1).goesOn _ (.inl rfl)
    have htail := ih (fun c hc => hknown c (List.mem_cons_of_mem _ hc)) hnoted (.inr herror) hφ.2
      hexp.2
    exact htail.after hrows

theorem LoopRun.escaped (hR : SoundPass svc φ R) (hst : LoopState.Noted st)
    (h : svc.LoopRun x R cs st tr out) (hφ : ∀ e ∈ tr, φ e) : svc.Escaped tr out := by
  induction h with
  | exhausted h => exact .inl fun e he => expected_of_settling (h.settling e he)
  | unknown => exact .inl (by simp)
  | raised hr hp =>
    rcases hR.escaped hp hφ with hexp | ⟨hrows, -⟩
    · exact .inl hexp
    · exact .inr ⟨hrows, _, rfl⟩
  | returned hr hp =>
    rcases hR.escaped hp hφ with hexp | ⟨-, e, hout⟩
    · exact .inl hexp
    · cases hout
  | broke hr hp h =>
    rw [List.forall_mem_append] at hφ
    rcases hR.escaped hp hφ.1 with hexp | ⟨-, e, hout⟩
    · exact .inl (List.forall_mem_append.mpr
        ⟨hexp, fun e he => expected_of_settling (h.settling e he)⟩)
    · cases hout
  | next hr hp h ih =>
    rw [List.forall_mem_append] at hφ
    rcases hR.escaped hp hφ.1 with hexp | ⟨-, e, hout⟩
    · obtain ⟨hrows, -, hnoted⟩ := (hR.evidence hst hp hφ.1 hexp).goesOn _ (.inl rfl)
      rcases ih hnoted hφ.2 with hexp' | ⟨hrows', e, hout⟩
      · exact .inl (List.forall_mem_append.mpr ⟨hexp, hexp'⟩)
      · exact .inr ⟨by rw [rows_append, hrows, hrows']; rfl, e, hout⟩
    · cases hout

end Loop

/-! ## Consumers that leave -/

theorem stays_of_silent {e : GatewayEvent} (h : yieldOf e.1 = none) : stays e = true := by
  rcases e with ⟨o, a⟩
  cases o <;> first | rfl | cases h

/-- A consumer that leaves ends the call by raising. -/
def Heeded {α : Type} (tr : GatewayTrace) (out : Except PyExc α) : Prop :=
  out = .error .generatorExit ∨ ∀ e ∈ tr, stays e = true

theorem stays_admitted (route : ModelRoute) (t : ℚ) (state : CircuitState) :
    ∀ e ∈ admitted route t state, stays e = true := by
  simp [admitted, stays]

theorem stays_of_settling {tr : GatewayTrace} (h : ∀ e ∈ tr, settling e.1 = true) :
    ∀ e ∈ tr, stays e = true := fun e he => stays_of_silent (yieldOf_of_settling (h e he))

theorem stays_keepEvents (x : Exchange) (response : GatewayResponse) (t : Int) :
    ∀ e ∈ x.keepEvents response t, stays e = true := fun e he =>
  stays_of_silent (yieldOf_of_bookkeeping (keepEvents_bookkeeping x _ _ e he))

theorem stays_relay {x : Exchange} {route : ModelRoute} {es : List ProviderStreamEvent}
    {r r' : Relay} {tr : GatewayTrace} (h : RelayRun x route es r tr r' false) :
    ∀ e ∈ tr, stays e = true :=
  followed_iff.mp fun v hv => absurd (h.leaves.mpr ⟨v, hv⟩) (by decide)

theorem GeneratePassRun.heeded {x : Exchange} {c : RoutingCandidate} {route : ModelRoute}
    {st : LoopState} {tr : GatewayTrace} {out : Except PyExc (Pass GatewayResponse)}
    (h : svc.GeneratePassRun x c route st tr out) : Heeded tr out := by
  right
  cases h with
  | deadline | refused => simp [stays]
  | unconfigured ht hr hh =>
    exact List.forall_mem_append.mpr ⟨stays_admitted _ _ _, stays_of_settling hh.settling⟩
  | failed ht hr he hh =>
    simp only [List.forall_mem_append, List.forall_mem_cons]
    exact ⟨stays_admitted _ _ _, rfl, stays_of_settling hh.settling⟩
  | succeeded ht hr ha =>
    simp only [List.forall_mem_append, List.forall_mem_cons]
    exact ⟨stays_admitted _ _ _, rfl, by simp [successEvents, stays], rfl, rfl,
      stays_keepEvents _ _ _⟩

theorem StreamPassRun.heeded {x : Exchange} {c : RoutingCandidate} {route : ModelRoute}
    {st : LoopState} {tr : GatewayTrace} {out : Except PyExc (Pass Unit)}
    (h : svc.StreamPassRun x c route st tr out) : Heeded tr out := by
  cases h with
  | deadline | refused => exact .inr (by simp [stays])
  | unconfigured ht hr hh =>
    exact .inr (List.forall_mem_append.mpr
      ⟨stays_admitted _ _ _, stays_of_settling hh.settling⟩)
  | left => exact .inl rfl
  | failed ht hr hl he hh =>
    right
    simp only [List.forall_mem_append, List.forall_mem_cons]
    exact ⟨stays_admitted _ _ _, rfl, stays_relay hl, stays_of_settling hh.settling⟩
  | @succeeded _ _ _ t state state' script tr r parsed valid now createdAt createdAt' consumer
      ht hr hl hv =>
    cases consumer with
    | leaves => exact .inl rfl
    | resumes =>
      right
      simp only [List.forall_mem_append, List.forall_mem_cons]
      exact ⟨stays_admitted _ _ _, rfl, stays_relay hl, by simp [successEvents, stays], rfl, rfl,
        stays_keepEvents _ _ _, rfl, List.forall_mem_nil _⟩

theorem LoopRun.heeded {α : Type} {x : Exchange} {R : PassRel α}
    (hR : ∀ {c route st tr out}, R c route st tr out → Heeded tr out)
    {cs : List RoutingCandidate} {st : LoopState} {tr : GatewayTrace} {out : Except PyExc α}
    (h : svc.LoopRun x R cs st tr out) : Heeded tr out := by
  induction h with
  | exhausted h => exact .inr (stays_of_settling h.settling)
  | unknown => exact .inr (List.forall_mem_nil _)
  | raised hr hp =>
    rcases hR hp with hleft | hstays
    · cases hleft
      exact .inl rfl
    · exact .inr hstays
  | returned hr hp => exact .inr ((hR hp).resolve_left (by simp))
  | broke hr hp h =>
    have hstays := (hR hp).resolve_left (by simp)
    exact .inr (List.forall_mem_append.mpr ⟨hstays, stays_of_settling h.settling⟩)
  | next hr hp h ih =>
    have hstays := (hR hp).resolve_left (by simp)
    exact ih.imp_right fun hrest => List.forall_mem_append.mpr ⟨hstays, hrest⟩

theorem ServedRun.heeded {x : Exchange} {hit : GatewayResponse} {tr : GatewayTrace}
    {out : Except PyExc GatewayResponse} (h : ServedRun x hit tr out) : Heeded tr out := by
  cases h with
  | served now t t' =>
    right
    simp only [List.forall_mem_cons, List.forall_mem_append]
    exact ⟨rfl, rfl, by simp [Exchange.rowEvents, stays],
      stays_of_settling fun e he => settling_of_task (launchEvents_tasks x e he)⟩

theorem StreamServedRun.heeded {x : Exchange} {hit : GatewayResponse} {tr : GatewayTrace}
    {out : Except PyExc Unit} (h : StreamServedRun x hit tr out) : Heeded tr out := by
  cases h with
  | leftAtStart | leftAtDelta => exact .inl rfl
  | served now t consumer =>
    cases consumer with
    | leaves => exact .inl rfl
    | resumes =>
      right
      simp only [List.forall_mem_cons, List.forall_mem_append]
      exact ⟨rfl, rfl, rfl, by simp [Exchange.rowEvents, stays],
        stays_of_settling fun e he => settling_of_task (launchEvents_tasks x e he), rfl,
        List.forall_mem_nil _⟩

theorem CallRun.heeded {α : Type} {args : Arguments}
    {served : Exchange → GatewayResponse → GatewayTrace → Except PyExc α → Prop}
    {R : Exchange → PassRel α}
    (hserved : ∀ {x hit tr out}, served x hit tr out → Heeded tr out)
    (hR : ∀ {x c route st tr out}, R x c route st tr out → Heeded tr out)
    {tr : GatewayTrace} {out : Except PyExc α} (h : svc.CallRun args served R tr out) :
    Heeded tr out := by
  have happroach : ∀ {tr out}, svc.ApproachRun args tr out → ∀ e ∈ tr, stays e = true :=
    fun h e he => stays_of_silent (yieldOf_of_approaching (h.approaching e he))
  cases h with
  | stopped h => exact .inr (happroach h)
  | served h hs =>
    exact (hserved hs).imp_right fun hstays => List.forall_mem_append.mpr ⟨happroach h, hstays⟩
  | looped h hl =>
    exact (hl.heeded hR).imp_right fun hstays =>
      List.forall_mem_append.mpr ⟨happroach h, hstays⟩

theorem Evidenced.followed {α : Type} {tr : GatewayTrace} {out : Except PyExc α}
    (h : Evidenced tr out) (hheeded : Heeded tr out) : Followed tr := by
  refine followed_iff.mpr (hheeded.resolve_left ?_)
  rintro rfl
  obtain ⟨err, row, he, -⟩ := h
  cases he

/-! ## Calls -/

theorem ServedRun.evidenced {x : Exchange} {hit : GatewayResponse} {tr : GatewayTrace}
    {out : Except PyExc GatewayResponse} (h : ServedRun x hit tr out) : Evidenced tr out := by
  cases h with
  | served now t t' =>
    refine ⟨x.responseRow (cachedResponse x hit now t) t', ?_, rfl, rfl⟩
    change rows (x.rowEvents (cachedResponse x hit now t) t' ++ x.launchEvents) = _
    rw [rows_append, rows_launchEvents, rows_rowEvents]
    rfl

theorem StreamServedRun.evidenced {x : Exchange} {hit : GatewayResponse} {tr : GatewayTrace}
    {out : Except PyExc Unit} (h : StreamServedRun x hit tr out) (hf : Followed tr) :
    Evidenced tr out := by
  cases h with
  | leftAtStart now =>
    exact absurd (by simp [hitEvent]) (hf (cachedEvent x (streamedHit x hit now) .start "" none))
  | leftAtDelta now =>
    exact absurd (by simp [hitEvent]) (hf (cachedEvent x (streamedHit x hit now) .delta
      (streamedHit x hit now).text none))
  | served now t consumer =>
    cases consumer with
    | leaves =>
      exact absurd (by simp [hitEvent]) (hf (cachedEvent x (streamedHit x hit now) .done ""
        (some (streamedHit x hit now))))
    | resumes =>
      refine ⟨x.responseRow (streamedHit x hit now) t, ?_, rfl, rfl⟩
      change rows (x.rowEvents (streamedHit x hit now) t ++ (x.launchEvents ++ _)) = _
      rw [rows_append, rows_append, rows_launchEvents, rows_rowEvents]
      rfl

/-- The call has found an answer in the cache or has been routed. -/
def Obtained (svc : Service) (args : Arguments) (tr : GatewayTrace) : Prop :=
  ∃ tr₀ tr₁ a, tr = tr₀ ++ tr₁ ∧ Prog.Run (svc.approach args) tr₀ (.ok a)

/-- Exactly the calls that have met no answer without a branch leave the row of their outcome. -/
def Accounts {α : Type} (svc : Service) (tr : GatewayTrace) (out : Except PyExc α) : Prop :=
  Evidenced tr out ↔ ∀ e ∈ tr, svc.expected e = true

theorem Accounts.after {α : Type} {tr tr' : GatewayTrace} {out : Except PyExc α}
    (h : svc.Accounts tr' out) (htr : ∀ e ∈ tr, approaching e.1 = true) :
    svc.Accounts (tr ++ tr') out := by
  have hrows : rows tr = [] := rows_eq_nil fun e he => rowOf_of_approaching (htr e he)
  have hexp : ∀ e ∈ tr, svc.expected e = true := fun e he => expected_of_approaching (htr e he)
  have hiff : Evidenced (tr ++ tr') out ↔ Evidenced tr' out := by
    cases out <;> simp [Evidenced, rows_append, hrows]
  rw [Accounts, hiff, List.forall_mem_append]
  exact ⟨fun he => ⟨hexp, h.mp he⟩, fun he => h.mpr he.2⟩

theorem LoopRun.accounts {α : Type} {args : Arguments} (hargs : args.evaluation = false)
    {φ : GatewayEvent → Prop} {R : Exchange → PassRel α}
    (hR : ∀ x, x.evaluation = false → SoundPass svc φ (R x)) {tr tr' : GatewayTrace} {x : Exchange}
    {d : RoutingDecision} (h : svc.ApproachRun args tr (.ok (x, .decision d)))
    {out : Except PyExc α} (hl : svc.LoopRun x (R x) (orderedCandidates d) {} tr' out)
    (hφ : ∀ e ∈ tr', φ e) : svc.Accounts tr' out := by
  have hnoted : LoopState.Noted {} := nofun
  cases h with
  | decided hb hxs hd =>
    have hx : x.evaluation = false := hb.evaluation.trans hargs
    have hknown := fun c (hc : c ∈ orderedCandidates d) => getRoute_of_candidate hxs hd hc
    refine ⟨fun he => ?_,
      hl.evidenced (hR x hx) hx hknown hnoted (.inl (orderedCandidates_ne_nil hd)) hφ⟩
    rcases hl.escaped (hR x hx) hnoted hφ with hexp | ⟨hrows, -⟩
    · exact hexp
    · exact absurd hrows he.rows_ne_nil

theorem ServedRun.expected {x : Exchange} {hit : GatewayResponse} {tr : GatewayTrace}
    {out : Except PyExc GatewayResponse} (h : ServedRun x hit tr out) :
    ∀ e ∈ tr, svc.expected e = true := by
  cases h with
  | served now t t' =>
    have hlaunch : ∀ e ∈ x.launchEvents, svc.expected e = true :=
      fun e he => expected_of_bookkeeping (bookkeeping_of_task (launchEvents_tasks x e he))
    simp only [List.forall_mem_cons, List.forall_mem_append]
    exact ⟨rfl, rfl, by simp [Exchange.rowEvents, Service.expected], hlaunch⟩

theorem StreamServedRun.expected {x : Exchange} {hit : GatewayResponse} {tr : GatewayTrace}
    {out : Except PyExc Unit} (h : StreamServedRun x hit tr out) :
    ∀ e ∈ tr, svc.expected e = true := by
  cases h with
  | leftAtStart | leftAtDelta => simp [hitEvent, Service.expected]
  | served now t consumer =>
    have hlaunch : ∀ e ∈ x.launchEvents, svc.expected e = true :=
      fun e he => expected_of_bookkeeping (bookkeeping_of_task (launchEvents_tasks x e he))
    simp only [List.forall_mem_cons, List.forall_mem_append]
    exact ⟨rfl, rfl, rfl, by simp [Exchange.rowEvents, Service.expected], hlaunch, rfl, by simp⟩

theorem obtained_ok {args : Arguments} {tr tr' : GatewayTrace} {a : Exchange × Origin}
    (h : Prog.Run (svc.approach args) tr (.ok a)) : svc.Obtained args (tr ++ tr') :=
  ⟨tr, tr', a, rfl, h⟩

theorem not_obtained {args : Arguments} {tr : GatewayTrace} {e : PyExc}
    (h : Prog.Run (svc.approach args) tr (.error e)) : ¬ svc.Obtained args tr := by
  rintro ⟨tr₀, tr₁, a, rfl, ha⟩
  obtain ⟨-, hout⟩ := ha.unique h
  cases hout

theorem approach_then {α : Type} {args : Arguments} {f : Exchange × Origin → GatewayM α}
    {P : GatewayTrace → Except PyExc α → Prop}
    (hf : ∀ tr x origin, svc.ApproachRun args tr (.ok (x, origin)) →
      (f (x, origin)).AllRuns fun tr' out => P (tr ++ tr') out) :
    (svc.approach args >>= f).AllRuns fun tr out => svc.Obtained args tr → P tr out := by
  rw [Prog.allRuns_bind]
  refine ((svc.approach_runs args).and (Prog.allRuns_run _)).mono fun tr out ⟨happroach, hrun⟩ => ?_
  cases out with
  | error e => exact fun hobtained => absurd hobtained (not_obtained hrun)
  | ok a => exact (hf tr a.1 a.2 happroach).mono fun tr' out hP _ => hP

theorem generate_accounts {args : Arguments} (hargs : args.evaluation = false) :
    (svc.generate args).AllRuns fun tr out => svc.Obtained args tr → svc.Accounts tr out := by
  apply approach_then
  intro tr x origin h
  cases origin with
  | cache hit =>
    apply (serveCached_runs x hit).mono
    intro tr' out hs
    exact Accounts.after ⟨fun _ => hs.expected, fun _ => hs.evidenced⟩ h.approaching
  | decision d =>
    apply (svc.candidateLoop_runs x (svc.generatePass_runs x) _ _).mono
    intro tr' out hl
    have haccounts := hl.accounts hargs (fun x => generate_sound) h fun _ _ => trivial
    exact haccounts.after h.approaching

theorem stream_accounts (q : GatewayRequest) (forced : Option String) :
    (svc.stream q forced).AllRuns fun tr out =>
      svc.Obtained { request := q, forcedRouteId := forced } tr → Followed tr →
        svc.Accounts tr out := by
  apply approach_then
  intro tr x origin h
  cases origin with
  | cache hit =>
    apply (streamCached_runs x hit).mono
    intro tr' out hs hf
    have hf' : Followed tr' := fun v hv => hf v (List.mem_append_right _ hv)
    exact Accounts.after ⟨fun _ => hs.expected, fun _ => hs.evidenced hf'⟩ h.approaching
  | decision d =>
    apply (svc.candidateLoop_runs x (svc.streamPass_runs x) _ _).mono
    intro tr' out hl hf
    have hstays : ∀ e ∈ tr', stays e = true :=
      fun e he => followed_iff.mp hf e (List.mem_append_right _ he)
    have haccounts := hl.accounts rfl (fun x => stream_sound) h hstays
    exact haccounts.after h.approaching

/-! ## The table -/

/-- Only `record` writes to the table of the rows. -/
theorem exec_rows {w w' : World} {o : Op} {x : Input} {a : Ans o}
    (h : svc.exec w o x = some (a, w')) :
    w'.database.requestMetrics = w.database.requestMetrics ++ (rowOf o).toList := by
  unfold exec at h
  split at h <;> cases h <;>
    simp [rowOf, Database.recordMetric, Database.recordRollback, Database.putEvaluation]

/-- The table holds the rows that the tasks have written, in their order. -/
theorem table_of_reach {Ok : State → Move Input Call → Prop} {c : State}
    (h : svc.machine.Reach Ok initial c) :
    c.world.database.requestMetrics = c.log.filterMap fun e => rowOf e.2.1 := by
  refine h.invariant (fun c => c.world.database.requestMetrics =
    c.log.filterMap fun e => rowOf e.2.1) rfl fun c m c' _ htable _ hs => ?_
  cases m with
  | start call =>
    cases hs
    exact htable
  | drift x =>
    obtain ⟨w, hw, rfl⟩ := Option.map_eq_some_iff.mp hs
    obtain ⟨clock, utc, -, rfl⟩ := drift_eq hw
    exact htable
  | run i x =>
    obtain ⟨call, o, k, a, w, -, hexec, rfl⟩ := Machine.step_run hs
    change w.database.requestMetrics = (c.log ++ [(i, ev o a)]).filterMap fun e => rowOf e.2.1
    rw [exec_rows hexec, htable, List.filterMap_append]
    congr 1

/-! ## All calls -/

/-- The answer of a call: its response, or the `done` event at the end of its stream. -/
def Delivered (tr : GatewayTrace) : Outcome → Prop
  | .response _ => True
  | .streamed => ∃ v response, v.type = .done ∧ v.response = some response ∧
      ev (.yieldEvent v) .resumes ∈ tr
  | _ => False

theorem StreamPassRun.delivered {x : Exchange} {c : RoutingCandidate} {route : ModelRoute}
    {st : LoopState} {tr : GatewayTrace} {out : Except PyExc (Pass Unit)}
    (h : svc.StreamPassRun x c route st tr out) (hout : out = .ok (.returned ())) :
    Delivered tr .streamed := by
  cases h with
  | deadline | refused | left => cases hout
  | unconfigured _ _ hh => cases hh <;> cases hout
  | failed _ _ _ _ hh => exact absurd hout hh.not_returned
  | @succeeded _ _ _ t state state' script tr r parsed valid now createdAt createdAt' consumer =>
    cases consumer with
    | leaves => cases hout
    | resumes =>
      refine ⟨streamEvent x route .done "" (some (streamResponse x route c st.fallbackCount r parsed
        valid now createdAt)), _, rfl, rfl, ?_⟩
      refine List.mem_append_right _ (List.mem_cons_of_mem _ (List.mem_append_right _ ?_))
      simp

theorem StreamServedRun.delivered {x : Exchange} {hit : GatewayResponse} {tr : GatewayTrace}
    {out : Except PyExc Unit} (h : StreamServedRun x hit tr out) (hout : out = .ok ()) :
    Delivered tr .streamed := by
  cases h with
  | leftAtStart | leftAtDelta => cases hout
  | served now t consumer =>
    cases consumer with
    | leaves => cases hout
    | resumes =>
      refine ⟨cachedEvent x (streamedHit x hit now) .done "" (some (streamedHit x hit now)), _, rfl,
        rfl, ?_⟩
      simp [hitEvent]

theorem Delivered.append {tr tr' : GatewayTrace} (h : Delivered tr' .streamed) :
    Delivered (tr ++ tr') .streamed := by
  obtain ⟨v, response, hdone, hresponse, hv⟩ := h
  exact ⟨v, response, hdone, hresponse, List.mem_append_right _ hv⟩

theorem stream_delivers (q : GatewayRequest) (forced : Option String) :
    (svc.stream q forced).AllRuns fun tr out => out = .ok () → Delivered tr .streamed := by
  apply (svc.stream_runs q forced).mono
  intro tr out h hout
  cases h with
  | stopped => cases hout
  | served h hs => exact (hs.delivered hout).append
  | looped h hl =>
    subst hout
    obtain ⟨c, -, route, st, tr₀, tr', -, rfl, hp⟩ := hl.returns
    exact ((hp.delivered rfl).append).append

/-- A call that ends with an answer or an error of the gateway, and exactly one row that says so. -/
structure Accounted (args : Arguments) (tr : GatewayTrace) (out : Except PyExc Outcome) : Prop where
  delivered : ∀ a, out = .ok a → Delivered tr a
  evidenced : Evidenced tr out
  requestId : ∀ row ∈ rows tr, row.requestId = args.request.requestId

theorem evidenced_map {α β : Type} {tr : GatewayTrace} {out : Except PyExc α} {f : α → β} :
    Evidenced tr (out.map f) ↔ Evidenced tr out := by
  cases out <;> rfl

def RowKept (svc : Service) (tr : GatewayTrace) (out : Except PyExc Outcome) : Prop :=
  (Evidenced tr out ↔ (∀ e ∈ tr, svc.expected e = true) ∧ Followed tr) ∧
    ∀ a, out = .ok a → Delivered tr a

theorem body_accounts {call : Call} {args : Arguments} (h : callArguments call = some args) :
    (svc.body call).AllRuns fun tr out => svc.Obtained args tr → svc.RowKept tr out := by
  have hgenerate : ∀ args, args.evaluation = false →
      (svc.generate args >>= fun r => pure (Outcome.response r)).AllRuns fun tr out =>
        svc.Obtained args tr → svc.RowKept tr out := by
    -- The answers of `generate`, for a call and for a shadow.
    intro args hargs
    apply (Prog.allRuns_map _ Outcome.response _).mpr
    apply ((generate_accounts hargs).and (svc.generate_runs args)).mono
    rintro tr out ⟨haccounts, hrun⟩ hobtained
    have hheeded := hrun.heeded (fun h => h.heeded) fun h => h.heeded
    refine ⟨evidenced_map.trans ⟨fun he => ?_, fun he => (haccounts hobtained).mpr he.1⟩,
      fun a ha => ?_⟩
    · exact ⟨(haccounts hobtained).mp he, he.followed hheeded⟩
    · cases out with
      | error e => cases ha
      | ok response =>
        cases ha
        trivial
  cases call with
  | generate q forced | shadow q routeId releaseId =>
    cases h
    exact hgenerate _ rfl
  | stream q forced =>
    cases h
    apply (Prog.allRuns_map _ (fun _ => Outcome.streamed) _).mpr
    refine (((stream_accounts q forced).and (stream_delivers q forced)).and
      (svc.stream_runs q forced)).mono ?_
    rintro tr out ⟨⟨haccounts, hdelivers⟩, hrun⟩ hobtained
    have hheeded := hrun.heeded (fun h => h.heeded) fun h => h.heeded
    refine ⟨evidenced_map.trans ⟨fun he => ?_, fun he => (haccounts hobtained he.2).mpr he.1⟩,
      fun a ha => ?_⟩
    · have hf := he.followed hheeded
      exact ⟨(haccounts hobtained hf).mp he, hf⟩
    · cases out with
      | error e => cases ha
      | ok u =>
        cases ha
        exact hdelivers rfl
  | _ => cases h

theorem OneExchange.requestId {args : Arguments} {tr : GatewayTrace} (h : svc.OneExchange args tr) :
    ∀ row ∈ rows tr, row.requestId = args.request.requestId := by
  intro row hrow
  obtain ⟨⟨o, a⟩, he, ho⟩ := List.mem_filterMap.mp hrow
  have hrecord : o = .recordMetric row := by
    cases o with
    | recordMetric m =>
      cases ho
      rfl
    | _ => cases ho
  subst hrecord
  rcases h with hp | ⟨tr₀, tr₁, x, rfl, hb, hx⟩
  · cases hp _ he
  · rcases List.mem_append.mp he with he | he
    · cases hb.preliminary _ he
    · obtain ⟨added, hmessages, -⟩ := hb.resolved.messages
      rw [((hx _ he).row row rfl).requestId, hmessages]

theorem accounted_iff {c : State} (h : svc.machine.Reachable initial c) {i : Nat} {call : Call}
    {args : Arguments} {out : Except PyExc Outcome} (hfinished : c.Finished i call out)
    (hargs : callArguments call = some args) (hobtained : svc.Obtained args (c.trace i)) :
    Accounted args (c.trace i) out ↔
      (∀ e ∈ c.trace i, svc.expected e = true) ∧ Followed (c.trace i) := by
  obtain ⟨hevidenced, hdelivered⟩ := (body_accounts hargs).run (h.finished hfinished) hobtained
  have hrequest := (oneExchange_of_reachable h hfinished hargs).requestId
  exact ⟨fun ha => hevidenced.mp ha.evidenced,
    fun he => ⟨hdelivered, hevidenced.mpr he, hrequest⟩⟩

/-- The table holds what the calls have written. A call that has found an answer or a route has,
once it is over, written exactly the row of its outcome only if no provider has answered with what
no branch of the gateway is for, and the consumer has neither left nor been cancelled by the
deadline between two events. It has if moreover the counts of the answer can be priced. -/
theorem calls_accounted {c : State} (h : svc.machine.Reachable initial c) :
    c.world.database.requestMetrics = (c.log.filterMap fun e => rowOf e.2.1) ∧
    ∀ i call args out, c.Finished i call out → callArguments call = some args →
      svc.Obtained args (c.trace i) →
        (Accounted args (c.trace i) out →
          (∀ e ∈ c.trace i, svc.expected e = true) ∧ Followed (c.trace i)) ∧
        ((∀ e ∈ c.trace i, svc.expected e = true ∧ svc.counted e = true) ∧ Followed (c.trace i) →
          Accounted args (c.trace i) out) := by
  refine ⟨table_of_reach h, fun i call args out hfinished hargs hobtained => ?_⟩
  have haccounted := accounted_iff h hfinished hargs hobtained
  refine ⟨haccounted.mp, fun ⟨hanswers, hf⟩ => haccounted.mpr ⟨fun e he => ?_, hf⟩⟩
  exact (hanswers e he).1

/-! ## Two runs -/

theorem obtained_of_attempt {call : Call} {args : Arguments} (h : callArguments call = some args) :
    (svc.body call).Leaves fun tr =>
      (∃ e ∈ tr, approaching e.1 = false) → svc.Obtained args tr := by
  have hthen : ∀ {α : Type} (args : Arguments) (f : Exchange × Origin → GatewayM α),
      (svc.approach args >>= f).Leaves fun tr =>
        (∃ e ∈ tr, approaching e.1 = false) → svc.Obtained args tr := by
    intro α args f
    rw [Prog.Leaves, Prog.allRuns_bind]
    apply ((svc.approach_runs args).and (Prog.allRuns_run _)).mono
    rintro tr out ⟨happroach, hrun⟩
    cases out with
    | error e =>
      rintro ⟨e, he, hnot⟩
      rw [happroach.approaching e he] at hnot
      cases hnot
    | ok a => exact (Prog.allRuns_run _).mono fun tr' _ _ _ => obtained_ok hrun
  cases call with
  | generate q forced | shadow q routeId releaseId | stream q forced =>
    cases h
    exact Prog.leaves_map (hthen _ _) _
  | _ => cases h

theorem calls_accounted_deltas : ∃ (c : State) (call : Call) (args : Arguments)
    (out : Except PyExc Outcome), Sample.service.machine.Reachable initial c ∧
    c.Finished 0 call out ∧ callArguments call = some args ∧
    (rows (c.trace 0)).map (·.success) = [true] ∧ Accounted args (c.trace 0) out := by
  obtain ⟨c, hm, hexp, hstays, hattempt, hrows, hended⟩ :
      ∃ c ∈ Sample.service.machine.moves? initial twoDeltaMoves,
        (∀ e ∈ c.trace 0, Sample.service.expected e = true ∧ Sample.service.counted e = true) ∧
        (∀ e ∈ c.trace 0, stays e = true) ∧ (∃ e ∈ c.trace 0, approaching e.1 = false) ∧
        (rows (c.trace 0)).map (·.success) = [true] ∧
        c.tasks[0]?.any (·.rest.ended) = true := by decide +kernel
  have hreach := Machine.reachable_of_moves _ .start hm
  obtain ⟨⟨call, rest⟩, ht, rfl⟩ := Machine.task_of_moves hm
  have ht : c.tasks[0]? = some ⟨_, rest⟩ := ht
  rw [ht] at hended
  obtain ⟨out, rfl⟩ := Prog.eq_ofExcept_of_ended (p := rest) hended
  have hobtained := Prog.AllRuns.run (obtained_of_attempt rfl) (hreach.finished ht) hattempt
  obtain ⟨-, haccounted⟩ := (calls_accounted hreach).2 0 _ _ out ht rfl hobtained
  exact ⟨c, _, _, out, hreach, ht, rfl, hrows, haccounted ⟨hexp, followed_iff.mpr hstays⟩⟩

def strictPlatform : Platform :=
  { Sample.platform with
    jsonschemaValidate := fun _ schema =>
      match schema.lookup "type" with
      | some (.int _) => .error .schemaError
      | _ => .ok () }

def strictService : Service := { Sample.service with platform := strictPlatform }

def malformedMoves : List (Move Input Call) :=
  .start (.generate { Sample.request with responseSchema := some [("type", .int 1)] } none) ::
    (Sample.goes 0 7 ++ [.run 0 (Sample.completion "{}")])

/-- The schema error leaves the gateway as it is, and nothing tells that the request was there. -/
theorem malformed_schema_unrecorded : ∃ (c : State) (call : Call) (args : Arguments),
    strictService.machine.Reachable initial c ∧ c.Finished 0 call (.error .schemaError) ∧
    callArguments call = some args ∧ strictService.Obtained args (c.trace 0) ∧
    Followed (c.trace 0) ∧ c.world.database.requestMetrics = [] ∧
    ¬ Accounted args (c.trace 0) (.error .schemaError) := by
  obtain ⟨c, hm, hstays, hattempt, hrows, hended⟩ :
      ∃ c ∈ strictService.machine.moves? initial malformedMoves,
        (∀ e ∈ c.trace 0, stays e = true) ∧ (∃ e ∈ c.trace 0, approaching e.1 = false) ∧
        c.world.database.requestMetrics = [] ∧
        c.tasks[0]?.any (fun t => match t.rest with
          | .throw e => e = .schemaError
          | _ => false) = true := by decide +kernel
  have hreach := Machine.reachable_of_moves _ .start hm
  obtain ⟨⟨call, rest⟩, ht, rfl⟩ := Machine.task_of_moves hm
  have ht : c.tasks[0]? = some ⟨_, rest⟩ := ht
  rw [ht] at hended
  have hrest : rest = .throw .schemaError := by
    cases rest <;> simp_all
  subst hrest
  have hrun : Prog.Run (strictService.body _) _ (.error .schemaError) := hreach.finished ht
  have hobtained := Prog.AllRuns.run (obtained_of_attempt rfl) hrun hattempt
  refine ⟨c, _, _, hreach, ht, rfl, hobtained, followed_iff.mpr hstays, hrows, fun h => ?_⟩
  obtain ⟨err, row, herr, -⟩ := h.evidenced
  cases herr

end Service

end AegisGateway
