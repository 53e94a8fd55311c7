import AegisGateway.Evidence
import AegisGateway.Fallback

/-!
# Fallbacks in the evidence

A row carries a count of fallbacks: the one that its call has kept, or the one of the response
that the call has found in the cache. The first leaves out a route that has failed after it had
produced output, and the second belongs to another request.
-/

open Coroutine JsonText

namespace AegisGateway

namespace Service

/-! ## What a call has been through -/

def isAttempt : Op → Bool
  | .beforeRequest _ => true
  | _ => false

def isSuccess : Op → Bool
  | .recordSuccess _ => true
  | _ => false

def hitOf : GatewayEvent → Option GatewayResponse
  | ⟨.cacheGet _ _, a⟩ => a
  | _ => none

def attemptCount (tr : GatewayTrace) : Nat := tr.countP fun e => isAttempt e.1

def successCount (tr : GatewayTrace) : Nat := tr.countP fun e => isSuccess e.1

def hits (tr : GatewayTrace) : List GatewayResponse := tr.filterMap hitOf

/-- The candidates of a call that have failed or have been refused. A call that has found nothing
in the cache and has attempted nothing has met its deadline before the first attempt. -/
def degradations (tr : GatewayTrace) : Nat :=
  if hits tr = [] ∧ attemptCount tr = 0 then 1 else attemptCount tr - successCount tr

/-- A row that tells of its own call what it should, by what the call has done before it. -/
structure FallbacksCounted (row : RequestMetric) (tr : GatewayTrace) : Prop where
  count : row.fallbackCount = degradations tr
  served : hits tr ≠ [] → row.fallbackCount = 0 ∧ row.routingRegret = 0

/-- The errors that end a stream for good once output has reached the consumer. -/
def cutsOff : PyExc → Bool
  | .aegis (.schemaViolation _) | .aegis (.provider _) | .timeoutError => true
  | _ => false

def breaksOff (svc : Service) : GatewayEvent → Bool
  | ⟨.openStream q _, script⟩ =>
    !(deltaTexts script.events).isEmpty &&
      match svc.scriptVerdict q script with
      | .error e => cutsOff e
      | .ok _ => false
  | _ => false

/-- No stream of the call has broken off, and what it has found in the cache has cost the request
that has stored it neither a fallback nor a regret. -/
structure Undistorted (svc : Service) (tr : GatewayTrace) : Prop where
  unbroken : ∀ e ∈ tr, svc.breaksOff e = false
  plain : ∀ hit ∈ hits tr, hit.fallbackCount = 0 ∧ hit.routingRegret = 0

/-! ## Events that count for nothing -/

def uncounted : Op → Bool
  | .beforeRequest _ | .recordSuccess _ | .cacheGet _ _ | .openStream _ _ => false
  | _ => true

variable {svc : Service}

@[simp]
theorem attemptCount_append (tr tr' : GatewayTrace) :
    attemptCount (tr ++ tr') = attemptCount tr + attemptCount tr' := List.countP_append ..

@[simp]
theorem successCount_append (tr tr' : GatewayTrace) :
    successCount (tr ++ tr') = successCount tr + successCount tr' := List.countP_append ..

@[simp]
theorem hits_append (tr tr' : GatewayTrace) : hits (tr ++ tr') = hits tr ++ hits tr' :=
  List.filterMap_append

theorem isAttempt_of_uncounted {o : Op} (h : uncounted o = true) : isAttempt o = false := by
  cases o <;> first | rfl | cases h

theorem isSuccess_of_uncounted {o : Op} (h : uncounted o = true) : isSuccess o = false := by
  cases o <;> first | rfl | cases h

section Neutral

variable {tr : GatewayTrace} (h : ∀ e ∈ tr, uncounted e.1 = true)

include h

theorem attemptCount_uncounted : attemptCount tr = 0 := by
  apply List.countP_eq_zero.mpr
  intro e he
  simp [isAttempt_of_uncounted (h e he)]

theorem successCount_uncounted : successCount tr = 0 := by
  apply List.countP_eq_zero.mpr
  intro e he
  simp [isSuccess_of_uncounted (h e he)]

theorem hits_uncounted : hits tr = [] := by
  apply List.filterMap_eq_nil_iff.mpr
  intro e he
  have huncounted := h e he
  rcases e with ⟨o, a⟩
  cases o <;> first | rfl | cases huncounted

theorem unbroken_uncounted : ∀ e ∈ tr, svc.breaksOff e = false := by
  intro e he
  have huncounted := h e he
  rcases e with ⟨o, a⟩
  cases o <;> first | rfl | cases huncounted

theorem degradations_uncounted (pre : GatewayTrace) : degradations (pre ++ tr) = degradations pre := by
  simp [degradations, attemptCount_uncounted h, successCount_uncounted h, hits_uncounted h]

theorem counted_uncounted (row : RequestMetric) (pre : GatewayTrace) :
    FallbacksCounted row (pre ++ tr) ↔ FallbacksCounted row pre := by
  have hhits : hits (pre ++ tr) = hits pre := by simp [hits_uncounted h]
  constructor
  · intro hc
    exact ⟨by rw [hc.count, degradations_uncounted h], fun hne => hc.served (hhits ▸ hne)⟩
  · intro hc
    exact ⟨by rw [hc.count, degradations_uncounted h], fun hne => hc.served (hhits ▸ hne)⟩

theorem undistorted_uncounted (pre : GatewayTrace) :
    svc.Undistorted (pre ++ tr) ↔ svc.Undistorted pre := by
  have hhits : hits (pre ++ tr) = hits pre := by simp [hits_uncounted h]
  constructor
  · intro hu
    exact ⟨fun e he => hu.unbroken e (List.mem_append_left _ he), hhits ▸ hu.plain⟩
  · intro hu
    exact ⟨List.forall_mem_append.mpr ⟨hu.unbroken, unbroken_uncounted h⟩, hhits.symm ▸ hu.plain⟩

end Neutral

theorem uncounted_of_settling {o : Op} (h : settling o = true) : uncounted o = true := by
  cases o <;> first | rfl | cases h

theorem uncounted_of_relaying {o : Op} (h : relaying o = true) : uncounted o = true := by
  cases o <;> first | rfl | cases h

/-! ## Rows in a trace -/

/-- Each row counts right if nothing has distorted it, and only then. The trace follows `pre`. -/
def RowsFrom (svc : Service) (pre tr : GatewayTrace) : Prop :=
  ∀ mid row post, tr = mid ++ ev (.recordMetric row) () :: post →
    (FallbacksCounted row (pre ++ mid) ↔ svc.Undistorted (pre ++ mid))

theorem RowsFrom.append {pre tr tr' : GatewayTrace} (h : svc.RowsFrom pre tr)
    (h' : svc.RowsFrom (pre ++ tr) tr') : svc.RowsFrom pre (tr ++ tr') := by
  intro mid row post htr
  rcases Prog.split_append htr with ⟨mid', rfl, -⟩ | ⟨mid', rfl, rfl⟩
  · exact h mid row mid' rfl
  · rw [← List.append_assoc]
    exact h' mid' row post rfl

theorem RowsFrom.prefix {pre tr tr' : GatewayTrace} (h : svc.RowsFrom pre (tr ++ tr')) :
    svc.RowsFrom pre tr := by
  rintro mid row post rfl
  exact h mid row (post ++ tr') (by simp)

theorem rowsFrom_of_none {pre tr : GatewayTrace} (h : rows tr = []) : svc.RowsFrom pre tr := by
  rintro mid row post rfl
  have hmem : row ∈ rows (mid ++ ev (.recordMetric row) () :: post) := by
    rw [rows_append]
    exact List.mem_append_right _ List.mem_cons_self
  rw [h] at hmem
  cases hmem

theorem rowsFrom_row {pre mid post : GatewayTrace} {row : RequestMetric}
    (hmid : ∀ e ∈ mid, uncounted e.1 = true) (hrows : rows mid = []) (hpost : rows post = [])
    (h : FallbacksCounted row pre ↔ svc.Undistorted pre) :
    svc.RowsFrom pre (mid ++ ev (.recordMetric row) () :: post) := by
  apply (rowsFrom_of_none hrows).append
  intro mid' row' post' htr
  cases mid' with
  | nil =>
    obtain ⟨hrow, -⟩ := List.cons.inj htr
    cases hrow
    rw [List.append_nil, counted_uncounted hmid, undistorted_uncounted hmid]
    exact h
  | cons e mid' =>
    obtain ⟨-, rfl⟩ := List.cons.inj htr
    exact absurd hpost (by simp [rows, rowOf])

/-! ## The counter of the loop -/

structure Tally (svc : Service) (pre : GatewayTrace) (st : LoopState) : Prop where
  attempts : attemptCount pre = st.fallbackCount
  successes : successCount pre = 0
  noHit : hits pre = []
  unbroken : ∀ e ∈ pre, svc.breaksOff e = false
  lastError : st.lastError.isSome = true ↔ 0 < st.fallbackCount

structure Summed (svc : Service) (pre : GatewayTrace) (st : LoopState) : Prop where
  degradations : degradations pre = st.fallbackCount
  noHit : hits pre = []
  unbroken : ∀ e ∈ pre, svc.breaksOff e = false

structure Unsettled (tr : GatewayTrace) : Prop where
  attempts : attemptCount tr = 1
  successes : successCount tr = 0
  noHit : hits tr = []
  rows : rows tr = []

section Tally

variable {pre tr : GatewayTrace} {st : LoopState}

theorem Summed.undistorted (h : svc.Summed pre st) : svc.Undistorted pre :=
  ⟨h.unbroken, by simp [h.noHit]⟩

theorem Summed.counted (h : svc.Summed pre st) {row : RequestMetric}
    (hrow : row.fallbackCount = st.fallbackCount) : FallbacksCounted row pre :=
  ⟨hrow.trans h.degradations.symm, fun hne => absurd h.noHit hne⟩

theorem Summed.uncounted (h : svc.Summed pre st) (hn : ∀ e ∈ tr, uncounted e.1 = true) :
    svc.Summed (pre ++ tr) st where
  degradations := by rw [degradations_uncounted hn, h.degradations]
  noHit := by rw [hits_append, h.noHit, hits_uncounted hn, List.append_nil]
  unbroken := List.forall_mem_append.mpr ⟨h.unbroken, unbroken_uncounted hn⟩

theorem Tally.summed (h : svc.Tally pre st) (he : st.lastError.isSome = true) :
    svc.Summed pre st where
  degradations := by
    have hpos := h.lastError.mp he
    have hattempts := h.attempts
    rw [Service.degradations, if_neg (by omega), h.successes]
    omega
  noHit := h.noHit
  unbroken := h.unbroken

theorem Tally.deadline (h : svc.Tally pre st) (route : ModelRoute) :
    svc.Summed pre (st.deadline route) := by
  unfold LoopState.deadline
  split_ifs with he
  · exact h.summed he
  · have hzero : st.fallbackCount = 0 := by
      have hnot := mt h.lastError.mpr he
      omega
    refine ⟨?_, h.noHit, h.unbroken⟩
    rw [Service.degradations, if_pos ⟨h.noHit, h.attempts.trans hzero⟩]
    simp [LoopState.failed, hzero]

theorem Tally.failed (h : svc.Tally pre st) (hone : Unsettled tr)
    (hu : ∀ e ∈ tr, svc.breaksOff e = false) (route : ModelRoute) (e : AegisError) :
    svc.Tally (pre ++ tr) (st.failed route e) where
  attempts := by
    rw [attemptCount_append, h.attempts, hone.attempts]
    rfl
  successes := by rw [successCount_append, h.successes, hone.successes]
  noHit := by rw [hits_append, h.noHit, hone.noHit, List.append_nil]
  unbroken := List.forall_mem_append.mpr ⟨h.unbroken, hu⟩
  lastError := by simp [LoopState.failed]

theorem Unsettled.append (h : Unsettled tr) {tr' : GatewayTrace}
    (hn : ∀ e ∈ tr', uncounted e.1 = true) (hrows : Service.rows tr' = []) :
    Unsettled (tr ++ tr') where
  attempts := by rw [attemptCount_append, h.attempts, attemptCount_uncounted hn]
  successes := by rw [successCount_append, h.successes, successCount_uncounted hn]
  noHit := by rw [hits_append, h.noHit, hits_uncounted hn, List.append_nil]
  rows := by rw [rows_append, h.rows, hrows, List.append_nil]

theorem unsettled_admitted (route : ModelRoute) (t : ℚ) (state : CircuitState) :
    Unsettled (admitted route t state) := ⟨rfl, rfl, rfl, rfl⟩

theorem unbroken_admitted (route : ModelRoute) (t : ℚ) (state : CircuitState) :
    ∀ e ∈ admitted route t state, svc.breaksOff e = false := by
  simp [admitted, breaksOff]

end Tally

/-! ## Attempts -/

/-- What an attempt leaves, by the way its candidate leaves the loop. -/
structure PassTally {α : Type} (svc : Service) (pre tr : GatewayTrace)
    (out : Except PyExc (Pass α)) : Prop where
  rows : svc.RowsFrom pre tr
  next : ∀ st, out = .ok (.next st) → svc.Tally (pre ++ tr) st
  broke : ∀ st, out = .ok (.broke st) → svc.Summed (pre ++ tr) st

section PassTally

variable {α : Type} {pre tr : GatewayTrace} {st : LoopState}

theorem passTally_next (hrows : rows tr = []) (h : svc.Tally (pre ++ tr) st) :
    svc.PassTally pre tr (.ok (.next st) : Except PyExc (Pass α)) where
  rows := rowsFrom_of_none hrows
  next := by
    rintro st' ⟨⟩
    exact h
  broke := by rintro st' ⟨⟩

theorem passTally_broke (hrows : rows tr = []) (h : svc.Summed (pre ++ tr) st) :
    svc.PassTally pre tr (.ok (.broke st) : Except PyExc (Pass α)) where
  rows := rowsFrom_of_none hrows
  next := by rintro st' ⟨⟩
  broke := by
    rintro st' ⟨⟩
    exact h

theorem passTally_returned (hrows : svc.RowsFrom pre tr) (a : α) :
    svc.PassTally pre tr (.ok (.returned a)) where
  rows := hrows
  next := by rintro st' ⟨⟩
  broke := by rintro st' ⟨⟩

theorem passTally_raised (hrows : svc.RowsFrom pre tr) (e : PyExc) :
    svc.PassTally pre tr (.error e : Except PyExc (Pass α)) where
  rows := hrows
  next := by rintro st' ⟨⟩
  broke := by rintro st' ⟨⟩

end PassTally

theorem Handled.tally {α : Type} {timeout : String} {route : ModelRoute} {st : LoopState}
    {e : PyExc} {pre tr tr' : GatewayTrace} {out : Except PyExc (Pass α)}
    (h : Handled timeout route st e tr' out) (ht : svc.Tally pre st) (hone : Unsettled tr)
    (hu : ∀ e ∈ tr, svc.breaksOff e = false) : svc.PassTally pre (tr ++ tr') out := by
  have hn : ∀ e ∈ tr', uncounted e.1 = true := fun e he => uncounted_of_settling (h.settling e he)
  have hwhole : Unsettled (tr ++ tr') := hone.append hn (rows_handled h)
  have hfailed := fun e => ht.failed hwhole
    (List.forall_mem_append.mpr ⟨hu, unbroken_uncounted hn⟩) route e
  cases h with
  | schemaViolation | circuitOpen | timeout | provider =>
    exact passTally_next hwhole.rows (hfailed _)
  | invalidRequest => exact passTally_broke hwhole.rows ((hfailed _).summed rfl)
  | unhandled => exact passTally_raised (rowsFrom_of_none hwhole.rows) _

theorem GaveUp.rowsFrom {α : Type} {x : Exchange} {st : LoopState} {pre tr : GatewayTrace}
    {out : Except PyExc α} (h : GaveUp x st tr out)
    (hs : st.lastError.isSome = true → svc.Summed pre st) : svc.RowsFrom pre tr := by
  cases h with
  | unrecorded | assertion => exact rowsFrom_of_none rfl
  | @recorded e route now t he hr hx =>
    have hsummed := hs (by rw [he]; rfl)
    have hassess : rows x.assessEvents = [] :=
      rows_eq_nil fun e he => rowOf_of_task (assessEvents_tasks x e he)
    have hclocks : ∀ e ∈ [ev .monotonic now, ev .datetimeNow t], uncounted e.1 = true := by
      simp [uncounted]
    exact rowsFrom_row hclocks rfl hassess
      (iff_of_true (hsummed.counted rfl) hsummed.undistorted)

theorem keepEvents_rowsFrom {x : Exchange} {response : GatewayResponse} {t : Int}
    {pre : GatewayTrace}
    (h : FallbacksCounted (x.responseRow response t) pre ↔ svc.Undistorted pre) :
    svc.RowsFrom pre (x.keepEvents response t) := by
  have hput : rows (x.putEvents response ++ x.launchEvents) = [] := by
    rw [rows_append, rows_launchEvents]
    unfold Exchange.putEvents
    split_ifs <;> rfl
  unfold Exchange.keepEvents
  split_ifs with hx
  · exact rowsFrom_of_none hput
  · have hclock : ∀ e ∈ [ev .datetimeNow t], uncounted e.1 = true := by simp [uncounted]
    exact rowsFrom_row hclock rfl hput h

theorem answered_counted {pre tr : GatewayTrace} {st : LoopState} (ht : svc.Tally pre st)
    (hone : Unsettled tr) (hu : ∀ e ∈ tr, svc.breaksOff e = false) (route : ModelRoute)
    (state : CircuitState) {row : RequestMetric} (hrow : row.fallbackCount = st.fallbackCount) :
    FallbacksCounted row (pre ++ (tr ++ successEvents route state)) ↔
      svc.Undistorted (pre ++ (tr ++ successEvents route state)) := by
  have hattempts : attemptCount (successEvents route state) = 0 := rfl
  have hsuccesses : successCount (successEvents route state) = 1 := rfl
  have hsuccessHits : hits (successEvents route state) = [] := rfl
  have hhits : hits (pre ++ (tr ++ successEvents route state)) = [] := by
    rw [hits_append, hits_append, ht.noHit, hone.noHit, hsuccessHits]
    rfl
  refine iff_of_true ⟨?_, fun hne => absurd hhits hne⟩ ⟨?_, by simp [hhits]⟩
  · have hcount : attemptCount (pre ++ (tr ++ successEvents route state)) =
        st.fallbackCount + 1 := by
      rw [attemptCount_append, attemptCount_append, ht.attempts, hone.attempts, hattempts]
    have hwon : successCount (pre ++ (tr ++ successEvents route state)) = 1 := by
      rw [successCount_append, successCount_append, ht.successes, hone.successes, hsuccesses]
    rw [degradations, if_neg (by omega), hcount, hwon, hrow]
    omega
  · simp only [List.forall_mem_append]
    exact ⟨ht.unbroken, hu, by simp [successEvents, breaksOff]⟩

theorem answered_rowsFrom {x : Exchange} {pre tr : GatewayTrace} {st : LoopState}
    (ht : svc.Tally pre st) (hone : Unsettled tr) (hu : ∀ e ∈ tr, svc.breaksOff e = false)
    (route : ModelRoute) (state : CircuitState) (now : ℚ) (t t' : Int)
    {response : GatewayResponse} (hresponse : response.fallbackCount = st.fallbackCount) :
    svc.RowsFrom pre ((tr ++ successEvents route state) ++
      (ev .monotonic now :: ev .datetimeNow t :: x.keepEvents response t')) := by
  have hquiet : rows (tr ++ successEvents route state) = [] := by
    rw [rows_append, hone.rows, rows_successEvents]
    rfl
  have hclocks : ∀ e ∈ [ev .monotonic now, ev .datetimeNow t], uncounted e.1 = true := by
    simp [uncounted]
  have hrow : svc.RowsFrom (pre ++ (tr ++ successEvents route state))
      ([ev .monotonic now, ev .datetimeNow t] ++ x.keepEvents response t') := by
    refine (rowsFrom_of_none rfl).append (keepEvents_rowsFrom ?_)
    rw [counted_uncounted hclocks, undistorted_uncounted hclocks]
    exact answered_counted ht hone hu route state hresponse
  exact (rowsFrom_of_none hquiet).append hrow

theorem broken_rowsFrom {x : Exchange} {pre tr mid : GatewayTrace} {st : LoopState}
    (ht : svc.Tally pre st) (hone : Unsettled tr) (hb : ∃ e ∈ tr, svc.breaksOff e = true)
    (hmid : ∀ e ∈ mid, uncounted e.1 = true) (hrows : rows mid = []) (route : ModelRoute)
    (error : AegisError) (now : ℚ) (t : Int) :
    svc.RowsFrom pre (tr ++ (mid ++ x.errorEvents route error st.fallbackCount now t)) := by
  obtain ⟨e, he, hbroken⟩ := hb
  have hassess : rows x.assessEvents = [] :=
    rows_eq_nil fun e he => rowOf_of_task (assessEvents_tasks x e he)
  have hcount : degradations (pre ++ tr) = st.fallbackCount + 1 := by
    have hattempts : attemptCount (pre ++ tr) = st.fallbackCount + 1 := by
      rw [attemptCount_append, ht.attempts, hone.attempts]
    have hsuccesses : successCount (pre ++ tr) = 0 := by
      rw [successCount_append, ht.successes, hone.successes]
    rw [degradations, if_neg (by omega), hattempts, hsuccesses]
    omega
  have hclocks : ∀ e ∈ mid ++ [ev .monotonic now, ev .datetimeNow t], uncounted e.1 = true :=
    List.forall_mem_append.mpr ⟨hmid, by simp [uncounted]⟩
  have hquiet : rows (mid ++ [ev .monotonic now, ev .datetimeNow t]) = [] := by
    rw [rows_append, hrows]
    rfl
  -- The row counts the candidates before this one, and the broken stream is one more.
  have hmiscounted : ¬ FallbacksCounted (x.errorRow route error st.fallbackCount
      ((now - x.started) * 1000) t) (pre ++ tr) := by
    intro h
    have hrow := h.count
    rw [hcount] at hrow
    exact absurd hrow (Nat.ne_of_lt (Nat.lt_succ_self _))
  have hdistorted : ¬ svc.Undistorted (pre ++ tr) := by
    intro h
    have hfalse := h.unbroken e (List.mem_append_right _ he)
    rw [hbroken] at hfalse
    cases hfalse
  have hrow := rowsFrom_row hclocks hquiet hassess (iff_of_false hmiscounted hdistorted)
  rw [List.append_assoc] at hrow
  exact (rowsFrom_of_none hone.rows).append hrow

theorem GeneratePassRun.tally {x : Exchange} {c : RoutingCandidate} {route : ModelRoute}
    {st : LoopState} {pre tr : GatewayTrace} {out : Except PyExc (Pass GatewayResponse)}
    (h : svc.GeneratePassRun x c route st tr out) (ht : svc.Tally pre st) :
    svc.PassTally pre tr out := by
  have hcalled : ∀ t state a, Unsettled (admitted route t state ++ [ev (.complete (attemptRequest
      x.request (remainingSeconds x.started x.request t)) route) a]) ∧
      ∀ e ∈ admitted route t state ++ [ev (.complete (attemptRequest x.request
        (remainingSeconds x.started x.request t)) route) a], svc.breaksOff e = false :=
    fun t state a => ⟨⟨rfl, rfl, rfl, rfl⟩, by simp [admitted, breaksOff]⟩
  cases h with
  | deadline =>
    exact passTally_broke rfl ((ht.deadline route).uncounted (by simp [uncounted]))
  | refused =>
    exact passTally_next rfl (ht.failed ⟨rfl, rfl, rfl, rfl⟩ (by simp [breaksOff]) route _)
  | unconfigured _ _ hh =>
    exact hh.tally ht (unsettled_admitted route _ _) (unbroken_admitted route _ _)
  | @failed _ _ _ t state a e tr _ _ _ he hh =>
    obtain ⟨hone, hu⟩ := hcalled t state a
    have hpass := hh.tally ht hone hu
    rwa [List.append_assoc] at hpass
  | @succeeded _ _ _ t state state' a result parsed valid now createdAt createdAt' _ _ _ =>
    obtain ⟨hone, hu⟩ := hcalled t state a
    have hresponse : (completeResponse x route c st.fallbackCount result parsed valid now
      createdAt).fallbackCount = st.fallbackCount := rfl
    have hrows := answered_rowsFrom (x := x) ht hone hu route state' now createdAt createdAt'
      hresponse
    refine passTally_returned ?_ _
    simpa using hrows

/-! ## Streams -/

theorem RelayRun.emitted_eq {x : Exchange} {route : ModelRoute} {es : List ProviderStreamEvent}
    {r r' : Relay} {tr : GatewayTrace} (h : RelayRun x route es r tr r' false) :
    r'.emitted = (r.emitted || !(deltaTexts es).isEmpty) := by
  generalize hl : false = left at h
  induction h with
  | nil => simp [deltaTexts]
  | start he _ ih | usage he _ ih => simp [ih hl, deltaTexts, he, Relay.usage]
  | startLeft | deltaLeft => cases hl
  | delta he _ _ ih => simp [ih hl, deltaTexts, he, Relay.delta]
  | other he _ ih => rcases he with he | he <;> simp [ih hl, deltaTexts, he]

theorem breaksOff_failed {q : GatewayRequest} (route : ModelRoute) {script : Script} {e : PyExc}
    (h : svc.scriptVerdict q script = .error e) :
    svc.breaksOff (ev (.openStream q route) script) =
      (!(deltaTexts script.events).isEmpty && cutsOff e) := by
  simp only [breaksOff, h]

theorem Interrupted.tally {x : Exchange} {route : ModelRoute} {st : LoopState} {e : PyExc}
    {pre tr tr' : GatewayTrace} {out : Except PyExc (Pass Unit)}
    (h : Interrupted x route st e tr' out) (ht : svc.Tally pre st) (hone : Unsettled tr)
    (hu : cutsOff e = false → ∀ e ∈ tr, svc.breaksOff e = false)
    (hb : cutsOff e = true → ∃ e ∈ tr, svc.breaksOff e = true) :
    svc.PassTally pre (tr ++ tr') out := by
  have hfailure : ∀ state, (∀ e ∈ failureEvents route state, uncounted e.1 = true) ∧
      rows (failureEvents route state) = [] :=
    fun state => ⟨by simp [failureEvents, uncounted], rfl⟩
  cases h with
  | schemaViolation m now t =>
    have hrows := broken_rowsFrom (x := x) ht hone (hb rfl) (List.forall_mem_nil _) rfl route
      (.schemaViolation m) now t
    exact passTally_raised hrows _
  | circuitOpen m =>
    have hset : ∀ e ∈ [ev (.setCircuitState route.id .isOpen) ()], uncounted e.1 = true := by
      simp [uncounted]
    have hwhole := hone.append hset rfl
    refine passTally_next hwhole.rows (ht.failed hwhole ?_ route _)
    exact List.forall_mem_append.mpr ⟨hu rfl, unbroken_uncounted hset⟩
  | timeout state now t | provider e state now t =>
    have hrows := fun error => broken_rowsFrom (x := x) ht hone (hb rfl) (hfailure state).1
      (hfailure state).2 route error now t
    exact passTally_raised (hrows _) _
  | unhandled =>
    rw [List.append_nil]
    exact passTally_raised (rowsFrom_of_none hone.rows) _

theorem unsettled_opened (q : GatewayRequest) (route : ModelRoute) (t : ℚ) (state : CircuitState)
    (script : Script) {tr : GatewayTrace} (hrelay : ∀ e ∈ tr, relaying e.1 = true) :
    Unsettled (admitted route t state ++ (ev (.openStream q route) script :: tr)) := by
  have hrows : rows tr = [] := rows_eq_nil fun e he => rowOf_of_relaying (hrelay e he)
  have hopened : Unsettled (admitted route t state ++ [ev (.openStream q route) script]) :=
    ⟨rfl, rfl, rfl, rfl⟩
  have hwhole := hopened.append (fun e he => uncounted_of_relaying (hrelay e he)) hrows
  rwa [List.append_assoc] at hwhole

theorem unbroken_opened {q : GatewayRequest} {route : ModelRoute} {script : Script}
    (hs : svc.breaksOff (ev (.openStream q route) script) = false) (t : ℚ) (state : CircuitState)
    {tr : GatewayTrace} (hrelay : ∀ e ∈ tr, relaying e.1 = true) :
    ∀ e ∈ admitted route t state ++ (ev (.openStream q route) script :: tr),
      svc.breaksOff e = false :=
  List.forall_mem_append.mpr ⟨unbroken_admitted route t state, List.forall_mem_cons.mpr
    ⟨hs, unbroken_uncounted fun e he => uncounted_of_relaying (hrelay e he)⟩⟩

theorem StreamPassRun.tally {x : Exchange} {c : RoutingCandidate} {route : ModelRoute}
    {st : LoopState} {pre tr : GatewayTrace} {out : Except PyExc (Pass Unit)}
    (h : svc.StreamPassRun x c route st tr out) (ht : svc.Tally pre st) :
    svc.PassTally pre tr out := by
  cases h with
  | deadline =>
    exact passTally_broke rfl ((ht.deadline route).uncounted (by simp [uncounted]))
  | refused =>
    exact passTally_next rfl (ht.failed ⟨rfl, rfl, rfl, rfl⟩ (by simp [breaksOff]) route _)
  | unconfigured _ _ hh =>
    exact hh.tally ht (unsettled_admitted route _ _) (unbroken_admitted route _ _)
  | @left _ _ _ t state script tr r _ _ hl =>
    have hone := unsettled_opened (attemptRequest x.request
      (remainingSeconds x.started x.request t)) route t state script hl.relaying
    exact passTally_raised (rowsFrom_of_none hone.rows) _
  | @failed _ _ _ t state script tr tr' r e _ _ _ hl he hh =>
    generalize hq : attemptRequest x.request (remainingSeconds x.started x.request t) = q
    have hone := unsettled_opened q route t state script hl.relaying
    have hverdict : svc.scriptVerdict q script = .error e := by
      rw [← hl.verdict, ← hq]
      exact he
    have hbreaks := breaksOff_failed route hverdict
    have hemitted : r.emitted = !(deltaTexts script.events).isEmpty := by simpa using hl.emitted_eq
    rw [← hemitted] at hbreaks
    rw [← List.cons_append, ← List.append_assoc]
    unfold StreamHandled at hh
    split_ifs at hh with hem
    · -- Output is out, so the stream has broken off exactly if its error cuts it off.
      rw [hem, Bool.true_and] at hbreaks
      refine Interrupted.tally hh ht hone (fun hcut => ?_) fun hcut => ?_
      · exact unbroken_opened (hbreaks.trans hcut) t state hl.relaying
      · exact ⟨_, List.mem_append_right _ List.mem_cons_self, hbreaks.trans hcut⟩
    · -- Nothing has reached the consumer, so nothing has broken off.
      rw [Bool.not_eq_true] at hem
      rw [hem, Bool.false_and] at hbreaks
      exact Handled.tally hh ht hone (unbroken_opened hbreaks t state hl.relaying)
  | @succeeded _ _ _ t state state' script tr r parsed valid now createdAt createdAt' consumer
      _ _ hl hv =>
    generalize hq : attemptRequest x.request (remainingSeconds x.started x.request t) = q
    have hone := unsettled_opened q route t state script hl.relaying
    have hverdict : svc.scriptVerdict q script = .ok (parsed, valid) := by
      rw [← hl.verdict, ← hq]
      exact hv
    have hbreaks : svc.breaksOff (ev (.openStream q route) script) = false := by
      simp [breaksOff, hverdict]
    have hresponse : (streamResponse x route c st.fallbackCount r parsed valid now
      createdAt).fallbackCount = st.fallbackCount := rfl
    have hrows := answered_rowsFrom (x := x) ht hone (unbroken_opened hbreaks t state hl.relaying)
      route state' now createdAt createdAt' hresponse
    have hyield : rows [ev (.yieldEvent (streamEvent x route .done "" (some (streamResponse x route
      c st.fallbackCount r parsed valid now createdAt)))) consumer] = [] := rfl
    have hlast := hrows.append (rowsFrom_of_none hyield)
    cases consumer with
    | resumes =>
      refine passTally_returned ?_ ()
      simpa using hlast
    | leaves =>
      refine passTally_raised ?_ _
      simpa using hlast

/-! ## Calls -/

theorem LoopRun.rowsFrom {α : Type} {x : Exchange} {R : PassRel α}
    (hR : ∀ {c route st pre tr out}, R c route st tr out → svc.Tally pre st →
      svc.PassTally pre tr out)
    {cs : List RoutingCandidate} {st : LoopState} {pre tr : GatewayTrace} {out : Except PyExc α}
    (h : svc.LoopRun x R cs st tr out) (ht : svc.Tally pre st) : svc.RowsFrom pre tr := by
  induction h generalizing pre with
  | exhausted h => exact h.rowsFrom ht.summed
  | unknown => exact rowsFrom_of_none rfl
  | raised hr hp | returned hr hp => exact (hR hp ht).rows
  | broke hr hp h =>
    exact (hR hp ht).rows.append (h.rowsFrom fun _ => (hR hp ht).broke _ rfl)
  | next hr hp h ih => exact (hR hp ht).rows.append (ih ((hR hp ht).next _ rfl))

theorem uncounted_of_preliminary {o : Op} (h : preliminary o = true) : uncounted o = true := by
  cases o <;> first | rfl | cases h

theorem asked_uncounted (xs : List (ModelRoute × Bool)) : ∀ e ∈ asked xs, uncounted e.1 = true := by
  intro e he
  obtain ⟨a, -, rfl⟩ := List.mem_map.mp he
  rfl

theorem tally_missed {tr : GatewayTrace} (h : ∀ e ∈ tr, preliminary e.1 = true) (x : Exchange)
    (xs : List (ModelRoute × Bool)) : svc.Tally (tr ++ (missEvents x ++ asked xs)) {} := by
  have htr : ∀ e ∈ tr, uncounted e.1 = true := fun e he => uncounted_of_preliminary (h e he)
  have hasked := asked_uncounted xs
  have hmiss : attemptCount (missEvents x) = 0 ∧ successCount (missEvents x) = 0 ∧
      hits (missEvents x) = [] ∧ ∀ e ∈ missEvents x, svc.breaksOff e = false := by
    unfold missEvents
    split_ifs
    · exact ⟨rfl, rfl, rfl, by simp [breaksOff]⟩
    · exact ⟨rfl, rfl, rfl, by simp⟩
  obtain ⟨hattempts, hsuccesses, hhits, hunbroken⟩ := hmiss
  constructor
  · simp [attemptCount_uncounted htr, attemptCount_uncounted hasked, hattempts]
  · simp [successCount_uncounted htr, successCount_uncounted hasked, hsuccesses]
  · simp [hits_uncounted htr, hits_uncounted hasked, hhits]
  · simp only [List.forall_mem_append]
    exact ⟨unbroken_uncounted htr, hunbroken, unbroken_uncounted hasked⟩
  · simp

theorem served_counted {tr : GatewayTrace} (h : ∀ e ∈ tr, preliminary e.1 = true)
    (q : GatewayRequest) (ns : String) {hit : GatewayResponse} {row : RequestMetric}
    (hcount : row.fallbackCount = hit.fallbackCount)
    (hregret : row.routingRegret = hit.routingRegret) :
    FallbacksCounted row (tr ++ [ev (.cacheGet q ns) (some hit)]) ↔
      svc.Undistorted (tr ++ [ev (.cacheGet q ns) (some hit)]) := by
  have htr : ∀ e ∈ tr, uncounted e.1 = true := fun e he => uncounted_of_preliminary (h e he)
  have hhits : hits (tr ++ [ev (.cacheGet q ns) (some hit)]) = [hit] := by
    rw [hits_append, hits_uncounted htr]
    rfl
  have hattempts : attemptCount (tr ++ [ev (.cacheGet q ns) (some hit)]) = 0 := by
    rw [attemptCount_append, attemptCount_uncounted htr]
    rfl
  constructor
  · intro hc
    obtain ⟨hzero, hnone⟩ := hc.served (by simp [hhits])
    refine ⟨List.forall_mem_append.mpr ⟨unbroken_uncounted htr, by simp [breaksOff]⟩, ?_⟩
    rw [hhits, List.forall_mem_singleton]
    exact ⟨hcount ▸ hzero, hregret ▸ hnone⟩
  · intro hu
    obtain ⟨hzero, hnone⟩ := hu.plain hit (by simp [hhits])
    refine ⟨?_, fun _ => ⟨hcount.trans hzero, hregret.trans hnone⟩⟩
    rw [degradations, hhits, hattempts, hcount, hzero]
    simp

theorem ServedRun.rowsFrom {x : Exchange} {hit : GatewayResponse} {pre tr : GatewayTrace}
    {out : Except PyExc GatewayResponse} (h : ServedRun x hit tr out)
    (hpre : ∀ row : RequestMetric, row.fallbackCount = hit.fallbackCount →
      row.routingRegret = hit.routingRegret → (FallbacksCounted row pre ↔ svc.Undistorted pre)) :
    svc.RowsFrom pre tr := by
  cases h with
  | served now t t' =>
    have hclocks : ∀ e ∈ [ev .monotonic now, ev .datetimeNow t, ev .datetimeNow t'],
        uncounted e.1 = true := by simp [uncounted]
    exact rowsFrom_row hclocks rfl (rows_launchEvents x) (hpre _ rfl rfl)

theorem StreamServedRun.rowsFrom {x : Exchange} {hit : GatewayResponse} {pre tr : GatewayTrace}
    {out : Except PyExc Unit} (h : StreamServedRun x hit tr out)
    (hpre : ∀ row : RequestMetric, row.fallbackCount = hit.fallbackCount →
      row.routingRegret = hit.routingRegret → (FallbacksCounted row pre ↔ svc.Undistorted pre)) :
    svc.RowsFrom pre tr := by
  cases h with
  | leftAtStart | leftAtDelta => exact rowsFrom_of_none rfl
  | served now t consumer =>
    have hclocks : ∀ e ∈ [ev .monotonic now, hitEvent x (streamedHit x hit now) .start "" none
        .resumes, hitEvent x (streamedHit x hit now) .delta (streamedHit x hit now).text none
          .resumes, ev .datetimeNow t], uncounted e.1 = true := by simp [hitEvent, uncounted]
    have hlast : rows (x.launchEvents ++ [hitEvent x (streamedHit x hit now) .done ""
        (some (streamedHit x hit now)) consumer]) = [] := by
      rw [rows_append, rows_launchEvents]
      rfl
    exact rowsFrom_row hclocks rfl hlast (hpre _ rfl rfl)

theorem CallRun.rowsFrom {α : Type} {args : Arguments}
    {served : Exchange → GatewayResponse → GatewayTrace → Except PyExc α → Prop}
    {R : Exchange → PassRel α}
    (hserved : ∀ {x hit pre tr out}, served x hit tr out →
      (∀ row : RequestMetric, row.fallbackCount = hit.fallbackCount →
        row.routingRegret = hit.routingRegret →
          (FallbacksCounted row pre ↔ svc.Undistorted pre)) → svc.RowsFrom pre tr)
    (hR : ∀ {x c route st pre tr out}, R x c route st tr out → svc.Tally pre st →
      svc.PassTally pre tr out)
    {tr : GatewayTrace} {out : Except PyExc α} (h : svc.CallRun args served R tr out) :
    svc.RowsFrom [] tr := by
  have happroach : ∀ {tr out}, svc.ApproachRun args tr out → svc.RowsFrom [] tr := fun h =>
    rowsFrom_of_none (rows_eq_nil fun e he => rowOf_of_approaching (h.approaching e he))
  cases h with
  | stopped h => exact happroach h
  | served h hs =>
    refine (happroach h).append (hserved hs fun row hcount hregret => ?_)
    cases h with
    | hit hb => exact served_counted hb.preliminary _ _ hcount hregret
  | looped h hl =>
    refine (happroach h).append (hl.rowsFrom hR ?_)
    cases h with
    | decided hb => exact tally_missed hb.preliminary _ _

theorem body_rowsFrom {call : Call} {args : Arguments} (h : callArguments call = some args) :
    (svc.body call).Leaves (svc.RowsFrom []) := by
  have hgenerate : ∀ args, (svc.generate args).Leaves (svc.RowsFrom []) := fun args =>
    (svc.generate_runs args).mono fun _ _ h =>
      h.rowsFrom ServedRun.rowsFrom GeneratePassRun.tally
  cases call with
  | generate q forced | shadow q routeId releaseId => exact Prog.leaves_map (hgenerate _) _
  | stream q forced =>
    refine Prog.leaves_map ((svc.stream_runs q forced).mono fun _ _ h => ?_) _
    exact h.rowsFrom StreamServedRun.rowsFrom StreamPassRun.tally
  | _ => cases h

theorem closed_rows_nil : Prog.Closed fun tr : GatewayTrace => rows tr = [] where
  nil := rfl
  append := fun h h' => by rw [rows_append, h, h', List.append_nil]

theorem generate_rows_nil {args : Arguments} (hargs : args.evaluation = true) :
    (svc.generate args).Leaves fun tr => rows tr = [] := by
  refine (generate_oneExchange args).mono fun tr h => rows_eq_nil fun e he => ?_
  rcases e with ⟨o, a⟩
  cases o with
  | recordMetric m =>
    rcases h with hp | ⟨tr₀, tr₁, x, rfl, hb, hx⟩
    · cases hp _ he
    · rcases List.mem_append.mp he with he | he
      · cases hb.preliminary _ he
      · have honline := ((hx _ he).row m rfl).online
        rw [hb.evaluation, hargs] at honline
        cases honline
  | _ => rfl

theorem rowOf_of_controlling {o : Op} (h : controlling o = true) : rowOf o = none := by
  cases o <;> first | rfl | cases h

theorem body_rows_nil {call : Call} (h : callArguments call = none) :
    (svc.body call).Leaves fun tr => rows tr = [] := by
  refine body_leaves closed_rows_nil (fun args hargs => ?_) (fun q forced hcall => ?_) fun e he => ?_
  · rcases hargs with hargs | hargs
    · rw [h] at hargs
      cases hargs
    · exact generate_rows_nil hargs
  · subst hcall
    cases h
  · exact rows_eq_nil
      (List.forall_mem_singleton.mpr (rowOf_of_controlling (controlling_of_controls he)))

/-! ## The table -/

def taskTrace (log : List (Nat × GatewayEvent)) (i : Nat) : GatewayTrace :=
  (log.filter fun e => e.1 == i).map (·.2)

/-- The rows of a log, each with what its own call had done before it. -/
def written (before : List (Nat × GatewayEvent)) :
    List (Nat × GatewayEvent) → List (RequestMetric × GatewayTrace)
  | [] => []
  | e :: log =>
    ((rowOf e.2.1).toList.map fun row => (row, taskTrace before e.1)) ++ written (before ++ [e]) log

theorem written_rows (before log : List (Nat × GatewayEvent)) :
    (written before log).map (·.1) = log.filterMap fun e => rowOf e.2.1 := by
  induction log generalizing before with
  | nil => rfl
  | cons e log ih =>
    rw [written, List.map_append, ih, List.filterMap_cons]
    cases rowOf e.2.1 <;> rfl

theorem mem_written {before log : List (Nat × GatewayEvent)} {w : RequestMetric × GatewayTrace}
    (h : w ∈ written before log) : ∃ mid i post,
      log = mid ++ (i, ev (.recordMetric w.1) ()) :: post ∧ w.2 = taskTrace (before ++ mid) i := by
  induction log generalizing before with
  | nil => cases h
  | cons e log ih =>
    rcases List.mem_append.mp h with h | h
    · obtain ⟨row, hrow, rfl⟩ := List.mem_map.mp h
      obtain ⟨i, o, a⟩ := e
      cases o with
      | recordMetric m =>
        cases List.mem_singleton.mp hrow
        exact ⟨[], i, log, rfl, by rw [List.append_nil]⟩
      | _ => cases hrow
    · obtain ⟨mid, i, post, rfl, hw⟩ := ih h
      exact ⟨e :: mid, i, post, rfl, by simpa using hw⟩

/-- A row of the table counts right exactly if nothing has distorted it. -/
theorem counted_of_written {c : State} (h : svc.machine.Reachable initial c)
    {w : RequestMetric × GatewayTrace} (hw : w ∈ written [] c.log) :
    FallbacksCounted w.1 w.2 ↔ svc.Undistorted w.2 := by
  obtain ⟨mid, i, post, hlog, htrace⟩ := mem_written hw
  rw [List.nil_append] at htrace
  have hsplit : c.trace i = w.2 ++ ev (.recordMetric w.1) () :: taskTrace post i := by
    rw [htrace]
    simp [Pool.trace, hlog, taskTrace]
  have hmem : (i, ev (.recordMetric w.1) ()) ∈ c.log := by simp [hlog]
  obtain ⟨t, ht⟩ := h.task_of_mem hmem
  have hsteps := h.onTheWay.2 i t ht
  cases hargs : callArguments t.call with
  | none =>
    have hrows : rows (c.trace i) = [] :=
      Prog.Leaves.steps (fun tr tr' hnil => (List.append_eq_nil_iff.mp
        ((rows_append tr tr').symm.trans hnil)).1) (body_rows_nil hargs) hsteps
    rw [hsplit, rows_append] at hrows
    simp [rows, rowOf] at hrows
  | some args =>
    have hrows := Prog.Leaves.steps (fun _ _ => RowsFrom.prefix) (body_rowsFrom hargs) hsteps
    exact hrows w.2 w.1 _ hsplit

/-- The table holds the rows of the calls, and each counts the candidates of its own call that have
failed or have been refused exactly if the call has met neither a stream that broke off nor a
cached response that counts something. Where no call has, the failovers of a summary are the
requests that were themselves degraded. -/
theorem fallbacks_accounted {c : State} (h : svc.machine.Reachable initial c) :
    c.world.database.requestMetrics = (written [] c.log).map (·.1) ∧
    (∀ w ∈ written [] c.log, FallbacksCounted w.1 w.2 ↔ svc.Undistorted w.2) ∧
    ((∀ w ∈ written [] c.log, svc.Undistorted w.2) → ∀ ws ⊆ written [] c.log,
      (summarizeMetrics (ws.map (·.1))).failoverSuccessRate =
        share (·.1.success) (ws.filter fun w => 0 < degradations w.2)) := by
  refine ⟨?_, fun w hw => counted_of_written h hw, fun hu ws hws => ?_⟩
  · rw [table_of_reach h, written_rows]
  · have hcount : ∀ w ∈ ws, w.1.fallbackCount = degradations w.2 := fun w hw =>
      ((counted_of_written h (hws hw)).mpr (hu w (hws hw))).count
    have hfilter : (ws.map (·.1)).filter (fun m => Decidable.decide (0 < m.fallbackCount)) =
        (ws.filter fun w => 0 < degradations w.2).map (·.1) := by
      rw [List.filter_map]
      congr 1
      apply List.filter_congr
      intro w hw
      simp [hcount w hw]
    change share (·.success) ((ws.map (·.1)).filter fun m => Decidable.decide (0 < m.fallbackCount)) = _
    rw [hfilter, share_map]

/-! ## Two runs -/

/-- The provider of the first route has no adapter, and the second one answers. -/
def failoverMoves : List (Move Input Call) :=
  .start (.generate cachedRequest none) :: (Sample.goes 0 14 ++
    .run 0 (Sample.completion "hello") :: Sample.goes 0 7)

theorem fallbacks_accounted_rescued : ∃ c : State, strayService.machine.Reachable initial c ∧
    (written [] c.log).map (fun w => (w.1.success, w.1.fallbackCount)) = [(true, 1)] ∧
    ∀ w ∈ written [] c.log, FallbacksCounted w.1 w.2 := by
  obtain ⟨c, hm, hrows, hunbroken, hplain⟩ :
      ∃ c ∈ strayService.machine.moves? initial failoverMoves,
        (written [] c.log).map (fun w => (w.1.success, w.1.fallbackCount)) = [(true, 1)] ∧
        (∀ w ∈ written [] c.log, ∀ e ∈ w.2, strayService.breaksOff e = false) ∧
        ∀ w ∈ written [] c.log, hits w.2 = [] := by decide +kernel
  have hc := Machine.reachable_of_moves _ .start hm
  refine ⟨c, hc, hrows, fun w hw => ?_⟩
  exact ((fallbacks_accounted hc).2.1 w hw).mpr ⟨hunbroken w hw, by simp [hplain w hw]⟩

theorem not_counted_of_ne {row : RequestMetric} {tr : GatewayTrace}
    (h : row.fallbackCount ≠ degradations tr) : ¬ FallbacksCounted row tr := fun hc => h hc.count

def brokenScript : Script := ⟨[⟨.delta, "hel", none, none⟩], some .timeoutError⟩

def brokenMoves : List (Move Input Call) :=
  .start (.stream Sample.request none) :: (Sample.goes 0 7 ++
    [.run 0 (.script brokenScript), .run 0 .go, .run 0 (.consumer .resumes)] ++ Sample.goes 0 5)

theorem broken_stream_uncounted : ∃ c : State, Sample.service.machine.Reachable initial c ∧
    ∃ w ∈ written [] c.log, attemptCount w.2 = 1 ∧ successCount w.2 = 0 ∧
      w.1.fallbackCount = 0 ∧ w.1.fallbackCount ≠ degradations w.2 := by
  obtain ⟨c, hm, hrow⟩ : ∃ c ∈ Sample.service.machine.moves? initial brokenMoves,
      ∃ w ∈ written [] c.log, attemptCount w.2 = 1 ∧ successCount w.2 = 0 ∧
        w.1.fallbackCount = 0 ∧ w.1.fallbackCount ≠ degradations w.2 := by decide +kernel
  exact ⟨c, Machine.reachable_of_moves _ .start hm, hrow⟩

def onePlatform : Platform := { Sample.platform with sha256 := fun _ => [] }

def repeatService : Service := { strayService with platform := onePlatform }

/-- A request that has been rescued is made once more. -/
def repeatedMoves : List (Move Input Call) :=
  failoverMoves ++ .start (.generate cachedRequest none) :: Sample.goes 1 8

theorem cached_fallback_counted : ∃ c : State, repeatService.machine.Reachable initial c ∧
    ∃ w ∈ written [] c.log, w.1.cacheHit = true ∧ attemptCount w.2 = 0 ∧
      w.1.fallbackCount = 1 ∧ w.1.fallbackCount ≠ degradations w.2 := by
  obtain ⟨c, hm, hrow⟩ : ∃ c ∈ repeatService.machine.moves? initial repeatedMoves,
      ∃ w ∈ written [] c.log, w.1.cacheHit = true ∧ attemptCount w.2 = 0 ∧
        w.1.fallbackCount = 1 ∧ w.1.fallbackCount ≠ degradations w.2 := by decide +kernel
  exact ⟨c, Machine.reachable_of_moves _ .start hm, hrow⟩

theorem fallbacks_miscounted :
    (∃ c : State, Sample.service.machine.Reachable initial c ∧ ∃ w ∈ written [] c.log,
      attemptCount w.2 = 1 ∧ successCount w.2 = 0 ∧ w.1.fallbackCount = 0 ∧
        ¬ FallbacksCounted w.1 w.2) ∧
    ∃ c : State, repeatService.machine.Reachable initial c ∧ ∃ w ∈ written [] c.log,
      w.1.cacheHit = true ∧ attemptCount w.2 = 0 ∧ w.1.fallbackCount = 1 ∧
        ¬ FallbacksCounted w.1 w.2 := by
  constructor
  · obtain ⟨c, hc, w, hw, hattempts, hsuccesses, hcount, hne⟩ := broken_stream_uncounted
    exact ⟨c, hc, w, hw, hattempts, hsuccesses, hcount, not_counted_of_ne hne⟩
  · obtain ⟨c, hc, w, hw, hhit, hattempts, hcount, hne⟩ := cached_fallback_counted
    exact ⟨c, hc, w, hw, hhit, hattempts, hcount, not_counted_of_ne hne⟩

end Service

end AegisGateway
