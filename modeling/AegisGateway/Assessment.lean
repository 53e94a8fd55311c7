import AegisGateway.Releases

/-!
# Rolling back

An assessment reads the release, reads its evidence and then writes the state, without a
look at what the state has become in between.
-/

open Coroutine

namespace AegisGateway

namespace Service

variable {svc : Service}

/-! ## One assessment -/

/-- What makes an assessment roll a release back: enough rows, and a breach. -/
def Breached (r : Release) (ms : List RequestMetric) : Prop :=
  r.minCanarySamples ≤ ms.length ∧ breaches r (summarizeMetrics ms) ≠ []

instance (r : Release) (ms : List RequestMetric) : Decidable (Breached r ms) :=
  inferInstanceAs (Decidable (_ ∧ _))

def rollbackReason (r : Release) (ms : List RequestMetric) : String :=
  ";".intercalate (breaches r (summarizeMetrics ms))

def assessed (id : String) (r : Release) (ms : List RequestMetric) : GatewayTrace :=
  [ev (.getRelease id) (.ok r), ev (.metrics (some r.id) none (some true) 100000) ms]

inductive AssessRun (id : String) : GatewayTrace → Except PyExc RollbackDecision → Prop
  | missing (m : String) :
      AssessRun id [ev (.getRelease id) (.error m)] (.error (.aegis (.artifactNotFound m)))
  | idle {r : Release} (h : r.state ≠ .candidate) :
      AssessRun id [ev (.getRelease id) (.ok r)] (.ok { rolledBack := false })
  | kept {r : Release} {ms : List RequestMetric} (h : r.state = .candidate)
      (hb : ¬ Breached r ms) : AssessRun id (assessed id r ms) (.ok { rolledBack := false })
  | vanished {r : Release} {ms : List RequestMetric} (h : r.state = .candidate)
      (hb : Breached r ms) (t : ℚ) (m : String) :
      AssessRun id
        (assessed id r ms ++ [ev .monotonic t, ev (.setState r.id .rolledBack) (.error m)])
        (.error (.aegis (.artifactNotFound m)))
  | rolledBack {r : Release} {ms : List RequestMetric} (h : r.state = .candidate)
      (hb : Breached r ms) (t t' : ℚ) (r' : Release) :
      AssessRun id
        (assessed id r ms ++ [ev .monotonic t, ev (.setState r.id .rolledBack) (.ok r'),
          ev .monotonic t', ev (.recordRollback r.id (rollbackReason r ms) ((t' - t) * 1000)) ()])
        (.ok { rolledBack := true, reason := some (rollbackReason r ms)
               durationMs := some ((t' - t) * 1000) })

theorem assess_runs (id : String) : (assess id).AllRuns (AssessRun id) := by
  rw [assess, Prog.allRuns_bind, getRelease, Prog.allRuns_op]
  intro a
  rw [allRuns_raising]
  cases a with
  | error m => exact .missing m
  | ok r =>
    simp only [Except.mapError, Prog.then_ok]
    split_ifs with hstate
    · exact .idle hstate
    · rw [not_not] at hstate
      simp only [summary, Prog.allRuns_bind, Prog.allRuns_perform, Prog.then_ok, Prog.allRuns_pure]
      intro ms
      have hrequests : (summarizeMetrics ms).requests = ms.length := rfl
      split_ifs with hfew hbreach
      · rw [hrequests] at hfew
        exact .kept hstate fun hb => absurd hb.1 (by omega)
      · exact .kept hstate fun hb => hb.2 hbreach
      · rw [hrequests, not_lt] at hfew
        have hb : Breached r ms := ⟨hfew, hbreach⟩
        simp only [rollbackWith, setState, Prog.allRuns_bind, Prog.allRuns_perform, Prog.then_ok,
          Prog.allRuns_op, allRuns_raising]
        intro t a
        cases a with
        | error m => exact .vanished hstate hb t m
        | ok r' =>
          simp only [Except.mapError, Prog.then_ok, Prog.allRuns_pure, Prog.allRuns_bind,
            Prog.allRuns_perform]
          exact fun t' _ => .rolledBack hstate hb t t' r'

theorem AssessRun.write {id : String} {tr : GatewayTrace} {out : Except PyExc RollbackDecision}
    (h : AssessRun id tr out) {pre post : GatewayTrace} {id' : String} {state : ReleaseState}
    {a : Except String Release} (htr : tr = pre ++ ev (.setState id' state) a :: post) :
    ∃ r ms t, pre = assessed id r ms ++ [ev .monotonic t] ∧ r.state = .candidate ∧
      Breached r ms ∧ id' = r.id ∧ state = .rolledBack := by
  have hno : ∀ {l : GatewayTrace}, (∀ e ∈ l, releaseWrite e.1 = false) →
      ev (.setState id' state) a ∉ l := fun h hmem => by cases h _ hmem
  have hread : ∀ r ms t, ∀ e ∈ assessed id r ms ++ [ev .monotonic t],
      releaseWrite e.1 = false := by
    simp [assessed, releaseWrite]
  -- A run without a write is not this one.
  have hquiet : (∀ e ∈ tr, releaseWrite e.1 = false) → False := fun h =>
    hno h (by rw [htr]; simp)
  -- The one write stands where the run has it: nothing in front or behind is a write.
  have hsplit : ∀ {r ms t} a' rest, (∀ e ∈ rest, releaseWrite e.1 = false) →
      assessed id r ms ++ [ev .monotonic t] ++ ev (.setState r.id .rolledBack) a' :: rest =
        pre ++ ev (.setState id' state) a :: post →
      pre = assessed id r ms ++ [ev .monotonic t] ∧ id' = r.id ∧ state = .rolledBack := by
    intro r ms t a' rest hrest heq
    rcases Prog.split_append heq with ⟨mid, hmid, -⟩ | ⟨mid, hpre, hmid⟩
    · exact absurd (by rw [hmid]; simp) (hno (hread r ms t))
    · cases mid with
      | nil =>
        obtain ⟨hset, -⟩ := List.cons.inj hmid
        cases hset
        exact ⟨by simpa using hpre, rfl, rfl⟩
      | cons e mid =>
        obtain ⟨-, hlater⟩ := List.cons.inj hmid
        exact absurd (by rw [hlater]; simp) (hno hrest)
  cases h with
  | missing | idle | kept => exact (hquiet (by simp [assessed, releaseWrite])).elim
  | @vanished r ms h hb t m =>
    obtain ⟨hpre, hid, hstate⟩ := hsplit (.error m) [] (by simp) (by simpa using htr)
    exact ⟨r, ms, t, hpre, h, hb, hid, hstate⟩
  | @rolledBack r ms h hb t t' r' =>
    obtain ⟨hpre, hid, hstate⟩ := hsplit (.ok r') [ev .monotonic t',
      ev (.recordRollback r.id (rollbackReason r ms) ((t' - t) * 1000)) ()]
      (by simp [releaseWrite]) (by simpa using htr)
    exact ⟨r, ms, t, hpre, h, hb, hid, hstate⟩

variable (svc) in
theorem assess_ahead {id : String} {tr : GatewayTrace} {id' : String} {state : ReleaseState}
    {k : Ans (.setState id' state) → GatewayM Outcome}
    (hs : Prog.Steps (svc.body (.assess id)) tr (.op (.setState id' state) k)) :
    ∃ r ms t, tr = assessed id r ms ++ [ev .monotonic t] ∧ r.state = .candidate ∧
      Breached r ms ∧ id' = r.id ∧ state = .rolledBack := by
  have hbody : (svc.body (.assess id)).AllRuns fun tr _ => ∃ out, AssessRun id tr out :=
    Prog.leaves_map ((assess_runs id).mono fun tr out h => ⟨out, h⟩) _
  obtain ⟨tr', -, out, h⟩ := hbody.ahead hs (.error "")
  exact h.write rfl

/-! ## Writes to one release -/

def writesOf (id : String) (log : List (Nat × GatewayEvent)) : List ReleaseState :=
  log.filterMap fun e =>
    match e.2.1 with
    | .setState id' state => if id' = id then some state else none
    | _ => none

theorem writesOf_append (id : String) (log log' : List (Nat × GatewayEvent)) :
    writesOf id (log ++ log') = writesOf id log ++ writesOf id log' := List.filterMap_append

/-- The last state that is written is `candidate`, if any is. -/
def StillCandidate (id : String) (log : List (Nat × GatewayEvent)) : Prop :=
  ∀ state, (writesOf id log).getLast? = some state → state = .candidate

theorem stillCandidate_skip {id : String} {log : List (Nat × GatewayEvent)} {i : Nat}
    {e : GatewayEvent} (he : ∀ state, e.1 ≠ .setState id state) :
    StillCandidate id (log ++ [(i, e)]) ↔ StillCandidate id log := by
  have hnone : writesOf id [(i, e)] = [] := by
    rcases e with ⟨o, a⟩
    cases o with
    | setState id' state =>
      have hne : id' ≠ id := fun h => he state (by rw [h])
      simp [writesOf, hne]
    | _ => rfl
  rw [StillCandidate, writesOf_append, hnone, List.append_nil]
  rfl

theorem stillCandidate_write {id : String} {log : List (Nat × GatewayEvent)} {i : Nat}
    {state : ReleaseState} {a : Except String Release} :
    StillCandidate id (log ++ [(i, ev (.setState id state) a)]) ↔ state = .candidate := by
  have hone : writesOf id [(i, ev (.setState id state) a)] = [state] := by simp [writesOf]
  rw [StillCandidate, writesOf_append, hone, List.getLast?_concat]
  simp

section Reach

variable {Ok : State → Move Input Call → Prop} {c : State}

theorem candidate_iff (h : svc.machine.Reach Ok initial c) {i : Nat} {id : String} {r : Release}
    {pre mid : List (Nat × GatewayEvent)}
    (hlog : c.log = pre ++ (i, ev (.getRelease id) (.ok r)) :: mid) (hr : r.state = .candidate) :
    ∃ r' ∈ table c, r'.id = id ∧ (r'.state = .candidate ↔ StillCandidate id mid) := by
  refine h.invariant (fun c => ∀ pre mid, c.log = pre ++ (i, ev (.getRelease id) (.ok r)) :: mid →
    ∃ r' ∈ table c, r'.id = id ∧ (r'.state = .candidate ↔ StillCandidate id mid))
    (by simp [initial, Pool.empty]) (fun c m c' hreach ih _ hs pre mid hlog => ?_) pre mid hlog
  have hkeyed := keyed_of_reach hreach
  rcases step_releases hs with ⟨-, htable, hsame⟩ | ⟨j, x, call, o, k, a, rfl, ht, hsame, hexec, hstep⟩
  · rw [htable]
    exact ih pre mid (hsame.symm.trans hlog)
  rw [hsame] at hlog
  rcases List.eq_nil_or_concat mid with rfl | ⟨mid', e, rfl⟩
  · -- The reading itself is the last event.
    obtain ⟨-, hlast⟩ := List.append_inj' hlog rfl
    have hread : (j, ev o a) = (i, ev (.getRelease id) (.ok r)) := List.singleton_inj.mp hlast
    cases hread
    obtain ⟨hmem, hid⟩ := Database.mem_of_getRelease (exec_getRelease hexec).symm
    generalize table c' = rs at hstep
    cases hstep with
    | other => exact ⟨r, hmem, hid, by simp [StillCandidate, writesOf, hr]⟩
  · rw [List.concat_eq_append, ← List.cons_append, ← List.append_assoc] at hlog
    obtain ⟨hold, hlast⟩ := List.append_inj' hlog rfl
    have he : (j, ev o a) = e := List.singleton_inj.mp hlast
    subst he
    obtain ⟨r', hr', hid, hiff⟩ := ih pre mid' hold
    rw [List.concat_eq_append]
    have hskip : (∀ state, o ≠ .setState id state) →
        (r'.state = .candidate ↔ StillCandidate id (mid' ++ [(j, ev o a)])) :=
      fun ho => hiff.trans (stillCandidate_skip ho).symm
    generalize table c' = rs at hstep
    cases hstep with
    | other hother =>
      refine ⟨r', hr', hid, hskip fun state ho => ?_⟩
      subst ho
      cases hother
    | created => exact ⟨r', List.mem_append_left _ hr', hid, hskip (by simp)⟩
    | taken => exact ⟨r', hr', hid, hskip (by simp)⟩
    | missing hget =>
      refine ⟨r', hr', hid, hskip fun state ho => ?_⟩
      cases ho
      exact Database.getRelease_error hget r' hr' hid
    | @written id' state current hget =>
      obtain ⟨hcurrent, hid'⟩ := Database.mem_of_getRelease hget
      refine ⟨_, List.mem_map_of_mem hr', by rw [restated_id, hid], ?_⟩
      by_cases hrid : r'.id = current.id
      · have hidid : id' = id := by rw [← hid', ← hrid, hid]
        subst hidid
        rw [restated_self _ state hrid, stillCandidate_write]
      · have hiff' := hskip fun state' ho => by
          cases ho
          exact hrid (hid.trans hid'.symm)
        rw [← hiff']
        rcases restated_other c.world.utc state hrid with hsame' | ⟨-, -, hactive, hback⟩
        · rw [hsame']
        · rw [hactive, hback]
          simp

end Reach

/-! ## Transitions -/

/-- Since the task has read the release, nothing else has been written to it, or a start of its
canary last of all. -/
def Undisturbed (c : State) (i : Nat) (id : String) : Prop :=
  ∀ pre r mid, c.log = pre ++ (i, ev (.getRelease id) (.ok r)) :: mid → StillCandidate id mid

/-- Assessments write while their reading still holds. -/
def Timely (c : State) (m : Move Input Call) : Prop :=
  ∀ i x id call id' state k, m = .run i x → call = .assess id →
    c.tasks[i]? = some ⟨call, .op (.setState id' state) k⟩ → Undisturbed c i id

/-- What an assessment does to the state of a release, it does to a candidate. -/
def Guarded (c c' : State) : Prop :=
  ∀ i id t id' state a, c.tasks[i]? = some t → t.call = .assess id →
    c'.log = c.log ++ [(i, ev (.setState id' state) (.ok a))] →
      id' = id ∧ state = .rolledBack ∧ ∃ r ∈ table c, r.id = id ∧ r.state = .candidate

theorem read_of_split {c : State} {i : Nat} {id : String} {r r' : Release}
    {ms : List RequestMetric} {t : ℚ} {pre mid : List (Nat × GatewayEvent)}
    (htrace : c.trace i = assessed id r ms ++ [ev .monotonic t])
    (hlog : c.log = pre ++ (i, ev (.getRelease id) (.ok r')) :: mid) : r' = r := by
  have hmem : ev (.getRelease id) (.ok r') ∈ c.trace i := Pool.mem_trace.mpr (by simp [hlog])
  rw [htrace] at hmem
  simpa [assessed] using hmem

section Steps

variable {c c' : State}

theorem writing (h : svc.machine.Reachable initial c) {i : Nat} {id id' : String}
    {state : ReleaseState} {k : Ans (.setState id' state) → GatewayM Outcome}
    (ht : c.tasks[i]? = some ⟨.assess id, .op (.setState id' state) k⟩) :
    id' = id ∧ state = .rolledBack ∧ ∃ r ms t pre mid, r.state = .candidate ∧ Breached r ms ∧
      c.trace i = assessed id r ms ++ [ev .monotonic t] ∧
      c.log = pre ++ (i, ev (.getRelease id) (.ok r)) :: mid := by
  obtain ⟨r, ms, t, htrace, hr, hb, rfl, rfl⟩ := assess_ahead svc (h.onTheWay.2 i _ ht)
  have hread : (i, ev (.getRelease id) (.ok r)) ∈ c.log :=
    Pool.mem_trace.mp (by rw [htrace]; simp [assessed])
  obtain ⟨pre, mid, hlog⟩ := List.append_of_mem hread
  have hid := (known_of_reach h hread).1
  exact ⟨hid, rfl, r, ms, t, pre, mid, hr, hb, htrace, hlog⟩

theorem guarded_step (h : svc.machine.Reachable initial c) {m : Move Input Call}
    (hs : svc.machine.step? c m = some c') : Guarded c c' ↔ Timely c m := by
  constructor
  · rintro hguarded i x id call id' state k rfl rfl ht
    obtain ⟨rfl, rfl, r, ms, t, pre₀, mid₀, hr, hb, htrace, hlog₀⟩ := writing h ht
    obtain ⟨r₀, hr₀, hid₀, -⟩ := candidate_iff h hlog₀ hr
    -- The release is still there, so the write succeeds.
    rcases step_releases hs with ⟨hm, -, -⟩ | ⟨j, y, call, o, k', a, hm, ht', hlog, -, hstep⟩
    · exact absurd rfl (hm i x)
    cases hm
    rw [ht] at ht'
    cases ht'
    generalize table c' = rs at hstep
    cases hstep with
    | other hother => cases hother
    | missing hget => exact absurd hid₀ (Database.getRelease_error hget r₀ hr₀)
    | written hget =>
      obtain ⟨-, -, r₁, hr₁, hid₁, hstate₁⟩ := hguarded i _ _ _ _ _ ht rfl hlog
      intro pre r' mid hsplit
      obtain rfl := read_of_split htrace hsplit
      obtain ⟨r₂, hr₂, hid₂, hiff⟩ := candidate_iff h hsplit hr
      obtain rfl := (keyed_of_reach h).eq_of_id hr₂ hr₁ (hid₂.trans hid₁.symm)
      exact hiff.mp hstate₁
  · rintro htimely i id ⟨call, rest⟩ id' state a ht rfl hlog
    rcases step_releases hs with ⟨-, -, hsame⟩ | ⟨j, x, call, o, k, a', rfl, ht', hlog', -, -⟩
    · rw [hlog] at hsame
      simp at hsame
    rw [hlog'] at hlog
    obtain ⟨-, hlast⟩ := List.append_inj' hlog rfl
    cases List.singleton_inj.mp hlast
    rw [ht] at ht'
    cases ht'
    obtain ⟨rfl, rfl, r, ms, t, pre, mid, hr, hb, htrace, hsplit⟩ := writing h ht
    obtain ⟨r', hr', hid, hiff⟩ := candidate_iff h hsplit hr
    exact ⟨rfl, rfl, r', hr', hid, hiff.mpr (htimely _ _ _ _ _ _ _ rfl rfl ht pre r mid hsplit)⟩

end Steps

/-! ## Events -/

def rolledBackBy : GatewayEvent → Option String
  | ⟨.setState id .rolledBack, .ok _⟩ => some id
  | _ => none

def recordedBy : Op → Option String
  | .recordRollback id _ _ => some id
  | _ => none

theorem AssessRun.recorded {id : String} {tr : GatewayTrace} {out : Except PyExc RollbackDecision}
    (h : AssessRun id tr out) (hid : ∀ r, ev (.getRelease id) (.ok r) ∈ tr → r.id = id) :
    tr.filterMap rolledBackBy = tr.filterMap (fun e => recordedBy e.1) ∧
      (tr.filterMap rolledBackBy = [] ∨ tr.filterMap rolledBackBy = [id]) := by
  cases h with
  | missing | idle | kept | vanished => simp [assessed, rolledBackBy, recordedBy]
  | @rolledBack r =>
    obtain rfl := hid r (by simp [assessed])
    exact ⟨rfl, .inr rfl⟩

theorem AssessRun.creates_nothing {id : String} {tr : GatewayTrace}
    {out : Except PyExc RollbackDecision} (h : AssessRun id tr out) :
    ∀ e ∈ tr, ∀ body, e.1 ≠ .createRelease body := by
  cases h <;> simp [assessed]

theorem assess_creates_nothing {c : State} (h : svc.machine.Reachable initial c) {i : Nat}
    {id : String} {body : Release} {k : Ans (.createRelease body) → GatewayM Outcome} :
    c.tasks[i]? ≠ some ⟨.assess id, .op (.createRelease body) k⟩ := by
  intro ht
  have hbody : (svc.body (.assess id)).Emits fun e => ∀ body, e.1 ≠ .createRelease body :=
    Prog.leaves_map ((assess_runs id).mono fun tr out h => h.creates_nothing) _
  have hsteps := Prog.steps_snoc (h.onTheWay.2 i _ ht) (.error (.registryConflict ""))
  exact Prog.Emits.steps hbody hsteps _ (List.mem_append_right _ List.mem_cons_self) body rfl

theorem exec_rollbacks {w w' : World} {o : Op} {x : Input} {a : Ans o}
    (h : svc.exec w o x = some (a, w')) : w'.database.rollbackEvents.map (·.releaseId) =
      w.database.rollbackEvents.map (·.releaseId) ++ (recordedBy o).toList := by
  unfold exec at h
  split at h <;> cases h <;>
    simp [recordedBy, Database.recordMetric, Database.recordRollback, Database.putEvaluation]

theorem rollbacks_of_reach {c : State} (h : svc.machine.Reachable initial c) :
    c.world.database.rollbackEvents.map (·.releaseId) =
      c.log.filterMap fun e => recordedBy e.2.1 := by
  refine h.invariant (fun c => c.world.database.rollbackEvents.map (·.releaseId) =
    c.log.filterMap fun e => recordedBy e.2.1) rfl fun c m c' _ htable _ hs => ?_
  cases m with
  | start call =>
    cases hs
    exact htable
  | drift x =>
    obtain ⟨w, hw, rfl⟩ := Option.map_eq_some_iff.mp hs
    obtain ⟨clock, utc, -, rfl⟩ := drift_eq hw
    exact htable
  | run i x =>
    obtain ⟨call, o, k, a, w, -, hexec, rfl⟩ := Machine.step_run hs
    change w.database.rollbackEvents.map _ =
      (c.log ++ [(i, ev o a)]).filterMap fun e => recordedBy e.2.1
    rw [exec_rollbacks hexec, htable, List.filterMap_append]
    congr 1

/-- A row once its release has been rolled back at `now`. -/
def rolledBackRow (id : String) (now : Int) (r : Release) : Release :=
  if r.id = id then { r with state := .rolledBack, updatedAt := now } else r

theorem restated_rolledBack {now : Int} {current : Release} {id : String}
    (hid : current.id = id) : restated now current .rolledBack = rolledBackRow id now := by
  funext r
  simp [restated, rolledBackRow, hid]

theorem assess_step {c c' : State} (h : svc.machine.Reachable initial c) {i : Nat} {x : Input}
    {id : String} {rest : GatewayM Outcome} (hs : svc.machine.step? c (.run i x) = some c')
    (ht : c.tasks[i]? = some ⟨.assess id, rest⟩) :
    table c' = table c ∨ table c' = (table c).map (rolledBackRow id c.world.utc) := by
  rcases step_releases hs with ⟨hm, -, -⟩ | ⟨j, y, call, o, k, a, hm, ht', hlog, -, hstep⟩
  · exact absurd rfl (hm i x)
  cases hm
  rw [ht] at ht'
  cases ht'
  generalize table c' = rs at hstep
  cases hstep with
  | other | taken | missing => exact .inl rfl
  | created => exact absurd ht (assess_creates_nothing h)
  | written hget =>
    obtain ⟨rfl, rfl, -⟩ := writing h ht
    rw [restated_rolledBack (Database.mem_of_getRelease hget).2]
    exact .inr rfl

/-- What an assessment does to a state, it does to a candidate, exactly if nothing has been written
to the release since it was read, or last of all a start of its canary. It touches no other
release, and it records what it rolls back exactly once. -/
theorem rollbacks_guarded {c : State} (h : svc.machine.Reachable initial c) :
    (∀ m c', svc.machine.step? c m = some c' → (Guarded c c' ↔ Timely c m)) ∧
    (∀ i x c' id rest, svc.machine.step? c (.run i x) = some c' →
      c.tasks[i]? = some ⟨.assess id, rest⟩ →
        table c' = table c ∨ table c' = (table c).map (rolledBackRow id c.world.utc)) ∧
    (∀ i id out, c.Finished i (.assess id) out →
      (c.trace i).filterMap rolledBackBy = (c.trace i).filterMap (fun e => recordedBy e.1) ∧
        ((c.trace i).filterMap rolledBackBy = [] ∨ (c.trace i).filterMap rolledBackBy = [id])) ∧
    c.world.database.rollbackEvents.map (·.releaseId) =
      c.log.filterMap fun e => recordedBy e.2.1 := by
  refine ⟨fun m c' hs => guarded_step h hs, fun i x c' id rest hs ht => assess_step h hs ht,
    fun i id out hfinished => ?_, rollbacks_of_reach h⟩
  have hbody : (svc.body (.assess id)).AllRuns fun tr _ => ∃ out, AssessRun id tr out :=
    Prog.leaves_map ((assess_runs id).mono fun tr out h => ⟨out, h⟩) _
  obtain ⟨out', hrun⟩ := hbody.run (h.finished hfinished)
  exact hrun.recorded fun r hr => (known_of_reach h (Pool.mem_trace.mp hr)).1

/-! A canary that fails once is rolled back, also if it has been promoted in the meantime. -/

def live : Release :=
  { Sample.release with
    state := .candidate
    canaryPercent := 100
    minCanarySamples := 1
    maxErrorRate := 0 }

def refusal : Input :=
  .completion (.error (.aegis (.provider
    { message := "rejected", provider := "openai", code := "invalid_provider_request" })))

/-- Up to the write of the assessment, which is task 2. -/
def breachMoves : List (Move Input Call) :=
  [.start (.createRelease live), .run 0 .go, .start (.generate Sample.request none)] ++
  Sample.goes 1 7 ++ [.run 1 refusal] ++ Sample.goes 1 6 ++ Sample.goes 2 3

def assesses (id : String) : Call → Bool
  | .assess id' => id' = id
  | _ => false

theorem eq_of_assesses {id : String} {call : Call} (h : assesses id call = true) :
    call = .assess id := by
  cases call with
  | assess id' => rw [of_decide_eq_true h]
  | _ => cases h

theorem rollbacks_guarded_breach : ∃ c : State, Sample.service.machine.Reachable initial c ∧
    (table c).map (·.state) = [.rolledBack] ∧
    (c.trace 2).filterMap rolledBackBy = ["release-1"] ∧
    (c.trace 2).filterMap rolledBackBy = (c.trace 2).filterMap fun e => recordedBy e.1 := by
  obtain ⟨c, hm, hstates, hby, hcall⟩ :
      ∃ c ∈ Sample.service.machine.moves? initial (breachMoves ++ Sample.goes 2 3),
        (table c).map (·.state) = [.rolledBack] ∧
        (c.trace 2).filterMap rolledBackBy = ["release-1"] ∧
        ∃ t ∈ c.tasks[2]?, assesses "release-1" t.call = true ∧ t.rest.ended = true := by
    decide +kernel
  have hreach := Machine.reachable_of_moves _ .start hm
  obtain ⟨⟨call, rest⟩, ht, hassess, hended⟩ := hcall
  obtain rfl := eq_of_assesses hassess
  obtain ⟨out, rfl⟩ := Prog.eq_ofExcept_of_ended (p := rest) hended
  exact ⟨c, hreach, hstates, hby, ((rollbacks_guarded hreach).2.2.1 2 "release-1" out ht).1⟩

/-- The operator has promoted the release, and the assessment undoes it. -/
theorem promotion_undone : ∃ c c' : State, Sample.service.machine.Reachable initial c ∧
    Sample.service.machine.step? c (.run 2 .go) = some c' ∧
    (∃ t ∈ c.tasks[2]?, assesses "release-1" t.call = true) ∧
    (table c).map (·.state) = [.active] ∧ (table c').map (·.state) = [.rolledBack] ∧
    ¬ Guarded c c' := by
  obtain ⟨c, hm, c', hs, hactive, hback, t, ht, hassess⟩ :
      ∃ c ∈ Sample.service.machine.moves? initial
          (breachMoves ++ [.start (.promote "release-1"), .run 3 .go]),
        ∃ c' ∈ Sample.service.machine.step? c (.run 2 .go),
          (table c).map (·.state) = [.active] ∧ (table c').map (·.state) = [.rolledBack] ∧
          ∃ t ∈ c.tasks[2]?, assesses "release-1" t.call = true := by decide +kernel
  have hreach := Machine.reachable_of_moves _ .start hm
  refine ⟨c, c', hreach, hs, ⟨t, ht, hassess⟩, hactive, hback, fun hguarded => ?_⟩
  obtain ⟨call, rest⟩ := t
  obtain rfl := eq_of_assesses hassess
  have hchanged : table c' ≠ table c := by
    intro h
    rw [h, hactive] at hback
    simp at hback
  rcases step_releases hs with ⟨-, hsame, -⟩ | ⟨i, x, call, o, k, a, hmove, ht', hlog, -, hstep⟩
  · exact hchanged hsame
  cases hmove
  rw [show c.tasks[2]? = some ⟨.assess "release-1", rest⟩ from ht] at ht'
  cases ht'
  generalize table c' = rs at hstep hchanged
  cases hstep with
  | other | taken | missing => exact hchanged rfl
  | created => exact assess_creates_nothing hreach ht
  | written =>
    obtain ⟨-, -, r, hr, -, hcandidate⟩ := hguarded 2 _ _ _ _ _ ht rfl hlog
    have hmem : r.state ∈ [ReleaseState.active] := hactive ▸ List.mem_map_of_mem hr
    rw [hcandidate] at hmem
    simp at hmem

end Service

end AegisGateway
