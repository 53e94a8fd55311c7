import AegisGateway.CircuitBreaker
import AegisGateway.Lib.Pool
import Mathlib.Tactic.Linarith

/-!
# Attempts behind the circuit breaker

`control/circuit_breaker.py` under overlapping attempts: any number of them on any
routes, each admitted by `before_request` and ended by one `record_success` or
`record_failure`. In between, anyone may ask for the state of a circuit.
-/

open Coroutine

namespace AegisGateway

namespace Breaker

inductive Method where
  | isAvailable (routeId : String)
  | beforeRequest (routeId : String)
  | recordSuccess (routeId : String)
  | recordFailure (routeId : String)
  | snapshots
  /-- The attempt itself, which the provider ends. -/
  | attempt
  deriving DecidableEq

@[reducible]
def Answer : Method → Type
  | .isAvailable _ => Bool
  | .beforeRequest _ => Except String CircuitState
  | .recordSuccess _ => CircuitState
  | .recordFailure _ => CircuitState
  | .snapshots => List CircuitSnapshot
  | .attempt => Bool

inductive Client where
  | attempt (routeId : String)
  | isAvailable (routeId : String)
  | snapshots

abbrev Turn : Type := Event Method Answer

def attempt (routeId : String) : Prog Method Answer String Unit :=
  .op (.beforeRequest routeId) fun
    | .error m => .throw m
    | .ok _ => .op .attempt fun succeeded =>
      if succeeded then .op (.recordSuccess routeId) fun _ => .pure ()
      else .op (.recordFailure routeId) fun _ => .pure ()

def body : Client → Prog Method Answer String Unit
  | .attempt routeId => attempt routeId
  | .isAvailable routeId => .op (.isAvailable routeId) fun _ => .pure ()
  | .snapshots => .op .snapshots fun _ => .pure ()

structure World where
  clock : ℚ := 0
  circuits : Circuits := ∅

inductive Input where
  | go
  | ends (succeeded : Bool)
  | later (seconds : ℚ)

variable (cfg : CircuitSettings)

/-- A method holds the lock, so it is one step. -/
def exec (w : World) : (o : Method) → Input → Option (Answer o × World)
  | .isAvailable routeId, .go =>
    let r := w.circuits.isAvailable cfg w.clock routeId
    some (r.1, { w with circuits := r.2 })
  | .beforeRequest routeId, .go =>
    let r := w.circuits.beforeRequest cfg w.clock routeId
    some (r.1, { w with circuits := r.2 })
  | .recordSuccess routeId, .go =>
    let r := w.circuits.recordSuccess routeId
    some (r.1, { w with circuits := r.2 })
  | .recordFailure routeId, .go =>
    let r := w.circuits.recordFailure cfg w.clock routeId
    some (r.1, { w with circuits := r.2 })
  | .snapshots, .go =>
    let r := w.circuits.snapshots cfg w.clock
    some (r.1, { w with circuits := r.2 })
  | .attempt, .ends succeeded => some (succeeded, w)
  | _, _ => none

def drift (w : World) : Input → Option World
  | .later seconds => if 0 ≤ seconds then some { w with clock := w.clock + seconds } else none
  | _ => none

def machine : Machine Method Answer String Unit World Input Client where
  body := body
  exec := exec cfg
  spawn := fun _ => []
  drift := drift

abbrev State : Type := Pool Method Answer String Unit World Client

def initial (clock : ℚ) : State := .empty { clock }

/-! ## One circuit of many -/

/-- What a method makes of the circuit of `r`. -/
def onCircuit (now : ℚ) (r : String) (c : Circuit) : Method → Circuit
  | .isAvailable routeId => if routeId = r then c.advance cfg now else c
  | .beforeRequest routeId => if routeId = r then ((c.advance cfg now).beforeRequest r).2 else c
  | .recordSuccess routeId => if routeId = r then c.recordSuccess else c
  | .recordFailure routeId => if routeId = r then c.recordFailure cfg now else c
  | .snapshots => c.advance cfg now
  | .attempt => c

variable {cfg}

theorem onCircuit_cases (now : ℚ) (r : String) (c : Circuit) (o : Method) :
    (onCircuit cfg now r c o = c ∧
      ∀ id, o = .beforeRequest id ∨ o = .recordSuccess id ∨ o = .recordFailure id → id ≠ r) ∨
    (onCircuit cfg now r c o = c.advance cfg now ∧ (o = .isAvailable r ∨ o = .snapshots)) ∨
    (onCircuit cfg now r c o = ((c.advance cfg now).beforeRequest r).2 ∧ o = .beforeRequest r) ∨
    (onCircuit cfg now r c o = c.recordSuccess ∧ o = .recordSuccess r) ∨
    (onCircuit cfg now r c o = c.recordFailure cfg now ∧ o = .recordFailure r) := by
  cases o with
  | attempt => exact .inl ⟨rfl, by simp⟩
  | snapshots => exact .inr (.inl ⟨rfl, .inr rfl⟩)
  | isAvailable id =>
    by_cases h : id = r
    · exact .inr (.inl ⟨if_pos h, .inl (by rw [h])⟩)
    · exact .inl ⟨if_neg h, by simp⟩
  | beforeRequest id =>
    by_cases h : id = r
    · exact .inr (.inr (.inl ⟨if_pos h, by rw [h]⟩))
    · exact .inl ⟨if_neg h, by simpa using h⟩
  | recordSuccess id =>
    by_cases h : id = r
    · exact .inr (.inr (.inr (.inl ⟨if_pos h, by rw [h]⟩)))
    · exact .inl ⟨if_neg h, by simpa using h⟩
  | recordFailure id =>
    by_cases h : id = r
    · exact .inr (.inr (.inr (.inr ⟨if_pos h, by rw [h]⟩)))
    · exact .inl ⟨if_neg h, by simpa using h⟩

theorem exec_get {w w' : World} {o : Method} {x : Input} {a : Answer o}
    (h : exec cfg w o x = some (a, w')) (r : String) :
    w'.circuits.get r = onCircuit cfg w.clock r (w.circuits.get r) o := by
  unfold exec at h
  split at h
  all_goals cases h
  · exact Circuits.isAvailable_get ..
  · exact Circuits.beforeRequest_get ..
  · exact Circuits.recordSuccess_get ..
  · exact Circuits.recordFailure_get ..
  · exact Circuits.snapshots_get ..
  · rfl

theorem exec_clock {w w' : World} {o : Method} {x : Input} {a : Answer o}
    (h : exec cfg w o x = some (a, w')) : w'.clock = w.clock := by
  unfold exec at h
  split at h <;> cases h <;> rfl

theorem exec_beforeRequest {w w' : World} {routeId : String} {x : Input}
    {a : Except String CircuitState} (h : exec cfg w (.beforeRequest routeId) x = some (a, w')) :
    a = (((w.circuits.get routeId).advance cfg w.clock).beforeRequest routeId).1 := by
  cases x <;> cases h
  rfl

theorem exec_recordFailure {w w' : World} {routeId : String} {x : Input} {a : CircuitState}
    (h : exec cfg w (.recordFailure routeId) x = some (a, w')) :
    a = (w'.circuits.get routeId).state := by
  cases x <;> cases h
  simp [Circuits.recordFailure]

theorem step_world {c c' : State} {m : Move Input Client}
    (hs : (machine cfg).step? c m = some c') :
    (c'.world.circuits = c.world.circuits ∧ c.world.clock ≤ c'.world.clock ∧ c'.log = c.log ∧
      ∀ i x, m ≠ .run i x) ∨
    ∃ i x client o k a, m = .run i x ∧ c.tasks[i]? = some ⟨client, .op o k⟩ ∧
      exec cfg c.world o x = some (a, c'.world) ∧ c'.tasks[i]? = some ⟨client, k a⟩ ∧
      c'.log = c.log ++ [(i, ⟨o, a⟩)] := by
  cases m with
  | start client =>
    cases hs
    exact .inl ⟨rfl, le_rfl, rfl, by simp⟩
  | drift x =>
    obtain ⟨w, hw, rfl⟩ := Option.map_eq_some_iff.mp hs
    left
    cases x <;> simp only [machine, drift, reduceCtorEq] at hw
    split_ifs at hw with hpos
    cases hw
    exact ⟨rfl, le_add_of_nonneg_right hpos, rfl, by simp⟩
  | run i x =>
    obtain ⟨client, o, k, a, w, ht, he, rfl⟩ := Machine.step_run hs
    have hi : i < c.tasks.length := (List.getElem?_eq_some_iff.mp ht).1
    refine .inr ⟨i, x, client, o, k, a, rfl, ht, he, ?_, rfl⟩
    rw [List.getElem?_append_left (by simpa using hi), List.getElem?_set_self hi]

/-! ## An open circuit -/

/-- Between openings the count of failures does not fall below the threshold. -/
def Counted (cfg : CircuitSettings) (c : Circuit) : Prop :=
  c.state ≠ .closed → cfg.failureThreshold ≤ c.consecutiveFailures

theorem counted_advance {now : ℚ} {c : Circuit} (h : Counted cfg c) :
    Counted cfg (c.advance cfg now) := by
  by_cases hd : c.due cfg now = true
  · rw [Circuit.advance_of_due hd]
    intro _
    exact h (by simp [Circuit.due] at hd; simp [hd.1])
  · rwa [Circuit.advance_of_not_due hd]

theorem counted_beforeRequest {r : String} {c : Circuit} (h : Counted cfg c) :
    Counted cfg (c.beforeRequest r).2 := by
  rcases c.beforeRequest_eq r with he | ⟨-, -, he⟩
  · rwa [he]
  · rw [he]
    exact h

theorem counted_recordFailure {now : ℚ} {c : Circuit} (h : Counted cfg c) :
    Counted cfg (c.recordFailure cfg now) := by
  unfold Circuit.recordFailure
  split_ifs with ht
  · intro _
    rcases ht with ht | ht
    · exact Nat.le_succ_of_le (h (by simp [ht]))
    · exact ht
  · intro hne
    exact Nat.le_succ_of_le (h hne)

theorem counted_onCircuit {now : ℚ} {r : String} {c : Circuit} (o : Method) (h : Counted cfg c) :
    Counted cfg (onCircuit cfg now r c o) := by
  rcases onCircuit_cases now r c o with ⟨he, -⟩ | ⟨he, -⟩ | ⟨he, -⟩ | ⟨he, -⟩ | ⟨he, -⟩ <;> rw [he]
  · exact h
  · exact counted_advance h
  · exact counted_beforeRequest (counted_advance h)
  · exact fun hne => absurd rfl hne
  · exact counted_recordFailure h

theorem openedAt_recordFailure {now : ℚ} {c : Circuit} (hc : Counted cfg c)
    (h : (c.recordFailure cfg now).state = .isOpen) :
    (c.recordFailure cfg now).openedAt = some now := by
  unfold Circuit.recordFailure at h ⊢
  split_ifs at h ⊢ with ht
  · rfl
  · have hopen : c.state = .isOpen := h
    exact absurd (.inr (Nat.le_succ_of_le (hc (by simp [hopen])))) ht

/-- Open since `t`, or opened once more after it. -/
def OpenSince (t : ℚ) (c : Circuit) : Prop :=
  c.state = .isOpen ∧ ∃ u, c.openedAt = some u ∧ t ≤ u

theorem OpenSince.not_due {t now : ℚ} {c : Circuit} (h : OpenSince t c)
    (hn : now < t + cfg.recoverySeconds) : ¬ c.due cfg now = true := by
  obtain ⟨-, u, hu, ht⟩ := h
  simp only [Circuit.due, hu, Option.any_some, Bool.and_eq_true, decide_eq_true_eq, not_and, not_le]
  intro _
  linarith

theorem OpenSince.onCircuit {t now : ℚ} {r : String} {c : Circuit} {o : Method}
    (h : OpenSince t c) (ht : t ≤ now) (hn : now < t + cfg.recoverySeconds)
    (ho : o ≠ .recordSuccess r) : OpenSince t (onCircuit cfg now r c o) := by
  have hadv := Circuit.advance_of_not_due (h.not_due hn)
  rcases onCircuit_cases now r c o with ⟨he, -⟩ | ⟨he, -⟩ | ⟨he, -⟩ | ⟨-, hs⟩ | ⟨he, -⟩
  · rwa [he]
  · rwa [he, hadv]
  · rw [he, hadv]
    rcases c.beforeRequest_eq r with hb | ⟨hh, -, -⟩
    · rwa [hb]
    · exact absurd (h.1.symm.trans hh) (by decide)
  · exact absurd hs ho
  · rw [he]
    unfold Circuit.recordFailure
    split_ifs
    · exact ⟨rfl, now, rfl, ht⟩
    · exact h

/-- Whoever asks at this moment is turned away. -/
def Shut (cfg : CircuitSettings) (w : World) (r : String) : Prop :=
  (w.circuits.isAvailable cfg w.clock r).1 = false ∧
    ∃ m, (w.circuits.beforeRequest cfg w.clock r).1 = .error m

theorem OpenSince.shut {t : ℚ} {w : World} {r : String} (h : OpenSince t (w.circuits.get r))
    (hn : w.clock < t + cfg.recoverySeconds) : Shut cfg w r := by
  have hadv := Circuit.advance_of_not_due (h.not_due hn)
  constructor
  · simp [Circuits.isAvailable, hadv, Circuit.available, h.1]
  · simp [Circuits.beforeRequest, hadv, Circuit.beforeRequest, h.1]

theorem onCircuit_closed {now : ℚ} {r : String} {c : Circuit} {o : Method}
    (h : c.state ≠ .closed) (hc : (onCircuit cfg now r c o).state = .closed) :
    o = .recordSuccess r := by
  have hadv : (c.advance cfg now).state ≠ .closed := by
    by_cases hd : c.due cfg now = true
    · simp [Circuit.advance_of_due hd]
    · rwa [Circuit.advance_of_not_due hd]
  rcases onCircuit_cases now r c o with ⟨he, -⟩ | ⟨he, -⟩ | ⟨he, -⟩ | ⟨-, hs⟩ | ⟨he, -⟩
  · exact absurd (he ▸ hc) h
  · exact absurd (he ▸ hc) hadv
  · rw [he] at hc
    rcases (c.advance cfg now).beforeRequest_eq r with hb | ⟨-, -, hb⟩
    · exact absurd (hb ▸ hc) hadv
    · rw [hb] at hc
      exact absurd hc hadv
  · exact hs
  · rw [he] at hc
    unfold Circuit.recordFailure at hc
    split_ifs at hc
    exact absurd hc h

/-! ## The course of an attempt -/

inductive Course : Client → Trace Method Answer → Prop
  | asked (r : String) (b : Bool) : Course (.isAvailable r) [⟨.isAvailable r, b⟩]
  | listed (shots : List CircuitSnapshot) : Course .snapshots [⟨.snapshots, shots⟩]
  | refused (r m : String) : Course (.attempt r) [⟨.beforeRequest r, .error m⟩]
  | succeeded (r : String) (s s' : CircuitState) :
    Course (.attempt r) [⟨.beforeRequest r, .ok s⟩, ⟨.attempt, true⟩, ⟨.recordSuccess r, s'⟩]
  | failed (r : String) (s s' : CircuitState) :
    Course (.attempt r) [⟨.beforeRequest r, .ok s⟩, ⟨.attempt, false⟩, ⟨.recordFailure r, s'⟩]

theorem body_course (client : Client) : (body client).AllRuns fun tr _ => Course client tr := by
  cases client with
  | isAvailable r => exact fun b => .asked r b
  | snapshots => exact fun shots => .listed shots
  | attempt r =>
    rintro (m | s)
    · exact .refused r m
    · rintro (_ | _)
      · exact fun s' => .failed r s s'
      · exact fun s' => .succeeded r s s'

variable {client : Client} {tr tr' : Trace Method Answer} {r : String}

theorem Course.admission {a : Except String CircuitState}
    (h : Course client (tr ++ ⟨.beforeRequest r, a⟩ :: tr')) : client = .attempt r ∧ tr = [] := by
  generalize hl : tr ++ _ = l at h
  cases h <;> rcases tr with _ | ⟨e₁, _ | ⟨e₂, _ | ⟨e₃, tr⟩⟩⟩ <;> simp_all

def reports (r : String) (o : Method) : Prop := o = .recordSuccess r ∨ o = .recordFailure r

theorem Course.report {o : Method} {a : Answer o} (ho : reports r o)
    (h : Course client (tr ++ ⟨o, a⟩ :: tr')) :
    tr' = [] ∧ ∃ s b, tr = [⟨.beforeRequest r, .ok s⟩, ⟨.attempt, b⟩] := by
  generalize hl : tr ++ _ = l at h
  rcases ho with rfl | rfl <;> cases h <;>
    rcases tr with _ | ⟨e₁, _ | ⟨e₂, _ | ⟨e₃, tr⟩⟩⟩ <;> simp_all

instance answerNonempty : ∀ o, Nonempty (Answer o)
  | .isAvailable _ => ⟨true⟩
  | .beforeRequest _ => ⟨.error ""⟩
  | .recordSuccess _ => ⟨CircuitState.closed⟩
  | .recordFailure _ => ⟨CircuitState.closed⟩
  | .snapshots => ⟨[]⟩
  | .attempt => ⟨true⟩

/-! ## Who reports to a circuit -/

def Admitted (c : State) (i : Nat) (r : String) (s : CircuitState) : Prop :=
  (⟨.beforeRequest r, .ok s⟩ : Turn) ∈ c.trace i

section Reports

variable {c : State} {t₀ : ℚ} {i : Nat} {o : Method} {k : Answer o → Prog Method Answer String Unit}

theorem course_ahead (h : (machine cfg).Reachable (initial t₀) c)
    (ht : c.tasks[i]? = some ⟨client, .op o k⟩) (a : Answer o) :
    ∃ tr', Course client (c.trace i ++ ⟨o, a⟩ :: tr') := by
  obtain ⟨tr', out, hc⟩ := (body_course client).ahead (h.onTheWay.2 i _ ht) a
  exact ⟨tr', hc⟩

theorem trace_of_reporting (h : (machine cfg).Reachable (initial t₀) c)
    (ht : c.tasks[i]? = some ⟨client, .op o k⟩) (ho : reports r o) :
    ∃ s b, c.trace i = [⟨.beforeRequest r, .ok s⟩, ⟨.attempt, b⟩] := by
  obtain ⟨a⟩ := answerNonempty o
  obtain ⟨tr', hc⟩ := course_ahead h ht a
  exact (hc.report ho).2

theorem trace_of_asking {k : Except String CircuitState → Prog Method Answer String Unit}
    (h : (machine cfg).Reachable (initial t₀) c)
    (ht : c.tasks[i]? = some ⟨client, .op (.beforeRequest r) k⟩) :
    client = .attempt r ∧ c.trace i = [] := by
  obtain ⟨tr', hc⟩ := course_ahead h ht (.error "")
  exact hc.admission

theorem admitted_state (h : (machine cfg).Reachable (initial t₀) c) {s : CircuitState}
    (ha : Admitted c i r s) : s = .closed ∨ s = .halfOpen := by
  obtain ⟨c₁, x, w', -, he⟩ := h.answered ha
  have hb := exec_beforeRequest he
  unfold Circuit.beforeRequest at hb
  split_ifs at hb with ho hh
  · cases hb
    exact .inr hh
  · cases hb
    generalize (((c₁.world.circuits.get r).advance cfg c₁.world.clock)).state = s at *
    cases s <;> simp_all

end Reports

/-! ## Late successes -/

/-- The circuit has opened since it admitted this attempt, and does not take it for its probe. -/
def Overtaken (c : State) (i : Nat) (r : String) : Prop :=
  (c.world.circuits.get r).state = .isOpen ∨
    (c.world.circuits.get r).state = .halfOpen ∧ Admitted c i r .closed

/-- The move is the report of a success by an attempt that the circuit has left behind. -/
def LateSuccess (c : State) (m : Move Input Client) : Prop :=
  ∃ i x client r k, m = .run i x ∧ c.tasks[i]? = some ⟨client, .op (.recordSuccess r) k⟩ ∧
    Overtaken c i r

def ClosedByProbe (c : State) (m : Move Input Client) (c' : State) : Prop :=
  ∀ r, (c.world.circuits.get r).state ≠ .closed → (c'.world.circuits.get r).state = .closed →
    (c.world.circuits.get r).state = .halfOpen ∧ ∃ i x client k, m = .run i x ∧
      c.tasks[i]? = some ⟨client, .op (.recordSuccess r) k⟩ ∧ Admitted c i r .halfOpen

theorem closedByProbe_iff {t₀ : ℚ} {c c' : State} {m : Move Input Client}
    (h : (machine cfg).Reachable (initial t₀) c) (hs : (machine cfg).step? c m = some c') :
    ClosedByProbe c m c' ↔ ¬ LateSuccess c m := by
  constructor
  · rintro hp ⟨i, x, client, r, k, rfl, ht, hover⟩
    obtain ⟨_, _, _, a, w, ht', he, rfl⟩ := Machine.step_run hs
    rw [ht] at ht'
    cases ht'
    have hclosed : (w.circuits.get r).state = .closed := by
      rw [exec_get he r]
      simp [onCircuit, Circuit.recordSuccess]
    have hne : (c.world.circuits.get r).state ≠ .closed := by
      rcases hover with ho | ⟨ho, -⟩ <;> simp [ho]
    obtain ⟨hhalf, i', x', client', k', hm, ht'', hadm⟩ := hp r hne hclosed
    cases hm
    -- A probe that reports to a half-open circuit is late in neither way.
    rcases hover with ho | ⟨-, hcl⟩
    · exact absurd (ho.symm.trans hhalf) (by decide)
    · obtain ⟨s, b, htr⟩ := trace_of_reporting h ht (.inl rfl)
      have hs₁ : CircuitState.halfOpen = s := by simpa [Admitted, htr] using hadm
      have hs₂ : CircuitState.closed = s := by simpa [Admitted, htr] using hcl
      exact absurd (hs₁.trans hs₂.symm) (by decide)
  · intro hlate r hne hclosed
    rcases step_world hs with ⟨hw, -⟩ | ⟨i, x, client, o, k, a, rfl, ht, he, -⟩
    · rw [hw] at hclosed
      exact absurd hclosed hne
    · rw [exec_get he r] at hclosed
      have ho := onCircuit_closed hne hclosed
      subst ho
      obtain ⟨s, b, htr⟩ := trace_of_reporting h ht (.inl rfl)
      have hadm : Admitted c i r s := by simp [Admitted, htr]
      have hstay : ¬ Overtaken c i r := fun hover => hlate ⟨i, x, client, r, k, rfl, ht, hover⟩
      -- If it was open, the task would have been overtaken, and it was not closed.
      have hhalf : (c.world.circuits.get r).state = .halfOpen := by
        generalize hst : (c.world.circuits.get r).state = st at hne
        cases st with
        | closed => exact absurd rfl hne
        | isOpen => exact absurd (.inl hst) hstay
        | halfOpen => rfl
      refine ⟨hhalf, i, x, client, k, rfl, ht, ?_⟩
      rcases admitted_state h hadm with rfl | rfl
      · exact absurd (.inr ⟨hhalf, hadm⟩) hstay
      · exact hadm

theorem counted_of_reach {t₀ : ℚ} {c : State} (h : (machine cfg).Reachable (initial t₀) c)
    (r : String) : Counted cfg (c.world.circuits.get r) := by
  have hstart : ∀ r, Counted cfg ((initial t₀).world.circuits.get r) :=
    fun r hne => absurd rfl hne
  refine h.invariant (fun c => ∀ r, Counted cfg (c.world.circuits.get r)) hstart
    (fun c m c' _ hc _ hs r => ?_) r
  rcases step_world hs with ⟨hw, -⟩ | ⟨i, x, client, o, k, a, rfl, -, he, -⟩
  · rw [hw]
    exact hc r
  · rw [exec_get he r]
    exact counted_onCircuit o (hc r)

/-- A failure is reported and leaves the circuit of `r` open. -/
def FailsOpen (c : State) (m : Move Input Client) (c' : State) (r : String) : Prop :=
  ∃ i x client k, m = .run i x ∧ c.tasks[i]? = some ⟨client, .op (.recordFailure r) k⟩ ∧
    (c'.world.circuits.get r).state = .isOpen

theorem openSince_of_failsOpen {t₀ : ℚ} {c c' : State} {m : Move Input Client} {r : String}
    (h : (machine cfg).Reachable (initial t₀) c) (hs : (machine cfg).step? c m = some c')
    (hf : FailsOpen c m c' r) : OpenSince c'.world.clock (c'.world.circuits.get r) := by
  obtain ⟨i, x, client, k, rfl, ht, ho⟩ := hf
  obtain ⟨_, _, _, a, w, ht', he, rfl⟩ := Machine.step_run hs
  rw [ht] at ht'
  cases ht'
  have hget : w.circuits.get r = (c.world.circuits.get r).recordFailure cfg c.world.clock := by
    rw [exec_get he r]
    simp [onCircuit]
  simp only [hget] at ho ⊢
  exact ⟨ho, _, openedAt_recordFailure (counted_of_reach h r) ho, (exec_clock he).le⟩

/-- What is open stays open while no success comes late. -/
theorem openSince_of_reach {c c₂ : State} {r : String}
    (ho : OpenSince c.world.clock (c.world.circuits.get r))
    (h : (machine cfg).Reach (fun c m => ¬ LateSuccess c m) c c₂)
    (hn : c₂.world.clock < c.world.clock + cfg.recoverySeconds) :
    OpenSince c.world.clock (c₂.world.circuits.get r) := by
  have hinv : c.world.clock ≤ c₂.world.clock ∧
      (c₂.world.clock < c.world.clock + cfg.recoverySeconds →
        OpenSince c.world.clock (c₂.world.circuits.get r)) := by
    refine h.invariant (fun c₁ => c.world.clock ≤ c₁.world.clock ∧
        (c₁.world.clock < c.world.clock + cfg.recoverySeconds →
          OpenSince c.world.clock (c₁.world.circuits.get r))) ⟨le_rfl, fun _ => ho⟩ ?_
    rintro c₁ m c' - ⟨hle, hopen⟩ hlate hs
    rcases step_world hs with ⟨hw, hclock, -⟩ | ⟨i, x, client, o, k, a, rfl, ht, he, -⟩
    · refine ⟨hle.trans hclock, fun hlt => ?_⟩
      rw [hw]
      exact hopen (hclock.trans_lt hlt)
    · have hclock := exec_clock he
      refine ⟨hclock ▸ hle, fun hlt => ?_⟩
      rw [hclock] at hlt
      have hnow := hopen hlt
      rw [exec_get he r]
      apply hnow.onCircuit hle hlt
      rintro rfl
      exact hlate ⟨i, x, client, r, k, rfl, ht, .inl hnow.1⟩
  exact hinv.2 hn

/-- Only late successes undo an opening: without them a circuit that a failure has opened turns
everyone away until its recovery interval is over, and closes by the success of a probe. -/
theorem open_circuits {t₀ : ℚ} {c c' : State} {m : Move Input Client}
    (h : (machine cfg).Reachable (initial t₀) c) (hs : (machine cfg).step? c m = some c') :
    (ClosedByProbe c m c' ↔ ¬ LateSuccess c m) ∧
    ∀ r, FailsOpen c m c' r → ∀ c₂,
      (machine cfg).Reach (fun c m => ¬ LateSuccess c m) c' c₂ →
      c₂.world.clock < c'.world.clock + cfg.recoverySeconds → Shut cfg c₂.world r := by
  refine ⟨closedByProbe_iff h hs, fun r hf c₂ hr hn => ?_⟩
  exact (openSince_of_reach (openSince_of_failsOpen h hs hf) hr hn).shut hn

theorem failsOpen_of_log {c c' : State} {i : Nat} {x : Input} {r : String}
    (hs : (machine cfg).step? c (.run i x) = some c')
    (hlast : c'.log.getLast?.map (·.2.1) = some (.recordFailure r))
    (ho : (c'.world.circuits.get r).state = .isOpen) : FailsOpen c (.run i x) c' r := by
  rcases step_world hs with ⟨-, -, -, hno⟩ | ⟨i', x', client, o, k, a, hm, ht, -, -, hlog⟩
  · exact absurd rfl (hno i x)
  · simp only [hlog, List.getLast?_concat, Option.map_some, Option.some.injEq] at hlast
    subst hlast
    exact ⟨i', x', client, k, hm, ht, ho⟩

/-! ### Two attempts on one route, the first of which fails -/

theorem brisk_recovery_pos : (0 : ℚ) < 1 := by simp

def brisk : CircuitSettings where
  failureThreshold := 1
  recoverySeconds := 1
  threshold_pos := Nat.one_pos
  recovery_pos := brisk_recovery_pos

def overlap : List (Move Input Client) :=
  [.start (.attempt "primary"), .start (.attempt "primary"), .run 0 .go, .run 1 .go,
    .run 0 (.ends false)]

/-- The second attempt succeeds at the moment the first one has opened the circuit. -/
theorem late_success_admits :
    ∃ m c c' c₂, (machine brisk).Reachable (initial 0) c ∧
      (machine brisk).step? c m = some c' ∧ FailsOpen c m c' "primary" ∧
      (machine brisk).Reachable c' c₂ ∧ c₂.world.clock < c'.world.clock + brisk.recoverySeconds ∧
      (c₂.world.circuits.isAvailable brisk c₂.world.clock "primary").1 = true ∧
      (c₂.world.circuits.beforeRequest brisk c₂.world.clock "primary").1 = .ok .closed := by
  obtain ⟨c, hc, c', hs, c₂, hc₂, hlast, hopen, hclock, havail, hbefore⟩ :
      ∃ c ∈ (machine brisk).moves? (initial 0) overlap,
      ∃ c' ∈ (machine brisk).step? c (.run 0 .go),
      ∃ c₂ ∈ (machine brisk).moves? c' [.run 1 (.ends true), .run 1 .go],
        c'.log.getLast?.map (·.2.1) = some (.recordFailure "primary") ∧
        (c'.world.circuits.get "primary").state = .isOpen ∧
        c₂.world.clock < c'.world.clock + brisk.recoverySeconds ∧
        (c₂.world.circuits.isAvailable brisk c₂.world.clock "primary").1 = true ∧
        (c₂.world.circuits.beforeRequest brisk c₂.world.clock "primary").1 = .ok .closed := by
    decide +kernel
  exact ⟨.run 0 .go, c, c', c₂, Machine.reachable_of_moves _ .start hc, hs,
    failsOpen_of_log hs hlast hopen, Machine.reachable_of_moves _ .start hc₂, hclock, havail,
    hbefore⟩

theorem open_circuits_failure :
    ∃ c, (machine brisk).Reachable (initial 0) c ∧ (c.world.circuits.get "primary").state = .isOpen ∧
      Shut brisk c.world "primary" := by
  obtain ⟨c, hc, c', hs, hlast, hopen⟩ : ∃ c ∈ (machine brisk).moves? (initial 0) overlap,
      ∃ c' ∈ (machine brisk).step? c (.run 0 .go),
        c'.log.getLast?.map (·.2.1) = some (.recordFailure "primary") ∧
        (c'.world.circuits.get "primary").state = .isOpen := by
    decide +kernel
  have h := Machine.reachable_of_moves _ .start hc
  have hf := failsOpen_of_log hs hlast hopen
  exact ⟨c', h.next trivial hs, hopen, (open_circuits h hs).2 "primary" hf c' .start
    (lt_add_of_pos_right _ brisk.recovery_pos)⟩

/-! ## Probes -/

/-- The task has been admitted by the half-open circuit and has not reported yet. -/
def Probe (c : State) (i : Nat) (r : String) : Prop := c.Running i ∧ Admitted c i r .halfOpen

def OneProbe (c : State) : Prop := ∀ r i j, Probe c i r → Probe c j r → i = j

/-- The circuit would take the next request as its probe. -/
def Ready (cfg : CircuitSettings) (w : World) (r : String) : Prop :=
  ((w.circuits.get r).advance cfg w.clock).state = .halfOpen ∧
    ((w.circuits.get r).advance cfg w.clock).probeInFlight = false

/-- The move asks for an admission that a circuit is ready to give although a probe is out. -/
def Crowds (cfg : CircuitSettings) (c : State) (m : Move Input Client) : Prop :=
  ∃ i x client r k, m = .run i x ∧ c.tasks[i]? = some ⟨client, .op (.beforeRequest r) k⟩ ∧
    Ready cfg c.world r ∧ ∃ j, Probe c j r

section Probes

variable {t₀ : ℚ} {c c' : State} {m : Move Input Client} {i j : Nat} {x : Input}

theorem probe_still (h : (machine cfg).Reachable (initial t₀) c)
    (hs : (machine cfg).step? c m = some c') (hm : ∀ x, m ≠ .run j x) :
    Probe c' j r ↔ Probe c j r := by
  simp only [Probe, Admitted, Machine.trace_still hs hm]
  apply and_congr_left
  intro hadm
  constructor
  · rintro ⟨client, o, k, ht⟩
    rcases Machine.task_back hs hm ht with ht | hj
    · exact ⟨client, o, k, ht⟩
    · rw [h.onTheWay.1 j hj] at hadm
      cases hadm
  · rintro ⟨client, o, k, ht⟩
    exact ⟨client, o, k, Machine.task_step hs hm ht⟩

theorem ready_iff {w w' : World} {a : Except String CircuitState}
    (he : exec cfg w (.beforeRequest r) x = some (a, w')) : Ready cfg w r ↔ a = .ok .halfOpen := by
  rw [exec_beforeRequest he, Ready]
  generalize (w.circuits.get r).advance cfg w.clock = b
  rcases b with ⟨_ | _ | _, _, _, _ | _⟩ <;> simp [Circuit.beforeRequest]

theorem probe_step (h : (machine cfg).Reachable (initial t₀) c)
    (hs : (machine cfg).step? c m = some c') (hp : Probe c' j r) :
    Probe c j r ∨ ∃ x client k, m = .run j x ∧
      c.tasks[j]? = some ⟨client, .op (.beforeRequest r) k⟩ ∧ Ready cfg c.world r ∧
      c'.log = c.log ++ [(j, ⟨.beforeRequest r, .ok .halfOpen⟩)] := by
  by_cases hm : ∀ x, m ≠ .run j x
  · exact .inl ((probe_still h hs hm).mp hp)
  · push Not at hm
    obtain ⟨x, rfl⟩ := hm
    obtain ⟨client, o, k, a, w, ht, he, rfl⟩ := Machine.step_run hs
    obtain ⟨-, hadm⟩ := hp
    rw [Admitted, Machine.trace_snoc, if_pos rfl, List.mem_append, List.mem_singleton] at hadm
    rcases hadm with hadm | hadm
    · exact .inl ⟨⟨client, o, k, ht⟩, hadm⟩
    · cases hadm
      exact .inr ⟨x, client, k, rfl, ht, (ready_iff he).mpr rfl, rfl⟩

/-- One step from a state with one probe. -/
theorem oneProbe_iff (h : (machine cfg).Reachable (initial t₀) c)
    (hs : (machine cfg).step? c m = some c') (ho : OneProbe c) :
    OneProbe c' ↔ ¬ Crowds cfg c m := by
  constructor
  · rintro ho' ⟨i, x, client, r, k, rfl, ht, hready, j, hj⟩
    obtain ⟨rfl, htr⟩ := trace_of_asking h ht
    have hji : j ≠ i := by
      rintro rfl
      have hadm := hj.2
      rw [Admitted, htr] at hadm
      cases hadm
    have hj' : Probe c' j r := (probe_still h hs (by rintro x ⟨⟩; exact hji rfl)).mpr hj
    rcases step_world hs with ⟨-, -, -, hno⟩ | ⟨_, _, _, _, _, a, hm, ht', he, htask, hlog⟩
    · exact absurd rfl (hno i x)
    cases hm
    rw [ht] at ht'
    cases ht'
    obtain rfl := (ready_iff he).mp hready
    have hsteps := h.onTheWay.2 i _ ht
    rw [htr] at hsteps
    cases hsteps
    -- Whoever is let in is a probe from now on, besides the one that is out.
    have hi' : Probe c' i r := by
      refine ⟨⟨_, _, _, htask⟩, ?_⟩
      rw [Admitted, Pool.trace_of_log hlog, htr, if_pos rfl]
      exact List.mem_singleton_self _
    exact hji (ho' r j i hj' hi')
  · intro hcrowds r i j hi hj
    rcases probe_step h hs hi with hi | ⟨x, client, k, rfl, hti, hready, -⟩
    · rcases probe_step h hs hj with hj | ⟨x, client, k, rfl, htj, hready, -⟩
      · exact ho r i j hi hj
      · exact absurd ⟨j, x, client, r, k, rfl, htj, hready, i, hi⟩ hcrowds
    · rcases probe_step h hs hj with hj | ⟨_, _, _, hm, -⟩
      · exact absurd ⟨i, x, client, r, k, rfl, hti, hready, j, hj⟩ hcrowds
      · cases hm
        rfl

theorem oneProbe_of_reach (h : (machine cfg).Reach (fun c m => ¬ Crowds cfg c m) (initial t₀) c) :
    OneProbe c := by
  have hstart : OneProbe (initial t₀) := by
    rintro r i j ⟨⟨_, _, _, ht⟩, -⟩
    simp [initial, Pool.empty] at ht
  exact h.invariant OneProbe hstart fun _ _ _ hc ho hcrowds hs =>
    (oneProbe_iff hc.weaken hs ho).mpr hcrowds

def Held (b : Circuit) : Prop :=
  b.state = .closed ∨ b.state = .halfOpen ∧ b.probeInFlight = true

theorem Held.advance {now : ℚ} {b : Circuit} (h : Held b) : b.advance cfg now = b := by
  refine Circuit.advance_of_not_due (Circuit.not_due_of_ne ?_)
  rcases h with hs | ⟨hs, -⟩ <;> simp [hs]

theorem Held.onCircuit {now : ℚ} {b : Circuit} {o : Method} (h : Held b) :
    Held (onCircuit cfg now r b o) ∨
      o = .recordFailure r ∧ (onCircuit cfg now r b o).state = .isOpen := by
  rcases onCircuit_cases now r b o with ⟨he, -⟩ | ⟨he, -⟩ | ⟨he, -⟩ | ⟨he, -⟩ | ⟨he, ho⟩ <;> rw [he]
  · exact .inl h
  · exact .inl (by rwa [h.advance])
  · rw [h.advance]
    rcases b.beforeRequest_eq r with hb | ⟨hh, hp, -⟩
    · exact .inl (by rwa [hb])
    · rcases h with hs | ⟨-, hs⟩
      · exact absurd (hs.symm.trans hh) (by decide)
      · exact absurd (hs.symm.trans hp) (by decide)
  · exact .inl (.inl rfl)
  · unfold Circuit.recordFailure
    split_ifs with ht
    · exact .inr ⟨ho, rfl⟩
    · rcases h with hs | ⟨hs, -⟩
      · exact .inl (.inl hs)
      · exact absurd (.inl hs) ht

theorem Held.not_ready {w : World} (h : Held (w.circuits.get r)) : ¬ Ready cfg w r := by
  rintro ⟨hs, hp⟩
  rw [h.advance] at hs hp
  rcases h with h | ⟨-, h⟩
  · exact absurd (h.symm.trans hs) (by decide)
  · exact absurd (h.symm.trans hp) (by decide)

/-- Since the probe `j` was admitted, a failure of another attempt has opened the circuit. -/
def Reopened (c : State) (j : Nat) (r : String) : Prop :=
  ∃ pre post, c.log = pre ++ (j, ⟨.beforeRequest r, .ok .halfOpen⟩) :: post ∧
    ∃ i ≠ j, (i, ⟨.recordFailure r, .isOpen⟩) ∈ post

/-- The log since the admission of the probe `j`, and what the circuit is like if nothing has
opened it since. -/
def Since (c : State) (j : Nat) (r : String) : Prop :=
  ∃ pre post, c.log = pre ++ (j, ⟨.beforeRequest r, .ok .halfOpen⟩) :: post ∧
    (Held (c.world.circuits.get r) ∨ ∃ i ≠ j, (i, ⟨.recordFailure r, .isOpen⟩) ∈ post)

theorem not_reports_of_probe (h : (machine cfg).Reachable (initial t₀) c') {o : Method}
    {a : Answer o} (hlog : c'.log = c.log ++ [(j, ⟨o, a⟩)]) (hp : Probe c' j r) (s : String) :
    ¬ reports s o := by
  intro ho
  obtain ⟨⟨client, o', k', ht⟩, -⟩ := hp
  obtain ⟨a'⟩ := answerNonempty o'
  obtain ⟨tr', hc⟩ := course_ahead h ht a'
  rw [Pool.trace_of_log hlog, if_pos rfl, List.append_assoc, List.singleton_append] at hc
  exact absurd (hc.report ho).1 (by simp)

theorem since_of_probe (h : (machine cfg).Reachable (initial t₀) c) (hp : Probe c j r) :
    Since c j r := by
  have hstart : ∀ j r, Probe (initial t₀) j r → Since (initial t₀) j r := by
    rintro j r ⟨⟨_, _, _, ht⟩, -⟩
    simp [initial, Pool.empty] at ht
  refine h.invariant (fun c => ∀ j r, Probe c j r → Since c j r) hstart ?_ j r hp
  intro c m c' hc hsince hok hs j r hp
  have hc' := hc.next hok hs
  rcases probe_step hc hs hp with hold | ⟨x, client, k, rfl, ht, hready, hlog⟩
  · obtain ⟨pre, post, hlog₀, hheld⟩ := hsince j r hold
    rcases step_world hs with ⟨hw, -, hlog, -⟩ | ⟨i, x, client, o, k, a, rfl, ht, he, -, hlog⟩
    · exact ⟨pre, post, hlog ▸ hlog₀, hw ▸ hheld⟩
    · refine ⟨pre, post ++ [(i, ⟨o, a⟩)], by simp [hlog, hlog₀], ?_⟩
      rcases hheld with hheld | ⟨i', hi', hmem⟩
      · rw [exec_get he r]
        have hnext : Held (onCircuit cfg c.world.clock r (c.world.circuits.get r) o) ∨
            o = .recordFailure r ∧ (onCircuit cfg c.world.clock r (c.world.circuits.get r) o).state =
              .isOpen := hheld.onCircuit
        rcases hnext with hheld | ⟨rfl, hopen⟩
        · exact .inl hheld
        · have hij : i ≠ j := by
            rintro rfl
            exact not_reports_of_probe hc' hlog hp r (.inr rfl)
          obtain rfl : a = .isOpen := by rw [exec_recordFailure he, exec_get he r, hopen]
          exact .inr ⟨i, hij, by simp⟩
      · exact .inr ⟨i', hi', List.mem_append_left _ hmem⟩
  · refine ⟨c.log, [], hlog, .inl ?_⟩
    rcases step_world hs with ⟨-, -, -, hno⟩ | ⟨_, _, _, o, k', a, hm, ht', he, -, -⟩
    · exact absurd rfl (hno j x)
    cases hm
    rw [ht] at ht'
    cases ht'
    rw [exec_get he r, onCircuit, if_pos rfl, Circuit.beforeRequest, if_neg (by simp [hready.1]),
      if_pos hready.1, if_neg (by simp [hready.2])]
    exact .inr ⟨hready.1, rfl⟩

theorem reopened_of_crowds (h : (machine cfg).Reachable (initial t₀) c) (hp : Probe c j r)
    (hready : Ready cfg c.world r) : Reopened c j r := by
  obtain ⟨pre, post, hlog, hheld | hopened⟩ := since_of_probe h hp
  · exact absurd hready hheld.not_ready
  · exact ⟨pre, post, hlog, hopened⟩

/-- A second probe is let in only by a circuit that is ready while the first is out, which takes a
failure of another attempt in between. -/
theorem one_probe (h : (machine cfg).Reachable (initial t₀) c)
    (hs : (machine cfg).step? c m = some c') :
    (OneProbe c → (OneProbe c' ↔ ¬ Crowds cfg c m)) ∧
    ((machine cfg).Reach (fun c m => ¬ Crowds cfg c m) (initial t₀) c → OneProbe c) ∧
    ∀ r j, Probe c j r → Ready cfg c.world r → Reopened c j r :=
  ⟨oneProbe_iff h hs, oneProbe_of_reach, fun _ _ hp hready => reopened_of_crowds h hp hready⟩

/-! ### A late failure between two probes -/

instance answerDecidableEq : ∀ o, DecidableEq (Answer o)
  | .isAvailable _ => inferInstanceAs (DecidableEq Bool)
  | .beforeRequest _ => inferInstanceAs (DecidableEq (Except String CircuitState))
  | .recordSuccess _ => inferInstanceAs (DecidableEq CircuitState)
  | .recordFailure _ => inferInstanceAs (DecidableEq CircuitState)
  | .snapshots => inferInstanceAs (DecidableEq (List CircuitSnapshot))
  | .attempt => inferInstanceAs (DecidableEq Bool)

theorem probe_of_log (hlog : (j, (⟨.beforeRequest r, .ok .halfOpen⟩ : Turn)) ∈ c.log)
    (ht : ∃ t ∈ c.tasks[j]?, t.rest.ended = false) : Probe c j r := by
  obtain ⟨⟨client, rest⟩, ht, hrest⟩ := ht
  refine ⟨?_, Pool.mem_trace.mpr hlog⟩
  cases rest with
  | op o k => exact ⟨client, o, k, ht⟩
  | pure _ => cases hrest
  | throw _ => cases hrest

def probing : List (Move Input Client) :=
  overlap ++ [.run 0 .go, .drift (.later 1), .start (.attempt "primary"), .run 2 .go]

/-- The second attempt fails, which opens the circuit again, and another recovery lets in another
probe while the first one is out. -/
theorem two_probes : ∃ c, (machine brisk).Reachable (initial 0) c ∧ Probe c 2 "primary" ∧
    Probe c 3 "primary" := by
  obtain ⟨c, hc, hlog₂, ht₂, hlog₃, ht₃⟩ : ∃ c ∈ (machine brisk).moves? (initial 0) (probing ++
      [.run 1 (.ends false), .run 1 .go, .drift (.later 1), .start (.attempt "primary"),
        .run 3 .go]),
      (2, (⟨.beforeRequest "primary", .ok .halfOpen⟩ : Turn)) ∈ c.log ∧
      (∃ t ∈ c.tasks[2]?, t.rest.ended = false) ∧
      (3, (⟨.beforeRequest "primary", .ok .halfOpen⟩ : Turn)) ∈ c.log ∧
      ∃ t ∈ c.tasks[3]?, t.rest.ended = false := by
    decide +kernel
  exact ⟨c, Machine.reachable_of_moves _ .start hc, probe_of_log hlog₂ ht₂, probe_of_log hlog₃ ht₃⟩

def admitsProbe : Turn → Bool
  | ⟨.beforeRequest _, .ok .halfOpen⟩ => true
  | _ => false

theorem one_probe_first : ∃ c, (machine brisk).Reachable (initial 0) c ∧ Probe c 2 "primary" ∧
    OneProbe c := by
  obtain ⟨c, hc, c', hs, hnone, hlog, ht⟩ :
      ∃ c ∈ (machine brisk).moves? (initial 0) probing.dropLast,
      ∃ c' ∈ (machine brisk).step? c (.run 2 .go),
      (∀ e ∈ c.log, admitsProbe e.2 = false) ∧
      (2, (⟨.beforeRequest "primary", .ok .halfOpen⟩ : Turn)) ∈ c'.log ∧
      ∃ t ∈ c'.tasks[2]?, t.rest.ended = false := by
    decide +kernel
  have h := Machine.reachable_of_moves _ .start hc
  have hno : ∀ j r, ¬ Probe c j r := fun j r hp =>
    absurd (hnone _ (Pool.mem_trace.mp hp.2)) (by simp [admitsProbe])
  have hcrowds : ¬ Crowds brisk c (.run 2 .go) := by
    rintro ⟨_, _, _, r, _, -, -, -, j, hj⟩
    exact hno j r hj
  have hone : OneProbe c := fun r i _ hi => absurd hi (hno i r)
  exact ⟨c', h.next trivial hs, probe_of_log hlog ht, ((one_probe h hs).1 hone).mpr hcrowds⟩

end Probes

end Breaker

end AegisGateway
