import Mathlib.Data.List.AList
import Mathlib.Algebra.Order.Field.Rat

/-!
# Circuit breakers

`control/circuit_breaker.py`: one circuit for each route, with one probe when it is
half open. The clock is read by the caller.
-/

namespace AegisGateway

inductive CircuitState where
  | closed | isOpen | halfOpen
  deriving DecidableEq, Repr

def CircuitState.gauge : CircuitState → Nat
  | .closed => 0
  | .halfOpen => 1
  | .isOpen => 2

structure Circuit where
  state : CircuitState := .closed
  consecutiveFailures : Nat := 0
  openedAt : Option ℚ := none
  probeInFlight : Bool := false
  deriving DecidableEq, Repr

structure CircuitSettings where
  failureThreshold : Nat := 3
  recoverySeconds : ℚ := 30
  threshold_pos : 0 < failureThreshold := by decide
  recovery_pos : 0 < recoverySeconds := by decide +kernel

structure CircuitSnapshot where
  routeId : String
  state : CircuitState
  consecutiveFailures : Nat
  openedAt : Option ℚ
  deriving DecidableEq, Repr

/-! ## One circuit -/

namespace Circuit

def due (cfg : CircuitSettings) (now : ℚ) (c : Circuit) : Bool :=
  c.state = .isOpen && c.openedAt.any fun t => cfg.recoverySeconds ≤ now - t

def advance (cfg : CircuitSettings) (now : ℚ) (c : Circuit) : Circuit :=
  if c.due cfg now then { c with state := .halfOpen, probeInFlight := false } else c

def available (c : Circuit) : Bool :=
  c.state = .closed || (c.state = .halfOpen && !c.probeInFlight)

def beforeRequest (routeId : String) (c : Circuit) : Except String CircuitState × Circuit :=
  if c.state = .isOpen then (.error s!"circuit for route '{routeId}' is open", c)
  else if c.state = .halfOpen then
    if c.probeInFlight then (.error s!"circuit for route '{routeId}' has a probe in flight", c)
    else (.ok c.state, { c with probeInFlight := true })
  else (.ok c.state, c)

def recordSuccess (_ : Circuit) : Circuit := {}

def recordFailure (cfg : CircuitSettings) (now : ℚ) (c : Circuit) : Circuit :=
  if c.state = .halfOpen ∨ cfg.failureThreshold ≤ c.consecutiveFailures + 1 then
    { state := .isOpen, consecutiveFailures := c.consecutiveFailures + 1, openedAt := some now }
  else
    { c with consecutiveFailures := c.consecutiveFailures + 1, probeInFlight := false }

@[simp]
theorem advance_new (cfg : CircuitSettings) (now : ℚ) : advance cfg now {} = {} := rfl

theorem advance_of_due {cfg : CircuitSettings} {now : ℚ} {c : Circuit} (h : c.due cfg now = true) :
    c.advance cfg now = { c with state := .halfOpen, probeInFlight := false } := if_pos h

theorem advance_of_not_due {cfg : CircuitSettings} {now : ℚ} {c : Circuit}
    (h : ¬ c.due cfg now = true) : c.advance cfg now = c := if_neg h

theorem not_due_of_ne {cfg : CircuitSettings} {now : ℚ} {c : Circuit} (h : c.state ≠ .isOpen) :
    ¬ c.due cfg now = true := by
  simp [due, h]

@[simp]
theorem advance_advance (cfg : CircuitSettings) (now : ℚ) (c : Circuit) :
    (c.advance cfg now).advance cfg now = c.advance cfg now := by
  by_cases h : c.due cfg now = true
  · rw [advance_of_due h]
    exact advance_of_not_due (not_due_of_ne (by simp))
  · rw [advance_of_not_due h, advance_of_not_due h]

theorem advance_probeInFlight {cfg : CircuitSettings} {now : ℚ} {c : Circuit}
    (h : (c.advance cfg now).probeInFlight = true) : c.probeInFlight = true := by
  unfold advance at h
  split_ifs at h
  exact h

theorem available_iff (c : Circuit) :
    c.available = true ↔ c.state ≠ .isOpen ∧ (c.state = .halfOpen → c.probeInFlight = false) := by
  rcases c with ⟨_ | _ | _, _, _, _⟩ <;> simp [available]

theorem beforeRequest_eq (routeId : String) (c : Circuit) : (c.beforeRequest routeId).2 = c ∨
    c.state = .halfOpen ∧ c.probeInFlight = false ∧
      c.beforeRequest routeId = (.ok .halfOpen, { c with probeInFlight := true }) := by
  unfold beforeRequest
  split_ifs with ho hh hp
  · exact .inl rfl
  · exact .inl rfl
  · exact .inr ⟨hh, by simpa using hp, by rw [hh]⟩
  · exact .inl rfl

theorem beforeRequest_state (routeId : String) (c : Circuit) :
    (c.beforeRequest routeId).2.state = c.state := by
  rcases c.beforeRequest_eq routeId with h | ⟨-, -, h⟩
  · rw [h]
  · rw [h]

@[simp]
theorem recordFailure_probeInFlight (cfg : CircuitSettings) (now : ℚ) (c : Circuit) :
    (c.recordFailure cfg now).probeInFlight = false := by
  unfold recordFailure
  split_ifs <;> rfl

@[simp]
theorem recordSuccess_probeInFlight (c : Circuit) : c.recordSuccess.probeInFlight = false := rfl

end Circuit

/-! ## All circuits -/

abbrev Circuits : Type := AList fun _ : String => Circuit

namespace Circuits

/-- `setdefault(route_id, _Circuit())`. -/
def get (cs : Circuits) (routeId : String) : Circuit := (cs.lookup routeId).getD {}

@[simp]
theorem get_empty (routeId : String) : get ∅ routeId = {} := rfl

@[simp]
theorem get_insert (cs : Circuits) (routeId : String) (c : Circuit) :
    get (cs.insert routeId c) routeId = c := by
  simp [get]

theorem get_insert_ne {cs : Circuits} {r routeId : String} {c : Circuit} (h : r ≠ routeId) :
    get (cs.insert routeId c) r = cs.get r := by
  simp [get, AList.lookup_insert_ne h]

def isAvailable (cfg : CircuitSettings) (now : ℚ) (cs : Circuits) (routeId : String) :
    Bool × Circuits :=
  let circuit := (cs.get routeId).advance cfg now
  (circuit.available, cs.insert routeId circuit)

def beforeRequest (cfg : CircuitSettings) (now : ℚ) (cs : Circuits) (routeId : String) :
    Except String CircuitState × Circuits :=
  let (answer, circuit) := ((cs.get routeId).advance cfg now).beforeRequest routeId
  (answer, cs.insert routeId circuit)

def recordSuccess (cs : Circuits) (routeId : String) : CircuitState × Circuits :=
  let circuit := (cs.get routeId).recordSuccess
  (circuit.state, cs.insert routeId circuit)

def recordFailure (cfg : CircuitSettings) (now : ℚ) (cs : Circuits) (routeId : String) :
    CircuitState × Circuits :=
  let circuit := (cs.get routeId).recordFailure cfg now
  (circuit.state, cs.insert routeId circuit)

def snapshots (cfg : CircuitSettings) (now : ℚ) (cs : Circuits) : List CircuitSnapshot × Circuits :=
  cs.keys.foldr (fun routeId (shots, cs) =>
    let circuit := (cs.get routeId).advance cfg now
    (⟨routeId, circuit.state, circuit.consecutiveFailures, circuit.openedAt⟩ :: shots,
      cs.insert routeId circuit)) ([], cs)

/-! ## What the methods make of one circuit -/

section Get

variable (cfg : CircuitSettings) (now : ℚ) (cs : Circuits) (routeId r : String)

theorem isAvailable_get : (cs.isAvailable cfg now routeId).2.get r =
    if routeId = r then (cs.get r).advance cfg now else cs.get r := by
  split_ifs with h
  · rw [h, isAvailable, get_insert]
  · rw [isAvailable, get_insert_ne (Ne.symm h)]

theorem beforeRequest_get : (cs.beforeRequest cfg now routeId).2.get r =
    if routeId = r then (((cs.get r).advance cfg now).beforeRequest r).2 else cs.get r := by
  split_ifs with h
  · rw [h, beforeRequest, get_insert]
  · rw [beforeRequest, get_insert_ne (Ne.symm h)]

theorem recordSuccess_get : (cs.recordSuccess routeId).2.get r =
    if routeId = r then (cs.get r).recordSuccess else cs.get r := by
  split_ifs with h
  · rw [h, recordSuccess, get_insert]
  · rw [recordSuccess, get_insert_ne (Ne.symm h)]

theorem recordFailure_get : (cs.recordFailure cfg now routeId).2.get r =
    if routeId = r then (cs.get r).recordFailure cfg now else cs.get r := by
  split_ifs with h
  · rw [h, recordFailure, get_insert]
  · rw [recordFailure, get_insert_ne (Ne.symm h)]

/-- What the loop of `snapshots` over these routes leaves. -/
theorem foldr_snapshots_get (ids : List String) : (ids.foldr (fun routeId (shots, cs) =>
      let circuit := (get cs routeId).advance cfg now
      (⟨routeId, circuit.state, circuit.consecutiveFailures, circuit.openedAt⟩ :: shots,
        AList.insert routeId circuit cs)) (([] : List CircuitSnapshot), cs)).2.get r =
      if r ∈ ids then (cs.get r).advance cfg now else cs.get r := by
  induction ids with
  | nil => rfl
  | cons id ids ih =>
    rw [List.foldr_cons]
    by_cases hr : r = id
    · subst hr
      simp only [get_insert, ih, List.mem_cons, true_or, if_true]
      split_ifs
      · exact Circuit.advance_advance ..
      · rfl
    · simp only [get_insert_ne hr, ih, List.mem_cons, hr, false_or]

theorem snapshots_get : (cs.snapshots cfg now).2.get r = (cs.get r).advance cfg now := by
  rw [snapshots, foldr_snapshots_get]
  split_ifs with h
  · rfl
  · have hnew : cs.get r = {} := by
      rw [get, AList.lookup_eq_none.mpr h]
      rfl
    rw [hnew, Circuit.advance_new]

theorem snapshots_state : ∀ shot ∈ (cs.snapshots cfg now).1,
    shot.state = ((cs.get shot.routeId).advance cfg now).state := by
  unfold snapshots
  generalize cs.keys = ids
  induction ids with
  | nil => exact List.forall_mem_nil _
  | cons id ids ih =>
    refine List.forall_mem_cons.mpr ⟨?_, ih⟩
    simp only [foldr_snapshots_get]
    split_ifs
    · rw [Circuit.advance_advance]
    · rfl

end Get

/-! ## The probe flag -/

theorem isAvailable_probeInFlight {cfg : CircuitSettings} {now : ℚ} {cs : Circuits}
    {routeId r : String} (h : ((cs.isAvailable cfg now routeId).2.get r).probeInFlight = true) :
    (cs.get r).probeInFlight = true := by
  by_cases hr : r = routeId
  · subst hr
    rw [isAvailable, get_insert] at h
    exact Circuit.advance_probeInFlight h
  · rwa [isAvailable, get_insert_ne hr] at h

theorem beforeRequest_probeInFlight {cfg : CircuitSettings} {now : ℚ} {cs : Circuits}
    {routeId r : String} (h : ((cs.beforeRequest cfg now routeId).2.get r).probeInFlight = true) :
    (cs.get r).probeInFlight = true ∨
      r = routeId ∧ (cs.beforeRequest cfg now routeId).1 = .ok .halfOpen := by
  by_cases hr : r = routeId
  · subst hr
    rcases ((cs.get r).advance cfg now).beforeRequest_eq r with hsame | ⟨-, -, hprobe⟩
    · rw [beforeRequest, get_insert, hsame] at h
      exact .inl (Circuit.advance_probeInFlight h)
    · exact .inr ⟨rfl, by rw [beforeRequest, hprobe]⟩
  · rw [beforeRequest, get_insert_ne hr] at h
    exact .inl h

theorem recordSuccess_probeInFlight {cs : Circuits} {routeId r : String}
    (h : ((cs.recordSuccess routeId).2.get r).probeInFlight = true) :
    r ≠ routeId ∧ (cs.get r).probeInFlight = true := by
  by_cases hr : r = routeId
  · subst hr
    simp [recordSuccess] at h
  · rw [recordSuccess, get_insert_ne hr] at h
    exact ⟨hr, h⟩

theorem recordFailure_probeInFlight {cfg : CircuitSettings} {now : ℚ} {cs : Circuits}
    {routeId r : String} (h : ((cs.recordFailure cfg now routeId).2.get r).probeInFlight = true) :
    r ≠ routeId ∧ (cs.get r).probeInFlight = true := by
  by_cases hr : r = routeId
  · subst hr
    simp [recordFailure] at h
  · rw [recordFailure, get_insert_ne hr] at h
    exact ⟨hr, h⟩

theorem snapshots_probeInFlight {cfg : CircuitSettings} {now : ℚ} {cs : Circuits} {r : String}
    (h : ((cs.snapshots cfg now).2.get r).probeInFlight = true) :
    (cs.get r).probeInFlight = true := by
  unfold snapshots at h
  generalize cs.keys = ids at h
  induction ids with
  | nil => exact h
  | cons id ids ih =>
    rw [List.foldr_cons] at h
    generalize List.foldr _ ([], cs) ids = shot at h ih
    by_cases hr : r = id
    · subst hr
      simp only [get_insert] at h
      exact ih (Circuit.advance_probeInFlight h)
    · simp only [get_insert_ne hr] at h
      exact ih h

end Circuits

end AegisGateway
