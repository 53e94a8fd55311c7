import AegisGateway.CircuitBreaker
import Mathlib.Data.List.Induction
import Mathlib.Tactic.Linarith

/-!
# The history of a circuit

A circuit moves on only when it is looked at. What is seen of it then is a matter of the
failures since its last success, and of the time of the last one.
-/

namespace AegisGateway

inductive CircuitOp where
  | isAvailable (routeId : String)
  | beforeRequest (routeId : String)
  | recordSuccess (routeId : String)
  | recordFailure (routeId : String)
  | snapshots
  deriving DecidableEq

/-- A call of the breakers, with the time that it reads. -/
structure CircuitCall where
  time : ℚ
  op : CircuitOp

/-! ## The history -/

/-- The times of the failures since the last success, the last one first. -/
def failuresSince (r : String) (h : List CircuitCall) : List ℚ :=
  ((h.reverse.takeWhile fun c => c.op ≠ .recordSuccess r).filter
    fun c => c.op = .recordFailure r).map (·.time)

/-- The state that a history leaves. -/
def historyState (cfg : CircuitSettings) (t : ℚ) (failures : List ℚ) : CircuitState :=
  if failures.length < cfg.failureThreshold then .closed
  else if failures.head?.all fun last => cfg.recoverySeconds ≤ t - last then .halfOpen
  else .isOpen

/-- The calls that say something about the route. -/
def ownCalls (r : String) (h : List CircuitCall) : List CircuitCall :=
  h.filter fun c =>
    c.op = .beforeRequest r ∨ c.op = .recordSuccess r ∨ c.op = .recordFailure r

def nextFailures (r : String) (failures : List ℚ) (c : CircuitCall) : List ℚ :=
  if c.op = .recordSuccess r then []
  else if c.op = .recordFailure r then c.time :: failures
  else failures

theorem failuresSince_concat (r : String) (h : List CircuitCall) (c : CircuitCall) :
    failuresSince r (h ++ [c]) = nextFailures r (failuresSince r h) c := by
  unfold failuresSince nextFailures
  rw [List.reverse_append, List.reverse_singleton, List.singleton_append, List.takeWhile_cons]
  by_cases hs : c.op = .recordSuccess r
  · simp [hs]
  · by_cases hf : c.op = .recordFailure r
    · simp [hf]
    · simp [hs, hf]

namespace Circuit

variable {cfg : CircuitSettings} {t t' : ℚ} {r : String} {c c' : Circuit} {failures : List ℚ}

def act (cfg : CircuitSettings) (r : String) (c : Circuit) (call : CircuitCall) : Circuit :=
  match call.op with
  | .isAvailable id => if id = r then c.advance cfg call.time else c
  | .beforeRequest id =>
    if id = r then ((c.advance cfg call.time).beforeRequest r).2 else c
  | .recordSuccess id => if id = r then c.recordSuccess else c
  | .recordFailure id => if id = r then c.recordFailure cfg call.time else c
  | .snapshots => c.advance cfg call.time

structure Tracks (cfg : CircuitSettings) (t : ℚ) (failures : List ℚ) (c : Circuit) : Prop where
  count : c.consecutiveFailures = failures.length
  closed : c.state = .closed → failures.length < cfg.failureThreshold
  opened : c.state ≠ .closed → cfg.failureThreshold ≤ failures.length ∧
    ∃ last, failures.head? = some last ∧ c.openedAt = some last ∧
      (c.state = .halfOpen → cfg.recoverySeconds ≤ t - last)

theorem tracks_new : Tracks cfg t [] {} where
  count := rfl
  closed _ := cfg.threshold_pos
  opened h := absurd rfl h

theorem Tracks.later (h : Tracks cfg t failures c) (ht : t ≤ t') : Tracks cfg t' failures c where
  count := h.count
  closed := h.closed
  opened hne := by
    obtain ⟨hle, last, hlast, hopened, hhalf⟩ := h.opened hne
    exact ⟨hle, last, hlast, hopened, fun hstate => by linarith [hhalf hstate]⟩

theorem Tracks.advance (h : Tracks cfg t failures c) : Tracks cfg t failures (c.advance cfg t) := by
  by_cases hdue : c.due cfg t = true
  · rw [advance_of_due hdue]
    obtain ⟨hopen, hlate⟩ : c.state = .isOpen ∧ c.openedAt.any _ = true := by
      simpa [due] using hdue
    obtain ⟨hle, last, hlast, hopened, -⟩ := h.opened (by simp [hopen])
    rw [hopened] at hlate
    exact ⟨h.count, fun hclosed => by simp at hclosed,
      fun _ => ⟨hle, last, hlast, hopened, fun _ => by simpa using hlate⟩⟩
  · rw [advance_of_not_due hdue]
    exact h

theorem Tracks.beforeRequest (h : Tracks cfg t failures c) :
    Tracks cfg t failures (c.beforeRequest r).2 := by
  rcases beforeRequest_eq r c with heq | ⟨-, -, heq⟩
  · rw [heq]
    exact h
  · rw [heq]
    exact ⟨h.count, h.closed, h.opened⟩

theorem Tracks.recordFailure (h : Tracks cfg t failures c) :
    Tracks cfg t (t :: failures) (c.recordFailure cfg t) := by
  have hcount := h.count
  unfold Circuit.recordFailure
  split_ifs with hopens
  · have hle : cfg.failureThreshold ≤ failures.length + 1 := by
      rcases hopens with hhalf | hthreshold
      · have := (h.opened (by simp [hhalf])).1
        omega
      · omega
    refine ⟨by simp [hcount], fun hclosed => by simp at hclosed, fun _ => ⟨hle, t, rfl, rfl, ?_⟩⟩
    intro hhalf
    simp at hhalf
  · push Not at hopens
    obtain ⟨hhalf, hfew⟩ := hopens
    have hclosed : c.state = .closed := by
      by_contra hne
      have := (h.opened hne).1
      omega
    refine ⟨by simp [hcount], fun _ => ?_, fun hne => absurd hclosed hne⟩
    simp only [List.length_cons]
    omega

theorem Tracks.state (h : Tracks cfg t failures c) :
    (c.advance cfg t).state = historyState cfg t failures := by
  have hadvanced := h.advance
  unfold historyState
  by_cases hclosed : (c.advance cfg t).state = .closed
  · rw [hclosed, if_pos (hadvanced.closed hclosed)]
  · obtain ⟨hle, last, hlast, hopened, hhalf⟩ := hadvanced.opened hclosed
    have hearly : (c.advance cfg t).state = .isOpen → ¬ cfg.recoverySeconds ≤ t - last := by
      intro hopen hlate
      have hdue : (c.advance cfg t).due cfg t = true := by simp [due, hopen, hopened, hlate]
      have htwice := advance_of_due hdue
      rw [advance_advance] at htwice
      rw [htwice] at hopen
      simp at hopen
    rw [if_neg (by omega), hlast]
    cases hstate : (c.advance cfg t).state with
    | closed => exact absurd hstate hclosed
    | halfOpen => rw [if_pos (by simpa using hhalf hstate)]
    | isOpen => rw [if_neg (by simpa using hearly hstate)]

/-! ## Looking -/

theorem advance_later (ht : t ≤ t') : (c.advance cfg t).advance cfg t' = c.advance cfg t' := by
  by_cases hdue : c.due cfg t = true
  · have hlater : c.due cfg t' = true := by
      simp only [due, Bool.and_eq_true, decide_eq_true_eq, Option.any_eq_true] at hdue ⊢
      obtain ⟨hopen, last, hlast, hlate⟩ := hdue
      exact ⟨hopen, last, hlast, by linarith⟩
    rw [advance_of_due hdue, advance_of_due hlater]
    exact advance_of_not_due (not_due_of_ne (by simp))
  · rw [advance_of_not_due hdue]

/-- Two circuits that look the same at a time. -/
def Alike (cfg : CircuitSettings) (t : ℚ) (c c' : Circuit) : Prop :=
  c.advance cfg t = c'.advance cfg t

theorem Alike.later (h : Alike cfg t c c') (ht : t ≤ t') : Alike cfg t' c c' := by
  unfold Alike at h ⊢
  rw [← advance_later ht, h, advance_later ht]

theorem alike_advance (c : Circuit) : Alike cfg t (c.advance cfg t) c := advance_advance cfg t c

theorem Tracks.failure_advance (h : Tracks cfg t failures c) :
    (c.advance cfg t).recordFailure cfg t = c.recordFailure cfg t := by
  by_cases hdue : c.due cfg t = true
  · have hopen : c.state = .isOpen := by
      simp only [due, Bool.and_eq_true, decide_eq_true_eq] at hdue
      exact hdue.1
    have hle : cfg.failureThreshold ≤ c.consecutiveFailures + 1 := by
      have := (h.opened (by simp [hopen])).1
      rw [h.count]
      omega
    rw [advance_of_due hdue]
    unfold Circuit.recordFailure
    rw [if_pos (.inl rfl), if_pos (.inr hle)]
  · rw [advance_of_not_due hdue]

theorem Tracks.act {call : CircuitCall} (hc : Tracks cfg t failures c) (ht : t ≤ call.time) :
    Tracks cfg call.time (nextFailures r failures call) (c.act cfg r call) := by
  have hlater := hc.later ht
  unfold Circuit.act nextFailures
  cases hop : call.op with
  | isAvailable id =>
    simp only [reduceCtorEq, if_false]
    split_ifs
    · exact hlater.advance
    · exact hlater
  | beforeRequest id =>
    simp only [reduceCtorEq, if_false]
    split_ifs
    · exact hlater.advance.beforeRequest
    · exact hlater
  | recordSuccess id =>
    simp only [CircuitOp.recordSuccess.injEq, reduceCtorEq, if_false]
    split_ifs
    · exact tracks_new
    · exact hlater
  | recordFailure id =>
    simp only [CircuitOp.recordFailure.injEq, reduceCtorEq, if_false]
    split_ifs
    · exact hlater.recordFailure
    · exact hlater
  | snapshots =>
    simp only [reduceCtorEq, if_false]
    exact hlater.advance

theorem Alike.act {failures' : List ℚ} {call : CircuitCall} (h : Alike cfg call.time c c')
    (hc : Tracks cfg call.time failures c) (hc' : Tracks cfg call.time failures' c')
    (hown : call.op = .beforeRequest r ∨ call.op = .recordSuccess r ∨ call.op = .recordFailure r) :
    c.act cfg r call = c'.act cfg r call := by
  unfold Alike at h
  unfold Circuit.act
  rcases hown with hop | hop | hop
  · simp only [hop, if_true]
    rw [h]
  · simp only [hop, if_true]
    rfl
  · simp only [hop, if_true]
    rw [← hc.failure_advance, h, hc'.failure_advance]

theorem alike_act {call : CircuitCall} (c : Circuit)
    (hown : ¬ (call.op = .beforeRequest r ∨ call.op = .recordSuccess r ∨
      call.op = .recordFailure r)) : Alike cfg call.time (c.act cfg r call) c := by
  unfold Circuit.act
  cases hop : call.op with
  | isAvailable id =>
    simp only
    split_ifs
    · exact alike_advance c
    · exact rfl
  | beforeRequest id =>
    have hne : id ≠ r := fun heq => hown (.inl (heq ▸ hop))
    simp only [if_neg hne]
    exact rfl
  | recordSuccess id =>
    have hne : id ≠ r := fun heq => hown (.inr (.inl (heq ▸ hop)))
    simp only [if_neg hne]
    exact rfl
  | recordFailure id =>
    have hne : id ≠ r := fun heq => hown (.inr (.inr (heq ▸ hop)))
    simp only [if_neg hne]
    exact rfl
  | snapshots => exact alike_advance c

end Circuit

/-! ## All circuits -/

namespace Circuits

variable (cfg : CircuitSettings)

def perform (cs : Circuits) (c : CircuitCall) : Circuits :=
  match c.op with
  | .isAvailable id => (cs.isAvailable cfg c.time id).2
  | .beforeRequest id => (cs.beforeRequest cfg c.time id).2
  | .recordSuccess id => (cs.recordSuccess id).2
  | .recordFailure id => (cs.recordFailure cfg c.time id).2
  | .snapshots => (cs.snapshots cfg c.time).2

def after (cs : Circuits) (h : List CircuitCall) : Circuits := h.foldl (perform cfg) cs

def answer? (r : String) (cs : Circuits) (c : CircuitCall) : Option (Except String CircuitState) :=
  if c.op = .beforeRequest r then some (cs.beforeRequest cfg c.time r).1 else none

/-- The answers that the admissions of the route get in a run, in their order. -/
def answers (r : String) : Circuits → List CircuitCall → List (Except String CircuitState)
  | _, [] => []
  | cs, c :: h => (answer? cfg r cs c).toList ++ answers r (perform cfg cs c) h

variable {cfg} {t : ℚ} {r : String} {cs cs' : Circuits} {c : CircuitCall} {h : List CircuitCall}

def Timed (h : List CircuitCall) : Prop := h.Pairwise fun c c' => c.time ≤ c'.time

theorem perform_get (cs : Circuits) (c : CircuitCall) (r : String) :
    (perform cfg cs c).get r = (cs.get r).act cfg r c := by
  unfold perform Circuit.act
  cases c.op with
  | isAvailable id => exact isAvailable_get ..
  | beforeRequest id => exact beforeRequest_get ..
  | recordSuccess id => exact recordSuccess_get ..
  | recordFailure id => exact recordFailure_get ..
  | snapshots => exact snapshots_get ..

theorem tracks_after (h : List CircuitCall) (htimed : Timed h) (ht : ∀ c ∈ h, c.time ≤ t)
    (r : String) : ((after cfg ∅ h).get r).Tracks cfg t (failuresSince r h) := by
  induction h using List.reverseRecOn generalizing t with
  | nil => exact Circuit.tracks_new
  | append_singleton h c ih =>
    obtain ⟨htimed, -, hlast⟩ := List.pairwise_append.mp htimed
    have hbefore := ih htimed fun c' hc' => hlast c' hc' c (by simp)
    unfold after at hbefore ⊢
    rw [List.foldl_append, List.foldl_cons, List.foldl_nil, perform_get, failuresSince_concat]
    exact (hbefore.act le_rfl).later (ht c (by simp))

/-- From circuits that look the same, the calls about a route get the same answers with and
without the other calls. -/
theorem answers_own {failures failures' : List ℚ} (htimed : Timed h) (ht : ∀ c ∈ h, t ≤ c.time)
    (halike : (cs.get r).Alike cfg t (cs'.get r)) (hcs : ((cs.get r).Tracks cfg t failures))
    (hcs' : (cs'.get r).Tracks cfg t failures') :
    answers cfg r cs h = answers cfg r cs' (ownCalls r h) := by
  induction h generalizing t cs cs' failures failures' with
  | nil => rfl
  | cons c h ih =>
    obtain ⟨hfirst, htimed⟩ := List.pairwise_cons.mp htimed
    have hle := ht c List.mem_cons_self
    have hnow := halike.later hle
    have hnext := @Circuit.Tracks.act cfg t r (cs.get r) failures c hcs hle
    rw [← perform_get] at hnext
    -- A call that says nothing about the route leaves its circuit as it looks.
    by_cases hown : c.op = .beforeRequest r ∨ c.op = .recordSuccess r ∨ c.op = .recordFailure r
    · have hnext' := @Circuit.Tracks.act cfg t r (cs'.get r) failures' c hcs' hle
      rw [← perform_get] at hnext'
      have hsame : (perform cfg cs c).get r = (perform cfg cs' c).get r := by
        rw [perform_get, perform_get]
        exact hnow.act (hcs.later hle) (hcs'.later hle) hown
      have hanswer : answer? cfg r cs c = answer? cfg r cs' c := by
        unfold answer? beforeRequest
        unfold Circuit.Alike at hnow
        rw [hnow]
      have hcons : ownCalls r (c :: h) = c :: ownCalls r h :=
        List.filter_cons_of_pos (decide_eq_true hown)
      rw [hcons, answers, answers, hanswer]
      congr 1
      exact ih htimed hfirst (congrArg _ hsame) hnext hnext'
    · have halike' : ((perform cfg cs c).get r).Alike cfg c.time (cs'.get r) := by
        rw [perform_get]
        exact (Circuit.alike_act _ hown).trans hnow
      have hsilent : answer? cfg r cs c = none := if_neg fun hop => hown (.inl hop)
      have hcons : ownCalls r (c :: h) = ownCalls r h :=
        List.filter_cons_of_neg (by simpa using hown)
      rw [hcons, answers, hsilent]
      exact ih htimed hfirst halike' hnext (hcs'.later hle)

theorem answers_new (htimed : Timed h) (r : String) :
    answers cfg r ∅ h = answers cfg r ∅ (ownCalls r h) := by
  cases h with
  | nil => rfl
  | cons c h =>
    refine @answers_own cfg c.time r ∅ ∅ (c :: h) [] [] htimed ?_ rfl Circuit.tracks_new
      Circuit.tracks_new
    exact List.forall_mem_cons.mpr ⟨le_rfl, (List.pairwise_cons.mp htimed).1⟩

/-- The state of a route is what the calls about it say, whoever looks, and no other call
changes what its admissions are told. -/
theorem circuit_history (cfg : CircuitSettings) {h : List CircuitCall} (htimed : Timed h) :
    (∀ t, (∀ c ∈ h, c.time ≤ t) →
      (∀ r, (((after cfg ∅ h).get r).advance cfg t).state =
        historyState cfg t (failuresSince r h)) ∧
      ∀ shot ∈ (snapshots cfg t (after cfg ∅ h)).1,
        shot.state = historyState cfg t (failuresSince shot.routeId h)) ∧
    ∀ r h', Timed h' → ownCalls r h' = ownCalls r h → answers cfg r ∅ h' = answers cfg r ∅ h := by
  refine ⟨fun t ht => ?_, fun r h' htimed' hown => ?_⟩
  · have hstate : ∀ r, (((after cfg ∅ h).get r).advance cfg t).state =
        historyState cfg t (failuresSince r h) := fun r => (tracks_after h htimed ht r).state
    exact ⟨hstate, fun shot hshot => (snapshots_state cfg t _ shot hshot).trans (hstate _)⟩
  · rw [answers_new htimed', hown, ← answers_new htimed]

/-! A circuit that opens at its second failure: it is half open after the recovery, with or
without a look at it in between. -/

def brittle : CircuitSettings where
  failureThreshold := 2
  recoverySeconds := 12

def failing : List CircuitCall :=
  [⟨0, .recordFailure "primary"⟩, ⟨0, .recordFailure "primary"⟩, ⟨30, .beforeRequest "primary"⟩]

def watched : List CircuitCall :=
  [⟨0, .recordFailure "primary"⟩, ⟨0, .recordFailure "primary"⟩, ⟨10, .snapshots⟩,
    ⟨20, .isAvailable "primary"⟩, ⟨30, .recordSuccess "secondary"⟩,
    ⟨30, .beforeRequest "primary"⟩]

theorem circuit_history_failing :
    (((after brittle ∅ failing).get "primary").advance brittle 40).state = .halfOpen ∧
    answers brittle "primary" ∅ watched = answers brittle "primary" ∅ failing := by
  have htimed : Timed failing := by simp [Timed, failing]
  have htimed' : Timed watched := by
    simp only [Timed, watched]
    decide +kernel
  have h := circuit_history brittle htimed
  refine ⟨((h.1 40 (by decide +kernel)).1 "primary").trans (by decide +kernel), ?_⟩
  apply h.2 "primary" watched htimed'
  rfl

end Circuits

end AegisGateway
