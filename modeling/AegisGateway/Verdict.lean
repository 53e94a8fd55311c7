import AegisGateway.Lib.Ranks
import AegisGateway.Parity
import AegisGateway.Quiescence
import Mathlib.Tactic.Linarith

/-!
# The verdict on a candidate

What `assess` compares are shares, a percentile and a share of shares. In whole numbers it
counts failures, slow answers and valid schemas among the canary rows of the release.
-/

open Coroutine

namespace AegisGateway

/-! ## Counting -/

theorem percentileIndex_eq {n : Nat} (hn : 0 < n) :
    percentileIndex (99 / 100) n < n ∧ n - percentileIndex (99 / 100) n = n / 100 + 1 := by
  have hceil : (((99 : ℚ) / 100) * n).ceil = ((n - n / 100 : Nat) : Int) := by
    have hle : n / 100 * 100 ≤ n := Nat.div_mul_le_self n 100
    have hlt : n < (n / 100 + 1) * 100 := Nat.lt_mul_of_div_lt (Nat.lt_succ_self _) (by decide)
    have hle' : ((n / 100 : Nat) : ℚ) * 100 ≤ n := by exact_mod_cast hle
    have hlt' : (n : ℚ) < ((n / 100 : Nat) + 1) * 100 := by exact_mod_cast hlt
    have hcast : ((n - n / 100 : Nat) : ℚ) = n - (n / 100 : Nat) :=
      Nat.cast_sub (Nat.div_le_self n 100)
    refine le_antisymm (Rat.ceil_le_iff.mpr ?_) (Int.le_of_sub_one_lt (Rat.lt_ceil_iff.mpr ?_))
    · rw [Int.cast_natCast, hcast]
      linarith
    · rw [Int.cast_sub, Int.cast_natCast, hcast, Int.cast_one]
      linarith
  unfold percentileIndex
  rw [hceil, Int.toNat_natCast]
  omega

theorem countP_not {α : Type} (p : α → Bool) (xs : List α) :
    xs.countP p + xs.countP (fun x => !p x) = xs.length := by
  rw [List.length_eq_countP_add_countP p]
  simp [Bool.not_eq_true]

theorem lt_share_iff {α : Type} {p : α → Bool} {xs : List α} (hxs : xs ≠ []) (bound : ℚ) :
    bound < 1 - (share p xs).getD 0 ↔ bound * xs.length < xs.countP fun x => !p x := by
  have hpos : (0 : ℚ) < xs.length := by exact_mod_cast List.length_pos_iff.mpr hxs
  have hsplit : (xs.countP p : ℚ) + xs.countP (fun x => !p x) = xs.length := by
    exact_mod_cast countP_not p xs
  rw [share, if_neg hxs, Option.getD_some, lt_sub_comm, div_lt_iff₀ hpos, sub_mul, one_mul]
  constructor <;> intro h <;> linarith

theorem share_lt_iff {α : Type} {p : α → Bool} {xs : List α} (bound : ℚ) :
    (∃ s, share p xs = some s ∧ s < bound) ↔ xs ≠ [] ∧ (xs.countP p : ℚ) < bound * xs.length := by
  unfold share
  split_ifs with hxs
  · simp [hxs]
  · have hpos : (0 : ℚ) < xs.length := by exact_mod_cast List.length_pos_iff.mpr hxs
    simp [hxs, div_lt_iff₀ hpos]

namespace Service

variable {svc : Service}

def failures (ms : List RequestMetric) : Nat := ms.countP fun m => !m.success

def slowRows (bound : ℚ) (ms : List RequestMetric) : Nat :=
  ms.countP fun m => Decidable.decide (bound < m.latencyMs)

def checkedRows (ms : List RequestMetric) : Nat := ms.countP (·.schemaValid.isSome)

def validRows (ms : List RequestMetric) : Nat := ms.countP (·.schemaValid = some true)

/-- The verdict, in whole numbers. -/
def Convicted (r : Release) (ms : List RequestMetric) : Prop :=
  r.minCanarySamples ≤ ms.length ∧
    (r.maxErrorRate * ms.length < failures ms ∨ ms.length / 100 < slowRows r.maxP99LatencyMs ms ∨
      0 < checkedRows ms ∧ (validRows ms : ℚ) < r.minSchemaCompliance * checkedRows ms)

instance (r : Release) (ms : List RequestMetric) : Decidable (Convicted r ms) :=
  inferInstanceAs (Decidable (_ ∧ _))

/-! ## The three thresholds -/

theorem error_iff {ms : List RequestMetric} (hms : ms ≠ []) (bound : ℚ) :
    bound < 1 - (summarizeMetrics ms).successRate ↔ bound * ms.length < failures ms :=
  lt_share_iff hms bound

theorem slow_iff {ms : List RequestMetric} (hms : ms ≠ []) (bound : ℚ) :
    (∃ p99, (summarizeMetrics ms).p99LatencyMs = some p99 ∧ bound < p99) ↔
      ms.length / 100 < slowRows bound ms := by
  have hlen : (ms.map (·.latencyMs)).length = ms.length := List.length_map _
  obtain ⟨hlt, hbehind⟩ := percentileIndex_eq (List.length_pos_iff.mpr hms)
  have hsorted : ((ms.map (·.latencyMs)).insertionSort (· ≤ ·)).length = ms.length :=
    (List.perm_insertionSort _ _).length_eq.trans hlen
  have hslow : (ms.map (·.latencyMs)).countP (fun x => Decidable.decide (bound < x)) =
      slowRows bound ms := by
    rw [List.countP_map]
    rfl
  change (∃ p99, percentile ((ms.map (·.latencyMs)).insertionSort (· ≤ ·)) (99 / 100) = some p99 ∧
    bound < p99) ↔ _
  rw [percentile, hsorted, Ranks.lt_sorted_iff _ (by rwa [hlen]), hlen, hbehind, hslow,
    Nat.succ_le_iff]

theorem schema_iff (ms : List RequestMetric) (bound : ℚ) :
    (∃ k, (summarizeMetrics ms).schemaCompliance = some k ∧ k < bound) ↔
      0 < checkedRows ms ∧ (validRows ms : ℚ) < bound * checkedRows ms := by
  have hchecked : (ms.filterMap (·.schemaValid)).length = checkedRows ms := by
    rw [List.length_filterMap_eq_countP]
    rfl
  have hvalid : (ms.filterMap (·.schemaValid)).countP id = validRows ms := by
    rw [List.countP_filterMap]
    apply List.countP_congr
    intro m _
    cases m.schemaValid with
    | none => simp
    | some b => cases b <;> simp
  change (∃ k, share id (ms.filterMap (·.schemaValid)) = some k ∧ k < bound) ↔ _
  rw [share_lt_iff, hvalid, hchecked, ← hchecked, List.length_pos_iff]

theorem breaches_iff (r : Release) (s : MetricsSnapshot) : breaches r s ≠ [] ↔
    r.maxErrorRate < 1 - s.successRate ∨
      (∃ p99, s.p99LatencyMs = some p99 ∧ r.maxP99LatencyMs < p99) ∨
      ∃ k, s.schemaCompliance = some k ∧ k < r.minSchemaCompliance := by
  have hsingle : ∀ (c : Prop) [Decidable c] (m : String), ¬ (if c then [m] else []) = [] ↔ c := by
    intro c _ m
    split_ifs with h <;> simp [h]
  unfold breaches
  rw [ne_eq, List.append_eq_nil_iff, List.append_eq_nil_iff, not_and_or, not_and_or, or_assoc]
  refine or_congr (hsingle _ _) (or_congr ?_ ?_)
  · cases s.p99LatencyMs with
    | none => simp
    | some p99 => exact (hsingle _ _).trans (by simp)
  · cases s.schemaCompliance with
    | none => simp
    | some k => exact (hsingle _ _).trans (by simp)

/-- The comparisons of `assess` are comparisons of numbers of rows. -/
theorem breached_iff {r : Release} (hr : r.Accepted) (ms : List RequestMetric) :
    Breached r ms ↔ Convicted r ms := by
  apply and_congr_right
  intro henough
  have hms : ms ≠ [] := List.length_pos_iff.mp (hr.minCanarySamples.trans henough)
  rw [breaches_iff, error_iff hms, slow_iff hms, schema_iff]

/-! ## The rows that count -/

/-- What a call writes down for its shadow is no evidence on a canary. -/
def Unshadowed (e : GatewayEvent) : Prop :=
  ∀ m, e.1 = .recordMetric m → m.shadow = true → m.canary = false

theorem OneExchange.unshadowed {call : Call} {args : Arguments}
    (hargs : callArguments call = some args ∨ args.evaluation = true) {tr : GatewayTrace}
    (h : svc.OneExchange args tr) : ∀ e ∈ tr, Unshadowed e := by
  have hquiet : ∀ e : GatewayEvent, preliminary e.1 = true → Unshadowed e := by
    rintro ⟨o, a⟩ hp m rfl
    cases hp
  rcases h with hp | ⟨tr₀, tr₁, x, rfl, hb, hx⟩
  · exact fun e he => hquiet e (hp e he)
  · refine List.forall_mem_append.mpr ⟨fun e he => hquiet e (hb.preliminary e he), ?_⟩
    intro e he m hm hshadow
    have hrow := (hx e he).row m hm
    rw [hrow.canary]
    exact unmixed_of_begun hargs hb hrow.online (hrow.shadow.symm.trans hshadow)

theorem body_unshadowed (call : Call) : (svc.body call).Emits Unshadowed := by
  refine body_leaves (Prog.closed_forall _) (fun args hargs => ?_) (fun q forced hcall => ?_)
    fun e he => List.forall_mem_singleton.mpr ?_
  · exact (generate_oneExchange args).mono fun _ h => h.unshadowed hargs
  · have hargs : callArguments call = some { request := q, forcedRouteId := forced } := by
      rw [hcall]
      rfl
    exact (stream_oneExchange q forced).mono fun _ h => h.unshadowed (.inl hargs)
  · intro m hm
    have hnone := rowOf_of_controls he
    rw [hm] at hnone
    cases hnone

theorem shadow_not_canary {c : State} (h : svc.machine.Reachable initial c) :
    ∀ m ∈ c.world.database.requestMetrics, m.shadow = true → m.canary = false := by
  intro m hm
  rw [table_of_reach h] at hm
  obtain ⟨⟨i, e⟩, he, hrow⟩ := List.mem_filterMap.mp hm
  obtain ⟨t, ht⟩ := h.task_of_mem he
  have hall := Prog.Emits.steps (body_unshadowed t.call) (h.onTheWay.2 i t ht)
  apply hall e (Pool.mem_trace.mpr he) m
  rcases e with ⟨o, a⟩
  cases o with
  | recordMetric m' =>
    cases hrow
    rfl
  | _ => cases hrow

def ownRows (db : Database) (id : String) : List RequestMetric :=
  db.requestMetrics.filter fun m => m.releaseId = some id && m.canary && !m.shadow

theorem canaryRows_perm {c : State} (h : svc.machine.Reachable initial c) (id : String) :
    (canaryRows c.world.database id).Perm (ownRows c.world.database id) := by
  have hsame : ownRows c.world.database id =
      c.world.database.requestMetrics.filter (Database.metricMatches (some id) none (some true)) := by
    apply List.filter_congr
    intro m hm
    have hshadow := shadow_not_canary h m hm
    cases hs : m.shadow <;> cases hc : m.canary <;> simp_all [Database.metricMatches]
  rw [hsame, canaryRows]
  exact (List.reverse_perm _).filter _

theorem breaches_perm {ms ms' : List RequestMetric} (h : ms.Perm ms') (r : Release) :
    breaches r (summarizeMetrics ms) = breaches r (summarizeMetrics ms') := by
  have hsuccess : share (·.success) ms = share (·.success) ms' := share_perm _ h
  have hschema : share id (ms.filterMap (·.schemaValid)) = share id (ms'.filterMap (·.schemaValid)) :=
    share_perm _ (h.filterMap _)
  have hsorted := Ranks.sorted_eq_of_perm (h.map (·.latencyMs))
  unfold breaches summarizeMetrics
  dsimp only
  rw [hsuccess, hschema, hsorted]

/-! ## An assessment with nothing beside it -/

section Alone

variable (env : Surroundings) {w : World}

def Untouched (w w' : World) : Prop := ∃ clock utc, w' = { w with clock, utc }

def comparedRows (w : World) (r : Release) : List RequestMetric :=
  w.database.metrics (some r.id) none (some true) 100000

theorem runs_getRelease {id : String} {r : Release} (hget : w.database.getRelease id = .ok r) :
    svc.runs env (getRelease id) w =
      ⟨w.after (span env (.getRelease id)), [ev (.getRelease id) (.ok r)], .ok r⟩ := by
  have hserve : svc.serve env w (.getRelease id) = (.ok r, w.after (span env (.getRelease id))) := by
    change (w.database.getRelease id, w.after _) = _
    rw [hget]
  rw [runs, getRelease, Prog.execute_op, hserve]
  rfl

theorem decided_eq {β : Type} (r : Release) (ms : List RequestMetric) (kept back : β) :
    (if (summarizeMetrics ms).requests < r.minCanarySamples then kept
      else if breaches r (summarizeMetrics ms) = [] then kept else back) =
    if Breached r ms then back else kept := by
  have hrequests : (summarizeMetrics ms).requests = ms.length := rfl
  rw [hrequests]
  by_cases hb : Breached r ms
  · rw [if_pos hb, if_neg (not_lt.mpr hb.1), if_neg hb.2]
  · rw [if_neg hb]
    split_ifs with hfew hnone
    · rfl
    · rfl
    · exact absurd ⟨not_lt.mp hfew, hnone⟩ hb

theorem runs_assess {r : Release} (hget : w.database.getRelease r.id = .ok r) :
    ∃ p tr, svc.runs env (assess r.id) w =
      (if r.state = .candidate ∧ Breached r (comparedRows w r) then
        (svc.runs env (rollbackWith r.id (rollbackReason r (comparedRows w r))) (w.after p)).after tr
      else ⟨w.after p, tr, .ok { rolledBack := false }⟩) := by
  have hread : svc.runs env (getRelease r.id) w = _ := runs_getRelease env hget
  simp only [runs] at hread ⊢
  rw [assess, Prog.execute_bind, hread, Ran.andThen_ok]
  by_cases hstate : r.state = .candidate
  · have hrows : (summary (some r.id) none (some true)).execute (svc.serve env)
        (w.after (span env (.getRelease r.id))) =
        ⟨(w.after (span env (.getRelease r.id))).after
          (span env (.metrics (some r.id) none (some true) 100000)),
          [ev (.metrics (some r.id) none (some true) 100000) (comparedRows w r)],
          .ok (summarizeMetrics (comparedRows w r))⟩ := rfl
    simp only [hstate, ne_eq, not_true_eq_false, if_false, true_and, Prog.execute_bind, hrows,
      Ran.andThen_ok, decided_eq, ← World.after_add]
    split_ifs with hb
    · exact ⟨_, _, Ran.after_after _ _ _⟩
    · exact ⟨_, _, rfl⟩
  · simp only [ne_eq, hstate, not_false_eq_true, if_true, false_and, if_false]
    exact ⟨_, _, rfl⟩

theorem runs_setState {id : String} {state : ReleaseState} {r : Release}
    (hget : w.database.getRelease id = .ok r) :
    ∃ tr now, svc.runs env (setState id state) w =
      ⟨{ w.after (span env (.setState id state)) with
          database := { w.database with releases := w.database.releases.map (restated now r state) } },
        tr, .ok (restated now r state r)⟩ := by
  have hserve : svc.serve env w (.setState id state) =
      (.ok (restated (w.after (span env (.setState id state))).utc r state r),
        { w.after (span env (.setState id state)) with
          database := { w.database with
            releases := w.database.releases.map
              (restated (w.after (span env (.setState id state))).utc r state) } }) := by
    have hset : Database.setState (w.after (span env (.setState id state))).utc w.database id state =
        _ := Database.setState_ok hget
    change ((Database.setState (w.after (span env (.setState id state))).utc w.database id state).1,
      { w.after (span env (.setState id state)) with
        database := (Database.setState (w.after (span env (.setState id state))).utc w.database id
          state).2 }) = _
    rw [hset]
  rw [runs, setState, Prog.execute_op, hserve]
  exact ⟨_, _, rfl⟩

theorem runs_rollbackWith {id reason : String} {r : Release}
    (hget : w.database.getRelease id = .ok r) :
    ∃ durationMs clock utc now createdAt,
      (svc.runs env (rollbackWith id reason) w).outcome =
        .ok { rolledBack := true, reason := some reason, durationMs := some durationMs } ∧
      (svc.runs env (rollbackWith id reason) w).world = { w with
        clock, utc
        database := { w.database with
          releases := w.database.releases.map (rolledBackRow id now)
          rollbackEvents := w.database.rollbackEvents ++ [⟨id, reason, durationMs, createdAt⟩] } } := by
  have hid := (Database.mem_of_getRelease hget).2
  obtain ⟨tr, now, hset⟩ : ∃ tr now, svc.runs env (setState id .rolledBack)
      (w.after (span env .monotonic)) = ⟨_, tr, .ok (restated now r .rolledBack r)⟩ :=
    runs_setState env hget
  rw [restated_rolledBack hid] at hset
  simp only [runs] at hset ⊢
  rw [rollbackWith, Prog.execute_bind, Prog.execute_perform, Ran.andThen_ok]
  have hstarted : svc.serve env w .monotonic =
      ((w.after (span env .monotonic)).clock, w.after (span env .monotonic)) := rfl
  rw [hstarted, Prog.execute_bind, hset, Ran.andThen_ok, Prog.execute_bind, Prog.execute_perform,
    Ran.andThen_ok, Prog.execute_bind, Prog.execute_perform, Ran.andThen_ok]
  exact ⟨_, _, _, now, _, rfl, rfl⟩

/-- A candidate that is found guilty is rolled back, and anything else is left as it is. -/
theorem assess_effect {r : Release} (hget : w.database.getRelease r.id = .ok r) :
    (r.state = .candidate ∧ Breached r (comparedRows w r) →
      ∃ durationMs clock utc now createdAt,
        (svc.runs env (assess r.id) w).outcome =
          .ok { rolledBack := true, reason := some (rollbackReason r (comparedRows w r))
                durationMs := some durationMs } ∧
        (svc.runs env (assess r.id) w).world = { w with
          clock, utc
          database := { w.database with
            releases := w.database.releases.map (rolledBackRow r.id now)
            rollbackEvents := w.database.rollbackEvents ++
              [⟨r.id, rollbackReason r (comparedRows w r), durationMs, createdAt⟩] } }) ∧
    (¬ (r.state = .candidate ∧ Breached r (comparedRows w r)) →
      (svc.runs env (assess r.id) w).outcome = .ok { rolledBack := false } ∧
        Untouched w (svc.runs env (assess r.id) w).world) := by
  obtain ⟨p, tr, hrun⟩ : ∃ p tr, svc.runs env (assess r.id) w = _ := runs_assess env hget
  constructor
  · intro hb
    obtain ⟨durationMs, clock, utc, now, createdAt, hout, hworld⟩ :=
      @runs_rollbackWith svc env (w.after p) r.id (rollbackReason r (comparedRows w r)) r hget
    rw [if_pos hb] at hrun
    rw [hrun]
    exact ⟨durationMs, clock, utc, now, createdAt, hout, hworld⟩
  · intro hb
    rw [if_neg hb] at hrun
    rw [hrun]
    exact ⟨rfl, _, _, rfl⟩

end Alone

def verdictOf (out : Except PyExc RollbackDecision) : Except PyExc (Bool × Option String) :=
  out.map fun d => (d.rolledBack, d.reason)

def RollsBack (ran : Ran Op Ans PyExc RollbackDecision World) : Prop :=
  ∃ d, ran.outcome = .ok d ∧ d.rolledBack = true

theorem comparedRows_eq {c : State} {r : Release}
    (hn : (canaryRows c.world.database r.id).length ≤ 100000) :
    comparedRows c.world r = canaryRows c.world.database r.id :=
  List.take_of_length_le hn

/-- An assessment with nothing beside it, of a release with at most a hundred thousand canary rows.
It rolls back exactly a candidate that the numbers convict, with one event, and changes nothing
else. Neither the order of the rows nor any other row makes a difference. -/
theorem rollback_verdict {c : State} (h : svc.machine.Reachable initial c) (env : Surroundings)
    {r : Release} (hr : r ∈ table c) (hacc : r.Accepted)
    (hn : (canaryRows c.world.database r.id).length ≤ 100000) :
    (RollsBack (svc.runs env (assess r.id) c.world) ↔
      r.state = .candidate ∧ Convicted r (canaryRows c.world.database r.id)) ∧
    (RollsBack (svc.runs env (assess r.id) c.world) → ∃ reason durationMs clock utc now createdAt,
      (svc.runs env (assess r.id) c.world).world = { c.world with
        clock, utc
        database := { c.world.database with
          releases := (table c).map (rolledBackRow r.id now)
          rollbackEvents := c.world.database.rollbackEvents ++
            [⟨r.id, reason, durationMs, createdAt⟩] } }) ∧
    (¬ RollsBack (svc.runs env (assess r.id) c.world) →
      (svc.runs env (assess r.id) c.world).outcome = .ok { rolledBack := false } ∧
        Untouched c.world (svc.runs env (assess r.id) c.world).world) ∧
    ∀ c' env', svc.machine.Reachable initial c' → r ∈ table c' →
      (ownRows c.world.database r.id).Perm (ownRows c'.world.database r.id) →
        verdictOf (svc.runs env' (assess r.id) c'.world).outcome =
          verdictOf (svc.runs env (assess r.id) c.world).outcome := by
  have hget := Database.getRelease_eq (keyed_of_reach h) hr
  obtain ⟨hback, hkept⟩ := @assess_effect svc env c.world r hget
  rw [comparedRows_eq hn] at hback hkept
  have hiff : RollsBack (svc.runs env (assess r.id) c.world) ↔
      r.state = .candidate ∧ Breached r (canaryRows c.world.database r.id) := by
    constructor
    · rintro ⟨d, hd, hrolled⟩
      by_contra hno
      rw [(hkept hno).1] at hd
      cases hd
      cases hrolled
    · intro hb
      obtain ⟨durationMs, clock, utc, now, createdAt, hout, -⟩ := hback hb
      exact ⟨_, hout, rfl⟩
  refine ⟨by rw [hiff, breached_iff hacc], fun hrolls => ?_, fun hno => hkept (hno ∘ hiff.mpr),
    fun c' env' h' hr' hperm => ?_⟩
  · obtain ⟨durationMs, clock, utc, now, createdAt, -, hworld⟩ := hback (hiff.mp hrolls)
    exact ⟨_, durationMs, clock, utc, now, createdAt, hworld⟩
  · have hget' := Database.getRelease_eq (keyed_of_reach h') hr'
    have hrows : (canaryRows c.world.database r.id).Perm (canaryRows c'.world.database r.id) :=
      ((canaryRows_perm h r.id).trans hperm).trans (canaryRows_perm h' r.id).symm
    obtain ⟨hback', hkept'⟩ := @assess_effect svc env' c'.world r hget'
    rw [comparedRows_eq (hrows.length_eq ▸ hn)] at hback' hkept'
    have hsame : Breached r (canaryRows c'.world.database r.id) ↔
        Breached r (canaryRows c.world.database r.id) := by
      unfold Breached
      rw [hrows.length_eq, breaches_perm hrows]
    have hreason : rollbackReason r (canaryRows c'.world.database r.id) =
        rollbackReason r (canaryRows c.world.database r.id) := by
      unfold rollbackReason
      rw [breaches_perm hrows]
    rw [hsame, hreason] at hback'
    rw [hsame] at hkept'
    by_cases hb : r.state = .candidate ∧ Breached r (canaryRows c.world.database r.id)
    · obtain ⟨_, _, _, _, _, hout, -⟩ := hback hb
      obtain ⟨_, _, _, _, _, hout', -⟩ := hback' hb
      rw [hout, hout']
      rfl
    · rw [(hkept hb).1, (hkept' hb).1]

/-! The canary that fails once, up to its row. -/

theorem live_accepted : live.Accepted := by
  constructor <;> decide +kernel

def failedMoves : List (Move Input Call) :=
  [.start (.createRelease live), .run 0 .go, .start (.generate Sample.request none)] ++
  Sample.goes 1 7 ++ [.run 1 refusal] ++ Sample.goes 1 6

theorem rollback_verdict_failure : ∃ c : State, Sample.service.machine.Reachable initial c ∧
    (canaryRows c.world.database "release-1").length = 1 ∧
    RollsBack (Sample.service.runs twoPieces (assess "release-1") c.world) := by
  obtain ⟨c, hm, hlive, hrows, hconvicted⟩ :
      ∃ c ∈ Sample.service.machine.moves? initial failedMoves, live ∈ table c ∧
        (canaryRows c.world.database "release-1").length = 1 ∧
        Convicted live (canaryRows c.world.database "release-1") := by
    decide +kernel
  have hreach := Machine.reachable_of_moves _ .start hm
  have hverdict := rollback_verdict hreach twoPieces hlive live_accepted
    (show (canaryRows c.world.database "release-1").length ≤ 100000 by rw [hrows]; decide)
  exact ⟨c, hreach, hrows, hverdict.1.mpr ⟨rfl, hconvicted⟩⟩

end Service

end AegisGateway
