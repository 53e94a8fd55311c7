import AegisGateway.Releases

/-!
# The life of a release

`set_state` keeps at most one release of a name active, and the gate stands in front of
every start of a canary. `create` writes whatever state its body has, past both.
-/

open Coroutine

namespace AegisGateway

namespace Service

variable {svc : Service}

/-- A condition on the rows that `create` adds, by the table that they are added to. -/
def OnCreate (ψ : List Release → Release → Prop) (c : State) (m : Move Input Call) : Prop :=
  ∀ i x call body k, m = .run i x → c.tasks[i]? = some ⟨call, .op (.createRelease body) k⟩ →
    (∀ r ∈ table c, r.id ≠ body.id) → ψ (table c) body

theorem onCreate_run {ψ : List Release → Release → Prop} {c : State} {i : Nat} {x : Input}
    {call : Call} {o : Op} {k : Ans o → GatewayM Outcome}
    (ht : c.tasks[i]? = some ⟨call, .op o k⟩) : OnCreate ψ c (.run i x) ↔
      ∀ body, o = .createRelease body → (∀ r ∈ table c, r.id ≠ body.id) → ψ (table c) body := by
  constructor
  · rintro h body rfl hfresh
    exact h i x call body k rfl ht hfresh
  · rintro h i' x' call' body k' ⟨⟩ ht' hfresh
    rw [ht] at ht'
    cases ht'
    exact h body rfl hfresh

theorem onCreate_still {ψ : List Release → Release → Prop} {c : State} {m : Move Input Call}
    (hm : ∀ i x, m ≠ .run i x) : OnCreate ψ c m :=
  fun i x _ _ _ h => absurd h (hm i x)

/-! ## One active release for each name -/

/-- No two releases of one name are active. -/
def SingleActive (rs : List Release) : Prop :=
  rs.Pairwise fun r r' => r.name = r'.name → ¬ (r.state = .active ∧ r'.state = .active)

instance (rs : List Release) : Decidable (SingleActive rs) :=
  inferInstanceAs (Decidable (List.Pairwise _ _))

/-- An active release comes in beside none. -/
def Unrivalled (rs : List Release) (body : Release) : Prop :=
  body.state = .active → ∀ r ∈ rs, r.name = body.name → r.state ≠ .active

theorem singleActive_append {rs : List Release} {body : Release} (h : SingleActive rs) :
    SingleActive (rs ++ [body]) ↔ Unrivalled rs body := by
  unfold SingleActive Unrivalled at *
  rw [List.pairwise_append]
  simp only [List.pairwise_singleton, List.mem_singleton, forall_eq, h, true_and]
  exact ⟨fun hp hbody r hr hname hr' => hp r hr hname ⟨hr', hbody⟩,
    fun hp r hr hname hactive => hp hactive.2 r hr hname hactive.1⟩

theorem singleActive_restated {rs : List Release} (hkeyed : Database.Keyed rs)
    (h : SingleActive rs) (now : Int) {current : Release} (hcurrent : current ∈ rs)
    (state : ReleaseState) : SingleActive (rs.map (restated now current state)) := by
  have hids : rs.Pairwise fun r r' => r.id ≠ r'.id := List.pairwise_map.mp hkeyed
  unfold SingleActive
  rw [List.pairwise_map]
  apply (h.and hids).imp_of_mem
  rintro r r' hr hr' ⟨hname, hid⟩ hname' ⟨hactive, hactive'⟩
  rw [restated_name, restated_name] at hname'
  -- A row that is active after the write was so before, or is the written one.
  have hcases : ∀ r ∈ rs, (restated now current state r).state = .active →
      r = current ∧ state = .active ∨
        r.id ≠ current.id ∧ r.state = .active ∧ (state = .active → r.name ≠ current.name) := by
    intro r hr hactive
    by_cases hcur : r.id = current.id
    · rw [restated_self now state hcur] at hactive
      exact .inl ⟨hkeyed.eq_of_id hr hcurrent hcur, hactive⟩
    · refine .inr ⟨hcur, ?_⟩
      unfold restated at hactive
      rw [if_neg hcur] at hactive
      split_ifs at hactive with hdemoted
      exact ⟨hactive, fun hstate hn => hdemoted ⟨hstate, hn, hactive⟩⟩
  rcases hcases r hr hactive with ⟨rfl, hstate⟩ | ⟨-, hr₁, hother⟩ <;>
    rcases hcases r' hr' hactive' with ⟨rfl, hstate'⟩ | ⟨-, hr₂, hother'⟩
  · exact hid rfl
  · exact hother' hstate hname'.symm
  · exact hother hstate' hname'
  · exact hname hname' ⟨hr₁, hr₂⟩

theorem singleActive_step {c c' : State} {m : Move Input Call}
    (hkeyed : Database.Keyed (table c)) (h : SingleActive (table c))
    (hs : svc.machine.step? c m = some c') :
    SingleActive (table c') ↔ OnCreate Unrivalled c m := by
  rcases step_releases hs with ⟨hm, htable, -⟩ | ⟨i, x, call, o, k, a, rfl, ht, -, -, hstep⟩
  · rw [htable]
    exact ⟨fun _ => onCreate_still hm, fun _ => h⟩
  rw [onCreate_run ht]
  generalize table c' = rs at hstep
  cases hstep with
  | other hother =>
    refine ⟨fun _ body hbody => ?_, fun _ => h⟩
    subst hbody
    cases hother
  | @created r hfresh =>
    change SingleActive (table c ++ [r]) ↔ _
    rw [singleActive_append h]
    refine ⟨fun hr body hbody _ => ?_, fun hr => hr r rfl hfresh⟩
    cases hbody
    exact hr
  | @taken r r' e hr hid =>
    refine ⟨fun _ body hbody hfresh => ?_, fun _ => h⟩
    cases hbody
    exact absurd hid (hfresh r' hr)
  | written hcurrent =>
    refine ⟨fun _ body hbody => absurd hbody (by simp), fun _ => ?_⟩
    exact singleActive_restated hkeyed h _ (Database.mem_of_getRelease hcurrent).1 _
  | missing => exact ⟨fun _ body hbody => absurd hbody (by simp), fun _ => h⟩

/-- In every run, each step from a state with at most one active release of each name leads to
such a state exactly if it is no `create` that adds an active release beside another. So a run
whose steps all meet this condition never has two. -/
theorem single_active :
    (∀ c, svc.machine.Reach (OnCreate Unrivalled) initial c → SingleActive (table c)) ∧
    ∀ c m c', svc.machine.Reachable initial c → SingleActive (table c) →
      svc.machine.step? c m = some c' → (SingleActive (table c') ↔ OnCreate Unrivalled c m) := by
  constructor
  · intro c h
    have hstart : SingleActive (table initial) := List.Pairwise.nil
    apply h.invariant (fun c => SingleActive (table c)) hstart
    intro c m c' hreach hactive hok hs
    exact (singleActive_step (keyed_of_reach hreach) hactive hs).mpr hok
  · intro c m c' h hactive hs
    exact singleActive_step (keyed_of_reach h) hactive hs

/-! Two drafts of one name, promoted one after the other, and two releases that are created
active. -/

def release₁ : Release := Sample.release

def release₂ : Release := { Sample.release with id := "release-2" }

def promotedOnce : List (Move Input Call) :=
  [.start (.createRelease release₁), .run 0 .go, .start (.createRelease release₂), .run 1 .go,
    .start (.promote "release-1"), .run 2 .go, .start (.promote "release-2")]

theorem single_active_promoted : ∃ (c : State) (m : Move Input Call) (c' : State),
    Sample.service.machine.Reachable initial c ∧ Sample.service.machine.step? c m = some c' ∧
    (table c').map (·.state) = [.rolledBack, .active] ∧ OnCreate Unrivalled c m := by
  obtain ⟨c, hm, c', hs, hactive, hactive', hstates⟩ :
      ∃ c ∈ Sample.service.machine.moves? initial promotedOnce,
        ∃ c' ∈ Sample.service.machine.step? c (.run 3 .go), SingleActive (table c) ∧
          SingleActive (table c') ∧ (table c').map (·.state) = [.rolledBack, .active] := by
    decide +kernel
  have hreach := Machine.reachable_of_moves _ .start hm
  exact ⟨c, _, c', hreach, hs, hstates, (single_active.2 c _ c' hreach hactive hs).mp hactive'⟩

def createdActive : List (Move Input Call) :=
  [.start (.createRelease { release₁ with state := .active }), .run 0 .go,
    .start (.createRelease { release₂ with state := .active }), .run 1 .go]

theorem two_active : ∃ c : State, Sample.service.machine.Reachable initial c ∧
    (∀ r ∈ table c, r.Accepted) ∧ (table c).map (·.name) = ["default", "default"] ∧
    (table c).map (·.state) = [.active, .active] ∧ ¬ SingleActive (table c) := by
  obtain ⟨c, hm, htable⟩ : ∃ c ∈ Sample.service.machine.moves? initial createdActive,
      table c = [{ release₁ with state := .active }, { release₂ with state := .active }] := by
    decide +kernel
  refine ⟨c, Machine.reachable_of_moves _ .start hm, ?_, ?_, ?_, ?_⟩ <;> rw [htable]
  · intro r hr
    simp only [List.mem_cons, List.not_mem_nil, or_false] at hr
    rcases hr with rfl | rfl <;> constructor <;> decide +kernel
  all_goals decide +kernel

end Service

end AegisGateway
