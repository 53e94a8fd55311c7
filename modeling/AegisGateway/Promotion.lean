import AegisGateway.Canary

/-!
# What a promotion does to the traffic

`get_live` prefers a candidate to the active release of the same name. So a promotion takes
the traffic over unless another release of that name is a candidate.
-/

open Coroutine

namespace AegisGateway

/-- `assignment`, of a release name and a request, as the table stands. -/
def Database.assigned (P : Platform) (db : Database) (name : String) (q : GatewayRequest) :
    ReleaseAssignment :=
  (db.getLive name).elim {} (P.assignTo q)

namespace Database

theorem newestBy_eq_none {α : Type} {key : α → Int} {xs : List α} :
    newestBy key xs = none ↔ xs = [] := by
  cases xs with
  | nil => simp [newestBy]
  | cons x xs =>
    simp only [newestBy, reduceCtorEq, iff_false]
    split
    · split_ifs <;> simp
    · simp

def stated (db : Database) (name : String) (state : ReleaseState) : List Release :=
  db.releases.filter fun r => r.name = name ∧ r.state = state

theorem mem_stated {db : Database} {name : String} {state : ReleaseState} {r : Release} :
    r ∈ db.stated name state ↔ r ∈ db.releases ∧ r.name = name ∧ r.state = state := by
  simp [stated]

theorem getLive_eq (db : Database) (name : String) :
    db.getLive name = (newestBy (·.updatedAt) (db.stated name .candidate)).or
      (newestBy (·.updatedAt) (db.stated name .active)) := rfl

theorem getLive_candidate {db : Database} {name : String}
    (h : ∃ r ∈ db.releases, r.name = name ∧ r.state = .candidate) :
    ∃ r ∈ db.releases, r.name = name ∧ r.state = .candidate ∧ db.getLive name = some r := by
  obtain ⟨r, hr⟩ := h
  rw [getLive_eq]
  cases hnewest : newestBy (·.updatedAt) (db.stated name .candidate) with
  | none =>
    rw [newestBy_eq_none] at hnewest
    have hmem := mem_stated.mpr hr
    rw [hnewest] at hmem
    cases hmem
  | some r' =>
    obtain ⟨hr', hname, hstate⟩ := mem_stated.mp (newestBy_mem hnewest)
    exact ⟨r', hr', hname, hstate, rfl⟩

theorem getLive_active {db : Database} {name : String} {r : Release} (hr : r ∈ db.releases)
    (hname : r.name = name) (hstate : r.state = .active)
    (hsingle : ∀ r' ∈ db.releases, r'.name = name → r'.state = .active → r' = r)
    (hnone : ∀ r' ∈ db.releases, r'.name = name → r'.state ≠ .candidate) :
    db.getLive name = some r := by
  have hempty : db.stated name .candidate = [] := by
    rw [List.eq_nil_iff_forall_not_mem]
    intro r' hr'
    obtain ⟨hmem, hname', hstate'⟩ := mem_stated.mp hr'
    exact hnone r' hmem hname' hstate'
  rw [getLive_eq, hempty]
  change newestBy (·.updatedAt) (db.stated name .active) = some r
  cases hnewest : newestBy (·.updatedAt) (db.stated name .active) with
  | none =>
    rw [newestBy_eq_none] at hnewest
    have hmem := mem_stated.mpr ⟨hr, hname, hstate⟩
    rw [hnewest] at hmem
    cases hmem
  | some r' =>
    obtain ⟨hr', hname', hstate'⟩ := mem_stated.mp (newestBy_mem hnewest)
    rw [hsingle r' hr' hname' hstate']

end Database

namespace Service

variable {svc : Service}

/-! ## After a promotion -/

/-- Nobody writes to the table of the releases. -/
def Unwritten (c : State) (m : Move Input Call) : Prop :=
  ∀ i x call o k, m = .run i x → c.tasks[i]? = some ⟨call, .op o k⟩ → releaseWrite o = false

theorem table_of_unwritten {c c' : State} (h : svc.machine.Reach Unwritten c c') :
    table c' = table c := by
  apply h.invariant (fun c' => table c' = table c) rfl
  intro c₁ m c₂ _ htable hok hs
  rcases step_releases hs with ⟨-, hsame, -⟩ | ⟨i, x, call, o, k, a, rfl, ht, -, -, hstep⟩
  · exact hsame.trans htable
  · have hquiet := hok i x call o k rfl ht
    generalize table c₂ = rs at hstep
    cases hstep with
    | other => exact htable
    | _ => cases hquiet

theorem promote_ahead {id : String} {tr : GatewayTrace} {o : Op} {k : Ans o → GatewayM Outcome}
    (hs : Prog.Steps (svc.body (.promote id)) tr (.op o k)) (a : Ans o) {r : Release}
    (hk : k a = .pure (.release r)) : ev o a = ev (.setState id .active) (.ok r) := by
  have hbody : svc.body (.promote id) = .op (.setState id .active) fun a =>
      (raising .artifactNotFound a).bind fun r => .pure (.release r) := rfl
  rw [hbody] at hs
  cases hs with
  | refl =>
    cases a with
    | error m => cases hk
    | ok r' =>
      cases hk
      rfl
  | op _ _ a' hs' =>
    cases a' with
    | error m => cases hs'
    | ok r' => cases hs'

theorem promoted_step {c c' : State} (h : svc.machine.Reachable initial c) {i : Nat} {x : Input}
    {id : String} {r : Release} (hs : svc.machine.step? c (.run i x) = some c')
    (hdone : c'.Finished i (.promote id) (.ok (.release r))) :
    ∃ current, c.world.database.getRelease id = .ok current ∧
      r = restated c.world.utc current .active current ∧
      table c' = (table c).map (restated c.world.utc current .active) := by
  obtain ⟨call, o, k, a, w, ht, hexec, rfl⟩ := Machine.step_run hs
  have hi : i < c.tasks.length := (List.getElem?_eq_some_iff.mp ht).1
  have htask : (c.tasks.set i ⟨call, k a⟩ ++ (svc.machine.spawn o).map svc.machine.fresh)[i]? =
      some ⟨.promote id, .pure (.release r)⟩ := hdone
  rw [List.getElem?_append_left (by simpa using hi), List.getElem?_set_self hi] at htask
  obtain ⟨rfl, hk⟩ := Task.mk.inj (Option.some.inj htask)
  cases @promote_ahead svc id _ _ _ (h.onTheWay.2 i _ ht) a r hk
  change ∃ current, _ ∧ _ ∧ w.database.releases = _
  have hstep := exec_releases hexec
  generalize w.database.releases = rs at hstep
  cases hstep with
  | other hother => cases hother
  | @written _ _ current hget => exact ⟨current, hget, rfl, rfl⟩

/-- From the moment a promotion returns, and until the next write to the table of the releases,
all requests under the name go to the promoted release if no other release of that name is a
candidate. As long as one is, they are assigned by a candidate. -/
theorem promotion_assigns {c c' c'' : State} (h : svc.machine.Reachable initial c) {i : Nat}
    {x : Input} {id : String} {r : Release} (hs : svc.machine.step? c (.run i x) = some c')
    (hdone : c'.Finished i (.promote id) (.ok (.release r)))
    (hlater : svc.machine.Reach Unwritten c' c'') :
    ((∀ r' ∈ table c, r'.name = r.name → r'.id ≠ r.id → r'.state ≠ .candidate) →
      ∀ q, c''.world.database.assigned svc.platform r.name q =
        { preferredRouteId := some r.candidateRouteId, releaseId := some r.id }) ∧
    ∀ r' ∈ table c, r'.name = r.name → r'.id ≠ r.id → r'.state = .candidate →
      ∃ r₁ ∈ table c'', r₁.name = r.name ∧ r₁.id ≠ r.id ∧ r₁.state = .candidate ∧
        ∀ q, c''.world.database.assigned svc.platform r.name q = svc.platform.assignTo q r₁ := by
  obtain ⟨current, hget, hr, htable⟩ := promoted_step h hs hdone
  obtain ⟨hcurrent, -⟩ := Database.mem_of_getRelease hget
  have hkeyed := keyed_of_reach h
  have hself := restated_self c.world.utc .active (rfl : current.id = current.id)
  rw [hself] at hr
  have hid : r.id = current.id := by rw [hr]
  have hname : r.name = current.name := by rw [hr]
  have hrows : c''.world.database.releases = (table c).map (restated c.world.utc current .active) :=
    (table_of_unwritten hlater).trans htable
  have hmem : r ∈ c''.world.database.releases := by
    rw [hrows, hr, ← hself]
    exact List.mem_map_of_mem hcurrent
  -- Another release of the name is no longer active, and a candidate only if it was one.
  have hother : ∀ r₁ ∈ c''.world.database.releases, r₁.name = r.name → r₁ = r ∨
      r₁.id ≠ r.id ∧ r₁.state ≠ .active ∧ (r₁.state = .candidate → r₁ ∈ table c) := by
    intro r₁ hr₁ hname₁
    rw [hrows] at hr₁
    obtain ⟨r₀, hr₀, rfl⟩ := List.mem_map.mp hr₁
    rw [restated_name, hname] at hname₁
    by_cases hcur : r₀.id = current.id
    · obtain rfl := hkeyed.eq_of_id hr₀ hcurrent hcur
      exact .inl (hself.trans hr.symm)
    · refine .inr ⟨by rwa [restated_id, hid], ?_⟩
      by_cases hactive : r₀.state = .active
      · rw [restated, if_neg hcur, if_pos ⟨rfl, hname₁, hactive⟩]
        simp
      · rw [restated, if_neg hcur, if_neg fun hdemoted => hactive hdemoted.2.2]
        exact ⟨hactive, fun _ => hr₀⟩
  constructor
  · -- With no other candidate of its name, the promoted release is the live one.
    intro hnone q
    have hlive := Database.getLive_active hmem rfl (by rw [hr]) ?_ ?_
    · rw [Database.assigned, hlive, Option.elim_some, Platform.assignTo, hr]
    · intro r₁ hr₁ hname₁ hstate₁
      rcases hother r₁ hr₁ hname₁ with rfl | ⟨-, hno, -⟩
      · rfl
      · exact absurd hstate₁ hno
    · intro r₁ hr₁ hname₁ hstate₁
      rcases hother r₁ hr₁ hname₁ with rfl | ⟨hne, -, hold⟩
      · rw [hr] at hstate₁
        cases hstate₁
      · exact hnone r₁ (hold hstate₁) hname₁ hne hstate₁
  · intro r' hr' hname' hne hstate
    have hstays : r' ∈ c''.world.database.releases := by
      have hkept : restated c.world.utc current .active r' = r' := by
        rw [restated, if_neg (hid ▸ hne), if_neg fun hdemoted => ?_]
        rw [hstate] at hdemoted
        cases hdemoted.2.2
      rw [hrows, ← hkept]
      exact List.mem_map_of_mem hr'
    obtain ⟨r₁, hr₁, hname₁, hstate₁, hlive⟩ :=
      Database.getLive_candidate ⟨r', hstays, hname', hstate⟩
    refine ⟨r₁, hr₁, hname₁, ?_, hstate₁, fun q => ?_⟩
    · rcases hother r₁ hr₁ hname₁ with rfl | ⟨hne₁, -⟩
      · rw [hr] at hstate₁
        cases hstate₁
      · exact hne₁
    · rw [Database.assigned, hlive, Option.elim_some]

/-! Two drafts of one name, and a draft that is promoted beside a canary. -/

def promotes (id : String) : Call → Bool
  | .promote id' => id' = id
  | _ => false

def promotedRelease : GatewayM Outcome → Option Release
  | .pure (.release r) => some r
  | _ => none

theorem finished_of_promoted {c : State} {i : Nat} {id : String} {r : Release}
    (h : ∃ t ∈ c.tasks[i]?, promotes id t.call = true ∧ promotedRelease t.rest = some r) :
    c.Finished i (.promote id) (.ok (.release r)) := by
  obtain ⟨⟨call, rest⟩, ht, hcall, hrest⟩ := h
  have hcall' : call = .promote id := by
    cases call with
    | promote id' => rw [of_decide_eq_true hcall]
    | _ => cases hcall
  have hrest' : rest = .pure (.release r) := by
    unfold promotedRelease at hrest
    split at hrest
    next r' hr' =>
      cases hrest
      exact hr'
    next => cases hrest
  rw [hcall', hrest'] at ht
  exact ht

theorem promotion_assigns_drafts : ∃ c : State, Sample.service.machine.Reachable initial c ∧
    (table c).map (·.state) = [.rolledBack, .active] ∧
    ∀ q, c.world.database.assigned Sample.platform "default" q =
      { preferredRouteId := some "primary", releaseId := some "release-2" } := by
  obtain ⟨c, hm, c', hs, hreturned, hcandidates, hstates⟩ :
      ∃ c ∈ Sample.service.machine.moves? initial promotedOnce,
        ∃ c' ∈ Sample.service.machine.step? c (.run 3 .go),
          (∃ t ∈ c'.tasks[3]?, promotes "release-2" t.call = true ∧
            promotedRelease t.rest = some { release₂ with state := .active }) ∧
          (∀ r ∈ table c, r.state ≠ .candidate) ∧
          (table c').map (·.state) = [.rolledBack, .active] := by
    decide +kernel
  have hreach := Machine.reachable_of_moves _ .start hm
  have hassigns := promotion_assigns hreach hs (finished_of_promoted hreturned) .start
  exact ⟨c', .next hreach trivial hs, hstates, hassigns.1 fun r hr _ _ => hcandidates r hr⟩

/-- `release-1` is a canary, and `release-2` is promoted. -/
def promotedBeside : List (Move Input Call) :=
  canaryMoves ++ [.run 2 .go, .start (.createRelease release₂), .run 3 .go,
    .start (.promote "release-2")]

/-- A canary of the name keeps the traffic of a release that has just been promoted. -/
theorem promotion_overridden : ∃ (c c' : State) (r : Release),
    caseService.machine.Reachable initial c ∧ caseService.machine.step? c (.run 4 .go) = some c' ∧
    c'.Finished 4 (.promote "release-2") (.ok (.release r)) ∧ r.name = "default" ∧
    (c'.world.database.assigned caseService.platform "default" Sample.request).releaseId =
      some "release-1" := by
  obtain ⟨c, hm, c', hs, r, hr, hreturned, hname, hassigned⟩ :
      ∃ c ∈ caseService.machine.moves? initial promotedBeside,
        ∃ c' ∈ caseService.machine.step? c (.run 4 .go),
          ∃ r ∈ (table c').find? (·.id = "release-2"),
            (∃ t ∈ c'.tasks[4]?, promotes "release-2" t.call = true ∧ promotedRelease t.rest = some r) ∧
            r.name = "default" ∧
            (c'.world.database.assigned caseService.platform "default" Sample.request).releaseId =
              some "release-1" := by
    decide +kernel
  exact ⟨c, c', r, Machine.reachable_of_moves _ .start hm, hs, finished_of_promoted hreturned, hname,
    hassigned⟩

end Service

end AegisGateway
