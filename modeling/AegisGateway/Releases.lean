import AegisGateway.Policy

/-!
# The table of the releases

Two operations write to it: one adds a row, the other changes the states of rows. What a
row says besides its state never changes, and no row ever goes away.
-/

open Coroutine

namespace AegisGateway

def Release.fixed (r : Release) : Release := { r with state := .draft, updatedAt := 0 }

/-- A row after `set_state` has been called for the release `current`. -/
def restated (now : Int) (current : Release) (state : ReleaseState) (r : Release) : Release :=
  if r.id = current.id then { r with state, updatedAt := now }
  else if state = .active ∧ r.name = current.name ∧ r.state = .active then
    { r with state := .rolledBack, updatedAt := now }
  else r

section Restated

variable (now : Int) (current : Release) (state : ReleaseState) (r : Release)

@[simp]
theorem restated_id : (restated now current state r).id = r.id := by
  unfold restated
  split_ifs <;> rfl

@[simp]
theorem restated_name : (restated now current state r).name = r.name := by
  unfold restated
  split_ifs <;> rfl

@[simp]
theorem restated_fixed : (restated now current state r).fixed = r.fixed := by
  unfold restated Release.fixed
  split_ifs <;> rfl

variable {current r}

theorem restated_self (h : r.id = current.id) :
    restated now current state r = { r with state, updatedAt := now } := if_pos h

theorem restated_other (h : r.id ≠ current.id) : restated now current state r = r ∨
    (state = .active ∧ r.name = current.name ∧ r.state = .active ∧
      (restated now current state r).state = .rolledBack) := by
  unfold restated
  rw [if_neg h]
  split_ifs with hs
  · exact .inr ⟨hs.1, hs.2.1, hs.2.2, rfl⟩
  · exact .inl rfl

end Restated

namespace Database

/-! ## The two operations -/

theorem mem_of_getRelease {db : Database} {id : String} {r : Release}
    (h : db.getRelease id = .ok r) : r ∈ db.releases ∧ r.id = id := by
  unfold getRelease at h
  split at h
  next r' hfind =>
    cases h
    exact ⟨List.mem_of_find?_eq_some hfind, by simpa using List.find?_some hfind⟩
  next => cases h

theorem getRelease_of_mem {db : Database} {r : Release} (h : r ∈ db.releases) :
    ∃ r', db.getRelease r.id = .ok r' := by
  unfold getRelease
  split
  next r' hfind => exact ⟨r', rfl⟩
  next hfind => simpa using List.find?_eq_none.mp hfind r h

theorem getRelease_error {db : Database} {id m : String} (h : db.getRelease id = .error m) :
    ∀ r ∈ db.releases, r.id ≠ id := by
  unfold getRelease at h
  split at h
  next => cases h
  next hfind => simpa using List.find?_eq_none.mp hfind

def Keyed (rs : List Release) : Prop := (rs.map (·.id)).Nodup

theorem Keyed.eq_of_id {rs : List Release} (h : Keyed rs) {r r' : Release} (hr : r ∈ rs)
    (hr' : r' ∈ rs) (hid : r.id = r'.id) : r = r' :=
  List.inj_on_of_nodup_map h hr hr' hid

theorem Keyed.created {rs : List Release} (h : Keyed rs) {r : Release}
    (hfresh : ∀ r' ∈ rs, r'.id ≠ r.id) : Keyed (rs ++ [r]) := by
  unfold Keyed
  rw [List.map_append, List.nodup_append]
  refine ⟨h, List.nodup_singleton _, ?_⟩
  simpa using hfresh

theorem Keyed.restated {rs : List Release} (h : Keyed rs) (now : Int) (current : Release)
    (state : ReleaseState) : Keyed (rs.map (restated now current state)) := by
  have hids : (rs.map (AegisGateway.restated now current state)).map (·.id) = rs.map (·.id) := by
    simp [Function.comp_def]
  unfold Keyed
  rw [hids]
  exact h

theorem getRelease_eq {db : Database} (h : Keyed db.releases) {r : Release}
    (hr : r ∈ db.releases) : db.getRelease r.id = .ok r := by
  obtain ⟨r', hget⟩ := getRelease_of_mem hr
  obtain ⟨hr', hid⟩ := mem_of_getRelease hget
  rw [hget, h.eq_of_id hr' hr hid]

theorem setState_ok {now : Int} {db : Database} {id : String} {state : ReleaseState}
    {current : Release} (h : db.getRelease id = .ok current) :
    db.setState now id state = (.ok (restated now current state current),
      { db with releases := db.releases.map (restated now current state) }) := by
  have hid : current.id = id := (mem_of_getRelease h).2
  -- The two statements come to one pass over the rows.
  have hrows : updateState now id state (if state = .active then
      demoteOthers now current.name id db.releases else db.releases) =
        db.releases.map (restated now current state) := by
    unfold updateState demoteOthers
    split_ifs with hactive
    · rw [List.map_map]
      apply List.map_congr_left
      intro r _
      simp only [Function.comp, restated, hid, hactive]
      split_ifs <;> simp_all
    · apply List.map_congr_left
      intro r _
      simp [restated, hid, hactive]
  have hget : getRelease { db with releases := db.releases.map (restated now current state) } id =
      .ok (restated now current state current) := by
    unfold getRelease at h ⊢
    have hfind : (db.releases.map (restated now current state)).find? (·.id = id) =
        (db.releases.find? (·.id = id)).map (restated now current state) := by
      rw [List.find?_map]
      congr 2
      funext r
      simp
    simp only [hfind]
    split at h
    next r hr =>
      cases h
      simp [hr]
    next => cases h
  unfold setState
  simp only [h, hrows, hget]

theorem setState_error {now : Int} {db : Database} {id m : String} {state : ReleaseState}
    (h : db.getRelease id = .error m) : db.setState now id state = (.error m, db) := by
  unfold setState
  simp only [h]

theorem createRelease_fresh {db : Database} {r : Release} (h : ∀ r' ∈ db.releases, r'.id ≠ r.id) :
    db.createRelease r = (.ok r, { db with releases := db.releases ++ [r] }) := by
  unfold createRelease
  rw [if_neg]
  simpa using h

theorem createRelease_taken {db : Database} {r r' : Release} (hr : r' ∈ db.releases)
    (hid : r'.id = r.id) : ∃ e, db.createRelease r = (.error e, db) := by
  unfold createRelease
  rw [if_pos (by simpa using ⟨r', hr, hid⟩)]
  exact ⟨_, rfl⟩

end Database

namespace Service

variable {svc : Service}

/-! ## What one operation does to the table -/

def releaseWrite : Op → Bool
  | .createRelease _ | .setState _ _ => true
  | _ => false

inductive ReleasesStep (w : World) : GatewayEvent → List Release → Prop
  | other {e : GatewayEvent} (h : releaseWrite e.1 = false) : ReleasesStep w e w.database.releases
  | created {r : Release} (h : ∀ r' ∈ w.database.releases, r'.id ≠ r.id) :
      ReleasesStep w ⟨.createRelease r, .ok r⟩ (w.database.releases ++ [r])
  | taken {r r' : Release} {e : AegisError} (h : r' ∈ w.database.releases) (hid : r'.id = r.id) :
      ReleasesStep w ⟨.createRelease r, .error e⟩ w.database.releases
  | written {id : String} {state : ReleaseState} {current : Release}
      (h : w.database.getRelease id = .ok current) :
      ReleasesStep w ⟨.setState id state, .ok (restated w.utc current state current)⟩
        (w.database.releases.map (restated w.utc current state))
  | missing {id m : String} {state : ReleaseState} (h : w.database.getRelease id = .error m) :
      ReleasesStep w ⟨.setState id state, .error m⟩ w.database.releases

theorem ReleasesStep.unchanged {w : World} {e : GatewayEvent} {rs : List Release}
    (h : releaseWrite e.1 = false) (hrs : rs = w.database.releases) : ReleasesStep w e rs := by
  subst hrs
  exact .other h

theorem createRelease_step {w : World} (r : Release) :
    ReleasesStep w ⟨.createRelease r, (w.database.createRelease r).1⟩
      (w.database.createRelease r).2.releases := by
  by_cases hid : ∃ r' ∈ w.database.releases, r'.id = r.id
  · obtain ⟨r', hr', hid⟩ := hid
    obtain ⟨e, he⟩ := Database.createRelease_taken hr' hid
    rw [he]
    exact .taken hr' hid
  · have hfresh : ∀ r' ∈ w.database.releases, r'.id ≠ r.id := fun r' hr' hr => hid ⟨r', hr', hr⟩
    rw [Database.createRelease_fresh hfresh]
    exact .created hfresh

theorem setState_step {w : World} (id : String) (state : ReleaseState) :
    ReleasesStep w ⟨.setState id state, (w.database.setState w.utc id state).1⟩
      (w.database.setState w.utc id state).2.releases := by
  cases h : w.database.getRelease id with
  | ok current =>
    rw [Database.setState_ok h]
    exact .written h
  | error m =>
    rw [Database.setState_error h]
    exact .missing h

theorem exec_releases {w w' : World} {o : Op} {x : Input} {a : Ans o}
    (h : svc.exec w o x = some (a, w')) : ReleasesStep w ⟨o, a⟩ w'.database.releases := by
  unfold exec at h
  split at h <;> cases h
  all_goals first
    | exact createRelease_step _
    | exact setState_step _ _
    | exact .unchanged rfl rfl
    | exact .unchanged rfl (Database.putArtifact_releases ..)

/-! ## Rows stay -/

theorem ReleasesStep.keyed {w : World} {e : GatewayEvent} {rs : List Release}
    (h : ReleasesStep w e rs) (hkeyed : Database.Keyed w.database.releases) :
    Database.Keyed rs := by
  cases h with
  | other | taken | missing => exact hkeyed
  | created hfresh => exact hkeyed.created hfresh
  | written => exact hkeyed.restated _ _ _

theorem ReleasesStep.fixed {w : World} {e : GatewayEvent} {rs : List Release}
    (h : ReleasesStep w e rs) : w.database.releases.map (·.fixed) <+: rs.map (·.fixed) := by
  cases h with
  | other | taken | missing => exact List.prefix_rfl
  | created =>
    rw [List.map_append]
    exact List.prefix_append _ _
  | written =>
    simp [Function.comp_def]

def table (c : State) : List Release := c.world.database.releases

theorem step_releases {c c' : State} {m : Move Input Call} (h : svc.machine.step? c m = some c') :
    (∀ i x, m ≠ .run i x) ∧ table c' = table c ∧ c'.log = c.log ∨
      ∃ i x call o k a, m = .run i x ∧ c.tasks[i]? = some ⟨call, .op o k⟩ ∧
        c'.log = c.log ++ [(i, ev o a)] ∧ svc.exec c.world o x = some (a, c'.world) ∧
        ReleasesStep c.world (ev o a) (table c') := by
  cases m with
  | start call =>
    cases h
    exact .inl ⟨by simp, rfl, rfl⟩
  | drift x =>
    obtain ⟨w, hw, rfl⟩ := Option.map_eq_some_iff.mp h
    obtain ⟨clock, utc, -, rfl⟩ := drift_eq hw
    exact .inl ⟨by simp, rfl, rfl⟩
  | run i x =>
    obtain ⟨call, o, k, a, w, ht, hexec, rfl⟩ := Machine.step_run h
    exact .inr ⟨i, x, call, o, k, a, rfl, ht, rfl, hexec, exec_releases hexec⟩

theorem fixed_of_step {c c' : State} {m : Move Input Call}
    (h : svc.machine.step? c m = some c') :
    (table c).map (·.fixed) <+: (table c').map (·.fixed) := by
  rcases step_releases h with ⟨-, htable, -⟩ | ⟨i, x, call, o, k, a, -, -, -, -, hstep⟩
  · rw [htable]
  · exact hstep.fixed

section Reach

variable {Ok : State → Move Input Call → Prop} {c : State}

theorem keyed_of_reach (h : svc.machine.Reach Ok initial c) : Database.Keyed (table c) := by
  have hstart : Database.Keyed (table initial) := List.nodup_nil
  apply h.invariant (fun c => Database.Keyed (table c)) hstart
  intro c m c' _ hkeyed _ hs
  rcases step_releases hs with ⟨-, htable, -⟩ | ⟨i, x, call, o, k, a, -, -, -, -, hstep⟩
  · rw [htable]
    exact hkeyed
  · exact hstep.keyed hkeyed

theorem exec_getRelease {w w' : World} {id : String} {x : Input} {a : Except String Release}
    (h : svc.exec w (.getRelease id) x = some (a, w')) : a = w.database.getRelease id := by
  cases x with
  | go =>
    cases h
    rfl
  | _ => cases h

theorem known_of_reach (h : svc.machine.Reach Ok initial c) {i : Nat} {id : String} {r : Release}
    (hread : (i, ev (.getRelease id) (.ok r)) ∈ c.log) :
    r.id = id ∧ ∃ r' ∈ table c, r'.fixed = r.fixed := by
  refine h.invariant (fun c => ∀ i id r, (i, ev (.getRelease id) (.ok r)) ∈ c.log →
    r.id = id ∧ ∃ r' ∈ table c, r'.fixed = r.fixed) (by simp [initial, Pool.empty])
    (fun c m c' _ hknown _ hs i id r hread => ?_) i id r hread
  have hkeep : (∃ r' ∈ table c, r'.fixed = r.fixed) → ∃ r' ∈ table c', r'.fixed = r.fixed := by
    rintro ⟨r', hr', hfixed⟩
    have hmem := (fixed_of_step hs).subset (List.mem_map_of_mem hr')
    obtain ⟨r'', hr'', heq⟩ := List.mem_map.mp hmem
    exact ⟨r'', hr'', heq.trans hfixed⟩
  have hold : (i, ev (.getRelease id) (.ok r)) ∈ c.log →
      r.id = id ∧ ∃ r' ∈ table c', r'.fixed = r.fixed := fun hlog =>
    ⟨(hknown i id r hlog).1, hkeep (hknown i id r hlog).2⟩
  cases m with
  | start call =>
    cases hs
    exact hold hread
  | drift x =>
    obtain ⟨w, hw, rfl⟩ := Option.map_eq_some_iff.mp hs
    exact hold hread
  | run j x =>
    obtain ⟨call, o, k, a, w, ht, hexec, rfl⟩ := Machine.step_run hs
    rcases List.mem_append.mp hread with hread | hread
    · exact hold hread
    · obtain ⟨rfl, hevent⟩ := Prod.mk.inj (List.mem_singleton.mp hread)
      cases hevent
      obtain ⟨hmem, hid⟩ := Database.mem_of_getRelease (exec_getRelease hexec).symm
      exact ⟨hid, hkeep ⟨r, hmem, rfl⟩⟩

end Reach

/-! ## Calls that leave the releases alone -/

theorem CallRun.serving {α : Type} {args : Arguments}
    {served : Exchange → GatewayResponse → GatewayTrace → Except PyExc α → Prop}
    {R : Exchange → PassRel α}
    (hserved : ∀ x hit tr out, served x hit tr out → ∀ e ∈ tr, aside e.1 = true)
    (hR : ∀ x c route st tr out, R x c route st tr out → ∀ e ∈ tr, OnRoute x route e)
    {tr : GatewayTrace} {out : Except PyExc α} (h : svc.CallRun args served R tr out) :
    ∀ e ∈ tr, serving e.1 = true := by
  intro e he
  cases h with
  | stopped h => exact serving_of_approaching (h.approaching e he)
  | served h hs =>
    rcases List.mem_append.mp he with he | he
    · exact serving_of_approaching (h.approaching e he)
    · exact serving_of_aside (hserved _ _ _ _ hs e he)
  | looped h hl =>
    rcases List.mem_append.mp he with he | he
    · exact serving_of_approaching (h.approaching e he)
    · rcases hl.events (fun _ _ _ => GaveUp.settling) (hR _) e he with
        hsettling | ⟨_, _, _, _, hon⟩
      · exact serving_of_settling hsettling
      · exact hon.serving

theorem generate_serving (args : Arguments) :
    (svc.generate args).Emits fun e => Service.serving e.1 = true :=
  (svc.generate_runs args).mono fun _ _ h =>
    h.serving (fun _ _ _ _ => ServedRun.aside) fun _ _ _ _ _ _ => GeneratePassRun.onRoute

theorem stream_serving (q : GatewayRequest) (forced : Option String) :
    (svc.stream q forced).Emits fun e => Service.serving e.1 = true :=
  (svc.stream_runs q forced).mono fun _ _ h =>
    h.serving (fun _ _ _ _ => StreamServedRun.aside) fun _ _ _ _ _ _ => StreamPassRun.onRoute

end Service

end AegisGateway
