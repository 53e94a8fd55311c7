import AegisGateway.Rows
import AegisGateway.Releases

/-!
# Persistence

What is read from the tables is what was written to them: the values of an `INSERT` and the
cells that an object is made of stand at the same places as the columns.
-/

open Tables Calendar

namespace AegisGateway.Rows

/-! ## Values -/

section Values

@[simp]
theorem truth_flag (b : Bool) : truth (flag b) = b := by
  cases b <;> rfl

@[simp]
theorem readTime_time (t : Timestamp) : readTime (time t) = .ok t := by
  rw [time, readTime, fromisoformat_isoformat]

@[simp]
theorem readState_value (state : ReleaseState) : readState (.text state.value) = .ok state := by
  cases state <;> rfl

theorem value_inj {s s' : ReleaseState} (h : s.value = s'.value) : s = s' := by
  have hread := readState_value s
  rw [h, readState_value] at hread
  exact (Except.ok.inj hread).symm

@[simp]
theorem readOptional_text (s : Option String) :
    readOptional readText (nullable .text s) = .ok s := by
  cases s <;> rfl

/-- A state of three values comes back from a column that may be `NULL`. -/
@[simp]
theorem truth_nullable (b : Option Bool) :
    (if nullable flag b = .null then none else some (truth (nullable flag b))) = b := by
  cases b with
  | none => rfl
  | some b => cases b <;> rfl

theorem metricFromRow_values (v : Value) (m : MetricObject) :
    metricFromRow (v :: metricValues m) = .ok m := by
  simp [metricFromRow, metricValues, readText, readInteger, readReal, pure, Except.pure, bind,
    Except.bind]

theorem releaseFromRow_values (r : ReleaseObject) : releaseFromRow (releaseValues r) = .ok r := by
  simp [releaseFromRow, releaseValues, readText, readInteger, readReal, pure, Except.pure, bind,
    Except.bind, r.valid]

end Values

/-! ## Metrics -/

def Int64 (n : Int) : Prop := -2 ^ 63 ≤ n ∧ n < 2 ^ 63

instance (n : Int) : Decidable (Int64 n) := inferInstanceAs (Decidable (_ ∧ _))

structure MetricObject.Within64 (m : MetricObject) : Prop where
  inputTokens : Int64 m.inputTokens
  outputTokens : Int64 m.outputTokens
  fallbackCount : Int64 m.fallbackCount

def metricRow (n : Int) (m : MetricObject) : Row := .integer n :: metricValues m

theorem metricNames_nodup : (metricColumns.map (·.name)).Nodup := by decide

theorem newRow_metric (m : MetricObject) (t : Table) :
    newRow metricColumns metricNames (metricValues m) t = metricRow (t.sequence + 1) m :=
  newRow_counted rfl rfl (by decide) (by decide) rfl

theorem bindable_flag (b : Bool) : (flag b).Bindable := by
  cases b <;> decide

theorem bindable_nullable {α : Type} {write : α → Value} (h : ∀ a, (write a).Bindable)
    (o : Option α) : (nullable write o).Bindable := by
  cases o with
  | none => trivial
  | some a => exact h a

@[simp]
theorem flag_ne_null (b : Bool) : flag b ≠ .null := Value.noConfusion

theorem stores_flag (b : Bool) : ColumnType.integer.Stores (flag b) := by
  cases b <;> decide

theorem stores_nullable {α : Type} {write : α → Value} {type : ColumnType}
    (h : ∀ a, type.Stores (write a)) (o : Option α) : type.Stores (nullable write o) := by
  cases o with
  | none => exact stores_null type
  | some a => exact h a

theorem insert_metric {m : MetricObject} (hm : m.Within64) (t : Table) :
    Tables.insert metricColumns metricNames (metricValues m) t =
      .ok { rows := t.rows ++ [metricRow (t.sequence + 1) m], sequence := t.sequence + 1 } := by
  have hbindable : ∀ v ∈ metricValues m, v.Bindable := by
    have hnumbers : (Value.integer m.inputTokens).Bindable ∧
        (Value.integer m.outputTokens).Bindable ∧ (Value.integer m.fallbackCount).Bindable :=
      ⟨hm.inputTokens, hm.outputTokens, hm.fallbackCount⟩
    simpa [metricValues, time, bindable_flag, bindable_nullable] using hnumbers
  have htakes : ∀ p ∈ metricColumns.zip (metricRow (t.sequence + 1) m),
      Takes metricColumns t p.1 p.2 := by
    simp [metricColumns, metricRow, metricValues, Takes, stores_nullable, stores_flag, time]
  unfold Tables.insert
  dsimp only
  rw [bound_of_bindable hbindable, newRow_metric, if_pos htakes]

theorem recordMetric_ok {m : MetricObject} (hm : m.Within64) (t : Table) :
    recordMetric m t =
      .ok { rows := t.rows ++ [metricRow (t.sequence + 1) m], sequence := t.sequence + 1 } := by
  rw [recordMetric, insert_metric hm]
  rfl

/-! ### Queries -/

section Cells

variable (n : Int) (m : MetricObject)

theorem cell_sequence : cell metricColumns (metricRow n m) "sequence" = .integer n :=
  @cell_at metricColumns (metricRow n m) metricNames_nodup 0 _ _ rfl rfl

theorem cell_routeId : cell metricColumns (metricRow n m) "route_id" = .text m.routeId :=
  @cell_at metricColumns (metricRow n m) metricNames_nodup 3 _ _ rfl rfl

theorem cell_canary : cell metricColumns (metricRow n m) "canary" = flag m.canary :=
  @cell_at metricColumns (metricRow n m) metricNames_nodup 8 _ _ rfl rfl

theorem cell_releaseId :
    cell metricColumns (metricRow n m) "release_id" = nullable .text m.releaseId :=
  @cell_at metricColumns (metricRow n m) metricNames_nodup 9 _ _ rfl rfl

end Cells

def MetricObject.Matches (releaseId routeId : Option String) (canary : Option Bool)
    (m : MetricObject) : Prop :=
  (∀ id ∈ releaseId, m.releaseId = some id) ∧ (∀ id ∈ routeId, m.routeId = id) ∧
    ∀ b ∈ canary, m.canary = b

instance (releaseId routeId : Option String) (canary : Option Bool) :
    DecidablePred (MetricObject.Matches releaseId routeId canary) := fun m => by
  unfold MetricObject.Matches
  infer_instance

theorem same_text {s s' : String} : (Value.text s).Same (.text s') ↔ s = s' := by
  simp [Value.Same]

theorem same_flag {b b' : Bool} : (flag b).Same (flag b') ↔ b = b' := by
  cases b <;> cases b' <;> decide

theorem same_nullable {s : Option String} {s' : String} :
    (nullable .text s).Same (.text s') ↔ s = some s' := by
  cases s with
  | none => simp [nullable, Value.Same]
  | some s => simp [nullable, Value.Same]

section Query

variable {releaseId routeId : Option String} {canary : Option Bool} {limit : Int}

theorem meets_query (n : Int) (m : MetricObject) :
    (Meets metricColumns
      (((metricsQuery releaseId routeId canary limit).1.zip
        (metricsQuery releaseId routeId canary limit).2).map fun p => Condition.equal p.1 p.2)
      (metricRow n m)) ↔ m.Matches releaseId routeId canary := by
  cases releaseId <;> cases routeId <;> cases canary <;>
    simp [metricsQuery, Meets, Condition.Holds, MetricObject.Matches, cell_releaseId,
      cell_routeId, cell_canary, same_text, same_flag, same_nullable]

theorem bindable_query (hlimit : Int64 limit) :
    ∀ v ∈ (metricsQuery releaseId routeId canary limit).2, v.Bindable := by
  have hlast : (Value.integer limit).Bindable := hlimit
  cases releaseId <;> cases routeId <;> cases canary <;>
    simpa [metricsQuery, bindable_flag] using hlast

theorem limit_of_query :
    (metricsQuery releaseId routeId canary limit).2.getD
      (metricsQuery releaseId routeId canary limit).1.length .null = .integer limit := by
  cases releaseId <;> cases routeId <;> cases canary <;> rfl

end Query

/-! ### Runs -/

def numberedRow (p : Int × MetricObject) : Row := metricRow p.1 p.2

/-- The table holds these metrics, and they are numbered in their order. -/
def Records (t : Table) (ms : List MetricObject) : Prop :=
  ∃ ps : List (Int × MetricObject), t.rows = ps.map numberedRow ∧ ps.map Prod.snd = ms ∧
    ps.Pairwise (fun p p' => p.1 < p'.1) ∧ ∀ p ∈ ps, p.1 ≤ t.sequence

section Runs

variable {t : Table} {ms : List MetricObject}

theorem Records.record (h : Records t ms) {m : MetricObject} (hm : m.Within64) :
    ∃ t', recordMetric m t = .ok t' ∧ Records t' (ms ++ [m]) := by
  obtain ⟨ps, hrows, rfl, hnumbers, hbound⟩ := h
  refine ⟨_, recordMetric_ok hm t, ps ++ [(t.sequence + 1, m)], ?_, ?_, ?_, ?_⟩
  · rw [List.map_append, ← hrows]
    rfl
  · rw [List.map_append]
    rfl
  · refine List.pairwise_append.mpr ⟨hnumbers, List.pairwise_singleton _ _, fun p hp p' hp' => ?_⟩
    obtain rfl := List.mem_singleton.mp hp'
    exact Int.lt_add_one_of_le (hbound p hp)
  · intro p hp
    rcases List.mem_append.mp hp with hp | hp
    · exact (hbound p hp).trans (Int.le_add_one le_rfl)
    · obtain rfl := List.mem_singleton.mp hp
      exact le_rfl

def recordAll (ms : List MetricObject) (t : Table) : Except PyExc Table :=
  ms.foldlM (fun t m => recordMetric m t) t

theorem Records.recordAll (h : Records t ms) {ms' : List MetricObject}
    (hms' : ∀ m ∈ ms', m.Within64) : ∃ t', recordAll ms' t = .ok t' ∧ Records t' (ms ++ ms') := by
  induction ms' generalizing t ms with
  | nil => exact ⟨t, rfl, by rwa [List.append_nil]⟩
  | cons m ms' ih =>
    obtain ⟨hm, hms'⟩ := List.forall_mem_cons.mp hms'
    obtain ⟨t₁, hrecord, h₁⟩ := h.record hm
    obtain ⟨t₂, hall, h₂⟩ := ih h₁ hms'
    refine ⟨t₂, ?_, by rwa [List.append_assoc, List.singleton_append] at h₂⟩
    rw [Rows.recordAll, List.foldlM_cons, hrecord]
    exact hall

theorem key_lt_iff {n n' : Int} : (Value.integer n).key < (Value.integer n').key ↔ n < n' := by
  simp [Value.key, Prod.Lex.lt_iff]

theorem mapM_numberedRow (ps : List (Int × MetricObject)) :
    (ps.map numberedRow).mapM metricFromRow = .ok (ps.map Prod.snd) := by
  induction ps with
  | nil => rfl
  | cons p ps ih =>
    rw [List.map_cons, List.mapM_cons, ih, numberedRow, metricRow, metricFromRow_values]
    rfl

theorem metrics_of_records (h : Records t ms) (releaseId routeId : Option String)
    (canary : Option Bool) {limit : Int} (hlimit : Int64 limit) :
    metrics releaseId routeId canary limit t =
      .ok (let found := ms.reverse.filter fun m => m.Matches releaseId routeId canary
        if limit < 0 then found else found.take limit.toNat) := by
  obtain ⟨ps, hrows, rfl, hnumbers, -⟩ := h
  let found := ps.filter fun p => p.2.Matches releaseId routeId canary
  have hfilter : (t.rows.filter fun row => Meets metricColumns
      (((metricsQuery releaseId routeId canary limit).1.zip
        (metricsQuery releaseId routeId canary limit).2).map fun p => Condition.equal p.1 p.2)
      row) = found.map numberedRow := by
    rw [hrows, List.filter_map]
    congr 1
    apply List.filter_congr
    intro p _
    exact decide_eq_decide.mpr (meets_query p.1 p.2)
  -- The rows come in by growing numbers, so they go out the other way round.
  have horder : descending metricColumns "sequence" (found.map numberedRow) =
      found.reverse.map numberedRow := by
    rw [descending_of_pairwise, List.map_reverse]
    refine List.pairwise_map.mpr ((hnumbers.filter _).imp fun {p p'} hlt => ?_)
    rw [numberedRow, numberedRow, cell_sequence, cell_sequence, key_lt_iff]
    exact hlt
  have hread : ∀ qs : List (Int × MetricObject),
      ((Except.ok (qs.map numberedRow) : Except Fault (List Row)).mapError raised >>= fun rows =>
        rows.mapM metricFromRow) = .ok (qs.map Prod.snd) := mapM_numberedRow
  have hfound : (ps.map Prod.snd).reverse.filter (fun m => m.Matches releaseId routeId canary) =
      found.reverse.map Prod.snd := by
    rw [← List.map_reverse, List.filter_map, ← List.filter_reverse]
    rfl
  unfold metrics select
  dsimp only
  rw [hfilter, horder, limit_of_query, bound_of_bindable (bindable_query hlimit), limited, hfound]
  split_ifs
  · exact hread _
  · rw [← List.map_take, ← List.map_take]
    exact hread _

end Runs

/-! ## Releases -/

theorem releaseNames_nodup : (releaseColumns.map (·.name)).Nodup := by decide

theorem newRow_release (r : ReleaseObject) (t : Table) :
    newRow releaseColumns releaseNames (releaseValues r) t = releaseValues r :=
  newRow_eq rfl (by decide) rfl

section Cells

variable (r : ReleaseObject)

theorem cell_id : cell releaseColumns (releaseValues r) "id" = .text r.id :=
  @cell_at releaseColumns (releaseValues r) releaseNames_nodup 0 _ _ rfl rfl

theorem cell_name : cell releaseColumns (releaseValues r) "name" = .text r.name :=
  @cell_at releaseColumns (releaseValues r) releaseNames_nodup 1 _ _ rfl rfl

theorem cell_state : cell releaseColumns (releaseValues r) "state" = .text r.state.value :=
  @cell_at releaseColumns (releaseValues r) releaseNames_nodup 6 _ _ rfl rfl

/-- The two cells that both statements of `set_state` write to. -/
theorem setCells_release (state : ReleaseState) (t : Timestamp) :
    setCells releaseColumns (releaseValues r)
      [("state", .text state.value), ("updated_at", time t)] =
        releaseValues { r with state, updatedAt := t } := by
  have hstate : setCell releaseColumns (releaseValues r) "state" (.text state.value) =
      releaseValues { r with state } :=
    @setCell_at releaseColumns (releaseValues r) releaseNames_nodup 6 _ _ rfl rfl
  have hupdated : setCell releaseColumns (releaseValues { r with state }) "updated_at" (time t) =
      releaseValues { r with state, updatedAt := t } :=
    @setCell_at releaseColumns (releaseValues { r with state }) releaseNames_nodup 13 _ _ rfl rfl
  rw [setCells, List.foldl_cons, List.foldl_cons, List.foldl_nil, hstate, hupdated]

end Cells

/-- The table holds these releases, each under an identifier of its own. -/
def Holds (t : Table) (rs : List ReleaseObject) : Prop :=
  t.rows = rs.map releaseValues ∧ (rs.map (·.id)).Nodup

section Releases

variable {t : Table} {rs : List ReleaseObject}

theorem Holds.eq_of_id (h : Holds t rs) {r r' : ReleaseObject} (hr : r ∈ rs) (hr' : r' ∈ rs)
    (hid : r.id = r'.id) : r = r' := List.inj_on_of_nodup_map h.2 hr hr' hid

theorem equal_id_iff {r : ReleaseObject} {id : String} :
    (Condition.equal "id" (.text id)).Holds releaseColumns (releaseValues r) ↔ r.id = id := by
  rw [Condition.Holds, cell_id, same_text]

theorem get_of_find (h : Holds t rs) (id : String) :
    get id t = match rs.find? (·.id = id) with
      | some r => .ok r
      | none => .error (.aegis (.artifactNotFound (Database.releaseNotFound id))) := by
  have hfind : (t.rows.find? fun row => (Condition.equal "id" (.text id)).Holds releaseColumns row) =
      (rs.find? (·.id = id)).map releaseValues := by
    rw [h.1, List.find?_map]
    congr 2
    funext r
    exact decide_eq_decide.mpr equal_id_iff
  unfold get fetchone
  rw [hfind, bound_of_bindable (by simp)]
  cases rs.find? (·.id = id) with
  | none => rfl
  | some r => exact releaseFromRow_values r

theorem get_ok_iff (h : Holds t rs) {id : String} {r : ReleaseObject} :
    get id t = .ok r ↔ r ∈ rs ∧ r.id = id := by
  rw [get_of_find h]
  constructor
  · intro hget
    split at hget
    next r' hfind =>
      cases hget
      exact ⟨List.mem_of_find?_eq_some hfind, by simpa using List.find?_some hfind⟩
    next => cases hget
  · rintro ⟨hr, rfl⟩
    cases hfind : rs.find? (·.id = r.id) with
    | none => simpa using List.find?_eq_none.mp hfind r hr
    | some r' =>
      have hid : r'.id = r.id := by simpa using List.find?_some hfind
      rw [h.eq_of_id (List.mem_of_find?_eq_some hfind) hr hid]

theorem get_error (h : Holds t rs) {id : String} (hnone : ∀ r ∈ rs, r.id ≠ id) :
    get id t = .error (.aegis (.artifactNotFound (Database.releaseNotFound id))) := by
  have hfind : rs.find? (·.id = id) = none := List.find?_eq_none.mpr (by simpa using hnone)
  rw [get_of_find h, hfind]

/-! ### A new release -/

def ReleaseObject.Within64 (r : ReleaseObject) : Prop := Int64 r.minCanarySamples

theorem bindable_release {r : ReleaseObject} : (∀ v ∈ releaseValues r, v.Bindable) ↔ r.Within64 := by
  obtain ⟨hcanary, hshadow, -⟩ := r.valid
  have hcanary : (Value.integer r.canaryPercent).Bindable := ⟨by omega, by omega⟩
  have hshadow : (Value.integer r.shadowPercent).Bindable := ⟨by omega, by omega⟩
  simp only [releaseValues, List.forall_mem_cons, List.not_mem_nil, false_implies, implies_true,
    and_true, bindable_text, bindable_real, hcanary, hshadow, time, true_and]
  rfl

theorem takes_others (columns : List Column) (t : Table) (r : ReleaseObject) :
    ∀ p ∈ releaseColumns.tail.zip (releaseValues r).tail, Takes columns t p.1 p.2 := by
  simp [releaseColumns, releaseValues, Takes, time]

theorem takes_release (h : Holds t rs) {r : ReleaseObject} :
    (∀ p ∈ releaseColumns.zip (releaseValues r), Takes releaseColumns t p.1 p.2) ↔
      ∀ r' ∈ rs, r'.id ≠ r.id := by
  have hsplit : (∀ p ∈ releaseColumns.zip (releaseValues r), Takes releaseColumns t p.1 p.2) ↔
      Takes releaseColumns t ⟨"id", .text, .primaryKey⟩ (.text r.id) ∧
        ∀ p ∈ releaseColumns.tail.zip (releaseValues r).tail, Takes releaseColumns t p.1 p.2 :=
    List.forall_mem_cons
  have hkey : Takes releaseColumns t ⟨"id", .text, .primaryKey⟩ (.text r.id) ↔
      ∀ row ∈ t.rows, ¬ (cell releaseColumns row "id").Same (.text r.id) := by
    simp [Takes]
  rw [hsplit, and_iff_left (takes_others _ t r), hkey, h.1, List.forall_mem_map]
  refine forall₂_congr fun r' _ => not_congr ?_
  rw [cell_id, same_text]

theorem Holds.concat (h : Holds t rs) {r : ReleaseObject} (hfresh : ∀ r' ∈ rs, r'.id ≠ r.id)
    (sequence : Int) : Holds { rows := t.rows ++ [releaseValues r], sequence } (rs ++ [r]) := by
  refine ⟨by rw [List.map_append, ← h.1]; rfl, ?_⟩
  rw [List.map_append, List.nodup_append]
  refine ⟨h.2, List.nodup_singleton _, ?_⟩
  simpa using hfresh

theorem create_cases (h : Holds t rs) (r : ReleaseObject) :
    ((∃ e, create r t = (.error e, t)) ∧ ¬ (r.Within64 ∧ ∀ r' ∈ rs, r'.id ≠ r.id)) ∨
      ∃ t', create r t = (.ok r, t') ∧ Holds t' (rs ++ [r]) ∧ r.Within64 ∧
        ∀ r' ∈ rs, r'.id ≠ r.id := by
  have hinsert : Tables.insert releaseColumns releaseNames (releaseValues r) t =
      bound (releaseValues r)
        (if ∀ p ∈ releaseColumns.zip (releaseValues r), Takes releaseColumns t p.1 p.2 then
          .ok { rows := t.rows ++ [releaseValues r], sequence := t.sequence + 1 }
        else .error .integrity) := by
    unfold Tables.insert
    dsimp only
    rw [newRow_release]
  by_cases hbindable : r.Within64
  · rw [bound_of_bindable (bindable_release.mpr hbindable)] at hinsert
    by_cases hfresh : ∀ r' ∈ rs, r'.id ≠ r.id
    · rw [if_pos ((takes_release h).mpr hfresh)] at hinsert
      refine .inr ⟨_, ?_, h.concat hfresh (t.sequence + 1), hbindable, hfresh⟩
      unfold create
      rw [hinsert]
    · rw [if_neg (mt (takes_release h).mp hfresh)] at hinsert
      refine .inl ⟨⟨.aegis (.registryConflict s!"release '{r.id}' already exists"), ?_⟩,
        fun hboth => hfresh hboth.2⟩
      unfold create
      rw [hinsert]
  · rw [bound, if_pos] at hinsert
    · refine .inl ⟨⟨raised .overflow, ?_⟩, fun hboth => hbindable hboth.1⟩
      unfold create
      rw [hinsert]
    · have hsome := mt bindable_release.mp hbindable
      push Not at hsome
      exact hsome

/-! ### A new state -/

/-- A release after `set_state` has been called for `current`. -/
def restatedObject (now : DateTime) (current : ReleaseObject) (state : ReleaseState)
    (r : ReleaseObject) : ReleaseObject :=
  if r.id = current.id then { r with state, updatedAt := .utc now }
  else if state = .active ∧ r.name = current.name ∧ r.state = .active then
    { r with state := .rolledBack, updatedAt := .utc now }
  else r

theorem restate_of_rows (h : t.rows = rs.map releaseValues) (now : Timestamp) (id : String)
    (state : ReleaseState) :
    restate (time now) id state t =
      .ok ({ t with rows := (rs.map fun r =>
          if r.id = id then { r with state, updatedAt := now } else r).map releaseValues },
        rs.countP (·.id = id)) := by
  rw [restate, update_map h (p := (·.id = id)) (fun r => ?_) (fun r => setCells_release r state now)]
  · rfl
  · simp [time, Condition.value]
  · rw [Meets, List.forall_mem_singleton, equal_id_iff]

theorem meets_demote {name id : String} (r : ReleaseObject) :
    Meets releaseColumns [.equal "name" (.text name),
      .equal "state" (.text ReleaseState.active.value), .differs "id" (.text id)]
      (releaseValues r) ↔ r.name = name ∧ r.state = .active ∧ r.id ≠ id := by
  have hstate : r.state.value = ReleaseState.active.value ↔ r.state = .active :=
    ⟨value_inj, congrArg _⟩
  simp [Meets, Condition.Holds, cell_name, cell_state, cell_id, same_text, hstate]

theorem demote_of_rows (h : t.rows = rs.map releaseValues) (now : Timestamp) (name id : String) :
    demote (time now) name id t =
      .ok { t with rows := (rs.map fun r =>
        if r.name = name ∧ r.state = .active ∧ r.id ≠ id then
          { r with state := .rolledBack, updatedAt := now }
        else r).map releaseValues } := by
  rw [demote, update_map h (fun r => meets_demote r) (fun r => setCells_release r .rolledBack now)]
  · rfl
  · simp [time, Condition.value]

theorem restatedObject_id (now : DateTime) (current : ReleaseObject) (state : ReleaseState)
    (r : ReleaseObject) : (restatedObject now current state r).id = r.id := by
  unfold restatedObject
  split_ifs <;> rfl

theorem Holds.restated (h : Holds t rs) (now : DateTime) (current : ReleaseObject)
    (state : ReleaseState) : Holds
      { t with rows := (rs.map (restatedObject now current state)).map releaseValues }
      (rs.map (restatedObject now current state)) := by
  refine ⟨rfl, ?_⟩
  have hids : (rs.map (restatedObject now current state)).map (·.id) = rs.map (·.id) := by
    simp [Function.comp_def, restatedObject_id]
  rw [hids]
  exact h.2

theorem Holds.countP (h : Holds t rs) {r : ReleaseObject} (hr : r ∈ rs) :
    rs.countP (·.id = r.id) = 1 := by
  have hcount : (rs.map (·.id)).count r.id = 1 :=
    List.count_eq_one_of_mem h.2 (List.mem_map_of_mem hr)
  rw [List.count, List.countP_map] at hcount
  rw [← hcount]
  apply List.countP_congr
  intro r' _
  simp

theorem stateWritten_of_holds (h : Holds t rs) (now : DateTime) (state : ReleaseState)
    {current : ReleaseObject} (hcurrent : current ∈ rs) :
    stateWritten (time (.utc now)) current.id state t =
      .ok { t with rows := (rs.map (restatedObject now current state)).map releaseValues } := by
  have hget : get current.id t = .ok current := (get_ok_iff h).mpr ⟨hcurrent, rfl⟩
  simp only [stateWritten, hget, pure, Except.pure, bind, Except.bind]
  -- Others are demoted only where the new state is active.
  by_cases hactive : state = .active
  · let others := rs.map fun r =>
      if r.name = current.name ∧ r.state = .active ∧ r.id ≠ current.id then
        { r with state := .rolledBack, updatedAt := .utc now }
      else r
    have hcount : others.countP (·.id = current.id) = 1 := by
      rw [← h.countP hcurrent, List.countP_map]
      apply List.countP_congr
      intro r _
      simp only [Function.comp]
      split_ifs <;> rfl
    have hrows : (others.map fun r =>
        if r.id = current.id then { r with state, updatedAt := .utc now } else r) =
          rs.map (restatedObject now current state) := by
      rw [List.map_map]
      apply List.map_congr_left
      intro r _
      simp only [Function.comp, restatedObject, hactive]
      split_ifs <;> simp_all
    rw [if_pos hactive, demote_of_rows h.1]
    dsimp only
    rw [@restate_of_rows { t with rows := others.map releaseValues } others rfl, hcount, hrows]
    rfl
  · have hrows : (rs.map fun r =>
        if r.id = current.id then { r with state, updatedAt := .utc now } else r) =
          rs.map (restatedObject now current state) := by
      apply List.map_congr_left
      intro r _
      simp [restatedObject, hactive]
    rw [if_neg hactive, restate_of_rows h.1, h.countP hcurrent, hrows]
    rfl

theorem stateWritten_missing (h : Holds t rs) (now : Timestamp) (state : ReleaseState)
    {id : String} (hnone : ∀ r ∈ rs, r.id ≠ id) :
    stateWritten (time now) id state t =
      .error (.aegis (.artifactNotFound (Database.releaseNotFound id))) := by
  have hcount : rs.countP (·.id = id) = 0 := List.countP_eq_zero.mpr (by simpa using hnone)
  simp only [stateWritten, get_error h hnone, pure, Except.pure, bind, Except.bind]
  by_cases hactive : state = .active
  · rw [if_pos hactive]
  · rw [if_neg hactive, restate_of_rows h.1, hcount]
    rfl

theorem setState_cases (h : Holds t rs) (now : DateTime) (id : String) (state : ReleaseState) :
    (∃ current ∈ rs, current.id = id ∧
      setState now id state t = (.ok (restatedObject now current state current),
        { t with rows := (rs.map (restatedObject now current state)).map releaseValues })) ∨
    ((∀ r ∈ rs, r.id ≠ id) ∧ setState now id state t =
      (.error (.aegis (.artifactNotFound (Database.releaseNotFound id))), t)) := by
  by_cases hknown : ∃ current ∈ rs, current.id = id
  · obtain ⟨current, hcurrent, rfl⟩ := hknown
    refine .inl ⟨current, hcurrent, rfl, ?_⟩
    have hget := (get_ok_iff (h.restated now current state)).mpr
      ⟨List.mem_map_of_mem hcurrent, restatedObject_id now current state current⟩
    rw [setState, stateWritten_of_holds h now state hcurrent]
    dsimp only
    rw [hget]
  · have hnone : ∀ r ∈ rs, r.id ≠ id := fun r hr hid => hknown ⟨r, hr, hid⟩
    refine .inr ⟨hnone, ?_⟩
    rw [setState, stateWritten_missing h _ state hnone]

end Releases

/-! ### Runs -/

inductive ReleaseWrite where
  | create (release : ReleaseObject)
  | setState (now : DateTime) (releaseId : String) (state : ReleaseState)

def ReleaseWrite.perform (t : Table) : ReleaseWrite → Table
  | create release => (Rows.create release t).2
  | setState now releaseId state => (Rows.setState now releaseId state t).2

def written (ws : List ReleaseWrite) : Table := ws.foldl ReleaseWrite.perform {}

def createAll (rs : List ReleaseObject) (t : Table) : Table :=
  rs.foldl (fun t r => (create r t).2) t

section Runs

variable {t : Table} {rs : List ReleaseObject}

theorem Holds.created (h : Holds t rs) (r : ReleaseObject) :
    ∃ rs', Holds (create r t).2 rs' ∧ rs ⊆ rs' := by
  rcases create_cases h r with ⟨⟨e, he⟩, -⟩ | ⟨t', ht', h', -, -⟩
  · rw [he]
    exact ⟨rs, h, fun _ => id⟩
  · rw [ht']
    exact ⟨_, h', List.subset_append_left rs [r]⟩

theorem Holds.performed (h : Holds t rs) (w : ReleaseWrite) : ∃ rs', Holds (w.perform t) rs' := by
  cases w with
  | create r =>
    obtain ⟨rs', h', -⟩ := h.created r
    exact ⟨rs', h'⟩
  | setState now id state =>
    rw [ReleaseWrite.perform]
    rcases setState_cases h now id state with ⟨current, -, -, hset⟩ | ⟨-, hset⟩
    · rw [hset]
      exact ⟨_, h.restated now current state⟩
    · rw [hset]
      exact ⟨rs, h⟩

theorem exists_holds (ws : List ReleaseWrite) : ∃ rs, Holds (written ws) rs := by
  induction ws using List.reverseRecOn with
  | nil => exact ⟨[], rfl, List.nodup_nil⟩
  | append_singleton ws w ih =>
    obtain ⟨rs, h⟩ := ih
    rw [written, List.foldl_concat]
    exact h.performed w

theorem Holds.get_createAll (h : Holds t rs) {r : ReleaseObject} (hr : r ∈ rs)
    (others : List ReleaseObject) : get r.id (createAll others t) = .ok r := by
  induction others generalizing t rs with
  | nil => exact (get_ok_iff h).mpr ⟨hr, rfl⟩
  | cons r' others ih =>
    obtain ⟨rs', h', hsub⟩ := h.created r'
    exact ih h' (hsub hr)

theorem Holds.get_setState (h : Holds t rs) {r current : ReleaseObject} {id : String}
    (hr : get r.id t = .ok r) (hcurrent : get id t = .ok current) (now : DateTime)
    (state : ReleaseState) :
    get r.id (setState now id state t).2 = .ok (restatedObject now current state r) := by
  obtain ⟨hmem, rfl⟩ := (get_ok_iff h).mp hcurrent
  rcases setState_cases h now current.id state with ⟨current', hmem', hid, hset⟩ | ⟨hnone, -⟩
  · obtain rfl := h.eq_of_id hmem' hmem hid
    rw [hset, get_ok_iff (h.restated now current' state)]
    exact ⟨List.mem_map_of_mem ((get_ok_iff h).mp hr).1, restatedObject_id now current' state r⟩
  · exact absurd rfl (hnone current hmem)

end Runs

/-! ### The database of the model -/

/-- The time of a `datetime`, and of one without an offset as if it was in UTC. -/
def micros (t : Timestamp) : Int := t.clock.micros - t.offset.getD 0

def MetricObject.metric (m : MetricObject) : RequestMetric where
  requestId := m.requestId
  tenantId := m.tenantId
  routeId := m.routeId
  provider := m.provider
  success := m.success
  schemaValid := m.schemaValid
  cacheHit := m.cacheHit
  canary := m.canary
  releaseId := m.releaseId
  shadow := m.shadow
  inputTokens := m.inputTokens.toNat
  outputTokens := m.outputTokens.toNat
  costUsd := m.costUsd
  ttftMs := m.ttftMs
  latencyMs := m.latencyMs
  routingRegret := m.routingRegret
  fallbackCount := m.fallbackCount.toNat
  errorCode := m.errorCode
  createdAt := micros m.createdAt

def ReleaseObject.release (r : ReleaseObject) : Release where
  id := r.id
  name := r.name
  baselineRouteId := r.baselineRouteId
  candidateRouteId := r.candidateRouteId
  canaryPercent := r.canaryPercent.toNat
  shadowPercent := r.shadowPercent.toNat
  state := r.state
  maxErrorRate := r.maxErrorRate
  maxP99LatencyMs := r.maxP99LatencyMs
  minSchemaCompliance := r.minSchemaCompliance
  minQualityScore := r.minQualityScore
  minCanarySamples := r.minCanarySamples.toNat
  createdAt := micros r.createdAt
  updatedAt := micros r.updatedAt

/-- The two tables hold what the database of the model has. -/
structure Refines (metricRows releaseRows : Table) (db : Database) : Prop where
  metrics : ∃ ms, Records metricRows ms ∧ db.requestMetrics = ms.map (·.metric)
  releases : ∃ rs, Holds releaseRows rs ∧ db.releases = rs.map (·.release)

theorem restated_release (now : DateTime) (current : ReleaseObject) (state : ReleaseState)
    (r : ReleaseObject) : (restatedObject now current state r).release =
      restated now.micros current.release state r.release := by
  have hnow : micros (.utc now) = now.micros := sub_zero _
  unfold restatedObject restated ReleaseObject.release
  dsimp only
  split_ifs <;> simp only [hnow]

section Refinement

variable {metricRows releaseRows : Table} {db : Database}

theorem Refines.recordMetric (h : Refines metricRows releaseRows db) {m : MetricObject}
    (hm : m.Within64) : ∃ metricRows', recordMetric m metricRows = .ok metricRows' ∧
      Refines metricRows' releaseRows (db.recordMetric m.metric) := by
  obtain ⟨ms, hrecords, hms⟩ := h.metrics
  obtain ⟨metricRows', hrecord, hrecords'⟩ := hrecords.record hm
  refine ⟨metricRows', hrecord, ⟨ms ++ [m], hrecords', ?_⟩, h.releases⟩
  rw [Database.recordMetric, hms, List.map_append]
  rfl

theorem Refines.metrics_eq (h : Refines metricRows releaseRows db)
    (releaseId routeId : Option String) (canary : Option Bool) {limit : Nat} (hlimit : Int64 limit) :
    ∃ found, Rows.metrics releaseId routeId canary limit metricRows = .ok found ∧
      found.map (·.metric) = db.metrics releaseId routeId canary limit := by
  obtain ⟨ms, hrecords, hms⟩ := h.metrics
  have hmatches : ∀ m : MetricObject, Database.metricMatches releaseId routeId canary m.metric =
      decide (m.Matches releaseId routeId canary) := by
    intro m
    rw [Bool.eq_iff_iff, decide_eq_true_iff]
    simp only [Database.metricMatches, Bool.and_eq_true, Option.all_eq_true, decide_eq_true_eq,
      and_assoc]
    exact and_congr_right fun _ => and_congr (forall₂_congr fun _ _ => eq_comm)
      (forall₂_congr fun _ _ => eq_comm)
  refine ⟨_, metrics_of_records hrecords releaseId routeId canary hlimit, ?_⟩
  have hfound : db.requestMetrics.reverse.filter (Database.metricMatches releaseId routeId canary) =
      (ms.reverse.filter fun m => m.Matches releaseId routeId canary).map (·.metric) := by
    rw [hms, ← List.map_reverse, List.filter_map]
    congr 1
    exact List.filter_congr fun m _ => hmatches m
  have hnonneg : ¬ (limit : Int) < 0 := not_lt.mpr (Int.natCast_nonneg limit)
  rw [Database.metrics, hfound, if_neg hnonneg, Int.toNat_natCast, List.map_take]

theorem keyed_release {rs : List ReleaseObject} (h : Holds releaseRows rs) :
    Database.Keyed (rs.map (·.release)) := by
  have hids : (rs.map (·.release)).map (·.id) = rs.map (·.id) := by
    rw [List.map_map]
    rfl
  rw [Database.Keyed, hids]
  exact h.2

theorem Refines.get_eq (h : Refines metricRows releaseRows db) {r : ReleaseObject} {id : String}
    (hget : get id releaseRows = .ok r) : db.getRelease id = .ok r.release := by
  obtain ⟨rs, hholds, hrs⟩ := h.releases
  obtain ⟨hr, rfl⟩ := (get_ok_iff hholds).mp hget
  refine Database.getRelease_eq (r := r.release) ?_ ?_
  · rw [hrs]
    exact keyed_release hholds
  · rw [hrs]
    exact List.mem_map_of_mem hr

theorem getRelease_missing {rs : List ReleaseObject} (hrs : db.releases = rs.map (·.release))
    {id : String} (hnone : ∀ r ∈ rs, r.id ≠ id) :
    db.getRelease id = .error (Database.releaseNotFound id) := by
  have hfind : db.releases.find? (·.id = id) = none := by
    rw [hrs, List.find?_eq_none, List.forall_mem_map]
    exact fun r hr hid => hnone r hr (of_decide_eq_true hid)
  rw [Database.getRelease, hfind]

theorem Refines.create (h : Refines metricRows releaseRows db) {r : ReleaseObject}
    (hr : r.Within64) :
    Refines metricRows (Rows.create r releaseRows).2 (db.createRelease r.release).2 := by
  obtain ⟨rs, hholds, hrs⟩ := h.releases
  rcases create_cases hholds r with ⟨⟨e, he⟩, hno⟩ | ⟨t', ht', hholds', -, hfresh⟩
  · obtain ⟨r', hr', hid⟩ : ∃ r' ∈ rs, r'.id = r.id := by
      by_contra hnone
      exact hno ⟨hr, fun r' hr' hid => hnone ⟨r', hr', hid⟩⟩
    have hmem : r'.release ∈ db.releases := by
      rw [hrs]
      exact List.mem_map_of_mem hr'
    obtain ⟨e', he'⟩ := Database.createRelease_taken (r := r.release) hmem hid
    rw [he, he']
    exact h
  · have hfresh' : ∀ r' ∈ db.releases, r'.id ≠ r.release.id := by
      rw [hrs, List.forall_mem_map]
      exact hfresh
    rw [ht', Database.createRelease_fresh hfresh']
    refine ⟨h.metrics, rs ++ [r], hholds', ?_⟩
    rw [List.map_append, hrs]
    rfl

theorem Refines.setState (h : Refines metricRows releaseRows db) (now : DateTime) (id : String)
    (state : ReleaseState) :
    Refines metricRows (Rows.setState now id state releaseRows).2
      (db.setState now.micros id state).2 := by
  obtain ⟨rs, hholds, hrs⟩ := h.releases
  rcases setState_cases hholds now id state with ⟨current, hcurrent, rfl, hset⟩ | ⟨hnone, hset⟩
  · have hget := h.get_eq ((get_ok_iff hholds).mpr ⟨hcurrent, rfl⟩)
    rw [hset, Database.setState_ok hget]
    refine ⟨h.metrics, _, hholds.restated now current state, ?_⟩
    simp only [hrs, List.map_map]
    exact List.map_congr_left fun r _ => (restated_release now current state r).symm
  · rw [hset, Database.setState_error (getRelease_missing hrs hnone)]
    exact h

end Refinement

/-- The metrics that a query finds are those that were recorded and meet its filters, field by
field, the newest first and no more than it asks for. A release is found as it was created, until
`set_state` changes its state and the time of its update. -/
theorem persistence_round_trip {ms : List MetricObject} (hms : ∀ m ∈ ms, m.Within64)
    (ws : List ReleaseWrite) :
    (∃ t, recordAll ms {} = .ok t ∧
      ∀ (releaseId routeId : Option String) (canary : Option Bool) (limit : Nat), Int64 limit →
        metrics releaseId routeId canary limit t =
          .ok ((ms.reverse.filter fun m => m.Matches releaseId routeId canary).take limit)) ∧
    (∀ r, (∃ t', create r (written ws) = (.ok r, t')) ↔
      r.Within64 ∧ ∀ r', get r.id (written ws) ≠ .ok r') ∧
    (∀ r t', create r (written ws) = (.ok r, t') → ∀ others, get r.id (createAll others t') = .ok r) ∧
    (∀ r current id, get r.id (written ws) = .ok r → get id (written ws) = .ok current →
      ∀ now state, get r.id (setState now id state (written ws)).2 =
        .ok (restatedObject now current state r)) ∧
    ∀ id e, get id (written ws) = .error e →
      ∀ now state, (setState now id state (written ws)).2 = written ws := by
  obtain ⟨rs, h⟩ := exists_holds ws
  refine ⟨?_, fun r => ?_, fun r t' hcreate others => ?_,
    fun r current id hr hcurrent now state => h.get_setState hr hcurrent now state,
    fun id e he now state => ?_⟩
  · have hempty : Records {} [] := ⟨[], rfl, rfl, .nil, by simp⟩
    obtain ⟨t, hall, hrecords⟩ := hempty.recordAll hms
    refine ⟨t, hall, fun releaseId routeId canary limit hlimit => ?_⟩
    rw [metrics_of_records hrecords releaseId routeId canary hlimit]
    simp
  · -- Only a row under the same identifier is in the way.
    have hfresh : (∀ r' ∈ rs, r'.id ≠ r.id) ↔ ∀ r', get r.id (written ws) ≠ .ok r' := by
      simp only [ne_eq, get_ok_iff h, not_and]
    rw [← hfresh]
    rcases create_cases h r with ⟨⟨e, he⟩, hno⟩ | ⟨t', ht', -, hyes⟩
    · refine iff_of_false ?_ hno
      rintro ⟨t', ht'⟩
      rw [he] at ht'
      cases ht'
    · exact iff_of_true ⟨t', ht'⟩ hyes
  · rcases create_cases h r with ⟨⟨e, he⟩, -⟩ | ⟨t₁, ht₁, h₁, -⟩
    · rw [he] at hcreate
      cases hcreate
    · rw [hcreate] at ht₁
      obtain rfl := (Prod.mk.inj ht₁).2
      exact h₁.get_createAll (List.mem_append_right _ (List.mem_singleton_self r)) others
  · rcases setState_cases h now id state with ⟨current, hcurrent, hid, -⟩ | ⟨-, hset⟩
    · rw [(get_ok_iff h).mpr ⟨hcurrent, hid⟩] at he
      cases he
    · rw [hset]

def newYear : DateTime where
  year := 2026
  month := 1
  day := 1
  hour := 0
  minute := 0
  second := 0
  microsecond := 500000
  date_valid := by decide
  hour_lt := by decide
  minute_lt := by decide
  second_lt := by decide
  microsecond_lt := by decide

def sampleMetric : MetricObject where
  requestId := "request-1"
  tenantId := "tenant"
  routeId := "primary"
  provider := "mock"
  success := true
  schemaValid := some false
  cacheHit := false
  canary := true
  releaseId := some "release-1"
  shadow := false
  inputTokens := 3
  outputTokens := 2
  costUsd := 1 / 4
  ttftMs := 10
  latencyMs := 20
  routingRegret := 0
  fallbackCount := 0
  errorCode := none
  createdAt := .utc newYear

def sampleRelease : ReleaseObject where
  id := "release-1"
  name := "default"
  baselineRouteId := "primary"
  candidateRouteId := "backup"
  canaryPercent := 5
  shadowPercent := 0
  state := .draft
  maxErrorRate := 1 / 20
  maxP99LatencyMs := 10000
  minSchemaCompliance := 99 / 100
  minQualityScore := 4 / 5
  minCanarySamples := 20
  createdAt := .utc newYear
  updatedAt := .utc newYear
  valid := by norm_num

theorem persistence_round_trip_sample :
    (∃ t, recordAll [sampleMetric, { sampleMetric with canary := false }] {} = .ok t ∧
      metrics (some "release-1") none (some true) 10 t = .ok [sampleMetric]) ∧
    ∃ t, create sampleRelease {} = (.ok sampleRelease, t) ∧ get "release-1" t = .ok sampleRelease := by
  have hms : ∀ m ∈ [sampleMetric, { sampleMetric with canary := false }], m.Within64 := by
    intro m hm
    have hsample : sampleMetric.Within64 := ⟨by decide, by decide, by decide⟩
    rcases List.mem_pair.mp hm with rfl | rfl
    · exact hsample
    · exact ⟨hsample.inputTokens, hsample.outputTokens, hsample.fallbackCount⟩
  obtain ⟨⟨t, hall, hmetrics⟩, haccepted, hget, -⟩ := persistence_round_trip hms []
  have hsamples : sampleRelease.Within64 := ⟨by decide, by decide⟩
  obtain ⟨t', ht'⟩ := (haccepted sampleRelease).mpr ⟨hsamples, fun r' hr' => by cases hr'⟩
  exact ⟨⟨t, hall, hmetrics (some "release-1") none (some true) 10 (by decide)⟩, t', ht',
    hget sampleRelease t' ht' []⟩

end AegisGateway.Rows
