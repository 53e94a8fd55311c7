import AegisGateway.Latest
import AegisGateway.Persistence

/-!
# Stored evaluation runs

`put_evaluation` and `list_evaluations` of `control/registry.py`. A run is stored as the
JSON text of its model, and a row is read back from that text alone.
-/

open Tables Calendar

namespace AegisGateway.Rows

/-- What pydantic is relied on for: the text that `model_dump_json` writes of each of these runs is
read back by `model_validate_json`. -/
def ReadBack (dump : EvaluationRun → String) (validate : String → Except PyExc EvaluationRun)
    (runs : List EvaluationRun) : Prop :=
  ∀ run ∈ runs, validate (dump run) = .ok run

/-! ## The table -/

def evaluationColumns : List Column :=
  [⟨"id", .text, .primaryKey⟩,
    ⟨"dataset_name", .text, .notNull⟩,
    ⟨"dataset_version", .text, .notNull⟩,
    ⟨"route_id", .text, .notNull⟩,
    ⟨"run_json", .text, .notNull⟩,
    ⟨"created_at", .text, .notNull⟩]

def evaluationNames : List String :=
  ["id", "dataset_name", "dataset_version", "route_id", "run_json", "created_at"]

def evaluationValues (dump : EvaluationRun → String) (run : EvaluationRun) : List Value :=
  [.text run.id, .text run.datasetName, .text run.datasetVersion, .text run.routeId,
    .text (dump run), .text (isoText run.createdAt)]

def putEvaluation (dump : EvaluationRun → String) (run : EvaluationRun) (t : Table) :
    Except PyExc Table :=
  (Tables.insert evaluationColumns evaluationNames (evaluationValues dump run) t).mapError raised

def evaluationFromRow (validate : String → Except PyExc EvaluationRun) (row : Row) :
    Except PyExc EvaluationRun := do
  let runJson ← readText (cell evaluationColumns row "run_json")
  validate runJson

def listEvaluations (validate : String → Except PyExc EvaluationRun) (limit : Int) (t : Table) :
    Except PyExc (List EvaluationRun) := do
  let rows ← (select evaluationColumns [] "created_at" [.integer limit] t).mapError raised
  rows.mapM (evaluationFromRow validate)

/-- The table holds these runs, each under an identifier of its own. -/
def HoldsRuns (dump : EvaluationRun → String) (t : Table) (runs : List EvaluationRun) : Prop :=
  t.rows = runs.map (evaluationValues dump) ∧ (runs.map (·.id)).Nodup

theorem evaluationNames_nodup : (evaluationColumns.map (·.name)).Nodup := by decide

section Evaluations

variable {dump : EvaluationRun → String} {validate : String → Except PyExc EvaluationRun} {t : Table}
  {runs : List EvaluationRun}

theorem cell_runId (run : EvaluationRun) :
    cell evaluationColumns (evaluationValues dump run) "id" = .text run.id :=
  @cell_at evaluationColumns (evaluationValues dump run) evaluationNames_nodup 0 _ _ rfl rfl

theorem cell_runJson (run : EvaluationRun) :
    cell evaluationColumns (evaluationValues dump run) "run_json" =
      .text (dump run) :=
  @cell_at evaluationColumns (evaluationValues dump run) evaluationNames_nodup 4 _ _ rfl rfl

theorem cell_runTime (run : EvaluationRun) :
    cell evaluationColumns (evaluationValues dump run) "created_at" =
      .text (isoText run.createdAt) :=
  @cell_at evaluationColumns (evaluationValues dump run) evaluationNames_nodup 5 _ _ rfl rfl

theorem takes_run (h : HoldsRuns dump t runs) (run : EvaluationRun) :
    (∀ p ∈ evaluationColumns.zip (evaluationValues dump run), Takes evaluationColumns t p.1 p.2) ↔
      run.id ∉ runs.map (·.id) := by
  have hothers : ∀ p ∈ evaluationColumns.tail.zip (evaluationValues dump run).tail,
      Takes evaluationColumns t p.1 p.2 := by
    simp [evaluationColumns, evaluationValues, Takes]
  have hsplit : (∀ p ∈ evaluationColumns.zip (evaluationValues dump run),
      Takes evaluationColumns t p.1 p.2) ↔
        Takes evaluationColumns t ⟨"id", .text, .primaryKey⟩ (.text run.id) ∧
          ∀ p ∈ evaluationColumns.tail.zip (evaluationValues dump run).tail,
            Takes evaluationColumns t p.1 p.2 := List.forall_mem_cons
  have hkey : Takes evaluationColumns t ⟨"id", .text, .primaryKey⟩ (.text run.id) ↔
      ∀ row ∈ t.rows, ¬ (cell evaluationColumns row "id").Same (.text run.id) := by
    simp [Takes]
  rw [hsplit, and_iff_left hothers, hkey, h.1, List.forall_mem_map]
  simp only [cell_runId, same_text, List.mem_map, not_exists, not_and]

theorem putEvaluation_cases (h : HoldsRuns dump t runs) (run : EvaluationRun) :
    (run.id ∈ runs.map (·.id) ∧ putEvaluation dump run t = .error (.other "IntegrityError")) ∨
      run.id ∉ runs.map (·.id) ∧
        ∃ t', putEvaluation dump run t = .ok t' ∧ HoldsRuns dump t' (runs ++ [run]) := by
  have hrow : newRow evaluationColumns evaluationNames (evaluationValues dump run) t =
      evaluationValues dump run := newRow_eq rfl (by decide) rfl
  have hbindable : ∀ v ∈ evaluationValues dump run, v.Bindable := by simp [evaluationValues]
  unfold putEvaluation Tables.insert
  dsimp only
  rw [hrow, bound_of_bindable hbindable]
  by_cases hid : run.id ∈ runs.map (·.id)
  · refine .inl ⟨hid, ?_⟩
    rw [if_neg fun htakes => (takes_run h run).mp htakes hid]
    rfl
  · refine .inr ⟨hid, _, by rw [if_pos ((takes_run h run).mpr hid)]; rfl, ?_, ?_⟩
    · rw [List.map_append, ← h.1]
      rfl
    · rw [List.map_append, List.nodup_append]
      refine ⟨h.2, List.nodup_singleton _, ?_⟩
      rintro id hid' _ hlast rfl
      obtain rfl : id = run.id := by simpa using hlast
      exact hid hid'

theorem text_le_iff {s s' : String} : (Value.text s).key ≤ (Value.text s').key ↔ s ≤ s' := by
  simp [Value.key, Prod.Lex.le_iff]

def newestRuns (runs : List EvaluationRun) : List EvaluationRun :=
  runs.insertionSort fun run run' => run'.createdAt ≤ run.createdAt

theorem descending_runs (htimes : ∀ run ∈ runs, Instant run.createdAt) :
    descending evaluationColumns "created_at" (runs.map (evaluationValues dump)) =
      (newestRuns runs).map (evaluationValues dump) := by
  unfold descending newestRuns
  refine (List.map_insertionSort _ _ _ _ fun run hrun run' hrun' => ?_).symm
  rw [cell_runTime, cell_runTime, text_le_iff, ← not_lt, ← not_lt,
    isoText_lt_iff (htimes run hrun) (htimes run' hrun')]

theorem mapM_evaluationValues (hread : ReadBack dump validate runs) :
    (runs.map (evaluationValues dump)).mapM (evaluationFromRow validate) = .ok runs := by
  induction runs with
  | nil => rfl
  | cons run runs ih =>
    obtain ⟨hrun, hruns⟩ := List.forall_mem_cons.mp hread
    have hrow : evaluationFromRow validate (evaluationValues dump run) = .ok run := by
      simp only [evaluationFromRow, cell_runJson, readText, bind, Except.bind, hrun]
    rw [List.map_cons, List.mapM_cons, hrow, ih hruns]
    rfl

theorem listEvaluations_of_holds (hread : ReadBack dump validate runs) (h : HoldsRuns dump t runs)
    (htimes : ∀ run ∈ runs, Instant run.createdAt) {limit : Nat} (hlimit : Int64 limit) :
    listEvaluations validate limit t = .ok ((newestRuns runs).take limit) := by
  have hnewest : ReadBack dump validate ((newestRuns runs).take limit) := fun run hrun =>
    hread run ((List.mem_insertionSort _).mp (List.mem_of_mem_take hrun))
  have hbindable : ∀ v ∈ [Value.integer limit], v.Bindable :=
    List.forall_mem_singleton.mpr hlimit
  have hall : (runs.map (evaluationValues dump)).filter
      (fun row => Meets evaluationColumns [] row) = runs.map (evaluationValues dump) :=
    List.filter_eq_self.mpr fun row _ => by simp [Meets]
  have hnonneg : ¬ (limit : Int) < 0 := not_lt.mpr (Int.natCast_nonneg limit)
  have hrows := mapM_evaluationValues hnewest
  unfold listEvaluations select
  simp only [List.zip_nil_left, List.map_nil, List.length_nil, List.getD_cons_zero, h.1, hall,
    descending_runs htimes, bound_of_bindable hbindable, limited, if_neg hnonneg, Int.toNat_natCast]
  rw [← List.map_take]
  exact hrows

/-! ## Runs of puts -/

/-- The table behind a call of `put_evaluation`, whether it has raised or not. -/
def tried (dump : EvaluationRun → String) (t : Table) (run : EvaluationRun) : Table :=
  (putEvaluation dump run t).toOption.getD t

def kept (runs : List EvaluationRun) (run : EvaluationRun) : List EvaluationRun :=
  if run.id ∈ runs.map (·.id) then runs else runs ++ [run]

theorem HoldsRuns.tried (h : HoldsRuns dump t runs) (run : EvaluationRun) :
    HoldsRuns dump (tried dump t run) (kept runs run) := by
  rcases putEvaluation_cases h run with ⟨hid, hput⟩ | ⟨hid, t', hput, h'⟩
  · rw [Rows.tried, hput, kept, if_pos hid]
    exact h
  · rw [Rows.tried, hput, kept, if_neg hid]
    exact h'

theorem HoldsRuns.foldl (h : HoldsRuns dump t runs) (puts : List EvaluationRun) :
    HoldsRuns dump (puts.foldl (Rows.tried dump) t) (puts.foldl kept runs) := by
  induction puts generalizing t runs with
  | nil => exact h
  | cons run puts ih => exact ih (h.tried run)

theorem kept_ids (runs : List EvaluationRun) (run : EvaluationRun) (id : String) :
    id ∈ (kept runs run).map (·.id) ↔ id ∈ runs.map (·.id) ∨ id = run.id := by
  unfold kept
  split_ifs with hid
  · refine (or_iff_left_of_imp ?_).symm
    rintro rfl
    exact hid
  · rw [List.map_append, List.mem_append]
    exact or_congr_right List.mem_singleton

theorem foldl_kept_ids (puts runs : List EvaluationRun) (id : String) :
    id ∈ (puts.foldl kept runs).map (·.id) ↔ id ∈ (runs ++ puts).map (·.id) := by
  induction puts generalizing runs with
  | nil => rw [List.foldl_nil, List.append_nil]
  | cons run puts ih =>
    rw [List.foldl_cons, ih, List.map_append, List.mem_append, kept_ids, or_assoc,
      List.map_append, List.mem_append, List.map_cons, List.mem_cons]

theorem kept_subset {runs : List EvaluationRun} {run run' : EvaluationRun}
    (h : run' ∈ kept runs run) : run' ∈ runs ∨ run' = run := by
  unfold kept at h
  split_ifs at h
  · exact .inl h
  · exact (List.mem_append.mp h).imp_right List.mem_singleton.mp

theorem foldl_kept_subset {puts runs : List EvaluationRun} {run : EvaluationRun}
    (h : run ∈ puts.foldl kept runs) : run ∈ runs ∨ run ∈ puts := by
  induction puts generalizing runs with
  | nil => exact .inl h
  | cons first puts ih =>
    rcases ih h with hrun | hrun
    · rcases kept_subset hrun with hrun | rfl
      · exact .inl hrun
      · exact .inr List.mem_cons_self
    · exact .inr (List.mem_cons_of_mem _ hrun)

end Evaluations

/-- The first run under each identifier is listed, as it was, the newest first and no more than the
limit. Another one under its identifier is refused, and takes the place of none. -/
theorem evaluations_listed {dump : EvaluationRun → String}
    {validate : String → Except PyExc EvaluationRun} {puts : List EvaluationRun}
    (hread : ReadBack dump validate puts) (htimes : ∀ run ∈ puts, Instant run.createdAt) :
    (∀ limit : Nat, Int64 limit →
      listEvaluations validate limit (puts.foldl (tried dump) {}) =
        .ok ((newestRuns (puts.foldl kept [])).take limit)) ∧
    ∀ run, if run.id ∈ puts.map (·.id) then
        putEvaluation dump run (puts.foldl (tried dump) {}) = .error (.other "IntegrityError")
      else ∃ t, putEvaluation dump run (puts.foldl (tried dump) {}) = .ok t := by
  have hempty : HoldsRuns dump {} [] := ⟨rfl, List.nodup_nil⟩
  have hholds := hempty.foldl puts
  have hputs : ∀ run ∈ puts.foldl kept [], run ∈ puts := fun run hrun =>
    (foldl_kept_subset hrun).resolve_left (List.not_mem_nil)
  refine ⟨fun limit hlimit => listEvaluations_of_holds (fun run hrun => hread run (hputs run hrun))
    hholds (fun run hrun => htimes run (hputs run hrun)) hlimit, fun run => ?_⟩
  have hids := foldl_kept_ids puts [] run.id
  rw [List.nil_append] at hids
  rcases putEvaluation_cases hholds run with ⟨hid, hput⟩ | ⟨hid, t, hput, -⟩
  · rw [if_pos (hids.mp hid)]
    exact hput
  · rw [if_neg (mt hids.mpr hid)]
    exact ⟨t, hput⟩

def sampleResult : EvaluationCaseResult where
  caseId := "greets"
  routeId := "primary"
  passed := true
  qualityScore := 1
  schemaValid := none
  latencyMs := 25 / 2
  costUsd := 0

def sampleRun (id : String) (createdAt : Int) : EvaluationRun where
  id
  datasetName := "greetings"
  datasetVersion := "1"
  routeId := "primary"
  results := [sampleResult]
  passRate := 1
  meanQuality := 1
  schemaCompliance := none
  p99LatencyMs := 25 / 2
  totalCostUsd := 0
  createdAt

def sampleText (id time : String) : String :=
  "\x7b\"id\":\"" ++ id ++ "\",\"dataset_name\":\"greetings\",\"dataset_version\":\"1\"," ++
    "\"route_id\":\"primary\",\"results\":[\x7b\"case_id\":\"greets\",\"route_id\":\"primary\"," ++
    "\"passed\":true,\"quality_score\":1.0,\"schema_valid\":null,\"latency_ms\":12.5," ++
    "\"cost_usd\":0.0,\"error\":null\x7d],\"pass_rate\":1.0,\"mean_quality\":1.0," ++
    "\"schema_compliance\":null,\"p99_latency_ms\":12.5,\"total_cost_usd\":0.0," ++
    "\"created_at\":\"1970-01-01T00:00:" ++ time ++ "Z\"\x7d"

def sampleTexts : List (EvaluationRun × String) :=
  [(sampleRun "run-1" 0, sampleText "run-1" "00"),
    (sampleRun "run-2" 1500000, sampleText "run-2" "01.500000"),
    (sampleRun "run-1" 3000000, sampleText "run-1" "03")]

def sampleDump (run : EvaluationRun) : String := (sampleTexts.lookup run).getD ""

def sampleValidate (text : String) : Except PyExc EvaluationRun :=
  match sampleTexts.find? (·.2 = text) with
  | some (run, _) => .ok run
  | none => .error .validationError

def sampleRuns : List EvaluationRun := sampleTexts.map (·.1)

theorem sampleRuns_times : ∀ run ∈ sampleRuns, Instant run.createdAt := by decide +kernel

theorem sampleRuns_readBack : ReadBack sampleDump sampleValidate sampleRuns := by
  unfold ReadBack
  decide +kernel

theorem evaluations_listed_sample :
    listEvaluations sampleValidate 2 (sampleRuns.foldl (tried sampleDump) {}) =
      .ok [sampleRun "run-2" 1500000, sampleRun "run-1" 0] := by
  have hnewest : (newestRuns (sampleRuns.foldl kept [])).take 2 =
      [sampleRun "run-2" 1500000, sampleRun "run-1" 0] := by decide +kernel
  rw [← hnewest]
  exact (evaluations_listed sampleRuns_readBack sampleRuns_times).1 2 (by decide)

end AegisGateway.Rows
