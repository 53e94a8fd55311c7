import AegisGateway.CacheIdentity
import AegisGateway.Lib.JsonEquality
import AegisGateway.Lib.Pool
import AegisGateway.System

/-!
# Immutable artifacts

`ArtifactRegistry` of `control/registry.py`, statement by statement. Between an insert that
collides and the read behind it any number of other tasks may run. The file of the database
carries out one statement after the other, an insert together with its commit.
-/

open Coroutine JsonText

namespace AegisGateway

namespace ArtifactRegistry

/-! ## The table -/

/-- `dict[str, Any]`: no key is there twice, at no depth. -/
abbrev Dict : Type := { fields : Object // Distinct (.obj fields) }

@[ext]
structure Key where
  kind : ArtifactKind
  name : String
  version : String
  deriving DecidableEq

/-- A row of `artifacts`, under its primary key. -/
structure Row where
  key : Key
  contentJson : String
  contentHash : String
  createdAt : Int

abbrev Table : Type := List Row

inductive Statement where
  | now
  | insert (row : Row)
  | select (kind : ArtifactKind) (name : String) (version : Option String)

/-- An insert is answered with `false` where Python sees an `IntegrityError`. -/
abbrev Statement.Ans : Statement → Type
  | .now => Int
  | .insert _ => Bool
  | .select _ _ _ => Option Row

instance (o : Statement) : Nonempty o.Ans :=
  match o with
  | .now => ⟨0⟩
  | .insert _ => ⟨true⟩
  | .select _ _ _ => ⟨none⟩

def Table.lookup (rows : Table) (key : Key) : Option Row := rows.find? (·.key = key)

/-- Without a version, the newest row of the name. -/
def Table.select (rows : Table) (kind : ArtifactKind) (name : String) :
    Option String → Option Row
  | some version => rows.lookup ⟨kind, name, version⟩
  | none =>
    Database.newestBy (·.createdAt) (rows.filter fun r => r.key.kind = kind ∧ r.key.name = name)

def exec (rows : Table) : (o : Statement) → Int → Option (o.Ans × Table)
  | .now, t => some (t, rows)
  | .insert row, _ =>
    match rows.lookup row.key with
    | some _ => some (false, rows)
    | none => some (true, rows ++ [row])
  | .select kind name version, _ => some (rows.select kind name version, rows)

/-! ## The methods -/

section

variable (P : Platform)

/-- `_artifact_from_row`. The model takes a dictionary as content only. -/
def artifactFromRow (row : Row) : Except PyExc Artifact := do
  match ← P.jsonLoads row.contentJson with
  | .obj content =>
    .ok
      { kind := row.key.kind
        name := row.key.name
        version := row.key.version
        content
        contentHash := row.contentHash
        createdAt := row.createdAt }
  | _ => .error invalidModel

def get (kind : ArtifactKind) (name : String) (version : Option String) :
    Prog Statement Statement.Ans PyExc Artifact :=
  .op (.select kind name version) fun
    | some row => Prog.ofExcept (artifactFromRow P row)
    | none => .throw (.aegis (.artifactNotFound (Database.artifactNotFound kind name version)))

def newRow (key : Key) (content : Object) (createdAt : Int) : Row :=
  let contentJson := Database.canonicalText P content
  { key, contentJson, contentHash := hexdigest (P.sha256 contentJson), createdAt }

def newArtifact (row : Row) (content : Object) : Artifact where
  kind := row.key.kind
  name := row.key.name
  version := row.key.version
  content
  contentHash := row.contentHash
  createdAt := row.createdAt

def put (key : Key) (content : Object) : Prog Statement Statement.Ans PyExc Artifact :=
  .op .now fun createdAt =>
    let row := newRow P key content createdAt
    .op (.insert row) fun
      | true => .pure (newArtifact row content)
      | false => do
        let existing ← get P key.kind key.name (some key.version)
        if existing.contentHash = row.contentHash then pure existing
        else
          .throw (.aegis (.registryConflict
            (Database.artifactConflict key.kind key.name key.version)))

inductive Call where
  | put (key : Key) (content : Dict)
  | get (kind : ArtifactKind) (name : String) (version : Option String)

def body : Call → Prog Statement Statement.Ans PyExc Artifact
  | .put key content => put P key content.1
  | .get kind name version => get P kind name version

def machine : Machine Statement Statement.Ans PyExc Artifact Table Int Call where
  body := body P
  exec := exec
  spawn _ := []
  drift _ _ := none

abbrev State : Type := Pool Statement Statement.Ans PyExc Artifact Table Call

def initial : State := .empty []

end

/-! ## What a statement does -/

theorem lookup_eq_some {rows : Table} {key : Key} {row : Row} (h : rows.lookup key = some row) :
    row ∈ rows ∧ row.key = key := by
  have hkey := List.find?_some h
  exact ⟨List.mem_of_find?_eq_some h, of_decide_eq_true hkey⟩

theorem lookup_eq_none {rows : Table} {key : Key} (h : rows.lookup key = none) :
    ∀ row ∈ rows, row.key ≠ key := by
  intro row hrow hkey
  exact List.find?_eq_none.mp h row hrow (decide_eq_true hkey)

theorem select_eq_some {rows : Table} {kind : ArtifactKind} {name : String}
    {version : Option String} {row : Row} (h : rows.select kind name version = some row) :
    row ∈ rows ∧ row.key.kind = kind ∧ row.key.name = name ∧
      ∀ v, version = some v → row.key.version = v := by
  cases version with
  | some v =>
    obtain ⟨hmem, hkey⟩ := lookup_eq_some h
    rw [hkey]
    exact ⟨hmem, rfl, rfl, fun _ => Option.some.inj⟩
  | none =>
    have hmem := List.mem_filter.mp (Database.newestBy_mem h)
    obtain ⟨hkind, hname⟩ := of_decide_eq_true hmem.2
    exact ⟨hmem.1, hkind, hname, nofun⟩

/-- Rows are never changed and never deleted. An insert adds one under a new key. -/
theorem exec_rows {rows rows' : Table} {o : Statement} {t : Int} {a : o.Ans}
    (h : exec rows o t = some (a, rows')) :
    rows' = rows ∨ ∃ row, (⟨o, a⟩ : Event Statement Statement.Ans) = ⟨.insert row, true⟩ ∧
      rows' = rows ++ [row] ∧ ∀ r ∈ rows, r.key ≠ row.key := by
  cases o with
  | now =>
    cases h
    exact .inl rfl
  | select kind name version =>
    cases h
    exact .inl rfl
  | insert row =>
    cases hrow : rows.lookup row.key with
    | some r =>
      simp only [exec, hrow] at h
      cases h
      exact .inl rfl
    | none =>
      simp only [exec, hrow] at h
      cases h
      exact .inr ⟨row, rfl, rfl, lookup_eq_none hrow⟩

/-! ## What a method does -/

section

variable {P : Platform}

/-- What `put` makes of the row that it reads behind a collision. -/
def compared (key : Key) (contentHash : String) : Except PyExc Artifact → Except PyExc Artifact
  | .ok existing =>
    if existing.contentHash = contentHash then .ok existing
    else
      .error (.aegis (.registryConflict
        (Database.artifactConflict key.kind key.name key.version)))
  | .error e => .error e

/-- What `get` makes of the row that it reads. -/
def fetched (P : Platform) (kind : ArtifactKind) (name : String) (version : Option String) :
    Option Row → Except PyExc Artifact
  | some row => artifactFromRow P row
  | none => .error (.aegis (.artifactNotFound (Database.artifactNotFound kind name version)))

theorem get_runs (kind : ArtifactKind) (name : String) (version : Option String) :
    (get P kind name version).AllRuns fun tr out =>
      ∃ a, tr = [⟨.select kind name version, a⟩] ∧ out = fetched P kind name version a := by
  rw [get, Prog.allRuns_op]
  intro a
  cases a with
  | some row => exact (Prog.allRuns_ofExcept _ _).mpr ⟨some row, rfl, rfl⟩
  | none => exact (Prog.allRuns_throw _ _).mpr ⟨none, rfl, rfl⟩

inductive PutRun (P : Platform) (key : Key) (content : Object) :
    Trace Statement Statement.Ans → Except PyExc Artifact → Prop
  | inserted (t : Int) :
    PutRun P key content [⟨.now, t⟩, ⟨.insert (newRow P key content t), true⟩]
      (.ok (newArtifact (newRow P key content t) content))
  | collided (t : Int) (r : Option Row) :
    PutRun P key content
      [⟨.now, t⟩, ⟨.insert (newRow P key content t), false⟩,
        ⟨.select key.kind key.name (some key.version), r⟩]
      (compared key (newRow P key content t).contentHash
        (fetched P key.kind key.name (some key.version) r))

theorem put_runs (key : Key) (content : Object) :
    (put P key content).AllRuns (PutRun P key content) := by
  rw [put, Prog.allRuns_op]
  intro t
  rw [Prog.allRuns_op]
  intro inserted
  cases inserted with
  | true => exact (Prog.allRuns_pure _ _).mpr (.inserted t)
  | false =>
    apply (Prog.allRuns_bind _ _ _).mpr
    apply (get_runs key.kind key.name (some key.version)).mono
    intro tr out h
    obtain ⟨r, rfl, rfl⟩ := h
    have hrun := @PutRun.collided P key content t r
    cases hf : fetched P key.kind key.name (some key.version) r with
    | error e =>
      rw [hf] at hrun
      exact hrun
    | ok existing =>
      rw [hf] at hrun
      rw [Prog.then_ok]
      split_ifs with heq
      · rw [compared, if_pos heq] at hrun
        exact (Prog.allRuns_pure _ _).mpr hrun
      · rw [compared, if_neg heq] at hrun
        exact (Prog.allRuns_throw _ _).mpr hrun

end

/-! ## What a run leaves behind -/

def Fact (rows : Table) : Event Statement Statement.Ans → Prop
  | ⟨.insert row, true⟩ => row ∈ rows
  | ⟨.insert row, false⟩ => ∃ r ∈ rows, r.key = row.key
  | ⟨.select kind name version, some row⟩ =>
    row ∈ rows ∧ row.key.kind = kind ∧ row.key.name = name ∧
      ∀ v, version = some v → row.key.version = v
  | _ => True

/-- The event is none that a table with the key admits of. -/
def Respects (key : Key) : Event Statement Statement.Ans → Prop
  | ⟨.insert row, true⟩ => row.key ≠ key
  | ⟨.select kind name (some version), none⟩ => (⟨kind, name, version⟩ : Key) ≠ key
  | _ => True

theorem Fact.mono {rows rows' : Table} {e : Event Statement Statement.Ans} (h : Fact rows e)
    (hrows : rows <+: rows') : Fact rows' e := by
  obtain ⟨o, a⟩ := e
  cases o with
  | now => trivial
  | insert row =>
    cases a with
    | true => exact hrows.subset h
    | false =>
      obtain ⟨r, hr, hkey⟩ := h
      exact ⟨r, hrows.subset hr, hkey⟩
  | select kind name version =>
    cases a with
    | none => trivial
    | some row => exact ⟨hrows.subset h.1, h.2⟩

section

variable {rows rows' : Table} {o : Statement} {t : Int} {a : o.Ans}

theorem exec_grows (h : exec rows o t = some (a, rows')) : rows <+: rows' := by
  rcases exec_rows h with rfl | ⟨row, -, rfl, -⟩
  · exact List.prefix_rfl
  · exact List.prefix_append _ _

theorem exec_fact (h : exec rows o t = some (a, rows')) : Fact rows' ⟨o, a⟩ := by
  cases o with
  | now => trivial
  | select kind name version =>
    cases h
    cases hrow : rows.select kind name version with
    | none => trivial
    | some row => exact select_eq_some hrow
  | insert row =>
    cases hrow : rows.lookup row.key with
    | some r =>
      simp only [exec, hrow] at h
      cases h
      exact ⟨r, lookup_eq_some hrow⟩
    | none =>
      simp only [exec, hrow] at h
      cases h
      exact List.mem_append_right _ List.mem_cons_self

theorem exec_respects {row : Row} (hrow : row ∈ rows) (h : exec rows o t = some (a, rows')) :
    Respects row.key ⟨o, a⟩ := by
  cases o with
  | now => trivial
  | select kind name version =>
    cases h
    cases version with
    | none => cases rows.select kind name none <;> trivial
    | some version =>
      cases hnone : rows.lookup ⟨kind, name, version⟩ with
      | some r => simp only [Table.select, hnone, Respects]
      | none =>
        simp only [Table.select, hnone, Respects]
        exact (lookup_eq_none hnone row hrow).symm
  | insert row' =>
    cases hlookup : rows.lookup row'.key with
    | some r =>
      simp only [exec, hlookup] at h
      cases h
      trivial
    | none =>
      simp only [exec, hlookup] at h
      cases h
      exact (lookup_eq_none hlookup row hrow).symm

end

section

variable {P : Platform} {c c' : State}

theorem step_world {m : Move Int Call} (h : (machine P).step? c m = some c') :
    c.world <+: c'.world := by
  cases m with
  | start call => cases h; exact List.prefix_rfl
  | drift t => cases h
  | run i t =>
    obtain ⟨call, o, k, a, rows, -, hexec, rfl⟩ := Machine.step_run h
    exact exec_grows hexec

theorem reachable_world (h : (machine P).Reachable c c') : c.world <+: c'.world := by
  induction h with
  | start => exact List.prefix_rfl
  | next _ _ hs ih => exact ih.trans (step_world hs)

/-- Two events in their order: the second one knows of the key of the first. -/
def Ordered (p q : Nat × Event Statement Statement.Ans) : Prop :=
  ∀ row b, p.2 = ⟨.insert row, b⟩ → Respects row.key q.2

structure Consistent (c : State) : Prop where
  facts : ∀ p ∈ c.log, Fact c.world p.2
  order : c.log.Pairwise Ordered

theorem consistent_step {m : Move Int Call} (hc : Consistent c)
    (h : (machine P).step? c m = some c') : Consistent c' := by
  cases m with
  | start call =>
    cases h
    exact ⟨hc.facts, hc.order⟩
  | drift t => cases h
  | run i t =>
    obtain ⟨call, o, k, a, rows, -, hexec, rfl⟩ := Machine.step_run h
    constructor
    · intro p hp
      rcases List.mem_append.mp hp with hp | hp
      · exact (hc.facts p hp).mono (exec_grows hexec)
      · obtain rfl := List.mem_singleton.mp hp
        exact exec_fact hexec
    · refine List.pairwise_append.mpr ⟨hc.order, List.pairwise_singleton _ _, ?_⟩
      intro p hp q hq row b he
      obtain rfl := List.mem_singleton.mp hq
      -- The insert has left a row under its key, whoever has written it.
      have hfact := hc.facts p hp
      rw [he] at hfact
      cases b with
      | true => exact exec_respects hfact hexec
      | false =>
        obtain ⟨r, hr, hkey⟩ := hfact
        rw [← hkey]
        exact exec_respects hr hexec

theorem consistent (h : (machine P).Reachable initial c) : Consistent c :=
  h.invariant _ ⟨nofun, List.Pairwise.nil⟩ fun _ _ _ _ hc _ hs => consistent_step hc hs

theorem trace_ordered (h : (machine P).Reachable initial c) (i : Nat) :
    (c.trace i).Pairwise fun e e' => ∀ row b, e = ⟨.insert row, b⟩ → Respects row.key e' :=
  List.pairwise_map.mpr ((consistent h).order.filter _)

theorem trace_fact (h : (machine P).Reachable initial c) {i : Nat}
    {e : Event Statement Statement.Ans} (he : e ∈ c.trace i) : Fact c.world e :=
  (consistent h).facts _ (Pool.mem_trace.mp he)

theorem later_respects {row : Row} (hrow : row ∈ c.world) (h : (machine P).Reachable c c') (i : Nat) :
    ∃ tr, c'.trace i = c.trace i ++ tr ∧ ∀ e ∈ tr, Respects row.key e := by
  induction h with
  | start => exact ⟨[], by simp, nofun⟩
  | @next c₁ c₂ m h _ hs ih =>
    obtain ⟨tr, htr, hall⟩ := ih
    cases m with
    | start call => cases hs; exact ⟨tr, htr, hall⟩
    | drift t => cases hs
    | run j t =>
      obtain ⟨call, o, k, a, rows, -, hexec, rfl⟩ := Machine.step_run hs
      refine ⟨tr ++ if j = i then [⟨o, a⟩] else [], ?_, fun e he => ?_⟩
      · rw [Machine.trace_snoc, htr, List.append_assoc]
      · rcases List.mem_append.mp he with he | he
        · exact hall e he
        · split_ifs at he
          · obtain rfl := List.mem_singleton.mp he
            exact exec_respects ((reachable_world h).subset hrow) hexec
          · cases he

end

/-! ## Rows and their contents -/

/-- What `put` writes for a dictionary. -/
def Holds (P : Platform) (row : Row) (content : Dict) : Prop :=
  ∃ createdAt, row = newRow P row.key content.1 createdAt

structure Sound (P : Platform) (rows : Table) : Prop where
  keys : (rows.map (·.key)).Nodup
  holds : ∀ row ∈ rows, ∃ content, Holds P row content

/-- The decoder of the platform reads what its encoder has written: it is the decoder of the
library, and `float` reads back what `repr` has written. -/
structure Decodes (P : Platform) (floatOf : List Char → PyFloat) : Prop where
  text : FloatText P.floatRepr
  reading : FloatReading P.floatRepr floatOf
  loads : ∀ s j, loads floatOf s = some j → P.jsonLoads s = .ok j

section

variable {P : Platform} {c : State}

theorem put_emits (key : Key) (content : Dict) :
    (put P key content.1).Emits fun e =>
      ∀ row b, e = ⟨.insert row, b⟩ → row.key = key ∧ Holds P row content := by
  apply (put_runs key content.1).mono
  intro tr out h e he row b heq
  cases h with
  | inserted t =>
    simp only [List.mem_cons, List.not_mem_nil, or_false] at he
    rcases he with rfl | rfl
    · cases heq
    · cases heq
      exact ⟨rfl, t, rfl⟩
  | collided t r =>
    simp only [List.mem_cons, List.not_mem_nil, or_false] at he
    rcases he with rfl | rfl | rfl
    · cases heq
    · cases heq
      exact ⟨rfl, t, rfl⟩
    · cases heq

theorem get_emits (kind : ArtifactKind) (name : String) (version : Option String) :
    (get P kind name version).Emits fun e => ∀ row b, e ≠ ⟨.insert row, b⟩ := by
  apply (get_runs kind name version).mono
  intro tr out h e he row b heq
  obtain ⟨a, rfl, -⟩ := h
  obtain rfl := List.mem_singleton.mp he
  cases heq

theorem sound (h : (machine P).Reachable initial c) : Sound P c.world := by
  have hempty : Sound P [] := ⟨List.nodup_nil, nofun⟩
  refine h.world_invariant (Sound P)
    (fun e => ∀ row b, e = ⟨.insert row, b⟩ → ∃ content, Holds P row content) hempty ?_ ?_ nofun
  · intro call
    cases call with
    | put key content =>
      exact (put_emits key content).mono fun tr h e he row b heq =>
        ⟨content, (h e he row b heq).2⟩
    | get kind name version =>
      exact (get_emits kind name version).mono fun tr h e he row b heq => absurd heq (h e he row b)
  · intro rows o t a rows' hsound hexec hφ
    rcases exec_rows hexec with rfl | ⟨row, he, rfl, hfresh⟩
    · exact hsound
    · constructor
      · have hnew : row.key ∉ rows.map (·.key) := by
          intro hkey
          obtain ⟨r, hr, hkey⟩ := List.mem_map.mp hkey
          exact hfresh r hr hkey
        rw [List.map_append, List.map_singleton, List.nodup_append_comm]
        exact List.nodup_cons.mpr ⟨hnew, hsound.keys⟩
      · intro r hr
        rcases List.mem_append.mp hr with hr | hr
        · exact hsound.holds r hr
        · obtain rfl := List.mem_singleton.mp hr
          exact hφ r true he

theorem Sound.unique {rows : Table} (h : Sound P rows) {r r' : Row} (hr : r ∈ rows)
    (hr' : r' ∈ rows) (hkey : r.key = r'.key) : r = r' :=
  List.inj_on_of_nodup_map h.keys hr hr' hkey

def artifactOf (row : Row) (content : Dict) : Artifact :=
  newArtifact row (Database.storedContent content.1)

theorem artifactFromRow_eq {floatOf : List Char → PyFloat} (hP : Decodes P floatOf) {row : Row}
    {content : Dict} (h : Holds P row content) :
    artifactFromRow P row = .ok (artifactOf row content) := by
  obtain ⟨t, ht⟩ := h
  have hread := loads_text hP.text hP.reading canonical_spaced content.2.sortKeys
  have hloads : P.jsonLoads row.contentJson = .ok (sortKeys (.obj content.1)) := by
    rw [ht]
    exact hP.loads _ _ hread
  rw [artifactFromRow, hloads]
  rfl

/-- Two dictionaries have the same hash exactly if they are equal. -/
theorem contentHash_eq_iff (hsha : Function.Injective P.sha256) (htext : FloatText P.floatRepr)
    {row row' : Row} {content content' : Dict} (h : Holds P row content)
    (h' : Holds P row' content') :
    row.contentHash = row'.contentHash ↔ same (.obj content.1) (.obj content'.1) = true := by
  obtain ⟨t, ht⟩ := h
  obtain ⟨t', ht'⟩ := h'
  have hsort : sortKeys (.obj content.1) = sortKeys (.obj content'.1) ↔
      row.contentHash = row'.contentHash := by
    rw [ht, ht']
    constructor
    · intro heq
      simp only [newRow, Database.canonicalText, dumps, heq]
    · intro heq
      exact dumps_inj htext ⟨[], rfl⟩ (hsha (hexdigest_inj heq))
  rw [same_iff_sortKeys content.2 content'.2, hsort]

variable {floatOf : List Char → PyFloat} {i : Nat} {key : Key} {content : Dict}
  {out : Except PyExc Artifact}

theorem compared_eq (hsha : Function.Injective P.sha256) (hP : Decodes P floatOf) {row : Row}
    {stored : Dict} {t : Int} (hstored : Holds P row stored) :
    compared key (newRow P key content.1 t).contentHash
        (fetched P key.kind key.name (some key.version) (some row)) =
      if same (.obj content.1) (.obj stored.1) = true then .ok (artifactOf row stored)
      else .error (.aegis (.registryConflict
        (Database.artifactConflict key.kind key.name key.version))) := by
  have hrow : Holds P (newRow P key content.1 t) content := ⟨t, rfl⟩
  rw [fetched, artifactFromRow_eq hP hstored, compared]
  exact if_congr (eq_comm.trans (contentHash_eq_iff hsha hP.text hrow hstored)) rfl rfl

theorem collided_row (h : (machine P).Reachable initial c) {t : Int} {row : Row}
    {r : Option Row} (htr : c.trace i = [⟨.now, t⟩, ⟨.insert row, false⟩,
      ⟨.select row.key.kind row.key.name (some row.key.version), r⟩]) :
    ∃ row' ∈ c.world, row'.key = row.key ∧ r = some row' := by
  cases r with
  | none =>
    have hordered := trace_ordered h i
    rw [htr] at hordered
    have hrespects := (List.pairwise_cons.mp (List.pairwise_cons.mp hordered).2).1
      _ List.mem_cons_self _ _ rfl
    exact absurd rfl hrespects
  | some row' =>
    have hmem : ⟨.select row.key.kind row.key.name (some row.key.version), some row'⟩ ∈
        c.trace i := by simp [htr]
    obtain ⟨hrow, hkind, hname, hversion⟩ := trace_fact h hmem
    exact ⟨row', hrow, Key.ext hkind hname (hversion _ rfl), rfl⟩

/-- A `put` has written the row of its key itself, or it has compared its content with it. -/
theorem put_outcome (hsha : Function.Injective P.sha256) (hP : Decodes P floatOf)
    (h : (machine P).Reachable initial c) (hout : c.Finished i (.put key content) out) :
    ∃ row ∈ c.world, ∃ stored, row.key = key ∧ Holds P row stored ∧
      ((⟨.insert row, true⟩ ∈ c.trace i ∧ stored = content ∧
          out = .ok (newArtifact row content.1)) ∨
        (∀ r, ⟨.insert r, true⟩ ∉ c.trace i) ∧
          out = if same (.obj content.1) (.obj stored.1) = true then .ok (artifactOf row stored)
            else .error (.aegis (.registryConflict
              (Database.artifactConflict key.kind key.name key.version)))) := by
  have hrun := (put_runs key content.1).run (h.finished hout)
  generalize htr : c.trace i = tr at hrun
  cases hrun with
  | inserted t =>
    have hmem : ⟨.insert (newRow P key content.1 t), true⟩ ∈ c.trace i := by simp [htr]
    exact ⟨_, trace_fact h hmem, content, rfl, ⟨t, rfl⟩,
      .inl ⟨by simp, rfl, rfl⟩⟩
  | collided t r =>
    obtain ⟨row, hrow, hkey, rfl⟩ := collided_row h htr
    obtain ⟨stored, hstored⟩ := (sound h).holds row hrow
    refine ⟨row, hrow, stored, hkey, hstored, .inr ⟨by simp, ?_⟩⟩
    exact compared_eq hsha hP hstored

theorem same_stored_iff {content stored : Dict} :
    same (.obj content.1) (.obj (Database.storedContent stored.1)) = true ↔
      same (.obj content.1) (.obj stored.1) = true := by
  have hsort : Json.obj (Database.storedContent stored.1) = sortKeys (.obj stored.1) := rfl
  rw [hsort, same_iff_sortKeys content.2 stored.2.sortKeys, sortKeys_sortKeys stored.2,
    same_iff_sortKeys content.2 stored.2]

theorem same_of_holds (hsha : Function.Injective P.sha256) (hP : Decodes P floatOf) {row : Row}
    {stored stored' : Dict} (h : Holds P row stored) (h' : Holds P row stored') :
    same (.obj content.1) (.obj stored.1) = true ↔ same (.obj content.1) (.obj stored'.1) = true := by
  have hnew : Holds P (newRow P row.key content.1 0) content := ⟨0, rfl⟩
  exact (contentHash_eq_iff hsha hP.text hnew h).symm.trans
    (contentHash_eq_iff hsha hP.text hnew h')

theorem put_ok (hsha : Function.Injective P.sha256) (hP : Decodes P floatOf)
    (h : (machine P).Reachable initial c) {a : Artifact}
    (hout : c.Finished i (.put key content) (.ok a)) :
    ∃ row ∈ c.world, ∃ stored, row.key = key ∧ Holds P row stored ∧
      a.contentHash = row.contentHash ∧ same (.obj content.1) (.obj stored.1) = true := by
  obtain ⟨row, hrow, stored, hkey, hstored, hcase⟩ := put_outcome hsha hP h hout
  refine ⟨row, hrow, stored, hkey, hstored, ?_⟩
  rcases hcase with ⟨-, rfl, ha⟩ | ⟨-, ha⟩
  · cases ha
    exact ⟨rfl, (same_iff_sortKeys stored.2 stored.2).mpr rfl⟩
  · split_ifs at ha with hsame
    cases ha
    exact ⟨rfl, hsame⟩

theorem get_ok (hP : Decodes P floatOf) (h : (machine P).Reachable initial c) {kind : ArtifactKind}
    {name : String} {version : Option String} {b : Artifact}
    (hout : c.Finished i (.get kind name version) (.ok b)) :
    ∃ row ∈ c.world, ∃ stored, row.key = ⟨kind, name, b.version⟩ ∧ Holds P row stored ∧
      b = artifactOf row stored := by
  obtain ⟨a, htr, hb⟩ := (get_runs kind name version).run (h.finished hout)
  cases a with
  | none => cases hb
  | some row =>
    have hmem : ⟨.select kind name version, some row⟩ ∈ c.trace i := by simp [htr]
    obtain ⟨hrow, hkind, hname, -⟩ := trace_fact h hmem
    obtain ⟨stored, hstored⟩ := (sound h).holds row hrow
    rw [fetched, artifactFromRow_eq hP hstored] at hb
    cases hb
    exact ⟨row, hrow, stored, Key.ext hkind hname rfl, hstored, rfl⟩

/-- A `get` that comes later finds the row. -/
theorem get_returns (hP : Decodes P floatOf) (h : (machine P).Reachable initial c) {row : Row}
    (hrow : row ∈ c.world) {c' : State} (h' : (machine P).Reachable c c') {j : Nat}
    (hj : c.trace j = []) {out : Except PyExc Artifact}
    (hout : c'.Finished j (.get row.key.kind row.key.name (some row.key.version)) out) :
    ∃ b, out = .ok b ∧ b.version = row.key.version := by
  have hreach := h.trans h'
  obtain ⟨a, htr, rfl⟩ := (get_runs _ _ _).run (hreach.finished hout)
  obtain ⟨tr, htr', hall⟩ := later_respects hrow h' j
  rw [hj, List.nil_append] at htr'
  cases a with
  | none =>
    have hrespects := hall ⟨.select _ _ _, none⟩ (by rw [← htr', htr]; exact List.mem_cons_self)
    exact absurd rfl hrespects
  | some row' =>
    have hmem : ⟨.select row.key.kind row.key.name (some row.key.version), some row'⟩ ∈
        c'.trace j := by
      rw [htr]
      exact List.mem_cons_self
    obtain ⟨hrow', -, -, hversion⟩ := trace_fact hreach hmem
    obtain ⟨stored, hstored⟩ := (sound hreach).holds row' hrow'
    exact ⟨_, artifactFromRow_eq hP hstored, hversion _ rfl⟩

/-- A `put` that finds its key taken compares. -/
theorem put_existing (hsha : Function.Injective P.sha256) (hP : Decodes P floatOf)
    (h : (machine P).Reachable initial c) {row : Row} {stored : Dict} (hrow : row ∈ c.world)
    (hstored : Holds P row stored) {c' : State} (h' : (machine P).Reachable c c')
    (hi : ∀ r b, ⟨.insert r, b⟩ ∉ c.trace i) (hout : c'.Finished i (.put row.key content) out) :
    out = if same (.obj content.1) (.obj stored.1) = true then .ok (artifactOf row stored)
      else .error (.aegis (.registryConflict
        (Database.artifactConflict row.key.kind row.key.name row.key.version))) := by
  have hreach := h.trans h'
  obtain ⟨row', hrow', stored', hkey, hstored', hcase⟩ := put_outcome hsha hP hreach hout
  obtain rfl := (sound hreach).unique hrow' ((reachable_world h').subset hrow) hkey
  rcases hcase with ⟨hinsert, -⟩ | ⟨-, ha⟩
  · obtain ⟨tr, htr, hall⟩ := later_respects hrow h' i
    rw [htr] at hinsert
    rcases List.mem_append.mp hinsert with hinsert | hinsert
    · exact absurd hinsert (hi _ _)
    · exact absurd rfl (hall _ hinsert)
  · have hread := (artifactFromRow_eq hP hstored').symm.trans (artifactFromRow_eq hP hstored)
    rw [ha, if_congr (same_of_holds hsha hP hstored' hstored) (congrArg _ (Except.ok.inj hread)) rfl]

/-- A `put` that finds its key taken leaves the table as it is. -/
theorem put_leaves (h : (machine P).Reachable initial c) {row : Row} (hrow : row ∈ c.world)
    {c' : State} {t : Int} {task : Task Statement Statement.Ans PyExc Artifact Call}
    (htask : c.tasks[i]? = some task) (hcall : task.call = .put row.key content)
    (hs : (machine P).step? c (.run i t) = some c') : c'.world = c.world := by
  obtain ⟨call, o, k, a, rows, ht, hexec, rfl⟩ := Machine.step_run hs
  rcases exec_rows hexec with hsame | ⟨row', he, -, hfresh⟩
  · exact hsame
  · -- An insert of it is one under its key.
    have hon := h.onTheWay.2 i _ htask
    rw [ht] at htask
    cases htask
    rw [hcall] at hon
    have hsteps := Prog.steps_snoc hon a
    have hemits := (put_emits row.key content).steps hsteps ⟨o, a⟩ (by simp)
    exact absurd (hemits row' true he).1.symm (hfresh row hrow)

/-! ## The registry as one step -/

def Represents (P : Platform) (rows : Table) (artifacts : List Artifact) : Prop :=
  List.Forall₂ (fun row a => artifactFromRow P row = .ok a) rows artifacts

theorem artifactFromRow_inv {row : Row} {a : Artifact} (h : artifactFromRow P row = .ok a) :
    ∃ content, a = newArtifact row content := by
  obtain ⟨j, -, h⟩ := bind_ok h
  cases j with
  | obj content =>
    cases h
    exact ⟨content, rfl⟩
  | _ => cases h

theorem filter_of_represents {rows : Table} {artifacts : List Artifact}
    (hrep : Represents P rows artifacts) (hkeys : (rows.map (·.key)).Nodup) (key : Key) :
    (artifacts.filter fun a =>
        a.kind = key.kind ∧ a.name = key.name ∧ (some key.version).all (· = a.version)) =
      ((rows.lookup key).bind fun row => (artifactFromRow P row).toOption).toList := by
  induction hrep with
  | nil => rfl
  | @cons row a rows artifacts hrow hrep ih =>
    obtain ⟨hnew, hkeys⟩ := List.nodup_cons.mp hkeys
    obtain ⟨content, rfl⟩ := artifactFromRow_inv hrow
    by_cases hkey : row.key = key
    · have hnone : Table.lookup rows key = none := by
        refine List.find?_eq_none.mpr fun r hr hrkey => hnew (List.mem_map.mpr ⟨r, hr, ?_⟩)
        exact (of_decide_eq_true hrkey).trans hkey.symm
      have hsome : Table.lookup (row :: rows) key = some row := by simp [Table.lookup, hkey]
      rw [List.filter_cons_of_pos (by simp [newArtifact, hkey]), ih hkeys, hnone, hsome,
        Option.bind_some, hrow]
      rfl
    · have hskip : Table.lookup (row :: rows) key = Table.lookup rows key := by
        simp [Table.lookup, hkey]
      have hother : ¬ (row.key.kind = key.kind ∧ row.key.name = key.name ∧
          row.key.version = key.version) := fun ⟨hk, hn, hv⟩ => hkey (Key.ext hk hn hv)
      rw [List.filter_cons_of_neg (by simp [newArtifact]; grind), ih hkeys, hskip]

theorem getArtifact_of_none {rows : Table} {db : Database} (hrep : Represents P rows db.artifacts)
    (hkeys : (rows.map (·.key)).Nodup) (hnone : rows.lookup key = none) :
    db.getArtifact key.kind key.name (some key.version) =
      .error (Database.artifactNotFound key.kind key.name (some key.version)) := by
  simp only [Database.getArtifact, filter_of_represents hrep hkeys key, hnone]
  rfl

theorem getArtifact_of_some {rows : Table} {db : Database} (hrep : Represents P rows db.artifacts)
    (hkeys : (rows.map (·.key)).Nodup) {row : Row} (hsome : rows.lookup key = some row)
    {a : Artifact} (ha : artifactFromRow P row = .ok a) :
    db.getArtifact key.kind key.name (some key.version) = .ok a := by
  simp only [Database.getArtifact, filter_of_represents hrep hkeys key, hsome, Option.bind_some, ha]
  rfl

theorem putArtifact_of_some {db : Database} {now : Int} {kind : ArtifactKind}
    {name version : String} {content : Object} {a : Artifact}
    (h : db.getArtifact kind name (some version) = .ok a) :
    db.putArtifact P now kind name version content =
      if a.contentHash = hexdigest (P.sha256 (Database.canonicalText P content)) then (.ok a, db)
      else (.error (.registryConflict (Database.artifactConflict kind name version)), db) := by
  simp only [Database.putArtifact, h]

/-- What the registry does in one step, an insert does to the table, and the comparison behind a
collision gives its answer. -/
theorem insert_atomic (hP : Decodes P floatOf) {rows rows' : Table} (hsound : Sound P rows)
    {now t : Int} {b : Bool}
    (hexec : exec rows (.insert (newRow P key content.1 now)) t = some (b, rows')) {db : Database}
    (hrep : Represents P rows db.artifacts) {r : Except AegisError Artifact × Database}
    (hr : db.putArtifact P now key.kind key.name key.version content.1 = r) :
    Represents P rows' r.2.artifacts ∧
      (b = true → r.1 = .ok (newArtifact (newRow P key content.1 now) content.1)) ∧
      (b = false → ∃ row ∈ rows, row.key = key ∧ r.1.mapError .aegis =
        compared key (newRow P key content.1 now).contentHash (artifactFromRow P row)) := by
  subst hr
  cases hlookup : rows.lookup key with
  | none =>
    have hget := getArtifact_of_none hrep hsound.keys hlookup
    have hlookup' : rows.lookup (newRow P key content.1 now).key = none := hlookup
    simp only [exec, hlookup', Option.some.injEq, Prod.mk.injEq] at hexec
    obtain ⟨rfl, rfl⟩ := hexec
    have hnew : Holds P (newRow P key content.1 now) content := ⟨now, rfl⟩
    simp only [Database.putArtifact, hget]
    refine ⟨List.rel_append hrep (.cons (artifactFromRow_eq hP hnew) .nil), fun _ => rfl, nofun⟩
  | some row =>
    obtain ⟨hrow, hkey⟩ := lookup_eq_some hlookup
    obtain ⟨stored, hstored⟩ := hsound.holds row hrow
    have ha := artifactFromRow_eq hP hstored
    have hget := getArtifact_of_some hrep hsound.keys hlookup ha
    have hlookup' : rows.lookup (newRow P key content.1 now).key = some row := hlookup
    simp only [exec, hlookup', Option.some.injEq, Prod.mk.injEq] at hexec
    obtain ⟨rfl, rfl⟩ := hexec
    rw [putArtifact_of_some hget]
    refine ⟨by split_ifs <;> exact hrep, nofun, fun _ => ⟨row, hrow, hkey, ?_⟩⟩
    rw [ha, compared]
    -- Only the hashes are compared, on both sides.
    by_cases heq : (artifactOf row stored).contentHash = (newRow P key content.1 now).contentHash
    · have heq' : (artifactOf row stored).contentHash =
          hexdigest (P.sha256 (Database.canonicalText P content.1)) := heq
      rw [if_pos heq, if_pos heq']
      rfl
    · have hne : ¬ (artifactOf row stored).contentHash =
          hexdigest (P.sha256 (Database.canonicalText P content.1)) := heq
      rw [if_neg heq, if_neg hne]
      rfl

/-- A `put` is one step of the registry, the one with which it tries to insert its row. -/
theorem put_atomic (hP : Decodes P floatOf) (h : (machine P).Reachable initial c)
    (hout : c.Finished i (.put key content) out) :
    ∃ c₁ t c₂, (machine P).Reachable initial c₁ ∧ (machine P).step? c₁ (.run i t) = some c₂ ∧
      (machine P).Reachable c₂ c ∧ ∃ now, ∀ db : Database, Represents P c₁.world db.artifacts →
        out = (db.putArtifact P now key.kind key.name key.version content.1).1.mapError .aegis ∧
        Represents P c₂.world
          (db.putArtifact P now key.kind key.name key.version content.1).2.artifacts := by
  have hrun := (put_runs key content.1).run (h.finished hout)
  obtain ⟨now, b, hmem, hinserted, hcollided⟩ : ∃ now b,
      ⟨.insert (newRow P key content.1 now), b⟩ ∈ c.trace i ∧
      (b = true → out = .ok (newArtifact (newRow P key content.1 now) content.1)) ∧
      (b = false → ∃ row ∈ c.world, row.key = key ∧
        out = compared key (newRow P key content.1 now).contentHash (artifactFromRow P row)) := by
    generalize htr : c.trace i = tr at hrun
    cases hrun with
    | inserted now => exact ⟨now, true, by simp, fun _ => rfl, nofun⟩
    | collided now r =>
      obtain ⟨row, hrow, hkey, rfl⟩ := collided_row h htr
      exact ⟨now, false, by simp, nofun, fun _ => ⟨row, hrow, hkey, rfl⟩⟩
  obtain ⟨pre, post, hlog⟩ := List.append_of_mem (Pool.mem_trace.mp hmem)
  obtain ⟨c₁, t, c₂, h₁, rfl, -, hs, hlog₂, h₂⟩ := h.at hlog (by simp [initial, Pool.empty])
  refine ⟨c₁, t, c₂, h₁, hs, h₂, now, fun db hrep => ?_⟩
  obtain ⟨call, o, k, a, rows, -, hexec, rfl⟩ := Machine.step_run hs
  cases List.append_cancel_left hlog₂
  have hexec : exec c₁.world (.insert (newRow P key content.1 now)) t = some (b, rows) := hexec
  obtain ⟨hrep', htrue, hfalse⟩ := insert_atomic hP (sound h₁) hexec hrep rfl
  refine ⟨?_, hrep'⟩
  cases b with
  | true => rw [hinserted rfl, htrue rfl, Except.mapError]
  | false =>
    -- The row that the insert has met is the one that the read has found.
    obtain ⟨row, hrow, hkey, hout⟩ := hcollided rfl
    obtain ⟨row', hrow', hkey', hanswer⟩ := hfalse rfl
    have hlater := (reachable_world h₂).subset ((step_world hs).subset hrow')
    obtain rfl := (sound h).unique hrow hlater (hkey.trans hkey'.symm)
    rw [hout, hanswer]

/-- A key has one value for ever, and whoever puts or gets it agrees on that. -/
theorem artifacts_agree (hsha : Function.Injective P.sha256) (hP : Decodes P floatOf)
    (h : (machine P).Reachable initial c) :
    (∀ r ∈ c.world, ∀ r' ∈ c.world, r.key = r'.key → r = r') ∧
    (∀ c', (machine P).Reachable c c' → ∀ r ∈ c.world, r ∈ c'.world) ∧
    (∀ i key content a, c.Finished i (.put key content) (.ok a) →
      ∃ row ∈ c.world, row.key = key ∧ a.contentHash = row.contentHash ∧
        ∀ c', (machine P).Reachable c c' →
          (∀ j version b, c'.Finished j (.get key.kind key.name version) (.ok b) →
            b.version = key.version → same (.obj content.1) (.obj b.content) = true) ∧
          ∀ j out, c.trace j = [] →
            c'.Finished j (.get key.kind key.name (some key.version)) out →
              ∃ b, out = .ok b ∧ b.version = key.version) ∧
    ∀ row ∈ c.world, ∃ stored, artifactFromRow P row = .ok stored ∧ ∀ i content,
      (∀ c', (machine P).Reachable c c' → (∀ r b, ⟨.insert r, b⟩ ∉ c.trace i) → ∀ out,
        c'.Finished i (.put row.key content) out →
          ((∃ a, out = .ok a) ↔ same (.obj content.1) (.obj stored.content) = true) ∧
          (¬ same (.obj content.1) (.obj stored.content) = true →
            out = .error (.aegis (.registryConflict
              (Database.artifactConflict row.key.kind row.key.name row.key.version))))) ∧
      ∀ task t c', c.tasks[i]? = some task → task.call = .put row.key content →
        (machine P).step? c (.run i t) = some c' → c'.world = c.world := by
  refine ⟨fun r hr r' hr' => (sound h).unique hr hr', fun c' h' r hr => (reachable_world h').subset hr,
    fun i key content a hout => ?_, fun row hrow => ?_⟩
  · obtain ⟨row, hrow, stored, rfl, hstored, hhash, hsame⟩ := put_ok hsha hP h hout
    refine ⟨row, hrow, rfl, hhash, fun c' h' => ⟨fun j version b hb hversion => ?_, ?_⟩⟩
    · obtain ⟨row', hrow', stored', hkey, hstored', rfl⟩ := get_ok hP (h.trans h') hb
      have hrow := (reachable_world h').subset hrow
      obtain rfl := (sound (h.trans h')).unique hrow' hrow (hkey.trans (Key.ext rfl rfl hversion))
      exact same_stored_iff.mpr ((same_of_holds hsha hP hstored hstored').mp hsame)
    · exact fun j out hj hout => get_returns hP h hrow h' hj hout
  · obtain ⟨stored, hstored⟩ := (sound h).holds row hrow
    refine ⟨_, artifactFromRow_eq hP hstored, fun i content => ⟨fun c' h' hi out hout => ?_,
      fun task t c' htask hcall hs => put_leaves h hrow htask hcall hs⟩⟩
    -- The key is taken, so the put has compared its content with the row.
    obtain rfl := put_existing hsha hP h hrow hstored h' hi hout
    have hsame : same (.obj content.1) (.obj (artifactOf row stored).content) = true ↔
        same (.obj content.1) (.obj stored.1) = true := same_stored_iff
    rw [hsame]
    split_ifs with heq
    · exact ⟨⟨fun _ => heq, fun _ => ⟨_, rfl⟩⟩, fun hne => absurd heq hne⟩
    · exact ⟨⟨fun ⟨a, ha⟩ => (by cases ha), fun h => absurd h heq⟩, fun _ => rfl⟩

end

def ratOf (cs : List Char) : ℚ :=
  readInt (cs.takeWhile (· ≠ '.')) / (readNat ((cs.dropWhile (· ≠ '.')).drop 1) + 1)

def floatOf (cs : List Char) : PyFloat :=
  if cs = ['-', '0', '.', '0'] then .negZero else .exact (ratOf cs)

def decodingPlatform : Platform :=
  { Sample.platform with
    jsonLoads := fun s => (loads floatOf s).elim (.error .jsonDecodeError) .ok }

theorem intText_noPoint (n : Int) : ∀ c ∈ intText n, decide (c ≠ '.') = true := by
  intro c hc
  apply decide_eq_true
  rintro rfl
  exact Sample.point_notMem_intText n hc

theorem ratOf_ratText (x : ℚ) : ratOf (Sample.ratText x) = x := by
  have hden : ((x.den - 1 : ℕ) : ℚ) + 1 = x.den := by
    rw [Nat.cast_sub x.den_pos]
    simp
  rw [ratOf, Sample.ratText, List.takeWhile_append_of_pos (intText_noPoint x.num),
    List.dropWhile_append_of_pos (intText_noPoint x.num)]
  simp only [ne_eq, not_true_eq_false, decide_false, Bool.false_eq_true, not_false_eq_true,
    List.takeWhile_cons_of_neg, List.append_nil, List.dropWhile_cons_of_neg, List.drop_succ_cons,
    List.drop_zero, readInt_intText, readNat_natText, hden, Rat.num_div_den]

theorem scanNumeral_ratText (x : ℚ) :
    scanNumeral (Sample.ratText x) = some ((Sample.ratText x, true), []) := by
  have hpoint : NoDigit ('.' :: natText (x.den - 1)) := by
    intro c hc
    cases hc
    rfl
  have hwhole := scanSigned_append hpoint (scanSigned_intText x.num)
  have hdigits := natText_digits (x.den - 1)
  have hfraction : scanFraction ('.' :: natText (x.den - 1)) =
      ('.' :: natText (x.den - 1), []) := by
    simp only [scanFraction, List.takeWhile_eq_self_iff.mpr hdigits,
      List.dropWhile_eq_nil_iff.mpr hdigits, if_neg (natText_ne_nil _)]
  rw [List.nil_append] at hwhole
  simp [Sample.ratText, scanNumeral, hwhole, hfraction, scanExponent]

theorem floatReading : FloatReading decodingPlatform.floatRepr floatOf where
  numeral := by
    rintro (x | _ | _ | _) hx
    · exact scanNumeral_ratText x
    · rfl
    · cases hx
    · cases hx
  floatOf := by
    rintro (x | _ | _ | _) hx
    · exact (if_neg (Sample.ratText_ne_negZero x)).trans (congrArg _ (ratOf_ratText x))
    · rfl
    · cases hx
    · cases hx

theorem decodingPlatform_decodes : Decodes decodingPlatform floatOf where
  text := Sample.floatText
  reading := floatReading
  loads s j h := by simp [decodingPlatform, h]

def greetingKey : Key := ⟨.prompt, "greeting", "1"⟩

def greeting (zero : PyFloat) (h : zero.isFinite = true) : Dict :=
  ⟨[("template", .str "hello"), ("bias", .float zero)],
    .obj (by simp) (List.forall_mem_cons.mpr ⟨.str "hello",
      List.forall_mem_singleton.mpr (.float zero h)⟩)⟩

def turned : Dict :=
  ⟨[("bias", .float (.exact 0)), ("template", .str "hello")],
    .obj (by simp) (List.forall_mem_cons.mpr ⟨.float _ rfl,
      List.forall_mem_singleton.mpr (.str "hello")⟩)⟩

def putting : List Call :=
  [.put greetingKey (greeting (.exact 0) rfl), .put greetingKey turned,
    .put greetingKey (greeting .negZero rfl), .get .prompt "greeting" (some "1")]

/-- Two greetings are under way before one of them is inserted. -/
def equalMoves : List (Move Int Call) := [.run 0 1, .run 1 2, .run 1 3, .run 0 4, .run 0 4]

def laterMoves : List (Move Int Call) := [.run 2 5, .run 2 6, .run 2 6, .run 3 7]

def verdict {α : Type} : Prog Statement Statement.Ans PyExc α → Option Bool
  | .pure _ => some true
  | .throw _ => some false
  | .op _ _ => none

def returned (c : State) (i : Nat) : Option Bool := c.tasks[i]?.bind fun t => verdict t.rest

theorem finished_of_returned {c : State} {i : Nat} (call : Call) {b : Bool}
    (hcall : (c.tasks.map (·.call))[i]? = some call) (h : returned c i = some b) :
    ∃ out, c.Finished i call out ∧ out.isOk = b := by
  rw [List.getElem?_map, Option.map_eq_some_iff] at hcall
  obtain ⟨⟨_, rest⟩, ht, rfl⟩ := hcall
  rw [returned, ht, Option.bind_some] at h
  cases rest with
  | pure a => exact ⟨.ok a, ht, Option.some.inj h⟩
  | throw e => exact ⟨.error e, ht, Option.some.inj h⟩
  | op o k => cases h

theorem eq_ok_of_isOk {ε α : Type} {out : Except ε α} (h : out.isOk = true) : ∃ a, out = .ok a := by
  cases out with
  | ok a => exact ⟨a, rfl⟩
  | error e => cases h

theorem artifacts_agree_put : ∃ (c c' : State) (a a' b : Artifact),
    (machine decodingPlatform).Reachable initial c ∧ (machine decodingPlatform).Reachable c c' ∧
    c.Finished 0 (.put greetingKey (greeting (.exact 0) rfl)) (.ok a) ∧
    c.Finished 1 (.put greetingKey turned) (.ok a') ∧ a.contentHash = a'.contentHash ∧
    c'.Finished 2 (.put greetingKey (greeting .negZero rfl)) (.error (.aegis (.registryConflict
      (Database.artifactConflict .prompt "greeting" "1")))) ∧
    c'.Finished 3 (.get .prompt "greeting" (some "1")) (.ok b) ∧
    same (.obj turned.1) (.obj b.content) = true := by
  obtain ⟨c₀, hstart, hcalls₀⟩ : ∃ c₀,
      (machine decodingPlatform).moves? initial (putting.map .start) = some c₀ ∧
        c₀.tasks.map (·.call) = putting := ⟨_, rfl, rfl⟩
  obtain ⟨c, hm, c', hm', h₀, h₁, hnew, h₂, h₃⟩ : ∃ c ∈ ((machine decodingPlatform).moves? initial
      (putting.map .start)).bind fun c₀ => (machine decodingPlatform).moves? c₀ equalMoves,
      ∃ c' ∈ (machine decodingPlatform).moves? c laterMoves, returned c 0 = some true ∧
        returned c 1 = some true ∧ (∀ e ∈ c.log, e.1 < 2) ∧ returned c' 2 = some false ∧
          returned c' 3 = some true := by decide +kernel
  rw [hstart, Option.bind_some] at hm
  have hc := Machine.reachable_of_moves _ (Machine.reachable_of_moves _ .start hstart) hm
  have hc' := Machine.reachable_of_moves _ .start hm'
  obtain ⟨new, hcalls⟩ := Machine.calls_moves hm
  obtain ⟨new', hcalls'⟩ := Machine.calls_moves hm'
  rw [hcalls₀] at hcalls
  rw [← hcalls, List.append_assoc] at hcalls'
  have hunread : ∀ i, 2 ≤ i → c.trace i = [] := fun i hi => by
    rw [Pool.trace, List.filter_eq_nil_iff.mpr, List.map_nil]
    intro e he heq
    have hlt := hnew e he
    have heq := beq_iff_eq.mp heq
    omega
  obtain ⟨_, hout₀, hok₀⟩ := finished_of_returned putting[0] (by rw [← hcalls]; rfl) h₀
  obtain ⟨a, rfl⟩ := eq_ok_of_isOk hok₀
  obtain ⟨_, hout₁, hok₁⟩ := finished_of_returned putting[1] (by rw [← hcalls]; rfl) h₁
  obtain ⟨a', rfl⟩ := eq_ok_of_isOk hok₁
  obtain ⟨out₂, hout₂, hraised⟩ :=
    finished_of_returned putting[2] (by rw [← hcalls']; rfl) h₂
  obtain ⟨out₃, hout₃, -⟩ := finished_of_returned putting[3] (by rw [← hcalls']; rfl) h₃
  have hsha : Function.Injective decodingPlatform.sha256 := Sample.sha256_injective
  obtain ⟨hunique, -, hput, hstored⟩ := artifacts_agree hsha decodingPlatform_decodes hc
  obtain ⟨row, hrow, hkey, hhash, -⟩ := hput 0 _ _ a hout₀
  obtain ⟨row', hrow', hkey', hhash', hlater⟩ := hput 1 _ _ a' hout₁
  obtain rfl := hunique row hrow row' hrow' (hkey.trans hkey'.symm)
  obtain ⟨hget, hfound⟩ := hlater c' hc'
  obtain ⟨b, rfl, hversion⟩ := hfound 3 _ (hunread 3 (by omega)) hout₃
  obtain ⟨stored, -, hagain⟩ := hstored row hrow
  rw [hkey] at hagain
  obtain ⟨hok₂, hconflict⟩ := (hagain 2 _).1 c' hc' (by simp [hunread 2]) _ hout₂
  -- The third greeting differs from the stored one in the sign of its zero.
  have hrefused := hconflict fun hsame => by
    obtain ⟨a₂, rfl⟩ := hok₂.mpr hsame
    cases hraised
  subst hrefused
  exact ⟨c, c', a, a', b, hc, hc', hout₀, hout₁, hhash.trans hhash'.symm, hout₂, hout₃,
    hget 3 _ b hout₃ hversion⟩

end ArtifactRegistry

end AegisGateway
