import AegisGateway.Lib.IsoText
import AegisGateway.Promotion

/-!
# The latest row

The database compares the texts of times, and does so character by character. As these
stand in the order of the times, the row that it finds is the one that was written last.
-/

open Calendar JsonText

namespace AegisGateway

/-! ## Times as texts -/

/-- An instant of UTC in the years 1 to 9999, to the microsecond. -/
def Instant (t : Int) : Prop := ∃ d : DateTime, d.micros = t

instance (t : Int) : Decidable (Instant t) :=
  decidable_of_iff (∃ d ∈ DateTime.ofMicros t, d.micros = t)
    ⟨fun h => h.elim fun d hd => ⟨d, hd.2⟩,
      fun h => h.elim fun d hd => ⟨d, hd ▸ DateTime.ofMicros_micros d, hd⟩⟩

/-- `isoformat()` of a time in UTC. -/
def isoText (t : Int) : String :=
  ((DateTime.ofMicros t).map fun d => (Timestamp.utc d).isoformat).getD ""

theorem isoText_micros (d : DateTime) : isoText d.micros = (Timestamp.utc d).isoformat := by
  rw [isoText, DateTime.ofMicros_micros]
  rfl

theorem isoText_lt_iff {t t' : Int} (ht : Instant t) (ht' : Instant t') :
    isoText t < isoText t' ↔ t < t' := by
  obtain ⟨d, rfl⟩ := ht
  obtain ⟨d', rfl⟩ := ht'
  rw [isoText_micros, isoText_micros, Timestamp.isoformat_lt_iff, DateTime.micros_lt_iff]

example : isoText 0 = "1970-01-01T00:00:00+00:00" := by decide +kernel

example : isoText 951827696000789 = "2000-02-29T12:34:56.000789+00:00" := by decide +kernel

theorem pairwise_at {α : Type} {R : α → α → Prop} {xs : List α} (h : xs.Pairwise R) {i j : Nat}
    {a b : α} (ha : xs[i]? = some a) (hb : xs[j]? = some b) (hij : i < j) : R a b := by
  obtain ⟨hi, rfl⟩ := List.getElem?_eq_some_iff.mp ha
  obtain ⟨hj, rfl⟩ := List.getElem?_eq_some_iff.mp hb
  exact List.pairwise_iff_getElem.mp h i j hi hj hij

/-! ## The first row of an order -/

section Yields

variable {α : Type} {before : α → α → Prop} {rows : List α} {r : α}

/-- A row that `ORDER BY … LIMIT 1` may yield: none comes before it. -/
def Yields (before : α → α → Prop) (rows : List α) (r : α) : Prop :=
  r ∈ rows ∧ ∀ r' ∈ rows, ¬ before r' r

theorem Yields.congr {before' : α → α → Prop}
    (h : ∀ r ∈ rows, ∀ r' ∈ rows, before r r' ↔ before' r r') :
    Yields before rows r ↔ Yields before' rows r := by
  refine and_congr_right fun hr => forall₂_congr fun r' hr' => ?_
  rw [h r' hr' r hr]

theorem newestBy_yields {key : α → Int} (h : Database.newestBy key rows = some r) :
    Yields (fun a b => key b < key a) rows r := by
  refine ⟨Database.newestBy_mem h, ?_⟩
  induction rows generalizing r with
  | nil => cases h
  | cons x xs ih =>
    rw [Database.newestBy] at h
    split at h
    next y hy =>
      have hxs := ih hy
      split_ifs at h with hlt
      · cases h
        exact List.forall_mem_cons.mpr ⟨not_lt.mpr hlt.le, hxs⟩
      · cases h
        refine List.forall_mem_cons.mpr ⟨lt_irrefl _, fun a ha hless => ?_⟩
        exact hxs a ha (lt_of_le_of_lt (not_lt.mp hlt) hless)
    next hnone =>
      cases h
      have hnil : xs = [] := Database.newestBy_eq_none.mp hnone
      simp [hnil]

theorem newestBy_eq_some_iff {key : α → Int}
    (honce : ∀ r r', Yields (fun a b => key b < key a) rows r →
      Yields (fun a b => key b < key a) rows r' → r = r') :
    Database.newestBy key rows = some r ↔ Yields (fun a b => key b < key a) rows r := by
  refine ⟨newestBy_yields, fun hr => ?_⟩
  cases hnewest : Database.newestBy key rows with
  | none =>
    have hmem := hr.1
    rw [Database.newestBy_eq_none.mp hnewest] at hmem
    cases hmem
  | some r' => rw [honce r' r (newestBy_yields hnewest) hr]

end Yields

/-! ## Artifacts -/

/-- A call of `put`, and what the clock shows then. -/
structure ArtifactPut where
  time : Int
  kind : ArtifactKind
  name : String
  version : String
  content : Object

namespace ArtifactPut

def SameKey (p q : ArtifactPut) : Prop :=
  p.kind = q.kind ∧ p.name = q.name ∧ p.version = q.version

instance (p q : ArtifactPut) : Decidable (p.SameKey q) :=
  inferInstanceAs (Decidable (_ ∧ _ ∧ _))

theorem SameKey.refl (p : ArtifactPut) : p.SameKey p := ⟨rfl, rfl, rfl⟩

theorem SameKey.trans {p q r : ArtifactPut} (h : p.SameKey q) (h' : q.SameKey r) : p.SameKey r :=
  ⟨h.1.trans h'.1, h.2.1.trans h'.2.1, h.2.2.trans h'.2.2⟩

def row (P : Platform) (p : ArtifactPut) : Artifact where
  kind := p.kind
  name := p.name
  version := p.version
  content := Database.storedContent p.content
  contentHash := hexdigest (P.sha256 (Database.canonicalText P p.content))
  createdAt := p.time

/-- The `i`-th put is the first one of its kind, name and version. -/
def Inserts (ps : List ArtifactPut) (i : Nat) (p : ArtifactPut) : Prop :=
  ps[i]? = some p ∧ ∀ j < i, ∀ q ∈ ps[j]?, ¬ q.SameKey p

/-- Of the puts that insert an artifact of the kind and the name, the `i`-th is the last. -/
def LastInserted (ps : List ArtifactPut) (kind : ArtifactKind) (name : String) (p : ArtifactPut) :
    Prop :=
  ∃ i, Inserts ps i p ∧ p.kind = kind ∧ p.name = name ∧
    ∀ j q, Inserts ps j q → q.kind = kind → q.name = name → j ≤ i

theorem inserts_concat {ps : List ArtifactPut} {p q : ArtifactPut} {i : Nat} :
    Inserts (ps ++ [p]) i q ↔
      Inserts ps i q ∨ (i = ps.length ∧ q = p ∧ ∀ r ∈ ps, ¬ r.SameKey p) := by
  rcases Nat.lt_trichotomy i ps.length with hi | rfl | hi
  · have hbefore : ∀ j < i, (ps ++ [p])[j]? = ps[j]? := fun j hj =>
      List.getElem?_append_left (hj.trans hi)
    rw [Inserts, List.getElem?_append_left hi, Inserts, or_iff_left fun h => hi.ne h.1]
    refine and_congr_right fun _ => forall₂_congr fun j hj => ?_
    rw [hbefore j hj]
  · rw [Inserts, List.getElem?_concat_length, Option.some.injEq]
    constructor
    · rintro ⟨rfl, hfirst⟩
      refine .inr ⟨rfl, rfl, fun r hr => ?_⟩
      obtain ⟨j, hj, rfl⟩ := List.getElem_of_mem hr
      exact hfirst j hj _ (by rw [List.getElem?_append_left hj, List.getElem?_eq_getElem hj]; rfl)
    · rintro (⟨hnone, -⟩ | ⟨-, rfl, hfirst⟩)
      · rw [List.getElem?_eq_none le_rfl] at hnone
        cases hnone
      · refine ⟨rfl, fun j hj r hr => hfirst r ?_⟩
        rw [List.getElem?_append_left hj] at hr
        exact List.mem_of_getElem? hr
  · have hnone : (ps ++ [p])[i]? = none := List.getElem?_eq_none (by simpa using hi)
    refine iff_of_false (fun h => ?_) ?_
    · rw [Inserts, hnone] at h
      cases h.1
    · rintro (⟨hsome, -⟩ | ⟨rfl, -⟩)
      · rw [List.getElem?_eq_none hi.le] at hsome
        cases hsome
      · exact lt_irrefl _ hi

theorem exists_inserts {ps : List ArtifactPut} {p : ArtifactPut} (hp : p ∈ ps) :
    ∃ i q, Inserts ps i q ∧ q.SameKey p := by
  induction ps using List.reverseRecOn generalizing p with
  | nil => cases hp
  | append_singleton ps p' ih =>
    rcases List.mem_append.mp hp with hp | hp
    · obtain ⟨i, q, hq, hsame⟩ := ih hp
      exact ⟨i, q, inserts_concat.mpr (.inl hq), hsame⟩
    · obtain rfl := List.mem_singleton.mp hp
      by_cases hold : ∃ r ∈ ps, r.SameKey p
      · obtain ⟨r, hr, hsame⟩ := hold
        obtain ⟨i, q, hq, hfirst⟩ := ih hr
        exact ⟨i, q, inserts_concat.mpr (.inl hq), hfirst.trans hsame⟩
      · have hnew : ∀ r ∈ ps, ¬ r.SameKey p := fun r hr hsame => hold ⟨r, hr, hsame⟩
        exact ⟨_, p, inserts_concat.mpr (.inr ⟨rfl, rfl, hnew⟩), .refl p⟩

end ArtifactPut

namespace Database

open ArtifactPut

def puts (P : Platform) (ps : List ArtifactPut) : Database :=
  ps.foldl (fun db p => (putArtifact P p.time db p.kind p.name p.version p.content).2) {}

def named (db : Database) (kind : ArtifactKind) (name : String) : List Artifact :=
  db.artifacts.filter fun a => a.kind = kind ∧ a.name = name

theorem puts_concat (P : Platform) (ps : List ArtifactPut) (p : ArtifactPut) :
    puts P (ps ++ [p]) =
      (putArtifact P p.time (puts P ps) p.kind p.name p.version p.content).2 :=
  List.foldl_concat _ _ _ _

theorem getArtifact_version {db : Database} {kind : ArtifactKind} {name version : String} :
    (∃ a, db.getArtifact kind name (some version) = .ok a) ↔
      ∃ a ∈ db.artifacts, a.kind = kind ∧ a.name = name ∧ a.version = version := by
  unfold getArtifact
  dsimp only
  constructor
  · rintro ⟨a, ha⟩
    split at ha
    next a' hnewest =>
      have hmem := newestBy_mem hnewest
      simp only [List.mem_filter, Option.all_some, decide_eq_true_eq] at hmem
      exact ⟨a', hmem.1, hmem.2.1, hmem.2.2.1, hmem.2.2.2.symm⟩
    next => cases ha
  · rintro ⟨a, ha, hkey⟩
    split
    next a' _ => exact ⟨a', rfl⟩
    next hnone =>
      have hnil := newestBy_eq_none.mp hnone
      have hmem := List.filter_eq_nil_iff.mp hnil a ha
      simp [hkey] at hmem

theorem putArtifact_artifacts (P : Platform) (db : Database) (p : ArtifactPut) :
    (putArtifact P p.time db p.kind p.name p.version p.content).2.artifacts =
      db.artifacts ++ (if ∃ a ∈ db.artifacts, a.kind = p.kind ∧ a.name = p.name ∧
        a.version = p.version then [] else [p.row P]) := by
  have hversion := @getArtifact_version db p.kind p.name p.version
  unfold putArtifact
  dsimp only
  split
  next a ha =>
    rw [if_pos (hversion.mp ⟨a, ha⟩), List.append_nil]
    split_ifs <;> rfl
  next m hm =>
    rw [if_neg fun h => ?_]
    · rfl
    · obtain ⟨a, ha⟩ := hversion.mpr h
      rw [hm] at ha
      cases ha

theorem mem_puts {P : Platform} {ps : List ArtifactPut} {a : Artifact} :
    a ∈ (puts P ps).artifacts ↔ ∃ i p, Inserts ps i p ∧ a = p.row P := by
  induction ps using List.reverseRecOn generalizing a with
  | nil =>
    apply iff_of_false (fun h => List.not_mem_nil h)
    rintro ⟨i, p, ⟨hp, -⟩, -⟩
    cases hp
  | append_singleton ps p ih =>
    have hknown : (∃ a ∈ (puts P ps).artifacts, a.kind = p.kind ∧ a.name = p.name ∧
        a.version = p.version) ↔ ∃ r ∈ ps, r.SameKey p := by
      constructor
      · rintro ⟨a, ha, hkey⟩
        obtain ⟨i, r, hr, rfl⟩ := ih.mp ha
        exact ⟨r, List.mem_of_getElem? hr.1, hkey⟩
      · rintro ⟨r, hr, hsame⟩
        obtain ⟨i, q, hq, hfirst⟩ := exists_inserts hr
        exact ⟨q.row P, ih.mpr ⟨i, q, hq, rfl⟩, hfirst.trans hsame⟩
    -- The last put inserts exactly if no earlier one has its key.
    rw [puts_concat, putArtifact_artifacts, List.mem_append, ih]
    by_cases hold : ∃ r ∈ ps, r.SameKey p
    · rw [if_pos (hknown.mpr hold), or_iff_left List.not_mem_nil]
      refine exists₂_congr fun i q => and_congr_left fun _ => ?_
      rw [inserts_concat, or_iff_left]
      rintro ⟨-, rfl, hfirst⟩
      obtain ⟨r, hr, hsame⟩ := hold
      exact hfirst r hr hsame
    · have hfirst : ∀ r ∈ ps, ¬ r.SameKey p := fun r hr hsame => hold ⟨r, hr, hsame⟩
      rw [if_neg (mt hknown.mp hold), List.mem_singleton]
      constructor
      · rintro (⟨i, q, hq, rfl⟩ | rfl)
        · exact ⟨i, q, inserts_concat.mpr (.inl hq), rfl⟩
        · exact ⟨_, p, inserts_concat.mpr (.inr ⟨rfl, rfl, hfirst⟩), rfl⟩
      · rintro ⟨i, q, hq, rfl⟩
        rcases inserts_concat.mp hq with hq | ⟨-, rfl, -⟩
        · exact .inl ⟨i, q, hq, rfl⟩
        · exact .inr rfl

theorem mem_named {db : Database} {kind : ArtifactKind} {name : String} {a : Artifact} :
    a ∈ db.named kind name ↔ a ∈ db.artifacts ∧ a.kind = kind ∧ a.name = name := by
  simp [named]

theorem getArtifact_latest (db : Database) (kind : ArtifactKind) (name : String) :
    db.getArtifact kind name none =
      (newestBy (·.createdAt) (db.named kind name)).elim (.error (artifactNotFound kind name none))
        .ok := by
  have hrows : (db.artifacts.filter fun a => a.kind = kind ∧ a.name = name ∧
      (none : Option String).all (· = a.version)) = db.named kind name := by
    simp [named]
  unfold getArtifact
  dsimp only
  rw [hrows]
  split
  next a ha => rw [ha, Option.elim_some]
  next hnone => rw [hnone, Option.elim_none]

section Artifacts

variable {P : Platform} {ps : List ArtifactPut} {kind : ArtifactKind} {name : String} {a : Artifact}

theorem time_lt_iff (htimes : ps.Pairwise (·.time < ·.time)) {i j : Nat} {p q : ArtifactPut}
    (hp : ps[i]? = some p) (hq : ps[j]? = some q) : p.time < q.time ↔ i < j := by
  refine ⟨fun hlt => ?_, pairwise_at htimes hp hq⟩
  rcases Nat.lt_trichotomy i j with h | rfl | h
  · exact h
  · obtain rfl := Option.some.inj (hp.symm.trans hq)
    exact absurd hlt (lt_irrefl _)
  · exact absurd hlt (lt_asymm (pairwise_at htimes hq hp h))

theorem yields_iff_lastInserted (htimes : ps.Pairwise (·.time < ·.time)) :
    Yields (fun a b => b.createdAt < a.createdAt) ((puts P ps).named kind name) a ↔
      ∃ p, LastInserted ps kind name p ∧ a = p.row P := by
  constructor
  · rintro ⟨ha, hnone⟩
    obtain ⟨hmem, hkind, hname⟩ := mem_named.mp ha
    obtain ⟨i, p, hp, rfl⟩ := mem_puts.mp hmem
    refine ⟨p, ⟨i, hp, hkind, hname, fun j q hq hkind' hname' => ?_⟩, rfl⟩
    have hrow : q.row P ∈ (puts P ps).named kind name :=
      mem_named.mpr ⟨mem_puts.mpr ⟨j, q, hq, rfl⟩, hkind', hname'⟩
    have hlater : ¬ p.time < q.time := hnone _ hrow
    rw [time_lt_iff htimes hp.1 hq.1] at hlater
    exact not_lt.mp hlater
  · rintro ⟨p, ⟨i, hp, hkind, hname, hlast⟩, rfl⟩
    refine ⟨mem_named.mpr ⟨mem_puts.mpr ⟨i, p, hp, rfl⟩, hkind, hname⟩, fun b hb => ?_⟩
    obtain ⟨hmem, hkind', hname'⟩ := mem_named.mp hb
    obtain ⟨j, q, hq, rfl⟩ := mem_puts.mp hmem
    have hle := hlast j q hq hkind' hname'
    rw [← not_lt, ← time_lt_iff htimes hp.1 hq.1] at hle
    exact hle

theorem lastInserted_unique {p q : ArtifactPut} (hp : LastInserted ps kind name p)
    (hq : LastInserted ps kind name q) : p = q := by
  obtain ⟨i, hp, hkind, hname, hlast⟩ := hp
  obtain ⟨j, hq, hkind', hname', hlast'⟩ := hq
  obtain rfl := le_antisymm (hlast' i p hp hkind hname) (hlast j q hq hkind' hname')
  exact Option.some.inj (hp.1.symm.trans hq.1)

theorem getArtifact_ok_iff (htimes : ps.Pairwise (·.time < ·.time)) :
    (puts P ps).getArtifact kind name none = .ok a ↔
      ∃ p, LastInserted ps kind name p ∧ a = p.row P := by
  rw [← yields_iff_lastInserted htimes, ← newestBy_eq_some_iff, getArtifact_latest]
  · cases newestBy (·.createdAt) ((puts P ps).named kind name) with
    | none => simp
    | some a' => simp
  · intro a b ha hb
    rw [yields_iff_lastInserted htimes] at ha hb
    obtain ⟨p, hp, rfl⟩ := ha
    obtain ⟨q, hq, rfl⟩ := hb
    rw [lastInserted_unique hp hq]

theorem exists_getArtifact {p : ArtifactPut} (hp : p ∈ ps) :
    ∃ a, (puts P ps).getArtifact p.kind p.name none = .ok a := by
  obtain ⟨i, q, hq, hkind, hname, -⟩ := exists_inserts hp
  have hrow : q.row P ∈ (puts P ps).named p.kind p.name :=
    mem_named.mpr ⟨mem_puts.mpr ⟨i, q, hq, rfl⟩, hkind, hname⟩
  rw [getArtifact_latest]
  cases hnewest : newestBy (·.createdAt) ((puts P ps).named p.kind p.name) with
  | none =>
    rw [newestBy_eq_none.mp hnewest] at hrow
    cases hrow
  | some a => exact ⟨a, rfl⟩

/-- The database compares the texts of `created_at`. -/
theorem text_yields_iff (hinstants : ∀ p ∈ ps, Instant p.time) :
    Yields (fun a b => isoText b.createdAt < isoText a.createdAt) ((puts P ps).named kind name) a ↔
      Yields (fun a b => b.createdAt < a.createdAt) ((puts P ps).named kind name) a := by
  have hrow : ∀ b ∈ (puts P ps).named kind name, Instant b.createdAt := by
    intro b hb
    obtain ⟨i, p, hp, rfl⟩ := mem_puts.mp (mem_named.mp hb).1
    exact hinstants p (List.mem_of_getElem? hp.1)
  exact Yields.congr fun b hb b' hb' => isoText_lt_iff (hrow b' hb') (hrow b hb)

end Artifacts

end Database

/-! ## Releases -/

namespace Database

/-- The rows that `get_live` picks from: the candidates of the name, and its active releases if
there are none. -/
def preferred (db : Database) (name : String) : List Release :=
  if db.stated name .candidate = [] then db.stated name .active else db.stated name .candidate

theorem getLive_preferred (db : Database) (name : String) :
    db.getLive name = newestBy (·.updatedAt) (db.preferred name) := by
  rw [getLive_eq, preferred]
  split_ifs with hnone
  · rw [hnone]
    rfl
  · obtain ⟨r, hr⟩ := Option.ne_none_iff_exists'.mp (mt newestBy_eq_none.mp hnone)
    rw [hr]
    rfl

/-- `WHERE name = ? AND state IN (?, ?)`. -/
def live (db : Database) (name : String) : List Release :=
  db.releases.filter fun r => r.name = name ∧ (r.state = .candidate ∨ r.state = .active)

/-- `CASE state WHEN ? THEN 0 ELSE 1 END`. -/
def liveRank (r : Release) : Nat := if r.state = .candidate then 0 else 1

/-- `ORDER BY CASE state WHEN ? THEN 0 ELSE 1 END, updated_at DESC`. -/
def LiveBefore (a b : Release) : Prop :=
  liveRank a < liveRank b ∨
    liveRank a = liveRank b ∧ isoText b.updatedAt < isoText a.updatedAt

section Live

variable {db : Database} {name : String} {r : Release}

theorem mem_live : r ∈ db.live name ↔ r ∈ db.stated name .candidate ∨ r ∈ db.stated name .active := by
  simp only [live, mem_stated, List.mem_filter, decide_eq_true_eq]
  tauto

theorem mem_preferred : r ∈ db.preferred name ↔
    r ∈ db.live name ∧ ∀ r' ∈ db.live name, liveRank r ≤ liveRank r' := by
  have hcandidate : ∀ r ∈ db.stated name .candidate, liveRank r = 0 := fun r hr =>
    if_pos (mem_stated.mp hr).2.2
  have hactive : ∀ r ∈ db.stated name .active, liveRank r = 1 := by
    intro r hr
    rw [liveRank, (mem_stated.mp hr).2.2]
    rfl
  simp only [mem_live]
  unfold preferred
  split_ifs with hnone
  · simp only [hnone, List.not_mem_nil, false_or]
    refine ⟨fun hr => ⟨hr, fun r' hr' => ?_⟩, And.left⟩
    rw [hactive r hr, hactive r' hr']
  · constructor
    · intro hr
      refine ⟨.inl hr, fun r' _ => ?_⟩
      rw [hcandidate r hr]
      exact Nat.zero_le _
    · rintro ⟨hr | hr, hleast⟩
      · exact hr
      · obtain ⟨r', hr'⟩ := List.exists_mem_of_ne_nil _ hnone
        have hle := hleast r' (.inl hr')
        rw [hactive r hr, hcandidate r' hr'] at hle
        exact absurd hle (by decide)

theorem liveBefore_yields_iff (hinstants : ∀ r ∈ db.preferred name, Instant r.updatedAt) :
    Yields LiveBefore (db.live name) r ↔
      Yields (fun a b => b.updatedAt < a.updatedAt) (db.preferred name) r := by
  have htext : ∀ a ∈ db.preferred name, ∀ b ∈ db.preferred name,
      isoText a.updatedAt < isoText b.updatedAt ↔ a.updatedAt < b.updatedAt :=
    fun a ha b hb => isoText_lt_iff (hinstants a ha) (hinstants b hb)
  constructor
  · rintro ⟨hr, hnone⟩
    have hmem : r ∈ db.preferred name :=
      mem_preferred.mpr ⟨hr, fun r' hr' => not_lt.mp fun hlt => hnone r' hr' (.inl hlt)⟩
    refine ⟨hmem, fun r' hr' hlater => ?_⟩
    obtain ⟨hlive, hleast⟩ := mem_preferred.mp hr'
    have hrank := le_antisymm (hleast r hr) ((mem_preferred.mp hmem).2 r' hlive)
    exact hnone r' hlive (.inr ⟨hrank, (htext r hmem r' hr').mpr hlater⟩)
  · rintro ⟨hmem, hnone⟩
    obtain ⟨hr, hleast⟩ := mem_preferred.mp hmem
    refine ⟨hr, fun r' hr' hbefore => ?_⟩
    rcases hbefore with hlt | ⟨hrank, hlater⟩
    · exact absurd hlt (not_lt.mpr (hleast r' hr'))
    · have hmem' : r' ∈ db.preferred name :=
        mem_preferred.mpr ⟨hr', fun r'' hr'' => hrank ▸ hleast r'' hr''⟩
      exact hnone r' hmem' ((htext r hmem r' hmem').mp hlater)

theorem preferred_eq_nil_iff : db.preferred name = [] ↔ db.live name = [] := by
  constructor
  · intro hnone
    have hcandidates : db.stated name .candidate = [] := by
      by_contra hsome
      rw [preferred, if_neg hsome] at hnone
      exact hsome hnone
    rw [preferred, if_pos hcandidates] at hnone
    apply List.eq_nil_iff_forall_not_mem.mpr
    intro r hr
    rw [mem_live, hcandidates, hnone] at hr
    exact hr.elim List.not_mem_nil List.not_mem_nil
  · intro hnone
    apply List.eq_nil_iff_forall_not_mem.mpr
    intro r hr
    have hlive := (mem_preferred.mp hr).1
    rw [hnone] at hlive
    cases hlive

end Live

end Database

inductive ReleaseCall where
  | create (release : Release)
  | setState (time : Int) (releaseId : String) (state : ReleaseState)

namespace ReleaseCall

def time? : ReleaseCall → Option Int
  | create _ => none
  | setState time _ _ => some time

def perform (db : Database) : ReleaseCall → Database
  | create release => (db.createRelease release).2
  | setState time releaseId state => (db.setState time releaseId state).2

def after (h : List ReleaseCall) : Database := h.foldl perform {}

/-- The `i`-th call has set the state of the release. -/
def SetAt (h : List ReleaseCall) (i : Nat) (releaseId : String) : Prop :=
  ∃ t state current, h[i]? = some (setState t releaseId state) ∧
    (after (h.take i)).getRelease releaseId = .ok current

/-- Of the calls that have set the state of one of these rows, that for `r` is the last. -/
def LastSet (h : List ReleaseCall) (rows : List Release) (r : Release) : Prop :=
  r ∈ rows ∧ ∃ i, SetAt h i r.id ∧ ∀ r' ∈ rows, ∀ j, SetAt h j r'.id → j ≤ i

/-- The calls of `set_state` come at times that grow. -/
def Timed (h : List ReleaseCall) : Prop :=
  h.Pairwise fun c c' => ∀ t ∈ c.time?, ∀ t' ∈ c'.time?, t < t'

theorem after_concat (h : List ReleaseCall) (c : ReleaseCall) :
    after (h ++ [c]) = perform (after h) c :=
  List.foldl_concat _ _ _ _

inductive Step (db : Database) : ReleaseCall → List Release → Prop
  | created {r : Release} (hfresh : ∀ r' ∈ db.releases, r'.id ≠ r.id) :
      Step db (create r) (db.releases ++ [r])
  | taken {r r' : Release} (hr' : r' ∈ db.releases) (hid : r'.id = r.id) :
      Step db (create r) db.releases
  | written {t : Int} {id : String} {state : ReleaseState} {current : Release}
      (hget : db.getRelease id = .ok current) :
      Step db (setState t id state) (db.releases.map (restated t current state))
  | missing {t : Int} {id m : String} {state : ReleaseState} (hget : db.getRelease id = .error m) :
      Step db (setState t id state) db.releases

theorem perform_step (db : Database) (c : ReleaseCall) : Step db c (perform db c).releases := by
  cases c with
  | create r =>
    by_cases hid : ∃ r' ∈ db.releases, r'.id = r.id
    · obtain ⟨r', hr', hid⟩ := hid
      obtain ⟨e, he⟩ := Database.createRelease_taken hr' hid
      rw [perform, he]
      exact .taken hr' hid
    · have hfresh : ∀ r' ∈ db.releases, r'.id ≠ r.id := fun r' hr' hr => hid ⟨r', hr', hr⟩
      rw [perform, Database.createRelease_fresh hfresh]
      exact .created hfresh
  | setState t id state =>
    cases hget : db.getRelease id with
    | ok current =>
      rw [perform, Database.setState_ok hget]
      exact .written hget
    | error m =>
      rw [perform, Database.setState_error hget]
      exact .missing hget

variable {db : Database} {c : ReleaseCall} {rs : List Release}

theorem Step.keyed (hstep : Step db c rs) (hkeyed : Database.Keyed db.releases) :
    Database.Keyed rs := by
  cases hstep with
  | taken | missing => exact hkeyed
  | created hfresh => exact hkeyed.created hfresh
  | written => exact hkeyed.restated _ _ _

theorem Step.known (hstep : Step db c rs) {r : Release} (hr : r ∈ db.releases) :
    ∃ r' ∈ rs, r'.id = r.id := by
  cases hstep with
  | taken | missing => exact ⟨r, hr, rfl⟩
  | created => exact ⟨r, List.mem_append_left _ hr, rfl⟩
  | written => exact ⟨_, List.mem_map_of_mem hr, restated_id _ _ _ _⟩

theorem keyed_after (h : List ReleaseCall) : Database.Keyed (after h).releases := by
  induction h using List.reverseRecOn with
  | nil => exact List.nodup_nil
  | append_singleton h c ih =>
    rw [after_concat]
    exact (perform_step _ c).keyed ih

section History

variable {h : List ReleaseCall} {i : Nat} {id : String}

theorem setAt_concat : SetAt (h ++ [c]) i id ↔ SetAt h i id ∨
    (i = h.length ∧ ∃ t state current,
      c = setState t id state ∧ (after h).getRelease id = .ok current) := by
  rcases Nat.lt_trichotomy i h.length with hi | rfl | hi
  · rw [SetAt, List.getElem?_append_left hi, List.take_append_of_le_length hi.le,
      or_iff_left fun hset => hi.ne hset.1]
    rfl
  · have hnone : ¬ SetAt h h.length id := by
      rintro ⟨t, state, current, hget, -⟩
      rw [List.getElem?_eq_none le_rfl] at hget
      cases hget
    rw [SetAt, List.getElem?_concat_length, List.take_left, or_iff_right hnone]
    simp only [Option.some.injEq, true_and]
  · refine iff_of_false ?_ ?_
    · rintro ⟨t, state, current, hget, -⟩
      rw [List.getElem?_eq_none (by simpa using hi)] at hget
      cases hget
    · rintro (⟨t, state, current, hget, -⟩ | ⟨rfl, -⟩)
      · rw [List.getElem?_eq_none hi.le] at hget
        cases hget
      · exact lt_irrefl _ hi

theorem SetAt.lt (hset : SetAt h i id) : i < h.length := by
  obtain ⟨t, state, current, hget, -⟩ := hset
  exact (List.getElem?_eq_some_iff.mp hget).1

theorem SetAt.known (hset : SetAt h i id) : ∃ r ∈ (after h).releases, r.id = id := by
  induction h using List.reverseRecOn with
  | nil => exact absurd hset.lt (Nat.not_lt_zero i)
  | append_singleton h c ih =>
    obtain ⟨r, hr, rfl⟩ : ∃ r ∈ (after h).releases, r.id = id := by
      rcases setAt_concat.mp hset with hset | ⟨-, t, state, current, -, hget⟩
      · exact ih hset
      · exact ⟨current, Database.mem_of_getRelease hget⟩
    rw [after_concat]
    exact (perform_step _ c).known hr

theorem set_of_last {r : Release} (hr : r ∈ (after h).releases) (hstate : r.state ≠ .rolledBack)
    (hset : SetAt h i r.id) (hlast : ∀ j, SetAt h j r.id → j ≤ i) :
    h[i]? = some (setState r.updatedAt r.id r.state) := by
  induction h using List.reverseRecOn generalizing r with
  | nil => exact absurd hset.lt (Nat.not_lt_zero i)
  | append_singleton h c ih =>
    have hstep := perform_step (after h) c
    rw [← after_concat] at hstep
    -- As long as the row is not set again, it is the row of the shorter history.
    have hkept : r ∈ (after h).releases → SetAt h i r.id →
        (h ++ [c])[i]? = some (setState r.updatedAt r.id r.state) := by
      intro hr hset
      rw [List.getElem?_append_left hset.lt]
      exact ih hr hstate hset fun j hj => hlast j (setAt_concat.mpr (.inl hj))
    generalize (after (h ++ [c])).releases = rs at hr hstep
    rcases setAt_concat.mp hset with hold | ⟨rfl, t, state, current, rfl, hget⟩
    · cases hstep with
      | taken | missing => exact hkept hr hold
      | created hfresh =>
        rcases List.mem_append.mp hr with hr | hr
        · exact hkept hr hold
        · obtain rfl := List.mem_singleton.mp hr
          obtain ⟨r', hr', hid⟩ := hold.known
          exact absurd hid (hfresh r' hr')
      | @written t id state current hget =>
        obtain ⟨r₀, hr₀, rfl⟩ := List.mem_map.mp hr
        rw [restated_id] at hold hlast
        by_cases hid : r₀.id = current.id
        · have hcurrent := (Database.mem_of_getRelease hget).2
          have hnow : SetAt (h ++ [setState t id state]) h.length r₀.id :=
            setAt_concat.mpr (.inr ⟨rfl, t, state, current, by rw [hid, hcurrent], by
              rwa [hid, hcurrent]⟩)
          exact absurd (hlast _ hnow) (not_le.mpr hold.lt)
        · rcases restated_other t state hid with hsame | ⟨-, -, -, hdemoted⟩
          · rw [hsame] at hkept ⊢
            exact hkept hr₀ hold
          · exact absurd hdemoted hstate
    · cases hstep with
      | missing hnone =>
        rw [hget] at hnone
        cases hnone
      | @written _ _ _ current' hget' =>
        obtain ⟨r₀, hr₀, rfl⟩ := List.mem_map.mp hr
        have hid := (Database.mem_of_getRelease hget').2
        rw [restated_id] at hid ⊢
        rw [restated_self t state hid.symm, List.getElem?_concat_length]

theorem exists_last {r : Release} (hset : ∃ i, SetAt h i r.id) :
    ∃ i, SetAt h i r.id ∧ ∀ j, SetAt h j r.id → j ≤ i := by
  classical
  obtain ⟨i, hi⟩ := hset
  refine ⟨Nat.findGreatest (SetAt h · r.id) h.length, ?_, fun j hj => ?_⟩
  · exact Nat.findGreatest_spec (P := (SetAt h · r.id)) hi.lt.le hi
  · exact Nat.le_findGreatest hj.lt.le hj

theorem updatedAt_lt_iff (htimed : Timed h) {i j : Nat} {t t' : Int} {id id' : String}
    {s s' : ReleaseState} (hi : h[i]? = some (setState t id s))
    (hj : h[j]? = some (setState t' id' s')) : t < t' ↔ i < j := by
  have hgrow : ∀ {i j t t' id id' s s'}, h[i]? = some (setState t id s) →
      h[j]? = some (setState t' id' s') → i < j → t < t' :=
    fun hi hj hij => pairwise_at htimed hi hj hij _ rfl _ rfl
  refine ⟨fun hlt => ?_, hgrow hi hj⟩
  rcases Nat.lt_trichotomy i j with hij | rfl | hij
  · exact hij
  · rw [hi] at hj
    cases hj
    exact absurd hlt (lt_irrefl _)
  · exact absurd hlt (lt_asymm (hgrow hj hi hij))

section Rows

variable {rows : List Release} {r : Release}

theorem yields_iff_lastSet (htimed : Timed h)
    (hrows : ∀ r ∈ rows, r ∈ (after h).releases ∧ r.state ≠ .rolledBack)
    (hset : ∀ r ∈ rows, ∃ i, SetAt h i r.id) :
    Yields (fun a b => b.updatedAt < a.updatedAt) rows r ↔ LastSet h rows r := by
  constructor
  · rintro ⟨hr, hnone⟩
    obtain ⟨i, hi, hlast⟩ := exists_last (hset r hr)
    have hcall := set_of_last (hrows r hr).1 (hrows r hr).2 hi hlast
    refine ⟨hr, i, hi, fun r' hr' j hj => ?_⟩
    obtain ⟨i', hi', hlast'⟩ := exists_last ⟨j, hj⟩
    have hcall' := set_of_last (hrows r' hr').1 (hrows r' hr').2 hi' hlast'
    have hle : ¬ r.updatedAt < r'.updatedAt := hnone r' hr'
    rw [updatedAt_lt_iff htimed hcall hcall', not_lt] at hle
    exact (hlast' j hj).trans hle
  · rintro ⟨hr, i, hi, hlast⟩
    have hcall := set_of_last (hrows r hr).1 (hrows r hr).2 hi (hlast r hr)
    refine ⟨hr, fun r' hr' => ?_⟩
    obtain ⟨i', hi', hlast'⟩ := exists_last (hset r' hr')
    have hcall' := set_of_last (hrows r' hr').1 (hrows r' hr').2 hi' hlast'
    have hle := hlast r' hr' i' hi'
    rw [← not_lt, ← updatedAt_lt_iff htimed hcall hcall'] at hle
    exact hle

theorem lastSet_unique (hrows : ∀ r ∈ rows, r ∈ (after h).releases) {r' : Release}
    (hr : LastSet h rows r) (hr' : LastSet h rows r') : r = r' := by
  obtain ⟨hmem, i, hi, hlast⟩ := hr
  obtain ⟨hmem', j, hj, hlast'⟩ := hr'
  obtain rfl := le_antisymm (hlast' r hmem i hi) (hlast r' hmem' j hj)
  obtain ⟨t, state, current, hcall, -⟩ := hi
  obtain ⟨t', state', current', hcall', -⟩ := hj
  rw [hcall, Option.some.injEq, setState.injEq] at hcall'
  exact (keyed_after h).eq_of_id (hrows r hmem) (hrows r' hmem') hcall'.2.1

end Rows

/-! ### The live release -/

variable {name : String} {r : Release}

theorem of_mem_preferred (hr : r ∈ (after h).preferred name) :
    r ∈ (after h).releases ∧ r.name = name ∧ r.state ≠ .rolledBack := by
  unfold Database.preferred at hr
  split_ifs at hr
  · obtain ⟨hmem, hname, hstate⟩ := Database.mem_stated.mp hr
    exact ⟨hmem, hname, by rw [hstate]; decide⟩
  · obtain ⟨hmem, hname, hstate⟩ := Database.mem_stated.mp hr
    exact ⟨hmem, hname, by rw [hstate]; decide⟩

theorem getLive_iff_lastSet (htimed : Timed h)
    (hset : ∀ r ∈ (after h).preferred name, ∃ i, SetAt h i r.id) :
    (after h).getLive name = some r ↔ LastSet h ((after h).preferred name) r := by
  have hrows : ∀ r ∈ (after h).preferred name, r ∈ (after h).releases ∧ r.state ≠ .rolledBack :=
    fun r hr => ⟨(of_mem_preferred hr).1, (of_mem_preferred hr).2.2⟩
  have hyields := fun r => @yields_iff_lastSet h _ r htimed hrows hset
  rw [Database.getLive_preferred, newestBy_eq_some_iff, hyields]
  intro r r' hr hr'
  exact lastSet_unique (fun r hr => (hrows r hr).1) ((hyields r).mp hr) ((hyields r').mp hr')

theorem instant_of_preferred (hinstants : ∀ c ∈ h, ∀ t ∈ c.time?, Instant t)
    (hset : ∀ r ∈ (after h).preferred name, ∃ i, SetAt h i r.id) :
    ∀ r ∈ (after h).preferred name, Instant r.updatedAt := by
  intro r hr
  obtain ⟨hmem, -, hstate⟩ := of_mem_preferred hr
  obtain ⟨i, hi, hlast⟩ := exists_last (hset r hr)
  have hcall := set_of_last hmem hstate hi hlast
  exact hinstants _ (List.mem_of_getElem? hcall) _ rfl

end History

end ReleaseCall

open Database ArtifactPut ReleaseCall

/-- The texts of UTC times stand in the order of the times. So the latest artifact is the one that
was inserted last, and the live release is the candidate whose state was set last, or the active
release if there is no candidate. The rows that `ORDER BY … LIMIT 1` may yield are just these. -/
theorem latest_is_last {P : Platform} {ps : List ArtifactPut} {h : List ReleaseCall}
    (hputs : ps.Pairwise (·.time < ·.time)) (hinstants : ∀ p ∈ ps, Instant p.time)
    (hsets : Timed h) (hinstants' : ∀ c ∈ h, ∀ t ∈ c.time?, Instant t) :
    (∀ d d' : DateTime, (Timestamp.utc d).isoformat < (Timestamp.utc d').isoformat ↔
      d.micros < d'.micros) ∧
    (∀ kind name a,
      ((puts P ps).getArtifact kind name none = .ok a ↔
        ∃ p, LastInserted ps kind name p ∧ a = p.row P) ∧
      (Yields (fun a b => isoText b.createdAt < isoText a.createdAt) ((puts P ps).named kind name) a ↔
        ∃ p, LastInserted ps kind name p ∧ a = p.row P)) ∧
    (∀ p ∈ ps, ∃ a, (puts P ps).getArtifact p.kind p.name none = .ok a) ∧
    ∀ name, (∀ r ∈ (after h).preferred name, ∃ i, SetAt h i r.id) →
      (∀ r,
        ((after h).getLive name = some r ↔ LastSet h ((after h).preferred name) r) ∧
        (Yields LiveBefore ((after h).live name) r ↔ LastSet h ((after h).preferred name) r)) ∧
      ((after h).getLive name = none ↔ (after h).live name = []) := by
  refine ⟨fun d d' => ?_, fun kind name a => ⟨getArtifact_ok_iff hputs, ?_⟩,
    fun p hp => exists_getArtifact hp, fun name hset => ⟨fun r => ⟨?_, ?_⟩, ?_⟩⟩
  · rw [Timestamp.isoformat_lt_iff, DateTime.micros_lt_iff]
  · rw [text_yields_iff hinstants, yields_iff_lastInserted hputs]
  · exact getLive_iff_lastSet hsets hset
  · rw [liveBefore_yields_iff (instant_of_preferred hinstants' hset)]
    exact yields_iff_lastSet hsets
      (fun r hr => ⟨(of_mem_preferred hr).1, (of_mem_preferred hr).2.2⟩) hset
  · rw [getLive_preferred, newestBy_eq_none, preferred_eq_nil_iff]

def greetings : List ArtifactPut :=
  [⟨0, .prompt, "greeting", "1", []⟩, ⟨500000, .prompt, "greeting", "2", []⟩]

def canaries : List ReleaseCall :=
  [.create Sample.release, .create { Sample.release with id := "release-2" },
    .setState 500000 "release-2" .candidate, .setState 1000000 "release-1" .candidate]

theorem latest_is_last_canaries :
    ((puts Sample.platform greetings).getArtifact .prompt "greeting" none) =
      .ok (ArtifactPut.row Sample.platform ⟨500000, .prompt, "greeting", "2", []⟩) ∧
    ∃ r, (after canaries).getLive "default" = some r ∧ r.id = "release-1" ∧
      LastSet canaries ((after canaries).preferred "default") r := by
  have hsets : Timed canaries := by
    unfold Timed
    decide
  have hset : ∀ r ∈ (after canaries).preferred "default", ∃ i, SetAt canaries i r.id := by
    intro r hr
    have hid : r.id = "release-1" ∨ r.id = "release-2" := by
      have hall : ∀ r ∈ (after canaries).preferred "default",
          r.id = "release-1" ∨ r.id = "release-2" := by decide +kernel
      exact hall r hr
    rcases hid with hid | hid <;> rw [hid]
    · exact ⟨3, 1000000, .candidate, _, rfl, rfl⟩
    · exact ⟨2, 500000, .candidate, _, rfl, rfl⟩
  obtain ⟨-, hlatest, -, hlive⟩ := @latest_is_last Sample.platform greetings canaries
    (by decide) (by decide +kernel) hsets (by decide +kernel)
  obtain ⟨r, hr, hid⟩ : ∃ r ∈ (after canaries).getLive "default", r.id = "release-1" := by
    decide +kernel
  refine ⟨(hlatest .prompt "greeting" _).1.mpr ⟨_, ⟨1, ⟨rfl, ?_⟩, rfl, rfl, ?_⟩, rfl⟩,
    r, hr, hid, (((hlive "default" hset).1 r).1.mp hr)⟩
  · decide
  · intro j q hq _ _
    have hj := (List.getElem?_eq_some_iff.mp hq.1).1
    exact Nat.le_of_lt_succ hj

end AegisGateway
