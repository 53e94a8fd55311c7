import Mathlib.Data.List.Sort
import Mathlib.Algebra.Order.Ring.Rat
import Mathlib.Data.Prod.Lex
import Mathlib.Data.String.Basic

/-!
# Tables

What SQLite does with a table, for statements whose values are bound to placeholders. A row
is a list of values in the order of the columns. A column stores the values of its declared
type as they are.
-/

namespace Tables

inductive Value where
  | null
  | integer (n : Int)
  | real (x : ℚ)
  | text (s : String)
  deriving DecidableEq, Repr

def Value.Bindable : Value → Prop
  | .integer n => -2 ^ 63 ≤ n ∧ n < 2 ^ 63
  | _ => True

instance : DecidablePred Value.Bindable := fun v => by
  cases v <;> unfold Value.Bindable <;> infer_instance

inductive ColumnType where
  | integer | real | text
  deriving DecidableEq, Repr

def ColumnType.Stores : ColumnType → Value → Prop
  | _, .null => True
  | .integer, .integer _ => True
  | .real, .real _ => True
  | .text, .text _ => True
  | _, _ => False

instance (t : ColumnType) : DecidablePred t.Stores := fun v => by
  cases t <;> cases v <;> unfold ColumnType.Stores <;> infer_instance

@[simp]
theorem stores_null (t : ColumnType) : t.Stores .null := by
  cases t <;> trivial

@[simp]
theorem stores_integer (n : Int) : ColumnType.integer.Stores (.integer n) := trivial

@[simp]
theorem stores_real (x : ℚ) : ColumnType.real.Stores (.real x) := trivial

@[simp]
theorem stores_text (s : String) : ColumnType.text.Stores (.text s) := trivial

@[simp]
theorem bindable_real (x : ℚ) : (Value.real x).Bindable := trivial

@[simp]
theorem bindable_text (s : String) : (Value.text s).Bindable := trivial

/-- What a column asks for besides its type. -/
inductive Constraint where
  | none | notNull | primaryKey | autoincrement
  deriving DecidableEq, Repr

structure Column where
  name : String
  type : ColumnType
  rule : Constraint := .none

abbrev Row := List Value

/-- The rows in the order of their insertion, and the last number that was given out. -/
structure Table where
  rows : List Row := []
  sequence : Int := 0

/-- A value that cannot be bound, or a row that the table does not take. -/
inductive Fault where
  | overflow | integrity | mismatch
  deriving DecidableEq, Repr

/-! ## Cells -/

section Cells

variable (columns : List Column)

def cell (row : Row) (name : String) : Value :=
  (((columns.map (·.name)).zip row).lookup name).getD .null

def setCell (row : Row) (name : String) (v : Value) : Row :=
  List.zipWith (fun c old => if c.name = name then v else old) columns row

/-- `=` of two values, which no `NULL` meets. -/
def Value.Same (v v' : Value) : Prop := v ≠ .null ∧ v = v'

instance (v v' : Value) : Decidable (v.Same v') := inferInstanceAs (Decidable (_ ∧ _))

/-- `name = ?` or `name != ?`. -/
inductive Condition where
  | equal (name : String) (v : Value)
  | differs (name : String) (v : Value)

def Condition.Holds (row : Row) : Condition → Prop
  | .equal name v => (cell columns row name).Same v
  | .differs name v => cell columns row name ≠ .null ∧ v ≠ .null ∧ cell columns row name ≠ v

instance (row : Row) : DecidablePred (Condition.Holds columns row) := fun c => by
  cases c <;> unfold Condition.Holds <;> infer_instance

/-- `WHERE … AND …`. -/
def Meets (conditions : List Condition) (row : Row) : Prop :=
  ∀ c ∈ conditions, c.Holds columns row

instance (conditions : List Condition) : DecidablePred (Meets columns conditions) := fun row => by
  unfold Meets
  infer_instance

def Condition.value : Condition → Value
  | .equal _ v | .differs _ v => v

/-! ## Statements -/

def bound {α : Type} (values : List Value) (result : Except Fault α) : Except Fault α :=
  if ∃ v ∈ values, ¬ v.Bindable then .error .overflow else result

/-- The row of an `INSERT`: a column that is not named has the next number or `NULL`. -/
def newRow (names : List String) (values : List Value) (t : Table) : Row :=
  columns.map fun c => ((names.zip values).lookup c.name).getD
    (if c.rule = .autoincrement then .integer (t.sequence + 1) else .null)

def Takes (t : Table) (c : Column) (v : Value) : Prop :=
  c.type.Stores v ∧ (c.rule = .notNull → v ≠ .null) ∧
    (c.rule = .primaryKey → ∀ row ∈ t.rows, ¬ (cell columns row c.name).Same v)

instance (t : Table) (c : Column) : DecidablePred (Takes columns t c) := fun v => by
  unfold Takes
  infer_instance

/-- `INSERT INTO table(names) VALUES (?, …)`. -/
def insert (names : List String) (values : List Value) (t : Table) : Except Fault Table :=
  let row := newRow columns names values t
  bound values <|
    if ∀ p ∈ columns.zip row, Takes columns t p.1 p.2 then
      .ok { rows := t.rows ++ [row], sequence := t.sequence + 1 }
    else .error .integrity

/-- `NULL` comes first, then the numbers and then the texts. -/
def Value.key : Value → ℕ ×ₗ (ℚ ×ₗ String)
  | .null => toLex (0, toLex (0, ""))
  | .integer n => toLex (1, toLex ((n : ℚ), ""))
  | .real x => toLex (1, toLex (x, ""))
  | .text s => toLex (2, toLex (0, s))

/-- `ORDER BY name DESC`. -/
def descending (name : String) (rows : List Row) : List Row :=
  rows.insertionSort fun row row' => (cell columns row' name).key ≤ (cell columns row name).key

/-- `LIMIT ?`, where a negative number is no limit. -/
def limited (limit : Value) (rows : List Row) : Except Fault (List Row) :=
  match limit with
  | .integer n => .ok (if n < 0 then rows else rows.take n.toNat)
  | _ => .error .mismatch

/-- `SELECT * FROM table WHERE name = ? AND … ORDER BY order DESC LIMIT ?`. The placeholders take
the parameters in their order. -/
def select (names : List String) (order : String) (params : List Value) (t : Table) :
    Except Fault (List Row) :=
  let conditions := (names.zip params).map fun p => Condition.equal p.1 p.2
  let rows := t.rows.filter fun row => Meets columns conditions row
  bound params (limited (params.getD names.length .null) (descending columns order rows))

/-- `SELECT * FROM table WHERE name = ?`, and the first row of it. -/
def fetchone (name : String) (v : Value) (t : Table) : Except Fault (Option Row) :=
  bound [v] (.ok (t.rows.find? fun row => (Condition.equal name v).Holds columns row))

/-- `ORDER BY … LIMIT 1`: a row that no other comes before, the oldest of those that tie. -/
def firstBy {α : Type} (before : α → α → Prop) [DecidableRel before] : List α → Option α
  | [] => none
  | row :: rows =>
    match firstBy before rows with
    | some row' => if before row' row then some row' else some row
    | none => some row

def setCells (row : Row) (assignments : List (String × Value)) : Row :=
  assignments.foldl (fun row a => setCell columns row a.1 a.2) row

/-- `UPDATE table SET name = ?, … WHERE …`, and the number of the rows that it changed. -/
def update (assignments : List (String × Value)) (conditions : List Condition) (t : Table) :
    Except Fault (Table × Nat) :=
  let change (row : Row) : Row :=
    if Meets columns conditions row then setCells columns row assignments else row
  bound (assignments.map (·.2) ++ conditions.map (·.value))
    (.ok ({ t with rows := t.rows.map change }, t.rows.countP fun row => Meets columns conditions row))

/-! ## Rules -/

section Rules

variable {columns} {names : List String} {values : List Value} {t : Table} {row : Row}

theorem bound_of_bindable {α : Type} {result : Except Fault α} (h : ∀ v ∈ values, v.Bindable) :
    bound values result = result := if_neg (by simpa using h)

theorem newRow_eq (hnames : columns.map (·.name) = names) (hnodup : names.Nodup)
    (hlength : names.length = values.length) : newRow columns names values t = values := by
  subst hnames
  unfold newRow
  induction columns generalizing values with
  | nil => exact (List.eq_nil_of_length_eq_zero hlength.symm).symm
  | cons c columns ih =>
    obtain ⟨v, values, rfl⟩ := List.exists_cons_of_length_eq_add_one hlength.symm
    obtain ⟨hfresh, hnodup⟩ := List.nodup_cons.mp hnodup
    have hrest := ih hnodup (Nat.succ_injective hlength)
    rw [List.map_cons, List.map_cons, List.zip_cons_cons, List.lookup_cons_self, Option.getD_some]
    congr 1
    refine Eq.trans (List.map_congr_left fun c' hc' => ?_) hrest
    have hne : (c'.name == c.name) = false :=
      beq_eq_false_iff_ne.mpr fun h => hfresh (List.mem_map.mpr ⟨c', hc', h⟩)
    rw [List.lookup_cons, hne]

theorem newRow_counted {c : Column} {cs : List Column} (hcount : c.rule = .autoincrement)
    (hnames : cs.map (·.name) = names) (hfresh : c.name ∉ names) (hnodup : names.Nodup)
    (hlength : names.length = values.length) :
    newRow (c :: cs) names values t = .integer (t.sequence + 1) :: values := by
  have hnone : (names.zip values).lookup c.name = none := by
    apply List.lookup_eq_none_iff.mpr
    intro p hp
    have hne : c.name ≠ p.1 := by
      rintro h
      rw [h] at hfresh
      exact hfresh (List.of_mem_zip hp).1
    simpa using hne
  have hrest := @newRow_eq cs names values t hnames hnodup hlength
  unfold newRow at hrest ⊢
  rw [List.map_cons, hnone, Option.getD_none, if_pos hcount, hrest]

theorem cell_at (hnodup : (columns.map (·.name)).Nodup) {i : Nat} {c : Column} {v : Value}
    (hc : columns[i]? = some c) (hv : row[i]? = some v) : cell columns row c.name = v := by
  unfold cell
  induction columns generalizing row i with
  | nil => simp at hc
  | cons c' columns ih =>
    cases row with
    | nil => simp at hv
    | cons v' row =>
      obtain ⟨hfresh, hnodup⟩ := List.nodup_cons.mp hnodup
      rw [List.map_cons, List.zip_cons_cons]
      cases i with
      | zero =>
        cases hc
        cases hv
        rw [List.lookup_cons_self, Option.getD_some]
      | succ i =>
        rw [List.getElem?_cons_succ] at hc hv
        have hne : (c.name == c'.name) = false := beq_eq_false_iff_ne.mpr fun h =>
          hfresh (List.mem_map.mpr ⟨c, List.mem_of_getElem? hc, h⟩)
        rw [List.lookup_cons, hne]
        exact ih hnodup hc hv

theorem setCell_missing {name : String} {v : Value} (hname : name ∉ columns.map (·.name))
    (hlength : columns.length = row.length) : setCell columns row name v = row := by
  unfold setCell
  induction columns generalizing row with
  | nil => exact (List.eq_nil_of_length_eq_zero hlength.symm).symm
  | cons c columns ih =>
    obtain ⟨v', row, rfl⟩ := List.exists_cons_of_length_eq_add_one hlength.symm
    rw [List.map_cons, List.mem_cons, not_or] at hname
    rw [List.zipWith_cons_cons, if_neg (Ne.symm hname.1), ih hname.2 (Nat.succ_injective hlength)]

theorem setCell_at (hnodup : (columns.map (·.name)).Nodup) {i : Nat} {c : Column} {v : Value}
    (hc : columns[i]? = some c) (hlength : columns.length = row.length) :
    setCell columns row c.name v = row.set i v := by
  unfold setCell
  induction columns generalizing row i with
  | nil => simp at hc
  | cons c' columns ih =>
    obtain ⟨v', row, rfl⟩ := List.exists_cons_of_length_eq_add_one hlength.symm
    obtain ⟨hfresh, hnodup⟩ := List.nodup_cons.mp hnodup
    have hlength := Nat.succ_injective hlength
    rw [List.zipWith_cons_cons]
    cases i with
    | zero =>
      cases hc
      have hkept : List.zipWith (fun c' old => if c'.name = c.name then v else old) columns row =
          row := setCell_missing hfresh (Nat.succ_injective hlength)
      rw [if_pos rfl, List.set_cons_zero, hkept]
    | succ i =>
      rw [List.getElem?_cons_succ] at hc
      have hne : c'.name ≠ c.name := fun h =>
        hfresh (List.mem_map.mpr ⟨c, List.mem_of_getElem? hc, h.symm⟩)
      rw [if_neg hne, List.set_cons_succ, ih hnodup hc hlength]

theorem firstBy_mem {α : Type} {before : α → α → Prop} [DecidableRel before] {xs : List α} {y : α}
    (h : firstBy before xs = some y) : y ∈ xs := by
  induction xs with
  | nil => cases h
  | cons x xs ih =>
    rw [firstBy] at h
    split at h
    next y' hy' =>
      split_ifs at h <;> cases h
      · exact List.mem_cons_of_mem _ (ih hy')
      · exact List.mem_cons_self
    next =>
      cases h
      exact List.mem_cons_self

theorem firstBy_map {α β : Type} {before : α → α → Prop} {before' : β → β → Prop}
    [DecidableRel before] [DecidableRel before'] {f : α → β} {xs : List α}
    (h : ∀ a ∈ xs, ∀ b ∈ xs, before' (f a) (f b) ↔ before a b) :
    firstBy before' (xs.map f) = (firstBy before xs).map f := by
  induction xs with
  | nil => rfl
  | cons x xs ih =>
    have hrest := ih fun a ha b hb => h a (List.mem_cons_of_mem _ ha) b (List.mem_cons_of_mem _ hb)
    rw [List.map_cons, firstBy, firstBy, hrest]
    cases hfirst : firstBy before xs with
    | none => rfl
    | some y =>
      have hiff := h y (List.mem_cons_of_mem _ (firstBy_mem hfirst)) x List.mem_cons_self
      simp only [Option.map_some, hiff]
      split_ifs <;> rfl

theorem firstBy_tiers {α : Type} {before : α → α → Prop} [DecidableRel before] {high : α → Prop}
    [DecidablePred high] {xs : List α} (habove : ∀ a ∈ xs, ∀ b ∈ xs, high a → ¬ high b → before a b)
    (hbelow : ∀ a ∈ xs, ∀ b ∈ xs, ¬ high a → high b → ¬ before a b) :
    firstBy before xs =
      (firstBy before (xs.filter fun a => high a)).or
        (firstBy before (xs.filter fun a => ¬ high a)) := by
  induction xs with
  | nil => rfl
  | cons x xs ih =>
    have hrest := ih
      (fun a ha b hb => habove a (List.mem_cons_of_mem _ ha) b (List.mem_cons_of_mem _ hb))
      (fun a ha b hb => hbelow a (List.mem_cons_of_mem _ ha) b (List.mem_cons_of_mem _ hb))
    have hmem : ∀ {p : α → Bool} {y : α}, firstBy before (xs.filter p) = some y →
        y ∈ x :: xs ∧ p y = true := fun h =>
      have hy := List.mem_filter.mp (firstBy_mem h)
      ⟨List.mem_cons_of_mem _ hy.1, hy.2⟩
    rw [firstBy, hrest]
    -- A high head meets the first high one. If there is none, no other comes before it.
    by_cases hx : high x
    · rw [List.filter_cons_of_pos (by simpa using hx), List.filter_cons_of_neg (by simpa using hx),
        firstBy]
      cases hhigh : firstBy before (xs.filter fun a => high a) with
      | some y =>
        simp only [Option.some_or]
        split_ifs <;> rfl
      | none =>
        cases hlow : firstBy before (xs.filter fun a => ¬ high a) with
        | none => rfl
        | some z =>
          obtain ⟨hz, hnot⟩ := hmem hlow
          exact if_neg (hbelow z hz x List.mem_cons_self (by simpa using hnot) hx)
    · rw [List.filter_cons_of_neg (by simpa using hx), List.filter_cons_of_pos (by simpa using hx)]
      cases hhigh : firstBy before (xs.filter fun a => high a) with
      | some y =>
        obtain ⟨hy, hhigh⟩ := hmem hhigh
        exact if_pos (habove y hy x List.mem_cons_self (by simpa using hhigh) hx)
      | none => rw [Option.none_or, Option.none_or, firstBy]

theorem orderedInsert_last {α : Type} {r : α → α → Prop} [DecidableRel r] {a : α} {xs : List α}
    (h : ∀ b ∈ xs, ¬ r a b) : xs.orderedInsert r a = xs ++ [a] := by
  induction xs with
  | nil => rfl
  | cons x xs ih =>
    obtain ⟨hx, hxs⟩ := List.forall_mem_cons.mp h
    rw [List.orderedInsert_cons, if_neg hx, ih hxs, List.cons_append]

theorem descending_of_pairwise {name : String} {rows : List Row}
    (h : rows.Pairwise fun row row' => (cell columns row name).key < (cell columns row' name).key) :
    descending columns name rows = rows.reverse := by
  unfold descending
  induction rows with
  | nil => rfl
  | cons row rows ih =>
    obtain ⟨hrow, hrows⟩ := List.pairwise_cons.mp h
    rw [List.insertionSort_cons, ih hrows, List.reverse_cons, orderedInsert_last]
    intro row' hrow'
    exact not_le.mpr (hrow row' (List.mem_reverse.mp hrow'))

theorem update_map {α : Type} {xs : List α} {write : α → Row} {p : α → Prop} [DecidablePred p]
    {change : α → α} {assignments : List (String × Value)} {conditions : List Condition}
    (hrows : t.rows = xs.map write) (hmeets : ∀ a, Meets columns conditions (write a) ↔ p a)
    (hset : ∀ a, setCells columns (write a) assignments = write (change a))
    (hbindable : ∀ v ∈ assignments.map (·.2) ++ conditions.map (·.value), v.Bindable) :
    update columns assignments conditions t =
      .ok ({ t with rows := (xs.map fun a => if p a then change a else a).map write },
        xs.countP fun a => p a) := by
  have hchange : ∀ a, (if Meets columns conditions (write a) then
      setCells columns (write a) assignments else write a) =
        write (if p a then change a else a) := by
    intro a
    by_cases ha : p a
    · rw [if_pos ((hmeets a).mpr ha), if_pos ha, hset]
    · rw [if_neg (mt (hmeets a).mp ha), if_neg ha]
  unfold update
  dsimp only
  rw [bound_of_bindable hbindable, hrows, List.map_map, List.map_map, List.countP_map]
  have hrows' : xs.map ((fun row => if Meets columns conditions row then
      setCells columns row assignments else row) ∘ write) =
        xs.map (write ∘ fun a => if p a then change a else a) :=
    List.map_congr_left fun a _ => hchange a
  have hcount : ((fun row => decide (Meets columns conditions row)) ∘ write) = fun a => decide (p a) :=
    funext fun a => decide_eq_decide.mpr (hmeets a)
  rw [hrows', hcount]

end Rules

end Cells

end Tables
