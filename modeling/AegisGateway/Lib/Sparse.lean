import Mathlib.Algebra.BigOperators.Field
import Mathlib.Data.List.AList

/-!
# Sparse vectors

A vector is a dictionary from its coordinates to their values, and what it does not hold is zero.
The order of a dictionary does not matter to sums over it. The tally of a list of weights is the
vector of their sums, whatever the order of the list.
-/

open Finset

namespace Sparse

variable {κ : Type} [DecidableEq κ] {R : Type}

abbrev Vec (κ R : Type) : Type := AList fun _ : κ => R

section Semiring

variable [CommSemiring R] {v v' w w' : Vec κ R}

def value (v : Vec κ R) (k : κ) : R := (v.lookup k).getD 0

/-- The sum over the entries of one vector, each with its value in the other. -/
def dot (v w : Vec κ R) : R := (v.entries.map fun e => e.2 * value w e.1).sum

theorem value_of_mem {e : Sigma fun _ : κ => R} (h : e ∈ v.entries) : value v e.1 = e.2 := by
  rw [value, AList.mem_lookup_iff.mpr h]
  rfl

theorem value_of_notMem {k : κ} (h : k ∉ v.keys) : value v k = 0 := by
  rw [value, AList.lookup_eq_none.mpr h]
  rfl

theorem dot_eq_sum {s : Finset κ} (h : v.keys.toFinset ⊆ s) :
    dot v w = ∑ k ∈ s, value v k * value w k := by
  have hentries : dot v w = (v.keys.map fun k => value v k * value w k).sum := by
    rw [dot, AList.keys, List.keys, List.map_map]
    refine congrArg List.sum (List.map_congr_left fun e he => ?_)
    rw [Function.comp_apply, value_of_mem he]
  rw [hentries, ← List.sum_toFinset _ v.keys_nodup]
  apply sum_subset h
  intro k _ hk
  rw [value_of_notMem (by simpa using hk), zero_mul]

theorem dot_comm (v w : Vec κ R) : dot v w = dot w v := by
  have hright : w.keys.toFinset ⊆ v.keys.toFinset ∪ w.keys.toFinset := subset_union_right
  rw [dot_eq_sum subset_union_left, dot_eq_sum hright]
  exact sum_congr rfl fun k _ => mul_comm _ _

theorem dot_congr (hv : value v = value v') (hw : value w = value w') : dot v w = dot v' w' := by
  have hright : v'.keys.toFinset ⊆ v.keys.toFinset ∪ v'.keys.toFinset := subset_union_right
  rw [dot_eq_sum subset_union_left, dot_eq_sum hright, hv, hw]

theorem exists_of_dot (h : dot v w ≠ 0) : ∃ k, value v k ≠ 0 ∧ value w k ≠ 0 := by
  rw [dot_eq_sum Subset.rfl] at h
  obtain ⟨k, -, hk⟩ := exists_ne_zero_of_sum_ne_zero h
  exact ⟨k, left_ne_zero_of_mul hk, right_ne_zero_of_mul hk⟩

/-! ## Tallies -/

def weight (ps : List (κ × R)) (k : κ) : R := ((ps.filter (·.1 = k)).map (·.2)).sum

def tally (ps : List (κ × R)) : Vec κ R :=
  ps.foldl (fun v p => v.insert p.1 (value v p.1 + p.2)) ∅

theorem value_insert (v : Vec κ R) (k k' : κ) (x : R) :
    value (v.insert k x) k' = if k' = k then x else value v k' := by
  unfold value
  split_ifs with h
  · rw [h, AList.lookup_insert]
    rfl
  · rw [AList.lookup_insert_ne h]

theorem weight_cons (p : κ × R) (ps : List (κ × R)) (k : κ) :
    weight (p :: ps) k = (if p.1 = k then p.2 else 0) + weight ps k := by
  unfold weight
  rw [List.filter_cons]
  by_cases h : p.1 = k <;> simp [h]

theorem value_tally (ps : List (κ × R)) : value (tally ps) = weight ps := by
  have hfrom : ∀ (ps : List (κ × R)) (v : Vec κ R) (k : κ),
      value (ps.foldl (fun v p => v.insert p.1 (value v p.1 + p.2)) v) k =
        value v k + weight ps k := by
    intro ps
    induction ps with
    | nil => simp [weight]
    | cons p ps ih =>
      intro v k
      rw [List.foldl_cons, ih, value_insert, weight_cons]
      by_cases h : k = p.1
      · subst h
        simp [add_assoc]
      · simp [h, Ne.symm h]
  funext k
  rw [tally, hfrom]
  simp [value]

theorem weight_perm {ps ps' : List (κ × R)} (h : ps.Perm ps') : weight ps = weight ps' := by
  funext k
  exact ((h.filter _).map _).sum_eq

theorem exists_of_weight {ps : List (κ × R)} {k : κ} (h : weight ps k ≠ 0) : ∃ p ∈ ps, p.1 = k := by
  by_contra hnone
  apply h
  have hfilter : ps.filter (·.1 = k) = [] := by
    refine List.filter_eq_nil_iff.mpr fun p hp hk => hnone ⟨p, hp, by simpa using hk⟩
  rw [weight, hfilter]
  rfl

end Semiring

/-! ## Scaling -/

section Field

variable [Field R]

def divided (v : Vec κ R) (c : R) : Vec κ R :=
  ⟨v.entries.map fun e => ⟨e.1, e.2 / c⟩, by
    have hkeys : (v.entries.map fun e => (⟨e.1, e.2 / c⟩ : Sigma fun _ : κ => R)).keys =
        v.entries.keys := by simp [List.keys]
    rw [List.NodupKeys, hkeys]
    exact v.nodupKeys⟩

theorem value_divided (v : Vec κ R) (c : R) (k : κ) : value (divided v c) k = value v k / c := by
  by_cases hk : k ∈ v.keys
  · obtain ⟨x, hx⟩ := AList.mem_keys.mp hk |> AList.lookup_isSome.mpr |> Option.isSome_iff_exists.mp
    have hmem : (⟨k, x⟩ : Sigma fun _ : κ => R) ∈ v.entries := AList.mem_lookup_iff.mp hx
    have hdivided : (⟨k, x / c⟩ : Sigma fun _ : κ => R) ∈ (divided v c).entries :=
      List.mem_map_of_mem hmem
    rw [value_of_mem hmem, value_of_mem hdivided]
  · have hdivided : k ∉ (divided v c).keys := by
      simpa [divided, AList.keys, List.keys] using hk
    rw [value_of_notMem hk, value_of_notMem hdivided, zero_div]

theorem dot_divided (v w : Vec κ R) (c d : R) :
    dot (divided v c) (divided w d) = dot v w / (c * d) := by
  have hkeys : (divided v c).keys = v.keys := by simp [divided, AList.keys, List.keys]
  rw [dot_eq_sum (v := divided v c) (s := v.keys.toFinset) (by rw [hkeys]), dot_eq_sum Subset.rfl,
    sum_div]
  apply sum_congr rfl
  intro k _
  rw [value_divided, value_divided, div_mul_div_comm]

end Field

end Sparse
