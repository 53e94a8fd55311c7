import Mathlib.Data.List.DropRight
import Mathlib.Data.List.Dedup
import Mathlib.Data.List.Perm.Subperm

/-!
# Keys by their last use

Keys that stand by their last use, the most recently used one first, have only those
ahead of them that have been used since.
-/

namespace Recency

variable {α : Type} [DecidableEq α]

/-- What has been used since the last use of `k`. -/
def since (k : α) (us : List α) : List α := us.rtakeWhile fun x => decide (x ≠ k)

theorem since_concat_self (k : α) (us : List α) : since k (us ++ [k]) = [] :=
  List.rtakeWhile_concat_neg _ _ _ (by simp)

theorem since_concat {k x : α} (h : x ≠ k) (us : List α) :
    since k (us ++ [x]) = since k us ++ [x] :=
  List.rtakeWhile_concat_pos _ _ _ (by simpa using h)

theorem notMem_since (k : α) (us : List α) : k ∉ since k us := by
  intro h
  have hne := List.mem_rtakeWhile_imp h
  exact of_decide_eq_true hne rfl

/-- The keys stand by their last use, the most recently used one first. -/
def ByUse (us ks : List α) : Prop := ks.Pairwise fun a b => a ∈ since b us

variable {us ks ks' : List α} {k : α}

theorem byUse_nil (us : List α) : ByUse us [] := List.Pairwise.nil

theorem ByUse.sublist (h : ByUse us ks) (hs : ks'.Sublist ks) : ByUse us ks' :=
  List.Pairwise.sublist hs h

theorem ByUse.nodup (h : ByUse us ks) : ks.Nodup := by
  refine List.Pairwise.imp ?_ h
  rintro a b hab rfl
  exact notMem_since a us hab

theorem ByUse.touch (h : ByUse us ks) (k : α) : ByUse (us ++ [k]) (k :: ks.erase k) := by
  have hrest : ByUse us (ks.erase k) := h.sublist List.erase_sublist
  have hne : ∀ b ∈ ks.erase k, k ≠ b := by
    rintro b hb rfl
    exact h.nodup.not_mem_erase hb
  refine List.pairwise_cons.mpr ⟨fun b hb => ?_, ?_⟩
  · rw [since_concat (hne b hb)]
    simp
  · refine List.Pairwise.imp_of_mem (fun {a b} _ hb hab => ?_) hrest
    rw [since_concat (hne b hb)]
    exact List.mem_append_left _ hab

theorem ByUse.ahead_le {front back : List α} (h : ByUse us (front ++ k :: back)) :
    front.length ≤ (since k us).dedup.length := by
  have hnodup : front.Nodup := h.nodup.sublist (List.sublist_append_left _ _)
  have hsub : front ⊆ (since k us).dedup := by
    intro a ha
    rw [List.mem_dedup]
    exact (List.pairwise_append.mp h).2.2 a ha k List.mem_cons_self
  exact (List.Nodup.subperm hnodup hsub).length_le

theorem ByUse.mem_take (h : ByUse us ks) (hk : k ∈ ks) {m : Nat}
    (hm : (since k us).dedup.length < m) : k ∈ ks.take m := by
  obtain ⟨front, back, rfl⟩ := List.append_of_mem hk
  have hfront := h.ahead_le
  obtain ⟨n, rfl⟩ := Nat.exists_eq_add_of_lt (hfront.trans_lt hm)
  rw [show front.length + n + 1 = front.length + (n + 1) by omega, List.take_length_add_append]
  simp

theorem dedup_since_concat_le {x : α} (h : x ≠ k) (us : List α) :
    (since k us).dedup.length ≤ (since k (us ++ [x])).dedup.length := by
  rw [since_concat h]
  refine (List.Nodup.subperm (List.nodup_dedup _) fun a ha => ?_).length_le
  rw [List.mem_dedup] at ha ⊢
  exact List.mem_append_left _ ha

end Recency
