import Mathlib.Data.List.Sort
import Mathlib.Order.Bounds.Defs

/-!
# Ranks in a sorted list

What stands at a place of a sorted list is large exactly if many elements are. So a bound
on one rank is a bound on a number of elements, and the order of the list does not matter.
-/

namespace Ranks

theorem countP_split {α : Type} (p : α → Bool) (xs : List α) (k : Nat) :
    xs.countP p = (xs.take k).countP p + (xs.drop k).countP p := by
  rw [← List.countP_append, List.take_append_drop]

variable {α : Type} [LinearOrder α] {xs : List α}

theorem lt_getElem_iff (h : xs.Pairwise (· ≤ ·)) {k : Nat} (hk : k < xs.length) (m : α) :
    m < xs[k] ↔ xs.length - k ≤ xs.countP fun x => decide (m < x) := by
  constructor
  · intro hm
    have hdrop : xs.drop k = xs[k] :: xs.drop (k + 1) := List.drop_eq_getElem_cons hk
    have htail : ∀ x ∈ xs.drop k, xs[k] ≤ x := by
      have hsorted := h.sublist (List.drop_sublist k xs)
      rw [hdrop, List.pairwise_cons] at hsorted
      rw [hdrop, List.forall_mem_cons]
      exact ⟨le_rfl, hsorted.1⟩
    have hall : (xs.drop k).countP (fun x => decide (m < x)) = xs.length - k := by
      rw [← List.length_drop, List.countP_eq_length]
      exact fun x hx => decide_eq_true (hm.trans_le (htail x hx))
    rw [countP_split _ xs k, hall]
    exact Nat.le_add_left _ _
  · intro hcount
    -- If it is not above, it and those before it are not either, and too few are left.
    by_contra hle
    rw [not_lt] at hle
    have htake : xs.take (k + 1) = xs.take k ++ [xs[k]] := by
      rw [List.take_add_one, List.getElem?_eq_getElem hk, Option.toList_some]
    have hfront : ∀ x ∈ xs.take (k + 1), x ≤ xs[k] := by
      have hsorted := h.sublist (List.take_sublist (k + 1) xs)
      rw [htake, List.pairwise_append] at hsorted
      rw [htake, List.forall_mem_append]
      exact ⟨fun x hx => hsorted.2.2 x hx _ (List.mem_singleton_self _), by simp⟩
    have hnone : (xs.take (k + 1)).countP (fun x => decide (m < x)) = 0 := by
      rw [List.countP_eq_zero]
      intro x hx hlt
      exact absurd (of_decide_eq_true hlt) (not_lt.mpr ((hfront x hx).trans hle))
    have hback : (xs.drop (k + 1)).countP (fun x => decide (m < x)) ≤ xs.length - (k + 1) := by
      rw [← List.length_drop]
      exact List.countP_le_length
    rw [countP_split _ xs (k + 1), hnone] at hcount
    omega

theorem getElem_le_iff (h : xs.Pairwise (· ≤ ·)) {k : Nat} (hk : k < xs.length) (u : α) :
    xs[k] ≤ u ↔ k < xs.countP fun x => decide (x ≤ u) := by
  have hsplit := List.length_eq_countP_add_countP (fun x => decide (x ≤ u)) (l := xs)
  have hrest : xs.countP (fun x => !decide (x ≤ u)) = xs.countP fun x => decide (u < x) := by
    apply List.countP_congr
    intro x _
    simp
  have hlt := lt_getElem_iff h hk u
  rw [← not_lt, hlt]
  simp only [Bool.decide_eq_true, Bool.not_eq_true, ← Bool.not_eq_true'] at hsplit
  omega

theorem isLeast_sorted (xs : List α) {k : Nat} (hk : k < xs.length) :
    ∃ v, (xs.insertionSort (· ≤ ·))[k]? = some v ∧
      IsLeast {v | v ∈ xs ∧ k < xs.countP fun x => decide (x ≤ v)} v := by
  have hperm := List.perm_insertionSort (· ≤ ·) xs
  have hk' : k < (xs.insertionSort (· ≤ ·)).length := by rwa [hperm.length_eq]
  have hle : ∀ u, (xs.insertionSort (· ≤ ·))[k] ≤ u ↔ k < xs.countP fun x => decide (x ≤ u) := by
    intro u
    rw [← hperm.countP_eq]
    exact getElem_le_iff (List.pairwise_insertionSort _ xs) hk' u
  refine ⟨_, List.getElem?_eq_getElem hk', ⟨?_, (hle _).mp le_rfl⟩, ?_⟩
  · exact hperm.subset (List.getElem_mem hk')
  · rintro u ⟨-, hu⟩
    exact (hle u).mpr hu

theorem lt_sorted_iff (xs : List α) {k : Nat} (hk : k < xs.length) (m : α) :
    (∃ x, (xs.insertionSort (· ≤ ·))[k]? = some x ∧ m < x) ↔
      xs.length - k ≤ xs.countP fun x => decide (m < x) := by
  have hperm := List.perm_insertionSort (· ≤ ·) xs
  have hk' : k < (xs.insertionSort (· ≤ ·)).length := by rwa [hperm.length_eq]
  rw [← hperm.countP_eq, ← hperm.length_eq,
    ← lt_getElem_iff (List.pairwise_insertionSort _ xs) hk', List.getElem?_eq_getElem hk']
  simp

theorem sorted_eq_of_perm {ys : List α} (h : xs.Perm ys) :
    xs.insertionSort (· ≤ ·) = ys.insertionSort (· ≤ ·) := by
  have hperm := ((List.perm_insertionSort (· ≤ ·) xs).trans h).trans
    (List.perm_insertionSort (· ≤ ·) ys).symm
  exact hperm.eq_of_pairwise (fun a b _ _ hab hba => le_antisymm hab hba)
    (List.pairwise_insertionSort _ xs) (List.pairwise_insertionSort _ ys)

/-! ## Any order -/

section Order

variable {α : Type} {r : α → α → Prop} [DecidableRel r]

theorem insertionSort_perm [Std.Total r] [IsTrans α r] {l l' : List α} (h : l.Perm l')
    (hanti : ∀ a ∈ l, ∀ b ∈ l, r a b → r b a → a = b) :
    l.insertionSort r = l'.insertionSort r := by
  have hsort := List.perm_insertionSort r l
  have hsort' := List.perm_insertionSort r l'
  refine ((hsort.trans h).trans hsort'.symm).eq_of_pairwise ?_
    (List.pairwise_insertionSort r l) (List.pairwise_insertionSort r l')
  intro a b ha hb
  exact hanti a (hsort.subset ha) b (h.symm.subset (hsort'.subset hb))

theorem filter_orderedInsert {p : α → Bool} {x : α} (hx : p x = false) (l : List α) :
    (l.orderedInsert r x).filter p = l.filter p := by
  induction l with
  | nil => simp [hx]
  | cons y l ih =>
    rw [List.orderedInsert_cons]
    split_ifs
    · simp [hx]
    · rw [List.filter_cons, List.filter_cons, ih]

end Order

/-! ## The best one -/

section Best

variable {α β : Type} [LinearOrder α] (p : β → Prop) [DecidablePred p] (score : β → α) (bound : α)

/-- A scan from the back for the highest score from a bound on, among those that qualify. It
changes over to what is as good. -/
def best (l : List β) : Option β × α :=
  l.foldr (fun x b => if p x ∧ b.2 ≤ score x then (some x, score x) else b) (none, bound)

variable {p score bound}

theorem best_cons_of_le {x : β} {l : List β} (hp : p x) (hle : (best p score bound l).2 ≤ score x) :
    best p score bound (x :: l) = (some x, score x) := if_pos ⟨hp, hle⟩

theorem best_cons_of_lt {x : β} {l : List β} (hlt : p x → score x < (best p score bound l).2) :
    best p score bound (x :: l) = best p score bound l := by
  apply if_neg
  rintro ⟨hp, hle⟩
  exact absurd hle (not_le.mpr (hlt hp))

variable (p score bound) in
theorem best_spec (l : List β) :
    (best p score bound l = (none, bound) ∧ ∀ y ∈ l, p y → score y < bound) ∨
      ∃ front x back, l = front ++ x :: back ∧ best p score bound l = (some x, score x) ∧ p x ∧
        bound ≤ score x ∧ (∀ y ∈ front, p y → score y < score x) ∧
        ∀ y ∈ back, p y → score y ≤ score x := by
  induction l with
  | nil => exact .inl ⟨rfl, by simp⟩
  | cons z l ih =>
    -- The scan comes from the back, so the head wins if it is as good as the best behind it.
    by_cases hz : p z ∧ (best p score bound l).2 ≤ score z
    · obtain ⟨hp, hle⟩ := hz
      refine .inr ⟨[], z, l, rfl, best_cons_of_le hp hle, hp, ?_, by simp, ?_⟩
      · rcases ih with ⟨hl, -⟩ | ⟨front, x, back, -, hl, -, hbound, -⟩
        · rwa [hl] at hle
        · rw [hl] at hle
          exact hbound.trans hle
      · intro y hy hpy
        rcases ih with ⟨hl, hall⟩ | ⟨front, x, back, rfl, hl, -, -, hfront, hback⟩
        · rw [hl] at hle
          exact (hall y hy hpy).le.trans hle
        · rw [hl] at hle
          rcases List.mem_append.mp hy with hy | hy
          · exact (hfront y hy hpy).le.trans hle
          rcases List.mem_cons.mp hy with rfl | hy
          · exact hle
          · exact (hback y hy hpy).trans hle
    · have hlt : p z → score z < (best p score bound l).2 := by
        intro hp
        exact not_le.mp fun hle => hz ⟨hp, hle⟩
      rw [best_cons_of_lt hlt]
      rcases ih with ⟨hl, hall⟩ | ⟨front, x, back, rfl, hl, hp, hbound, hfront, hback⟩
      · rw [hl] at hlt
        exact .inl ⟨hl, List.forall_mem_cons.mpr ⟨hlt, hall⟩⟩
      · rw [hl] at hlt
        exact .inr ⟨z :: front, x, back, rfl, hl, hp, hbound,
          List.forall_mem_cons.mpr ⟨hlt, hfront⟩, hback⟩

theorem best_eq_none_iff {l : List β} :
    (best p score bound l).1 = none ↔ ∀ y ∈ l, p y → score y < bound := by
  rcases best_spec p score bound l with
    ⟨hl, hall⟩ | ⟨front, x, back, rfl, hl, hp, hbound, -⟩
  · simp only [hl, true_iff]
    exact hall
  · simp only [hl, reduceCtorEq, false_iff]
    intro hall
    exact absurd (hall x (by simp) hp) (not_lt.mpr hbound)

theorem best_eq_some {l : List β} {x : β} (h : (best p score bound l).1 = some x) :
    ∃ front back, l = front ++ x :: back ∧ p x ∧ bound ≤ score x ∧
      (∀ y ∈ front, p y → score y < score x) ∧ ∀ y ∈ back, p y → score y ≤ score x := by
  rcases best_spec p score bound l with
    ⟨hl, -⟩ | ⟨front, x', back, rfl, hl, hp, hbound, hfront, hback⟩
  · rw [hl] at h
    cases h
  · rw [hl] at h
    obtain rfl := Option.some.inj h
    exact ⟨front, back, rfl, hp, hbound, hfront, hback⟩

variable (p score bound) in
theorem foldl_eq_best {γ : Type} (g : β → γ) (l : List β) :
    l.reverse.foldl (fun (b : Option γ × α) x =>
      if ¬ p x then b else if b.2 ≤ score x then (some (g x), score x) else b) (none, bound) =
        ((best p score bound l).1.map g, (best p score bound l).2) := by
  rw [List.foldl_reverse]
  induction l with
  | nil => rfl
  | cons x l ih =>
    rw [List.foldr_cons, ih]
    by_cases hp : p x
    · by_cases hle : (best p score bound l).2 ≤ score x
      · rw [best_cons_of_le hp hle]
        simp [hp, hle]
      · rw [best_cons_of_lt fun _ => not_le.mp hle]
        simp [hp, hle]
    · rw [best_cons_of_lt fun h => absurd h hp]
      simp [hp]

theorem best_filter (l : List β) :
    best p score bound (l.filter fun x => decide (p x)) = best p score bound l := by
  induction l with
  | nil => rfl
  | cons x l ih =>
    by_cases hp : p x
    · rw [List.filter_cons_of_pos (by simpa using hp)]
      exact congrArg (fun b => if p x ∧ b.2 ≤ score x then (some x, score x) else b) ih
    · rw [List.filter_cons_of_neg (by simpa using hp), best_cons_of_lt (fun h => absurd h hp), ih]

end Best

end Ranks
