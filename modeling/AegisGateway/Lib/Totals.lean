import AegisGateway.Lib.Pool
import Mathlib.Algebra.BigOperators.Fin
import Mathlib.Algebra.Order.BigOperators.Group.Finset
import Mathlib.Algebra.Order.BigOperators.Group.List

/-!
# Totals over a pool

What the events of a log come to is what the tasks have come to, one by one. So a bound on
each task, whatever the order of the moves, is a bound on all of them.
-/

namespace Coroutine

variable {Op : Type} {Ans : Op → Type} {E α W In Call K : Type}

def accrued [AddMonoid K] (f : Event Op Ans → K) (tr : Trace Op Ans) : K := (tr.map f).sum

section Accrued

variable [AddMonoid K] (f : Event Op Ans → K)

@[simp]
theorem accrued_nil : accrued f [] = 0 := rfl

@[simp]
theorem accrued_cons (e : Event Op Ans) (tr : Trace Op Ans) :
    accrued f (e :: tr) = f e + accrued f tr := List.sum_cons

@[simp]
theorem accrued_append (tr tr' : Trace Op Ans) :
    accrued f (tr ++ tr') = accrued f tr + accrued f tr' := by
  rw [accrued, List.map_append, List.sum_append, accrued, accrued]

variable {f}

theorem accrued_eq_zero {tr : Trace Op Ans} (h : ∀ e ∈ tr, f e = 0) : accrued f tr = 0 := by
  induction tr with
  | nil => rfl
  | cons e tr ih =>
    obtain ⟨he, htr⟩ := List.forall_mem_cons.mp h
    rw [accrued_cons, he, ih htr, add_zero]

end Accrued

namespace Machine

variable {M : Machine Op Ans E α W In Call}
  {Ok : Pool Op Ans E α W Call → Move In Call → Prop} {w : W} {c : Pool Op Ans E α W Call}

theorem accrued_log_of_lt [AddCommMonoid K] (f : Event Op Ans → K) {n : Nat}
    {log : List (Nat × Event Op Ans)} (h : ∀ e ∈ log, e.1 < n) :
    accrued f (log.map (·.2)) =
      ∑ i : Fin n, accrued f ((log.filter fun e => e.1 == i.val).map (·.2)) := by
  induction log with
  | nil => simp
  | cons e log ih =>
    obtain ⟨he, hlog⟩ := List.forall_mem_cons.mp h
    -- The first event counts for its own task and for no other.
    have hfirst : ∀ i : Fin n, accrued f (((e :: log).filter fun e => e.1 == i.val).map (·.2)) =
        (if i = ⟨e.1, he⟩ then f e.2 else 0) +
          accrued f ((log.filter fun e => e.1 == i.val).map (·.2)) := by
      intro i
      rw [List.filter_cons]
      by_cases hi : i = ⟨e.1, he⟩
      · subst hi
        simp
      · have hne : (e.1 == i.val) = false := by
          rw [beq_eq_false_iff_ne]
          exact fun heq => hi (Fin.ext heq.symm)
        simp [hne, hi]
    rw [List.map_cons, accrued_cons, ih hlog, Finset.sum_congr rfl fun i _ => hfirst i,
      Finset.sum_add_distrib, Finset.sum_ite_eq' Finset.univ, if_pos (Finset.mem_univ _)]

theorem Reach.accrued_log [AddCommMonoid K] (h : M.Reach Ok (.empty w) c) (f : Event Op Ans → K) :
    accrued f (c.log.map (·.2)) = ∑ i : Fin c.tasks.length, accrued f (c.trace i) := by
  apply accrued_log_of_lt f
  intro e he
  obtain ⟨t, ht⟩ := h.task_of_mem he
  exact (List.getElem?_eq_some_iff.mp ht).1

/-- A bound on what each task has done is a bound on what all of them have. -/
theorem Reach.accrued_le [AddCommMonoid K] [PartialOrder K] [IsOrderedAddMonoid K]
    (h : M.Reach Ok (.empty w) c) {f : Event Op Ans → K} {bound : Call → K}
    (htask : ∀ i t, c.tasks[i]? = some t → accrued f (c.trace i) ≤ bound t.call) :
    accrued f (c.log.map (·.2)) ≤ (c.tasks.map fun t => bound t.call).sum := by
  have hsum : (c.tasks.map fun t => bound t.call).sum =
      ∑ i : Fin c.tasks.length, bound c.tasks[i].call := by
    rw [← List.sum_ofFn]
    congr 1
    apply List.ext_getElem (by simp)
    intro i hi hi'
    simp
  rw [h.accrued_log f, hsum]
  exact Finset.sum_le_sum fun i _ => htask i _ (List.getElem?_eq_getElem i.isLt)

end Machine

end Coroutine
