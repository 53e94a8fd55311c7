import AegisGateway.Lib.Pool
import Mathlib.Logic.Hydra

/-!
# Pools that run out

Nothing bounds in advance how long a task is or how many it starts. But a program is a tree of
finite depth, and if what a task starts ranks below the task, then the tasks of a pool come to
their ends in whatever order they run, as heads of a hydra do.
-/

namespace Coroutine

variable {Op : Type} {Ans : Op → Type} {E α W In Call : Type}

/-- `After p' p`: the program `p'` is what one more answer leaves of `p`. -/
inductive Prog.After : Prog Op Ans E α → Prog Op Ans E α → Prop
  | op (o : Op) (k : Ans o → Prog Op Ans E α) (a : Ans o) : After (k a) (.op o k)

theorem Prog.after_wf : WellFounded (Prog.After : Prog Op Ans E α → Prog Op Ans E α → Prop) := by
  refine ⟨fun p => ?_⟩
  induction p with
  | pure a => exact ⟨_, fun p' h => by cases h⟩
  | throw e => exact ⟨_, fun p' h => by cases h⟩
  | op o k ih =>
    refine ⟨_, fun p' h => ?_⟩
    cases h with
    | op _ _ a => exact ih a

/-- A task that ranks below, or one that has gone on. -/
def Task.Below (rank : Call → Nat) : Task Op Ans E α Call → Task Op Ans E α Call → Prop :=
  InvImage (Prod.Lex (· < ·) Prog.After) fun t => (rank t.call, t.rest)

theorem Task.below_wf (rank : Call → Nat) :
    WellFounded (Task.Below rank : Task Op Ans E α Call → Task Op Ans E α Call → Prop) :=
  InvImage.wf _ (WellFounded.prod_lex Nat.lt_wfRel.wf Prog.after_wf)

namespace Machine

variable (M : Machine Op Ans E α W In Call)

/-- One of the tasks moves, whatever has become of the world in the meantime. -/
def Turn (c c' : Pool Op Ans E α W Call) : Prop :=
  ∃ w i x, M.step? { c with world := w } (.run i x) = some c'

def Ranked (rank : Call → Nat) : Prop :=
  ∀ call, (M.body call).Emits fun e => ∀ started ∈ M.spawn e.1, rank started < rank call

def Responsive : Prop := ∀ w o, ∃ x, M.exec w o x ≠ none

variable {M} {rank : Call → Nat} {c c' : Pool Op Ans E α W Call}

theorem Turn.onTheWay (h : M.Turn c c') (hc : M.OnTheWay c) : M.OnTheWay c' := by
  obtain ⟨w, i, x, hs⟩ := h
  exact onTheWay_step (c := { c with world := w }) hc hs

theorem onTheWay_turns (hc : M.OnTheWay c) (h : Relation.ReflTransGen M.Turn c c') :
    M.OnTheWay c' := by
  induction h with
  | refl => exact hc
  | tail _ hturn ih => exact hturn.onTheWay ih

theorem turns_of_reach {Ok : Pool Op Ans E α W Call → Move In Call → Prop}
    (hOk : ∀ c m, Ok c m → ∀ call, m ≠ .start call) (h : M.Reach Ok c c') :
    ∃ c₁, Relation.ReflTransGen M.Turn c c₁ ∧ ∃ w, c' = { c₁ with world := w } := by
  induction h with
  | start => exact ⟨c, .refl, c.world, rfl⟩
  | @next d d' m _ hok hs ih =>
    obtain ⟨c₁, hturns, w, rfl⟩ := ih
    cases m with
    | start call => exact absurd rfl (hOk _ _ hok call)
    | drift x =>
      obtain ⟨w', -, rfl⟩ := Option.map_eq_some_iff.mp hs
      exact ⟨c₁, hturns, w', rfl⟩
    | run i x => exact ⟨d', hturns.tail ⟨w, i, x, hs⟩, d'.world, rfl⟩

theorem perm_set {l : List (Task Op Ans E α Call)} {i : Nat} {t : Task Op Ans E α Call}
    (h : l[i]? = some t) (t' : Task Op Ans E α Call) : (l.set i t' ++ [t]).Perm (t' :: l) := by
  obtain ⟨hi, rfl⟩ := List.getElem?_eq_some_iff.mp h
  have hset : (l.set i t').Perm (t' :: l.eraseIdx i) := List.set_perm_cons_eraseIdx hi t'
  have herase : (l.eraseIdx i ++ [l[i]]).Perm l :=
    (List.perm_append_singleton _ _).trans (List.getElem_cons_eraseIdx_perm hi)
  exact (hset.append_right _).trans (herase.cons t')

theorem calls_set {l : List (Task Op Ans E α Call)} {i : Nat} {t t' : Task Op Ans E α Call}
    (h : l[i]? = some t) (hcall : t'.call = t.call) :
    (l.set i t').map (·.call) = l.map (·.call) := by
  apply List.ext_getElem?
  intro j
  rw [List.getElem?_map, List.getElem?_map]
  by_cases hj : i = j
  · subst hj
    rw [List.getElem?_set_self (List.getElem?_eq_some_iff.mp h).1, h]
    exact congrArg some hcall
  · rw [List.getElem?_set_ne hj]

section Ranked

variable [∀ o, Nonempty (Ans o)] (hrank : M.Ranked rank)

include hrank

theorem Turn.cutExpand (h : M.Turn c c') (hc : M.OnTheWay c) :
    Relation.CutExpand (Task.Below rank) (c'.tasks : Multiset (Task Op Ans E α Call))
      (c.tasks : Multiset (Task Op Ans E α Call)) := by
  obtain ⟨w, i, x, hs⟩ := h
  obtain ⟨call, o, k, a, w', ht, -, rfl⟩ := step_run hs
  have hstarted : ∀ started ∈ M.spawn o, rank started < rank call :=
    Prog.Emits.steps (hrank call) (Prog.steps_snoc (hc.2 i _ ht) a) ⟨o, a⟩ (by simp)
  refine ⟨(⟨call, k a⟩ :: (M.spawn o).map M.fresh : List (Task Op Ans E α Call)), ⟨call, .op o k⟩,
    fun t hmem => ?_, ?_⟩
  · rcases List.mem_cons.mp (Multiset.mem_coe.mp hmem) with rfl | hmem
    · exact Prod.Lex.right _ (.op o k a)
    · obtain ⟨started, hspawn, rfl⟩ := List.mem_map.mp hmem
      exact Prod.Lex.left _ _ (hstarted started hspawn)
  · rw [← Multiset.coe_singleton, Multiset.coe_add, Multiset.coe_add, Multiset.coe_eq_coe]
    have hset := perm_set ht ⟨call, k a⟩
    have hswap : ∀ (l l' : List (Task Op Ans E α Call)) t, (l ++ l' ++ [t]).Perm (l ++ [t] ++ l') := by
      intro l l' t
      rw [List.append_assoc, List.append_assoc]
      exact List.perm_append_comm.append_left _
    exact (hswap _ _ _).trans ((hset.append_right _).trans List.perm_middle.symm)

/-- Left to themselves, the tasks come to their ends. -/
theorem acc_turn (hc : M.OnTheWay c) : Acc (fun c' c => M.Turn c c') c := by
  generalize hs : (c.tasks : Multiset (Task Op Ans E α Call)) = s
  induction (Task.below_wf rank).cutExpand.apply s generalizing c with
  | intro s _ ih =>
    refine ⟨_, fun c' hturn => ?_⟩
    exact ih _ (hs ▸ hturn.cutExpand hrank hc) (hturn.onTheWay hc) rfl

theorem turns_end (hc : M.OnTheWay c) (run : Nat → Pool Op Ans E α W Call) (h₀ : run 0 = c) :
    ∃ n, ¬ M.Turn (run n) (run (n + 1)) := by
  induction acc_turn hrank hc generalizing run with
  | intro c _ ih =>
    by_cases hturn : M.Turn (run 0) (run 1)
    · have hturn' : M.Turn c (run 1) := h₀ ▸ hturn
      obtain ⟨n, hn⟩ := ih (run 1) hturn' (hturn'.onTheWay hc) (fun n => run (n + 1)) rfl
      exact ⟨n + 1, hn⟩
    · exact ⟨0, hturn⟩

theorem calls_turns (hc : M.OnTheWay c)
    (hlast : ∀ t ∈ c.tasks, t.rest.ended = false → rank t.call = 0)
    (h : Relation.ReflTransGen M.Turn c c') :
    c'.tasks.map (·.call) = c.tasks.map (·.call) ∧
      ∀ t ∈ c'.tasks, t.rest.ended = false → rank t.call = 0 := by
  induction h with
  | refl => exact ⟨rfl, hlast⟩
  | @tail c₁ c₂ hturns hturn ih =>
    obtain ⟨hcalls, hlast⟩ := ih
    obtain ⟨w, i, x, hs⟩ := hturn
    obtain ⟨call, o, k, a, w', ht, -, rfl⟩ := step_run hs
    have hzero : rank call = 0 := hlast _ (List.mem_of_getElem? ht) rfl
    have hnone : M.spawn o = [] := by
      have hstarted : ∀ started ∈ M.spawn o, rank started < rank call :=
        Prog.Emits.steps (hrank call)
          (Prog.steps_snoc ((onTheWay_turns hc hturns).2 i _ ht) a) ⟨o, a⟩ (by simp)
      rw [hzero] at hstarted
      exact List.eq_nil_iff_forall_not_mem.mpr fun started hmem =>
        absurd (hstarted started hmem) (Nat.not_lt_zero _)
    refine ⟨?_, fun t hmem hended => ?_⟩
    · simp only [hnone, List.map_nil, List.append_nil]
      refine (calls_set ht ?_).trans hcalls
      rfl
    · simp only [hnone, List.map_nil, List.append_nil] at hmem
      rcases List.mem_or_eq_of_mem_set hmem with hmem | rfl
      · exact hlast t hmem hended
      · exact hzero

theorem calls_of_reach {Ok : Pool Op Ans E α W Call → Move In Call → Prop}
    (hOk : ∀ c m, Ok c m → ∀ call, m ≠ .start call) (hc : M.OnTheWay c)
    (hlast : ∀ t ∈ c.tasks, t.rest.ended = false → rank t.call = 0) (h : M.Reach Ok c c') :
    c'.tasks.map (·.call) = c.tasks.map (·.call) := by
  obtain ⟨c₁, hturns, w, rfl⟩ := turns_of_reach hOk h
  exact (calls_turns hrank hc hlast hturns).1

end Ranked

theorem quiet_iff_no_turn (hM : M.Responsive) :
    c.quiet = true ↔ ∀ c', ¬ M.Turn c c' := by
  constructor
  · rintro hquiet c' ⟨w, i, x, hs⟩
    obtain ⟨call, o, k, a, w', ht, -, -⟩ := step_run hs
    exact Pool.not_running_of_quiet hquiet i ⟨call, o, k, ht⟩
  · intro hstuck
    apply List.all_eq_true.mpr
    intro t hmem
    obtain ⟨i, hi⟩ := List.mem_iff_getElem?.mp hmem
    obtain ⟨call, rest⟩ := t
    cases rest with
    | pure a => rfl
    | throw e => rfl
    | op o k =>
      obtain ⟨x, hx⟩ := hM c.world o
      obtain ⟨r, hr⟩ := Option.ne_none_iff_exists'.mp hx
      have hs : M.step? c (.run i x) = some
          { world := r.2
            tasks := c.tasks.set i ⟨call, k r.1⟩ ++ (M.spawn o).map M.fresh
            log := c.log ++ [(i, ⟨o, r.1⟩)] } := by
        simp [step?, hi, advance, hr]
      exact absurd ⟨c.world, i, x, hs⟩ (hstuck _)

end Machine

end Coroutine
