import AegisGateway.Lib.Pool

/-!
# One machine follows another

Two machines run the same programs on worlds of different kinds. Where each operation of
the first has the same answer in the second, from every world that stands for its own, the
second makes every move that the first makes.
-/

namespace Coroutine

variable {Op : Type} {Ans : Op → Type} {E α W W' In Call : Type}

/-- `M'` answers in `w'` as `M` does in `w`, for the operations that are `Fit` there, and the worlds
behind stand for one another again. -/
structure Machine.Follows (M : Machine Op Ans E α W In Call) (M' : Machine Op Ans E α W' In Call)
    (R : W → W' → Prop) (Fit : W → Op → Prop) : Prop where
  body : M'.body = M.body
  spawn : M'.spawn = M.spawn
  exec : ∀ {w w' v o x a}, R w w' → Fit w o → M.exec w o x = some (a, v) →
    ∃ v', M'.exec w' o x = some (a, v') ∧ R v v'
  drift : ∀ {w w' v x}, R w w' → M.drift w x = some v → ∃ v', M'.drift w' x = some v' ∧ R v v'

/-- The same tasks with the same past, in worlds that stand for one another. -/
structure Pool.Mirrors (R : W → W' → Prop) (c : Pool Op Ans E α W Call)
    (c' : Pool Op Ans E α W' Call) : Prop where
  world : R c.world c'.world
  tasks : c'.tasks = c.tasks
  log : c'.log = c.log

def Pool.Fitting (Fit : W → Op → Prop) (c : Pool Op Ans E α W Call) (m : Move In Call) : Prop :=
  ∀ i x call o k, m = .run i x → c.tasks[i]? = some ⟨call, .op o k⟩ → Fit c.world o

namespace Machine

variable {M : Machine Op Ans E α W In Call} {M' : Machine Op Ans E α W' In Call}
  {R : W → W' → Prop} {Fit : W → Op → Prop} {c d : Pool Op Ans E α W Call}
  {c' : Pool Op Ans E α W' Call}

theorem Follows.fresh (h : M.Follows M' R Fit) (call : Call) : M'.fresh call = M.fresh call := by
  rw [Machine.fresh, Machine.fresh, h.body]

theorem Follows.step (h : M.Follows M' R Fit) (hc : Pool.Mirrors R c c') {m : Move In Call}
    (hfit : c.Fitting Fit m) (hs : M.step? c m = some d) :
    ∃ d', M'.step? c' m = some d' ∧ Pool.Mirrors R d d' := by
  obtain ⟨w', tasks, log⟩ := c'
  obtain ⟨hworld, rfl, rfl⟩ := hc
  cases m with
  | start call =>
    cases hs
    exact ⟨_, rfl, hworld, by rw [h.fresh], rfl⟩
  | drift x =>
    obtain ⟨v, hv, rfl⟩ := Option.map_eq_some_iff.mp hs
    obtain ⟨v', hv', hR⟩ := h.drift hworld hv
    exact ⟨_, by rw [step?, hv']; rfl, hR, rfl, rfl⟩
  | run i x =>
    obtain ⟨call, o, k, a, v, ht, hexec, rfl⟩ := step_run hs
    obtain ⟨v', hexec', hR⟩ := h.exec hworld (hfit i x call o k rfl ht) hexec
    have hfresh : M'.fresh = M.fresh := funext h.fresh
    refine ⟨⟨v', c.tasks.set i ⟨call, k a⟩ ++ (M.spawn o).map M.fresh, c.log ++ [(i, ⟨o, a⟩)]⟩, ?_,
      hR, rfl, rfl⟩
    simp only [step?, ht, advance, hexec', h.spawn, hfresh, Option.map_some]

/-- Along a run of fit operations the one machine has all the moves of the other. -/
theorem Follows.reach (h : M.Follows M' R Fit) {Ok : Pool Op Ans E α W Call → Move In Call → Prop}
    (hok : ∀ c m, Ok c m → c.Fitting Fit m) {c₀ : Pool Op Ans E α W Call}
    {c₀' : Pool Op Ans E α W' Call} (h₀ : Pool.Mirrors R c₀ c₀') (hc : M.Reach Ok c₀ c) :
    ∃ c', M'.Reachable c₀' c' ∧ Pool.Mirrors R c c' := by
  induction hc with
  | start => exact ⟨c₀', .start, h₀⟩
  | next _ ho hs ih =>
    obtain ⟨c₁', hreach, hmirrors⟩ := ih
    obtain ⟨c', hs', hc'⟩ := h.step hmirrors (hok _ _ ho) hs
    exact ⟨c', hreach.next trivial hs', hc'⟩

end Machine

end Coroutine
