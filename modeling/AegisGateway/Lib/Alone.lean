import AegisGateway.Lib.Pool

/-!
# A program that runs alone

When a world answers every operation, a program has exactly one run from it. This is the
run that the program makes as a task beside which nothing else moves.
-/

namespace Coroutine

variable {Op : Type} {Ans : Op → Type} {E α β W In Call : Type}

structure Ran (Op : Type) (Ans : Op → Type) (E α W : Type) where
  world : W
  trace : Trace Op Ans
  outcome : Except E α

namespace Ran

def after (tr : Trace Op Ans) (r : Ran Op Ans E α W) : Ran Op Ans E α W :=
  { r with trace := tr ++ r.trace }

def andThen (r : Ran Op Ans E α W) (f : α → W → Ran Op Ans E β W) : Ran Op Ans E β W :=
  match r.outcome with
  | .ok a => (f a r.world).after r.trace
  | .error e => ⟨r.world, r.trace, .error e⟩

@[simp]
theorem after_world (tr : Trace Op Ans) (r : Ran Op Ans E α W) : (r.after tr).world = r.world := rfl

@[simp]
theorem after_trace (tr : Trace Op Ans) (r : Ran Op Ans E α W) :
    (r.after tr).trace = tr ++ r.trace := rfl

@[simp]
theorem after_outcome (tr : Trace Op Ans) (r : Ran Op Ans E α W) :
    (r.after tr).outcome = r.outcome := rfl

theorem after_mk (tr tr' : Trace Op Ans) (w : W) (out : Except E α) :
    (⟨w, tr', out⟩ : Ran Op Ans E α W).after tr = ⟨w, tr ++ tr', out⟩ := rfl

@[simp]
theorem after_nil (r : Ran Op Ans E α W) : r.after [] = r := rfl

@[simp]
theorem after_after (tr tr' : Trace Op Ans) (r : Ran Op Ans E α W) :
    (r.after tr').after tr = r.after (tr ++ tr') := by
  simp [after, List.append_assoc]

@[simp]
theorem andThen_ok (w : W) (tr : Trace Op Ans) (a : α) (f : α → W → Ran Op Ans E β W) :
    (⟨w, tr, .ok a⟩ : Ran Op Ans E α W).andThen f = (f a w).after tr := rfl

@[simp]
theorem andThen_error (w : W) (tr : Trace Op Ans) (e : E) (f : α → W → Ran Op Ans E β W) :
    (⟨w, tr, .error e⟩ : Ran Op Ans E α W).andThen f = ⟨w, tr, .error e⟩ := rfl

theorem after_andThen (tr : Trace Op Ans) (r : Ran Op Ans E α W)
    (f : α → W → Ran Op Ans E β W) : (r.after tr).andThen f = (r.andThen f).after tr := by
  obtain ⟨w, tr', out⟩ := r
  cases out with
  | ok a => rw [after_mk, andThen_ok, andThen_ok, after_after]
  | error e => rfl

end Ran

namespace Prog

variable (serve : W → (o : Op) → Ans o × W)

/-- The run of a program from the world `w`, as `serve` answers it. -/
def execute : Prog Op Ans E α → W → Ran Op Ans E α W
  | .pure a, w => ⟨w, [], .ok a⟩
  | .throw e, w => ⟨w, [], .error e⟩
  | .op o k, w => (execute (k (serve w o).1) (serve w o).2).after [⟨o, (serve w o).1⟩]

@[simp]
theorem execute_pure (a : α) (w : W) :
    (Pure.pure a : Prog Op Ans E α).execute serve w = ⟨w, [], .ok a⟩ := rfl

@[simp]
theorem execute_leaf (a : α) (w : W) :
    (Prog.pure a : Prog Op Ans E α).execute serve w = ⟨w, [], .ok a⟩ := rfl

@[simp]
theorem execute_throw (e : E) (w : W) :
    (Prog.throw e : Prog Op Ans E α).execute serve w = ⟨w, [], .error e⟩ := rfl

@[simp]
theorem execute_op (o : Op) (k : Ans o → Prog Op Ans E α) (w : W) :
    (Prog.op o k).execute serve w =
      ((k (serve w o).1).execute serve (serve w o).2).after [⟨o, (serve w o).1⟩] := rfl

@[simp]
theorem execute_perform (o : Op) (w : W) :
    (perform o : Prog Op Ans E (Ans o)).execute serve w =
      ⟨(serve w o).2, [⟨o, (serve w o).1⟩], .ok (serve w o).1⟩ := rfl

@[simp]
theorem execute_ofExcept (x : Except E α) (w : W) :
    (ofExcept x : Prog Op Ans E α).execute serve w = ⟨w, [], x⟩ := by
  cases x <;> rfl

@[simp]
theorem execute_bind (p : Prog Op Ans E α) (f : α → Prog Op Ans E β) (w : W) :
    (p >>= f).execute serve w =
      (p.execute serve w).andThen fun a w => (f a).execute serve w := by
  change (p.bind f).execute serve w = _
  induction p generalizing w with
  | pure a => rfl
  | throw e => rfl
  | op o k ih => rw [bind, execute_op, execute_op, ih, Ran.after_andThen]

@[simp]
theorem execute_attempt (p : Prog Op Ans E α) (w : W) :
    p.attempt.execute serve w =
      ⟨(p.execute serve w).world, (p.execute serve w).trace, .ok (p.execute serve w).outcome⟩ := by
  induction p generalizing w with
  | pure a => rfl
  | throw e => rfl
  | op o k ih =>
    rw [attempt, execute_op, ih]
    rfl

theorem execute_when (c : Prop) [Decidable c] (p : Prog Op Ans E Unit) (w : W) :
    (when c p).execute serve w = if c then p.execute serve w else ⟨w, [], .ok ()⟩ := by
  unfold when
  split_ifs <;> rfl

theorem execute_run (p : Prog Op Ans E α) (w : W) :
    Run p (p.execute serve w).trace (p.execute serve w).outcome := by
  induction p generalizing w with
  | pure a => exact .pure a
  | throw e => exact .throw e
  | op o k ih => exact .op o k _ (ih _ _)

end Prog

theorem Machine.reachable_op {M : Machine Op Ans E α W In Call} {c : Pool Op Ans E α W Call}
    {i : Nat} {call : Call} {o : Op} {k : Ans o → Prog Op Ans E α} {x y : In} {a : Ans o}
    {w w' : W} (ht : c.tasks[i]? = some ⟨call, .op o k⟩) (hdrift : M.drift c.world x = some w)
    (hexec : M.exec w o y = some (a, w')) :
    ∃ c', M.Reachable c c' ∧ c'.tasks[i]? = some ⟨call, k a⟩ ∧ c'.world = w' ∧
      c'.trace i = c.trace i ++ [⟨o, a⟩] := by
  have hlt : i < c.tasks.length := (List.getElem?_eq_some_iff.mp ht).1
  let c₁ : Pool Op Ans E α W Call := { c with world := w }
  let c₂ : Pool Op Ans E α W Call :=
    { world := w'
      tasks := c.tasks.set i ⟨call, k a⟩ ++ (M.spawn o).map M.fresh
      log := c.log ++ [(i, ⟨o, a⟩)] }
  have h₁ : M.step? c (.drift x) = some c₁ := by simp [Machine.step?, hdrift, c₁]
  have h₂ : M.step? c₁ (.run i y) = some c₂ := by
    simp [Machine.step?, Machine.advance, c₁, c₂, ht, hexec]
  refine ⟨c₂, .next (.next .start trivial h₁) trivial h₂, ?_, rfl, ?_⟩
  · rw [List.getElem?_append_left (by simpa using hlt), List.getElem?_set_self hlt]
  · rw [Pool.trace_of_log rfl i, if_pos rfl]

/-- A task that nothing else interferes with makes the run of its program. -/
theorem Machine.reachable_execute {M : Machine Op Ans E α W In Call}
    {serve : W → (o : Op) → Ans o × W}
    (hserve : ∀ w o, ∃ x w' y, M.drift w x = some w' ∧ M.exec w' o y = some (serve w o))
    {p : Prog Op Ans E α} {c : Pool Op Ans E α W Call} {i : Nat} {call : Call}
    (ht : c.tasks[i]? = some ⟨call, p⟩) :
    ∃ c', M.Reachable c c' ∧ c'.Finished i call (p.execute serve c.world).outcome ∧
      c'.world = (p.execute serve c.world).world ∧
      c'.trace i = c.trace i ++ (p.execute serve c.world).trace := by
  induction p generalizing c with
  | pure a => exact ⟨c, .start, ht, rfl, (List.append_nil _).symm⟩
  | throw e => exact ⟨c, .start, ht, rfl, (List.append_nil _).symm⟩
  | op o k ih =>
    obtain ⟨x, w', y, hdrift, hexec⟩ := hserve c.world o
    obtain ⟨c₂, hreach₂, ht₂, hworld₂, htrace₂⟩ := Machine.reachable_op ht hdrift hexec
    obtain ⟨c', hreach, hfinished, hworld, htrace⟩ := ih _ ht₂
    rw [hworld₂] at hfinished hworld htrace
    refine ⟨c', hreach₂.trans hreach, hfinished, hworld, ?_⟩
    rw [htrace, htrace₂, List.append_assoc]
    rfl

end Coroutine
