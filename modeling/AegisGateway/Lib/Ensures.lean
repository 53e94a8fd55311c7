import AegisGateway.Lib.Alone

/-!
# What a program ensures in a world

A step relation says how the world may answer an operation, and what becomes of it. A
program ensures a condition from a world on if the condition holds of the outcome and of the
world at the end of every run that the steps allow.
-/

namespace Coroutine

variable {Op : Type} {Ans : Op → Type} {E α β W : Type}

abbrev Answers (Op : Type) (Ans : Op → Type) (W : Type) : Type :=
  W → (o : Op) → Ans o → W → Prop

namespace Prog

variable (step : Answers Op Ans W)

def Ensures : Prog Op Ans E α → W → (Except E α → W → Prop) → Prop
  | .pure a, w, Post => Post (.ok a) w
  | .throw e, w, Post => Post (.error e) w
  | .op o k, w, Post => ∀ a w', step w o a w' → (k a).Ensures w' Post

/-- The runs that the steps allow. -/
inductive Ends : Prog Op Ans E α → W → Except E α → W → Prop
  | pure (a : α) (w : W) : Ends (.pure a) w (.ok a) w
  | throw (e : E) (w : W) : Ends (.throw e) w (.error e) w
  | op {o : Op} {k : Ans o → Prog Op Ans E α} {a : Ans o} {w w₁ w' : W} {out : Except E α}
      (hstep : step w o a w₁) (h : Ends (k a) w₁ out w') : Ends (.op o k) w out w'

theorem Ends.bind {step : Answers Op Ans W} {p : Prog Op Ans E α} {f : α → Prog Op Ans E β}
    {w w₁ w' : W} {a : α} {out : Except E β} (h : p.Ends step w (.ok a) w₁)
    (hf : (f a).Ends step w₁ out w') : (p >>= f).Ends step w out w' := by
  generalize hok : Except.ok a = out₁ at h
  induction h with
  | pure a' w =>
    cases hok
    exact hf
  | throw e w => cases hok
  | op hstep _ ih => exact .op hstep (ih hf hok)

/-- The run in which the world answers as `next?` says. -/
def follow (next? : W → (o : Op) → Option (Ans o × W)) :
    Prog Op Ans E α → W → Option (Except E α × W)
  | .pure a, w => some (.ok a, w)
  | .throw e, w => some (.error e, w)
  | .op o k, w => (next? w o).bind fun r => (k r.1).follow next? r.2

variable {step} {w : W}

theorem ends_of_follow {next? : W → (o : Op) → Option (Ans o × W)}
    (hnext : ∀ w o a w', next? w o = some (a, w') → step w o a w') {p : Prog Op Ans E α}
    {out : Except E α} {w' : W} (h : p.follow next? w = some (out, w')) : p.Ends step w out w' := by
  induction p generalizing w with
  | pure a =>
    cases h
    exact .pure a _
  | throw e =>
    cases h
    exact .throw e _
  | op o k ih =>
    obtain ⟨⟨a, w₁⟩, hstep, h⟩ := Option.bind_eq_some_iff.mp h
    exact .op (hnext w o a w₁ hstep) (ih a h)

theorem ensures_iff (p : Prog Op Ans E α) (Post : Except E α → W → Prop) :
    p.Ensures step w Post ↔ ∀ out w', p.Ends step w out w' → Post out w' := by
  induction p generalizing w with
  | pure a =>
    constructor
    · rintro h _ _ ⟨⟩
      exact h
    · exact fun h => h _ _ (.pure a w)
  | throw e =>
    constructor
    · rintro h _ _ ⟨⟩
      exact h
    · exact fun h => h _ _ (.throw e w)
  | op o k ih =>
    constructor
    · rintro h out w' (_ | _ | ⟨hstep, hends⟩)
      exact (ih _).mp (h _ _ hstep) out w' hends
    · exact fun h a w₁ hstep => (ih a).mpr fun out w' hends => h out w' (.op hstep hends)

theorem Ensures.mono {p : Prog Op Ans E α} {Post Post' : Except E α → W → Prop}
    (h : p.Ensures step w Post) (hpost : ∀ out w', Post out w' → Post' out w') :
    p.Ensures step w Post' := by
  rw [ensures_iff] at h ⊢
  exact fun out w' hends => hpost out w' (h out w' hends)

/-- What has to hold after the first half of a sequence, for `Post` to hold of the whole. -/
def Onward (step : Answers Op Ans W) (f : α → Prog Op Ans E β) (Post : Except E β → W → Prop) :
    Except E α → W → Prop
  | .ok a, w => (f a).Ensures step w Post
  | .error e, w => Post (.error e) w

@[simp]
theorem onward_ok (f : α → Prog Op Ans E β) (Post : Except E β → W → Prop) (a : α) :
    Onward step f Post (.ok a) w ↔ (f a).Ensures step w Post := Iff.rfl

@[simp]
theorem onward_error (f : α → Prog Op Ans E β) (Post : Except E β → W → Prop) (e : E) :
    Onward step f Post (.error e) w ↔ Post (.error e) w := Iff.rfl

@[simp]
theorem ensures_bind (p : Prog Op Ans E α) (f : α → Prog Op Ans E β)
    (Post : Except E β → W → Prop) :
    (p >>= f).Ensures step w Post ↔ p.Ensures step w (Onward step f Post) := by
  change (p.bind f).Ensures step w Post ↔ _
  induction p generalizing w with
  | pure a => rfl
  | throw e => rfl
  | op o k ih => exact forall_congr' fun a => forall₂_congr fun w' _ => ih a

@[simp]
theorem ensures_pure (a : α) (Post : Except E α → W → Prop) :
    (Pure.pure a : Prog Op Ans E α).Ensures step w Post ↔ Post (.ok a) w := Iff.rfl

@[simp]
theorem ensures_throw (e : E) (Post : Except E α → W → Prop) :
    (Prog.throw e : Prog Op Ans E α).Ensures step w Post ↔ Post (.error e) w := Iff.rfl

@[simp]
theorem ensures_op (o : Op) (k : Ans o → Prog Op Ans E α) (Post : Except E α → W → Prop) :
    (Prog.op o k).Ensures step w Post ↔
      ∀ a w', step w o a w' → (k a).Ensures step w' Post := Iff.rfl

@[simp]
theorem ensures_perform (o : Op) (Post : Except E (Ans o) → W → Prop) :
    (perform o : Prog Op Ans E (Ans o)).Ensures step w Post ↔
      ∀ a w', step w o a w' → Post (.ok a) w' := Iff.rfl

@[simp]
theorem ensures_ofExcept (x : Except E α) (Post : Except E α → W → Prop) :
    (ofExcept x : Prog Op Ans E α).Ensures step w Post ↔ Post x w := by
  cases x <;> rfl

@[simp]
theorem ensures_attempt (p : Prog Op Ans E α) (Post : Except E (Except E α) → W → Prop) :
    p.attempt.Ensures step w Post ↔ p.Ensures step w fun out w' => Post (.ok out) w' := by
  induction p generalizing w with
  | pure a => rfl
  | throw e => rfl
  | op o k ih => exact forall_congr' fun a => forall₂_congr fun w' _ => ih a

end Prog

/-- What a program may come to, a task of a machine may come to, if the machine can take the
same steps. -/
theorem Machine.reachable_of_ends {V In Call : Type} {M : Machine Op Ans E α V In Call}
    {step : Answers Op Ans W} (view : W → V)
    (hstep : ∀ w o a w', step w o a w' →
      ∃ x v y, M.drift (view w) x = some v ∧ M.exec v o y = some (a, view w'))
    {p : Prog Op Ans E α} {w w' : W} {out : Except E α} (h : p.Ends step w out w')
    {c : Pool Op Ans E α V Call} {i : Nat} {call : Call} (ht : c.tasks[i]? = some ⟨call, p⟩)
    (hworld : c.world = view w) :
    ∃ c', M.Reachable c c' ∧ c'.Finished i call out ∧ c'.world = view w' := by
  induction h generalizing c with
  | pure a w => exact ⟨c, .start, ht, hworld⟩
  | throw e w => exact ⟨c, .start, ht, hworld⟩
  | op hs _ ih =>
    obtain ⟨x, v, y, hdrift, hexec⟩ := hstep _ _ _ _ hs
    rw [← hworld] at hdrift
    obtain ⟨c₁, hreach₁, ht₁, hworld₁, -⟩ := Machine.reachable_op ht hdrift hexec
    obtain ⟨c', hreach, hfinished, hworld'⟩ := ih ht₁ hworld₁
    exact ⟨c', hreach₁.trans hreach, hfinished, hworld'⟩

end Coroutine
