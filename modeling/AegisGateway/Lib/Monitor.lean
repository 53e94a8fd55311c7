import AegisGateway.Lib.Pool

/-!
# Monitors

A monitor follows the events of a program with a state of its own. What it relies on
is up to the environment, and what it guarantees is up to the program.
-/

namespace Coroutine

variable {Op : Type} {Ans : Op → Type} {E α β σ W In Call : Type}

/-! ## A property along a trace -/

/-- `φ` holds of each event in the state that the events before it have led to. -/
def Along (next : σ → Event Op Ans → σ) (φ : σ → Event Op Ans → Prop) : σ → Trace Op Ans → Prop
  | _, [] => True
  | s, e :: tr => φ s e ∧ Along next φ (next s e) tr

section Along

variable {next : σ → Event Op Ans → σ} {φ : σ → Event Op Ans → Prop}

instance instDecidableAlong [∀ s e, Decidable (φ s e)] :
    ∀ (s : σ) (tr : Trace Op Ans), Decidable (Along next φ s tr)
  | _, [] => .isTrue trivial
  | s, e :: tr =>
    have := instDecidableAlong (next s e) tr
    inferInstanceAs (Decidable (φ s e ∧ Along next φ (next s e) tr))

@[simp]
theorem along_nil (s : σ) : Along next φ s [] := trivial

@[simp]
theorem along_cons (s : σ) (e : Event Op Ans) (tr : Trace Op Ans) :
    Along next φ s (e :: tr) ↔ φ s e ∧ Along next φ (next s e) tr := Iff.rfl

@[simp]
theorem along_append (s : σ) (tr tr' : Trace Op Ans) :
    Along next φ s (tr ++ tr') ↔ Along next φ s tr ∧ Along next φ (tr.foldl next s) tr' := by
  induction tr generalizing s with
  | nil => simp
  | cons e tr ih => simp [ih, and_assoc]

theorem along_split {s : σ} {tr : Trace Op Ans} (h : Along next φ s tr) {pre post : Trace Op Ans}
    {e : Event Op Ans} (ht : tr = pre ++ e :: post) : φ (pre.foldl next s) e := by
  subst ht
  simp only [along_append, along_cons] at h
  exact h.2.1

theorem along_of_forall {s : σ} {tr : Trace Op Ans} (h : ∀ e ∈ tr, ∀ s, φ s e) :
    Along next φ s tr := by
  induction tr generalizing s with
  | nil => trivial
  | cons e tr ih =>
    exact ⟨h e (by simp) s, ih fun e' he' => h e' (List.mem_cons_of_mem _ he')⟩

/-! Traces that leave the monitor where it is. -/

theorem foldl_still {s : σ} {tr : Trace Op Ans} (h : ∀ e ∈ tr, next s e = s) :
    tr.foldl next s = s := by
  induction tr with
  | nil => rfl
  | cons e tr ih =>
    rw [List.foldl_cons, h e (by simp)]
    exact ih fun e' he' => h e' (List.mem_cons_of_mem _ he')

theorem along_still_iff {s : σ} {tr : Trace Op Ans} (h : ∀ e ∈ tr, next s e = s) :
    Along next φ s tr ↔ ∀ e ∈ tr, φ s e := by
  induction tr with
  | nil => simp
  | cons e tr ih =>
    rw [along_cons, h e (by simp), ih fun e' he' => h e' (List.mem_cons_of_mem _ he')]
    simp

end Along

/-! ## Programs that bring the monitor back -/

structure Monitor (Op : Type) (Ans : Op → Type) (σ : Type) where
  next : σ → Event Op Ans → σ
  rely : σ → Event Op Ans → Prop
  guar : σ → Event Op Ans → Prop

namespace Monitor

variable (m : Monitor Op Ans σ)

/-- The guarantee is kept and `s` is reached again, if the environment is as relied on. -/
def Settles (s : σ) (tr : Trace Op Ans) : Prop :=
  Along m.next m.rely s tr → Along m.next m.guar s tr ∧ tr.foldl m.next s = s

abbrev Keeps (s : σ) (p : Prog Op Ans E α) : Prop := p.Leaves (m.Settles s)

variable {m} {s : σ}

theorem closed_settles : Prog.Closed (m.Settles s) where
  nil := fun _ => ⟨trivial, rfl⟩
  append := by
    intro tr tr' h h' hr
    rw [along_append] at hr
    obtain ⟨hg, hs⟩ := h hr.1
    rw [hs] at hr
    obtain ⟨hg', hs'⟩ := h' hr.2
    rw [along_append, List.foldl_append, hs]
    exact ⟨⟨hg, hg'⟩, hs'⟩

theorem Keeps.steps {p p' : Prog Op Ans E α} {tr : Trace Op Ans} (h : m.Keeps s p)
    (hok : ∀ o, ∃ a, ∀ s, m.rely s ⟨o, a⟩) (hs : Prog.Steps p tr p')
    (hr : Along m.next m.rely s tr) : Along m.next m.guar s tr := by
  obtain ⟨tr', out, hrun, htr'⟩ : ∃ tr' out, Prog.Run p (tr ++ tr') out ∧
      ∀ e ∈ tr', ∀ s, m.rely s e := Prog.steps_complete hok hs
  have hr' : Along m.next m.rely s (tr ++ tr') := by
    rw [along_append]
    exact ⟨hr, along_of_forall htr'⟩
  exact ((along_append s tr tr').mp (Prog.AllRuns.run h hrun hr').1).1

end Monitor

/-! ## Monitors of the tasks of a pool -/

namespace Machine

variable {M : Machine Op Ans E α W In Call}

theorem trace_step {c c' : Pool Op Ans E α W Call} {mv : Move In Call}
    (h : M.step? c mv = some c') (i : Nat) : ∃ tr, c'.trace i = c.trace i ++ tr := by
  cases mv with
  | start call => cases h; exact ⟨[], by simp [Pool.trace]⟩
  | drift x =>
    obtain ⟨w, -, rfl⟩ := Option.map_eq_some_iff.mp h
    exact ⟨[], by simp [Pool.trace]⟩
  | run j x =>
    obtain ⟨call, o, k, a, w, -, -, rfl⟩ := step_run h
    exact ⟨_, trace_snoc c w _ j i _⟩

theorem along_step {next : σ → Event Op Ans → σ} {φ : σ → Event Op Ans → Prop} {s : σ}
    {c c' : Pool Op Ans E α W Call} {mv : Move In Call} (h : M.step? c mv = some c')
    (ha : ∀ i, Along next φ s (c'.trace i)) (i : Nat) : Along next φ s (c.trace i) := by
  obtain ⟨tr, ht⟩ := trace_step h i
  have := ha i
  rw [ht, along_append] at this
  exact this.1

variable {m : Monitor Op Ans σ} {s : σ} {Ok : Pool Op Ans E α W Call → Move In Call → Prop} {w₀ : W}
  {c : Pool Op Ans E α W Call}

/-- If the environment is as relied on so far, each task has kept its guarantee so far. -/
theorem Reach.guar (hbody : ∀ call, m.Keeps s (M.body call))
    (hok : ∀ o, ∃ a, ∀ s, m.rely s ⟨o, a⟩) (h : M.Reach Ok (.empty w₀) c)
    (hr : ∀ i, Along m.next m.rely s (c.trace i)) (i : Nat) :
    Along m.next m.guar s (c.trace i) := by
  rcases Nat.lt_or_ge i c.tasks.length with hi | hi
  · exact (hbody _).steps hok (h.onTheWay.2 i _ (List.getElem?_eq_getElem hi)) (hr i)
  · rw [h.onTheWay.1 i hi]
    trivial

theorem Reach.back (hbody : ∀ call, m.Keeps s (M.body call)) (h : M.Reach Ok (.empty w₀) c)
    (hr : ∀ i, Along m.next m.rely s (c.trace i)) {i : Nat} {call : Call} {out : Except E α}
    (hf : c.Finished i call out) : (c.trace i).foldl m.next s = s :=
  (Prog.AllRuns.run (hbody call) (h.finished hf) (hr i)).2

end Machine

end Coroutine
