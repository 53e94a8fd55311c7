import Mathlib.Data.List.Basic
import Mathlib.Tactic.SplitIfs

/-!
# Programs that wait for answers

A program is a tree: it returns, it raises, or it performs an operation and goes
on with the answer. Nothing here says what an operation does. A run is one path
through the tree, so a fact about all runs holds whatever the environment
answers and whatever happens between two operations.
-/

namespace Coroutine

/-- `Ans o` is the type of the answers to the operation `o`. -/
inductive Prog (Op : Type) (Ans : Op → Type) (E α : Type) : Type
  | pure (a : α)
  | throw (e : E)
  | op (o : Op) (k : Ans o → Prog Op Ans E α)

/-- One operation with the answer it got. -/
abbrev Event (Op : Type) (Ans : Op → Type) : Type := (o : Op) × Ans o

abbrev Trace (Op : Type) (Ans : Op → Type) : Type := List (Event Op Ans)

namespace Prog

variable {Op : Type} {Ans : Op → Type} {E α β γ : Type}

/-! ## The monad -/

def bind : Prog Op Ans E α → (α → Prog Op Ans E β) → Prog Op Ans E β
  | .pure a, f => f a
  | .throw e, _ => .throw e
  | .op o k, f => .op o fun a => (k a).bind f

instance : Monad (Prog Op Ans E) where
  pure := .pure
  bind := .bind

/-- The outcome as a value: what a `try` block hands to its handlers. -/
def attempt : Prog Op Ans E α → Prog Op Ans E (Except E α)
  | .pure a => .pure (.ok a)
  | .throw e => .pure (.error e)
  | .op o k => .op o fun a => (k a).attempt

def ended : Prog Op Ans E α → Bool
  | .op _ _ => false
  | _ => true

def perform (o : Op) : Prog Op Ans E (Ans o) := .op o .pure

def ofExcept : Except E α → Prog Op Ans E α
  | .ok a => .pure a
  | .error e => .throw e

/-- A statement under an `if` without an `else`. -/
def when (c : Prop) [Decidable c] (p : Prog Op Ans E Unit) : Prog Op Ans E Unit :=
  if c then p else .pure ()

theorem bind_assoc (p : Prog Op Ans E α) (f : α → Prog Op Ans E β) (g : β → Prog Op Ans E γ) :
    (p.bind f).bind g = p.bind fun a => (f a).bind g := by
  induction p with
  | pure a => rfl
  | throw e => rfl
  | op o k ih => simp only [bind, ih]

theorem bind_pure (p : Prog Op Ans E α) : p.bind .pure = p := by
  induction p with
  | pure a => rfl
  | throw e => rfl
  | op o k ih => simp only [bind, ih]

instance : LawfulMonad (Prog Op Ans E) :=
  LawfulMonad.mk' _ bind_pure (fun _ _ => rfl) bind_assoc

/-! ## Runs -/

/-- The complete runs of a program, with their traces and outcomes. -/
inductive Run : Prog Op Ans E α → Trace Op Ans → Except E α → Prop
  | pure (a : α) : Run (.pure a) [] (.ok a)
  | throw (e : E) : Run (.throw e) [] (.error e)
  | op (o : Op) (k : Ans o → Prog Op Ans E α) (a : Ans o) {tr : Trace Op Ans} {out : Except E α}
      (h : Run (k a) tr out) : Run (.op o k) (⟨o, a⟩ :: tr) out

/-- `Steps p tr p'`: after the events `tr` the program `p'` is left of `p`. -/
inductive Steps : Prog Op Ans E α → Trace Op Ans → Prog Op Ans E α → Prop
  | refl (p : Prog Op Ans E α) : Steps p [] p
  | op (o : Op) (k : Ans o → Prog Op Ans E α) (a : Ans o) {tr : Trace Op Ans}
      {p' : Prog Op Ans E α} (h : Steps (k a) tr p') : Steps (.op o k) (⟨o, a⟩ :: tr) p'

theorem steps_snoc {p : Prog Op Ans E α} {tr : Trace Op Ans} {o : Op}
    {k : Ans o → Prog Op Ans E α} (h : Steps p tr (.op o k)) (a : Ans o) :
    Steps p (tr ++ [⟨o, a⟩]) (k a) := by
  generalize hq : Prog.op o k = q at h
  induction h with
  | refl => subst hq; exact .op o k a (.refl _)
  | op o' k' a' _ ih => exact .op o' k' a' (ih hq)

theorem steps_run {p p' : Prog Op Ans E α} {tr tr' : Trace Op Ans} {out : Except E α}
    (h : Steps p tr p') (h' : Run p' tr' out) : Run p (tr ++ tr') out := by
  induction h with
  | refl => exact h'
  | op o k a _ ih => exact .op o k a (ih h')

theorem Run.unique {p : Prog Op Ans E α} {tr tr' : Trace Op Ans} {out out' : Except E α}
    (h : Run p tr out) (h' : Run p (tr ++ tr') out') : tr' = [] ∧ out = out' := by
  induction h with
  | pure a =>
    cases h'
    exact ⟨rfl, rfl⟩
  | throw e =>
    cases h'
    exact ⟨rfl, rfl⟩
  | op o k a _ ih =>
    cases h' with
    | op _ _ _ h' => exact ih h'

theorem exists_run {φ : Event Op Ans → Prop} (hφ : ∀ o, ∃ a, φ ⟨o, a⟩) (p : Prog Op Ans E α) :
    ∃ tr out, Run p tr out ∧ ∀ e ∈ tr, φ e := by
  induction p with
  | pure a => exact ⟨[], .ok a, .pure a, by simp⟩
  | throw e => exact ⟨[], .error e, .throw e, by simp⟩
  | op o k ih =>
    obtain ⟨a, ha⟩ := hφ o
    obtain ⟨tr, out, h, htr⟩ := ih a
    exact ⟨⟨o, a⟩ :: tr, out, .op o k a h, by simpa using ⟨ha, htr⟩⟩

/-- What has happened so far is the beginning of a complete run. -/
theorem steps_complete {φ : Event Op Ans → Prop} (hφ : ∀ o, ∃ a, φ ⟨o, a⟩)
    {p p' : Prog Op Ans E α} {tr : Trace Op Ans} (h : Steps p tr p') :
    ∃ tr' out, Run p (tr ++ tr') out ∧ ∀ e ∈ tr', φ e := by
  obtain ⟨tr', out, h', htr⟩ := exists_run hφ p'
  exact ⟨tr', out, steps_run h h', htr⟩

/-! ## A property of all runs -/

/-- `Post` holds of the trace and the outcome of every complete run. -/
def AllRuns : Prog Op Ans E α → (Trace Op Ans → Except E α → Prop) → Prop
  | .pure a, Post => Post [] (.ok a)
  | .throw e, Post => Post [] (.error e)
  | .op o k, Post => ∀ a, (k a).AllRuns fun tr out => Post (⟨o, a⟩ :: tr) out

theorem allRuns_iff (p : Prog Op Ans E α) (Post : Trace Op Ans → Except E α → Prop) :
    p.AllRuns Post ↔ ∀ tr out, Run p tr out → Post tr out := by
  induction p generalizing Post with
  | pure a =>
    constructor
    · rintro h _ _ ⟨⟩; exact h
    · intro h; exact h _ _ (.pure a)
  | throw e =>
    constructor
    · rintro h _ _ ⟨⟩; exact h
    · intro h; exact h _ _ (.throw e)
  | op o k ih =>
    constructor
    · rintro h _ _ (_ | _ | ⟨_, _, a, hr⟩)
      exact (ih a _).mp (h a) _ _ hr
    · intro h a
      exact (ih a _).mpr fun tr out hr => h _ _ (.op o k a hr)

theorem AllRuns.run {p : Prog Op Ans E α} {Post : Trace Op Ans → Except E α → Prop}
    (h : p.AllRuns Post) {tr : Trace Op Ans} {out : Except E α} (hr : Run p tr out) : Post tr out :=
  (allRuns_iff p Post).mp h tr out hr

theorem allRuns_run (p : Prog Op Ans E α) : p.AllRuns (Run p) :=
  (allRuns_iff p _).mpr fun _ _ h => h

theorem AllRuns.mono {p : Prog Op Ans E α} {Post Post' : Trace Op Ans → Except E α → Prop}
    (h : p.AllRuns Post) (hp : ∀ tr out, Post tr out → Post' tr out) : p.AllRuns Post' := by
  rw [allRuns_iff] at *
  exact fun tr out hr => hp tr out (h tr out hr)

theorem AllRuns.and {p : Prog Op Ans E α} {Post Post' : Trace Op Ans → Except E α → Prop}
    (h : p.AllRuns Post) (h' : p.AllRuns Post') :
    p.AllRuns fun tr out => Post tr out ∧ Post' tr out := by
  rw [allRuns_iff] at *
  exact fun tr out hr => ⟨h tr out hr, h' tr out hr⟩

@[simp]
theorem allRuns_pure (a : α) (Post : Trace Op Ans → Except E α → Prop) :
    (Pure.pure a : Prog Op Ans E α).AllRuns Post ↔ Post [] (.ok a) := Iff.rfl

@[simp]
theorem allRuns_leaf (a : α) (Post : Trace Op Ans → Except E α → Prop) :
    (Prog.pure a : Prog Op Ans E α).AllRuns Post ↔ Post [] (.ok a) := Iff.rfl

@[simp]
theorem allRuns_throw (e : E) (Post : Trace Op Ans → Except E α → Prop) :
    (Prog.throw e : Prog Op Ans E α).AllRuns Post ↔ Post [] (.error e) := Iff.rfl

@[simp]
theorem allRuns_op (o : Op) (k : Ans o → Prog Op Ans E α)
    (Post : Trace Op Ans → Except E α → Prop) :
    (Prog.op o k).AllRuns Post ↔ ∀ a, (k a).AllRuns fun tr out => Post (⟨o, a⟩ :: tr) out := Iff.rfl

@[simp]
theorem allRuns_perform (o : Op) (Post : Trace Op Ans → Except E (Ans o) → Prop) :
    (perform o : Prog Op Ans E (Ans o)).AllRuns Post ↔ ∀ a, Post [⟨o, a⟩] (.ok a) := Iff.rfl

@[simp]
theorem allRuns_ofExcept (x : Except E α) (Post : Trace Op Ans → Except E α → Prop) :
    (ofExcept x : Prog Op Ans E α).AllRuns Post ↔ Post [] x := by
  cases x <;> rfl

theorem AllRuns.when {c : Prop} [Decidable c] {p : Prog Op Ans E Unit}
    {Post : Trace Op Ans → Except E Unit → Prop} (h : c → p.AllRuns Post)
    (hn : ¬ c → Post [] (.ok ())) : (when c p).AllRuns Post := by
  unfold Prog.when
  split_ifs with hc
  · exact h hc
  · exact hn hc

/-- What has to hold after the first half of a sequence, for `Post` to hold of the whole. -/
def Then (f : α → Prog Op Ans E β) (Post : Trace Op Ans → Except E β → Prop) (tr : Trace Op Ans) :
    Except E α → Prop
  | .ok a => (f a).AllRuns fun tr' out => Post (tr ++ tr') out
  | .error e => Post tr (.error e)

@[simp]
theorem then_ok (f : α → Prog Op Ans E β) (Post : Trace Op Ans → Except E β → Prop)
    (tr : Trace Op Ans) (a : α) :
    Then f Post tr (.ok a) ↔ (f a).AllRuns fun tr' out => Post (tr ++ tr') out := Iff.rfl

@[simp]
theorem then_error (f : α → Prog Op Ans E β) (Post : Trace Op Ans → Except E β → Prop)
    (tr : Trace Op Ans) (e : E) : Then f Post tr (.error e) ↔ Post tr (.error e) := Iff.rfl

@[simp]
theorem allRuns_bind (p : Prog Op Ans E α) (f : α → Prog Op Ans E β)
    (Post : Trace Op Ans → Except E β → Prop) :
    (p >>= f).AllRuns Post ↔ p.AllRuns (Then f Post) := by
  change (p.bind f).AllRuns Post ↔ _
  induction p generalizing Post with
  | pure a => rfl
  | throw e => rfl
  | op o k ih =>
    simp only [bind, allRuns_op, ih]
    apply forall_congr'
    intro a
    have h : Then f (fun tr' out' => Post (⟨o, a⟩ :: tr') out') =
        fun tr out => Then f Post (⟨o, a⟩ :: tr) out := by
      funext tr out; cases out <;> rfl
    rw [h]

@[simp]
theorem allRuns_attempt (p : Prog Op Ans E α)
    (Post : Trace Op Ans → Except E (Except E α) → Prop) :
    p.attempt.AllRuns Post ↔ p.AllRuns fun tr out => Post tr (.ok out) := by
  induction p generalizing Post with
  | pure a => rfl
  | throw e => rfl
  | op o k ih => simp only [attempt, allRuns_op, ih]

theorem allRuns_map (p : Prog Op Ans E α) (f : α → β)
    (Post : Trace Op Ans → Except E β → Prop) :
    (p >>= fun a => Pure.pure (f a)).AllRuns Post ↔
      p.AllRuns fun tr out => Post tr (out.map f) := by
  have h : Then (fun a => Pure.pure (f a)) Post = fun tr out => Post tr (out.map f) := by
    funext tr out
    cases out <;> simp [Then, Except.map]
  rw [allRuns_bind, h]

theorem eq_ofExcept_of_ended {p : Prog Op Ans E α} (h : p.ended = true) :
    ∃ out, p = ofExcept out := by
  cases p with
  | pure a => exact ⟨.ok a, rfl⟩
  | throw e => exact ⟨.error e, rfl⟩
  | op o k => cases h

/-! ## Properties of traces that pieces put together -/

theorem split_append {ε : Type} {l l' pre post : List ε} {e : ε} (h : l ++ l' = pre ++ e :: post) :
    (∃ mid, l = pre ++ e :: mid ∧ post = mid ++ l') ∨
      ∃ mid, pre = l ++ mid ∧ l' = mid ++ e :: post := by
  rcases List.append_eq_append_iff.mp h with ⟨mid, hpre, hl'⟩ | ⟨mid, hl, hpost⟩
  · exact .inr ⟨mid, hpre, hl'⟩
  · cases mid with
    | nil => exact .inr ⟨[], by simpa using hl.symm, by simpa using hpost.symm⟩
    | cons e' mid =>
      obtain ⟨rfl, hrest⟩ := List.cons.inj hpost
      exact .inl ⟨mid, hl, hrest⟩

structure Closed (P : Trace Op Ans → Prop) : Prop where
  nil : P []
  append : ∀ {tr tr'}, P tr → P tr' → P (tr ++ tr')

/-- `P` holds of the trace of every complete run, whatever the environment answers. -/
def Leaves (P : Trace Op Ans → Prop) (p : Prog Op Ans E α) : Prop := p.AllRuns fun tr _ => P tr

section Leaves

variable {P : Trace Op Ans → Prop}

theorem Leaves.mono {Q : Trace Op Ans → Prop} {p : Prog Op Ans E α} (h : p.Leaves P)
    (hPQ : ∀ tr, P tr → Q tr) : p.Leaves Q :=
  AllRuns.mono h fun tr _ => hPQ tr

theorem leaves_attempt {p : Prog Op Ans E α} (h : p.Leaves P) : p.attempt.Leaves P := by
  rw [Leaves, allRuns_attempt]
  exact h

theorem leaves_map {p : Prog Op Ans E α} (h : p.Leaves P) (f : α → β) :
    (p >>= fun a => Pure.pure (f a)).Leaves P :=
  (allRuns_map p f _).mpr h

theorem leaves_perform {o : Op} (ho : ∀ a, P [⟨o, a⟩]) :
    (perform o : Prog Op Ans E (Ans o)).Leaves P := ho

variable (hP : Closed P)

include hP

theorem leaves_pure (a : α) : (Pure.pure a : Prog Op Ans E α).Leaves P := hP.nil

theorem leaves_throw (e : E) : (Prog.throw e : Prog Op Ans E α).Leaves P := hP.nil

theorem leaves_ofExcept (x : Except E α) : (ofExcept x : Prog Op Ans E α).Leaves P := by
  rw [Leaves, allRuns_ofExcept]
  exact hP.nil

theorem leaves_bind {p : Prog Op Ans E α} {f : α → Prog Op Ans E β} (hp : p.Leaves P)
    (hf : ∀ a, (f a).Leaves P) : (p >>= f).Leaves P := by
  rw [Leaves, allRuns_bind]
  apply AllRuns.mono hp
  intro tr out h
  cases out with
  | error e => exact h
  | ok a => exact AllRuns.mono (hf a) fun tr' _ h' => hP.append h h'

theorem leaves_op {o : Op} {k : Ans o → Prog Op Ans E α} (ho : ∀ a, P [⟨o, a⟩])
    (hk : ∀ a, (k a).Leaves P) : (Prog.op o k).Leaves P := by
  rw [Leaves, allRuns_op]
  exact fun a => AllRuns.mono (hk a) fun tr _ h => hP.append (ho a) h

end Leaves

theorem closed_forall (φ : Event Op Ans → Prop) : Closed fun tr => ∀ e ∈ tr, φ e where
  nil := by simp
  append := fun h h' => List.forall_mem_append.mpr ⟨h, h'⟩

/-- Every event of every run satisfies `φ`. -/
abbrev Emits (φ : Event Op Ans → Prop) (p : Prog Op Ans E α) : Prop :=
  p.Leaves fun tr => ∀ e ∈ tr, φ e

theorem Emits.after {φ : Event Op Ans → Prop} {p : Prog Op Ans E α} (h : p.Emits φ)
    {tr : Trace Op Ans} (htr : ∀ e ∈ tr, φ e) : p.AllRuns fun tr' _ => ∀ e ∈ tr ++ tr', φ e :=
  AllRuns.mono h fun _ _ h' => List.forall_mem_append.mpr ⟨htr, h'⟩

/-- Also of the runs that have not ended, under an environment that can always keep to `φ`. -/
theorem Leaves.steps_under {φ : Event Op Ans → Prop} (hφ : ∀ o, ∃ a, φ ⟨o, a⟩)
    {P : Trace Op Ans → Prop} (hP : ∀ tr tr', P (tr ++ tr') → P tr) {p p' : Prog Op Ans E α}
    {tr : Trace Op Ans} (h : p.Leaves fun tr => (∀ e ∈ tr, φ e) → P tr) (hs : Steps p tr p')
    (htr : ∀ e ∈ tr, φ e) : P tr := by
  obtain ⟨tr', out, hr, htr'⟩ := steps_complete hφ hs
  exact hP tr tr' (AllRuns.run h hr (List.forall_mem_append.mpr ⟨htr, htr'⟩))

/-- What a run may become once the operation it waits for is answered. -/
theorem AllRuns.ahead [∀ o, Nonempty (Ans o)] {p : Prog Op Ans E α}
    {Post : Trace Op Ans → Except E α → Prop} (h : p.AllRuns Post) {tr : Trace Op Ans} {o : Op}
    {k : Ans o → Prog Op Ans E α} (hs : Steps p tr (.op o k)) (a : Ans o) :
    ∃ tr' out, Post (tr ++ ⟨o, a⟩ :: tr') out := by
  obtain ⟨tr', out, hr, -⟩ := steps_complete (φ := fun _ => True)
    (fun o => ⟨Classical.arbitrary (Ans o), trivial⟩) (steps_snoc hs a)
  rw [List.append_assoc, List.singleton_append] at hr
  exact ⟨tr', out, h.run hr⟩

theorem Leaves.steps [∀ o, Nonempty (Ans o)] {P : Trace Op Ans → Prop}
    (hP : ∀ tr tr', P (tr ++ tr') → P tr) {p p' : Prog Op Ans E α} {tr : Trace Op Ans}
    (h : p.Leaves P) (hs : Steps p tr p') : P tr :=
  Leaves.steps_under (φ := fun _ => True) (fun o => ⟨Classical.arbitrary (Ans o), trivial⟩) hP
    (AllRuns.mono h fun _ _ h _ => h) hs fun _ _ => trivial

theorem Emits.steps [∀ o, Nonempty (Ans o)] {φ : Event Op Ans → Prop} {p p' : Prog Op Ans E α}
    {tr : Trace Op Ans} (h : p.Emits φ) (hs : Steps p tr p') : ∀ e ∈ tr, φ e :=
  Leaves.steps (fun _ _ h e he => h e (List.mem_append_left _ he)) h hs

end Prog

end Coroutine
