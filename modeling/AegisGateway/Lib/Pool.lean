import AegisGateway.Lib.Prog
import Mathlib.Data.List.Basic

/-!
# Programs that share a world

Any number of programs run against one world, one operation at a time, in any
order. A move is made by a new caller, by one of the tasks, or by the world
itself. What an operation does to the world is a parameter, and so is the input
that settles what the world alone does not.
-/

namespace Coroutine

/-- `spawn o` are the calls that the operation `o` starts as tasks of their own. -/
structure Machine (Op : Type) (Ans : Op → Type) (E α W In Call : Type) where
  body : Call → Prog Op Ans E α
  exec : W → (o : Op) → In → Option (Ans o × W)
  spawn : Op → List Call
  drift : W → In → Option W

structure Task (Op : Type) (Ans : Op → Type) (E α Call : Type) where
  call : Call
  rest : Prog Op Ans E α

/-- `log` holds every event so far with the number of its task, the oldest first. -/
structure Pool (Op : Type) (Ans : Op → Type) (E α W Call : Type) where
  world : W
  tasks : List (Task Op Ans E α Call)
  log : List (Nat × Event Op Ans)

inductive Move (In Call : Type) where
  | start (call : Call)
  | run (i : Nat) (x : In)
  | drift (x : In)

variable {Op : Type} {Ans : Op → Type} {E α W In Call : Type}

namespace Pool

def empty (w : W) : Pool Op Ans E α W Call := ⟨w, [], []⟩

/-- What the task `i` has done so far. -/
def trace (c : Pool Op Ans E α W Call) (i : Nat) : Trace Op Ans :=
  (c.log.filter fun e => e.1 == i).map (·.2)

theorem mem_trace {c : Pool Op Ans E α W Call} {i : Nat} {e : Event Op Ans} :
    e ∈ c.trace i ↔ (i, e) ∈ c.log := by
  simp [trace]

theorem trace_of_log {c c' : Pool Op Ans E α W Call} {i : Nat} {e : Event Op Ans}
    (h : c'.log = c.log ++ [(i, e)]) (j : Nat) :
    c'.trace j = c.trace j ++ if i = j then [e] else [] := by
  simp only [trace, h, List.filter_append, List.map_append]
  congr 1
  by_cases hij : i = j <;> simp [hij]

theorem trace_split {c : Pool Op Ans E α W Call} {pre post : List (Nat × Event Op Ans)} {i : Nat}
    {e : Event Op Ans} (h : c.log = pre ++ (i, e) :: post) :
    ∃ tr tr', c.trace i = tr ++ e :: tr' ∧ ∀ e' ∈ tr', (i, e') ∈ post := by
  refine ⟨(pre.filter fun e => e.1 == i).map (·.2), (post.filter fun e => e.1 == i).map (·.2), ?_,
    by simp⟩
  simp [trace, h]

def Finished (c : Pool Op Ans E α W Call) (i : Nat) (call : Call) (out : Except E α) : Prop :=
  c.tasks[i]? = some ⟨call, Prog.ofExcept out⟩

def Running (c : Pool Op Ans E α W Call) (i : Nat) : Prop :=
  ∃ call o k, c.tasks[i]? = some ⟨call, .op o k⟩

/-- No task has anything left to do. -/
def quiet (c : Pool Op Ans E α W Call) : Bool := c.tasks.all fun t => t.rest.ended

theorem running_iff {c : Pool Op Ans E α W Call} {i : Nat} :
    c.Running i ↔ (c.tasks.map (·.rest.ended))[i]? = some false := by
  rw [List.getElem?_map, Option.map_eq_some_iff]
  constructor
  · rintro ⟨call, o, k, ht⟩
    exact ⟨_, ht, rfl⟩
  · rintro ⟨⟨call, rest⟩, ht, hended⟩
    cases rest with
    | op o k => exact ⟨call, o, k, ht⟩
    | pure a | throw e => cases hended

theorem not_running_of_quiet {c : Pool Op Ans E α W Call} (h : c.quiet = true) (i : Nat) :
    ¬ c.Running i := by
  rintro ⟨call, o, k, ht⟩
  exact Bool.false_ne_true (List.all_eq_true.mp h _ (List.mem_of_getElem? ht))

end Pool

namespace Machine

variable (M : Machine Op Ans E α W In Call)

def fresh (call : Call) : Task Op Ans E α Call := ⟨call, M.body call⟩

/-- The world after the task `i` performs `o`, and the task afterwards. -/
def advance (c : Pool Op Ans E α W Call) (i : Nat) (call : Call) (o : Op)
    (k : Ans o → Prog Op Ans E α) (x : In) : Option (Pool Op Ans E α W Call) :=
  (M.exec c.world o x).map fun r =>
    { world := r.2
      tasks := c.tasks.set i ⟨call, k r.1⟩ ++ (M.spawn o).map M.fresh
      log := c.log ++ [(i, ⟨o, r.1⟩)] }

def step? (c : Pool Op Ans E α W Call) : Move In Call → Option (Pool Op Ans E α W Call)
  | .start call => some { c with tasks := c.tasks ++ [M.fresh call] }
  | .drift x => (M.drift c.world x).map fun w => { c with world := w }
  | .run i x =>
    match c.tasks[i]? with
    | some ⟨call, .op o k⟩ => M.advance c i call o k x
    | _ => none

def moves? (c : Pool Op Ans E α W Call) : List (Move In Call) → Option (Pool Op Ans E α W Call)
  | [] => some c
  | m :: ms => (M.step? c m).bind fun c' => moves? c' ms

/-- As `moves?`, as long as the states meet `p`. -/
def movesWhile? (p : Pool Op Ans E α W Call → Bool) (c : Pool Op Ans E α W Call) :
    List (Move In Call) → Option (Pool Op Ans E α W Call)
  | [] => some c
  | m :: ms => if p c then (M.step? c m).bind fun c' => movesWhile? p c' ms else none

/-- As `moves?`, as long as each move meets `p` in the state it is made in. -/
def movesUnder? (p : Pool Op Ans E α W Call → Move In Call → Bool) (c : Pool Op Ans E α W Call) :
    List (Move In Call) → Option (Pool Op Ans E α W Call)
  | [] => some c
  | m :: ms => if p c m then (M.step? c m).bind fun c' => movesUnder? p c' ms else none

/-- Reachable by moves that all meet `Ok` in the state they are made in. -/
inductive Reach (Ok : Pool Op Ans E α W Call → Move In Call → Prop) (c₀ : Pool Op Ans E α W Call) :
    Pool Op Ans E α W Call → Prop
  | start : Reach Ok c₀ c₀
  | next {c c' : Pool Op Ans E α W Call} {m : Move In Call} (h : Reach Ok c₀ c) (hok : Ok c m)
      (hs : M.step? c m = some c') : Reach Ok c₀ c'

abbrev Reachable (c₀ c : Pool Op Ans E α W Call) : Prop := M.Reach (fun _ _ => True) c₀ c

variable {M}

theorem Reach.weaken {Ok : Pool Op Ans E α W Call → Move In Call → Prop}
    {c₀ c : Pool Op Ans E α W Call} (h : M.Reach Ok c₀ c) : M.Reachable c₀ c := by
  induction h with
  | start => exact .start
  | next _ _ hs ih => exact .next ih trivial hs

theorem Reach.mono {Ok Ok' : Pool Op Ans E α W Call → Move In Call → Prop}
    (hok : ∀ c m, Ok c m → Ok' c m) {c₀ c : Pool Op Ans E α W Call} (h : M.Reach Ok c₀ c) :
    M.Reach Ok' c₀ c := by
  induction h with
  | start => exact .start
  | next _ ho hs ih => exact ih.next (hok _ _ ho) hs

theorem reachable_of_moves {c₀ c c' : Pool Op Ans E α W Call} (ms : List (Move In Call))
    (h : M.Reachable c₀ c) (hm : M.moves? c ms = some c') : M.Reachable c₀ c' := by
  induction ms generalizing c with
  | nil => cases hm; exact h
  | cons m ms ih =>
    obtain ⟨c₁, hs, hm⟩ := Option.bind_eq_some_iff.mp hm
    exact ih (.next h trivial hs) hm

theorem reach_of_movesWhile {p : Pool Op Ans E α W Call → Bool} {c₀ c c' : Pool Op Ans E α W Call}
    (ms : List (Move In Call)) (h : M.Reach (fun c _ => p c = true) c₀ c)
    (hm : M.movesWhile? p c ms = some c') : M.Reach (fun c _ => p c = true) c₀ c' := by
  induction ms generalizing c with
  | nil => cases hm; exact h
  | cons m ms ih =>
    rw [movesWhile?] at hm
    split_ifs at hm with hp
    obtain ⟨c₁, hs, hm⟩ := Option.bind_eq_some_iff.mp hm
    exact ih (.next h hp hs) hm

theorem reach_of_movesUnder {p : Pool Op Ans E α W Call → Move In Call → Bool}
    {Ok : Pool Op Ans E α W Call → Move In Call → Prop} (hp : ∀ c m, p c m = true → Ok c m)
    {c₀ c c' : Pool Op Ans E α W Call} (ms : List (Move In Call)) (h : M.Reach Ok c₀ c)
    (hm : M.movesUnder? p c ms = some c') : M.Reach Ok c₀ c' := by
  induction ms generalizing c with
  | nil => cases hm; exact h
  | cons m ms ih =>
    rw [movesUnder?] at hm
    split_ifs at hm with hok
    obtain ⟨c₁, hs, hm⟩ := Option.bind_eq_some_iff.mp hm
    exact ih (.next h (hp c m hok) hs) hm

/-! ## What one move does -/

theorem step_run {c c' : Pool Op Ans E α W Call} {i : Nat} {x : In}
    (h : M.step? c (.run i x) = some c') :
    ∃ call o k a w, c.tasks[i]? = some ⟨call, .op o k⟩ ∧ M.exec c.world o x = some (a, w) ∧
      c' = { world := w
             tasks := c.tasks.set i ⟨call, k a⟩ ++ (M.spawn o).map M.fresh
             log := c.log ++ [(i, ⟨o, a⟩)] } := by
  simp only [step?] at h
  split at h
  · rename_i call o k ht
    obtain ⟨⟨a, w⟩, he, rfl⟩ := Option.map_eq_some_iff.mp h
    exact ⟨call, o, k, a, w, ht, he, rfl⟩
  · cases h

theorem trace_snoc (c : Pool Op Ans E α W Call) (w : W) (ts : List (Task Op Ans E α Call))
    (i j : Nat) (e : Event Op Ans) :
    ({ world := w, tasks := ts, log := c.log ++ [(i, e)] } : Pool Op Ans E α W Call).trace j =
      c.trace j ++ if i = j then [e] else [] :=
  Pool.trace_of_log rfl j

theorem getElem?_advance {ts new : List (Task Op Ans E α Call)} {i j : Nat}
    {t t' : Task Op Ans E α Call} (hi : i < ts.length) (h : (ts.set i t' ++ new)[j]? = some t) :
    (j = i ∧ t = t') ∨ (j ≠ i ∧ ts[j]? = some t) ∨
      (ts.length ≤ j ∧ new[j - ts.length]? = some t) := by
  rcases Nat.lt_or_ge j ts.length with hj | hj
  · rw [List.getElem?_append_left (by simpa using hj)] at h
    by_cases hji : j = i
    · subst hji
      rw [List.getElem?_set_self (by simpa using hj)] at h
      exact .inl ⟨rfl, (Option.some.inj h).symm⟩
    · rw [List.getElem?_set_ne (Ne.symm hji)] at h
      exact .inr (.inl ⟨hji, h⟩)
  · rw [List.getElem?_append_right (by simpa using hj), List.length_set] at h
    exact .inr (.inr ⟨hj, h⟩)

theorem task_step {c c' : Pool Op Ans E α W Call} {m : Move In Call} (h : M.step? c m = some c')
    {j : Nat} (hm : ∀ x, m ≠ .run j x) {t : Task Op Ans E α Call} (ht : c.tasks[j]? = some t) :
    c'.tasks[j]? = some t := by
  have hj : j < c.tasks.length := (List.getElem?_eq_some_iff.mp ht).1
  cases m with
  | start call =>
    cases h
    rwa [List.getElem?_append_left hj]
  | drift x =>
    obtain ⟨w, -, rfl⟩ := Option.map_eq_some_iff.mp h
    exact ht
  | run i x =>
    obtain ⟨call, o, k, a, w, -, -, rfl⟩ := step_run h
    have hij : i ≠ j := fun he => hm x (by rw [he])
    rwa [List.getElem?_append_left (by simpa using hj), List.getElem?_set_ne hij]

theorem task_back {c c' : Pool Op Ans E α W Call} {m : Move In Call} (h : M.step? c m = some c')
    {j : Nat} (hm : ∀ x, m ≠ .run j x) {t : Task Op Ans E α Call} (ht : c'.tasks[j]? = some t) :
    c.tasks[j]? = some t ∨ c.tasks.length ≤ j := by
  rcases Nat.lt_or_ge j c.tasks.length with hj | hj
  · have hold := task_step h hm (List.getElem?_eq_getElem hj)
    rw [ht] at hold
    cases hold
    exact .inl (List.getElem?_eq_getElem hj)
  · exact .inr hj

theorem task_origin {c c' : Pool Op Ans E α W Call} {m : Move In Call} (h : M.step? c m = some c')
    {j : Nat} {t : Task Op Ans E α Call} (ht : c'.tasks[j]? = some t) :
    (∃ t₀, c.tasks[j]? = some t₀ ∧ t.call = t₀.call ∧ (t₀.rest.ended = true → t = t₀)) ∨
      c.tasks.length ≤ j ∧ (m = .start t.call ∨ ∃ i x call o k, m = .run i x ∧
        c.tasks[i]? = some ⟨call, .op o k⟩ ∧ t.call ∈ M.spawn o) := by
  cases m with
  | start call =>
    cases h
    rcases Nat.lt_or_ge j c.tasks.length with hj | hj
    · rw [List.getElem?_append_left hj] at ht
      exact .inl ⟨t, ht, rfl, fun _ => rfl⟩
    · rw [List.getElem?_append_right hj] at ht
      obtain rfl := List.mem_singleton.mp (List.mem_of_getElem? ht)
      exact .inr ⟨hj, .inl rfl⟩
  | drift x =>
    obtain ⟨w, -, rfl⟩ := Option.map_eq_some_iff.mp h
    exact .inl ⟨t, ht, rfl, fun _ => rfl⟩
  | run i x =>
    obtain ⟨call, o, k, a, w, hi, -, rfl⟩ := step_run h
    rcases getElem?_advance (List.getElem?_eq_some_iff.mp hi).1 ht with
      ⟨rfl, rfl⟩ | ⟨-, hold⟩ | ⟨hj, hnew⟩
    · exact .inl ⟨_, hi, rfl, fun hended => by cases hended⟩
    · exact .inl ⟨t, hold, rfl, fun _ => rfl⟩
    · obtain ⟨call', hcall', rfl⟩ := List.mem_map.mp (List.mem_of_getElem? hnew)
      exact .inr ⟨hj, .inr ⟨i, x, call, o, k, rfl, hi, hcall'⟩⟩

theorem trace_still {c c' : Pool Op Ans E α W Call} {m : Move In Call} (h : M.step? c m = some c')
    {j : Nat} (hm : ∀ x, m ≠ .run j x) : c'.trace j = c.trace j := by
  cases m with
  | start call =>
    cases h
    rfl
  | drift x =>
    obtain ⟨w, -, rfl⟩ := Option.map_eq_some_iff.mp h
    rfl
  | run i x =>
    obtain ⟨call, o, k, a, w, -, -, rfl⟩ := step_run h
    have hij : i ≠ j := fun he => hm x (by rw [he])
    rw [trace_snoc, if_neg hij, List.append_nil]

theorem calls_step {c c' : Pool Op Ans E α W Call} {m : Move In Call}
    (h : M.step? c m = some c') : c.tasks.map (·.call) <+: c'.tasks.map (·.call) := by
  cases m with
  | start call =>
    cases h
    simp
  | drift x =>
    obtain ⟨w, -, rfl⟩ := Option.map_eq_some_iff.mp h
    simp
  | run i x =>
    obtain ⟨call, o, k, a, w, ht, -, rfl⟩ := step_run h
    have hset : (c.tasks.set i ⟨call, k a⟩).map (·.call) = c.tasks.map (·.call) := by
      obtain ⟨hi, hget⟩ := List.getElem?_eq_some_iff.mp ht
      have hi' : i < (c.tasks.map (·.call)).length := by simpa using hi
      have hcall : (c.tasks.map (·.call))[i] = call := by simp [hget]
      rw [List.map_set]
      conv_lhs => arg 3; rw [← hcall]
      exact List.set_getElem_self hi'
    simp only [List.map_append, hset]
    exact List.prefix_append _ _

theorem calls_moves {c c' : Pool Op Ans E α W Call} {ms : List (Move In Call)}
    (h : M.moves? c ms = some c') : c.tasks.map (·.call) <+: c'.tasks.map (·.call) := by
  induction ms generalizing c with
  | nil =>
    cases h
    exact List.prefix_rfl
  | cons m ms ih =>
    obtain ⟨c₁, hs, hm⟩ := Option.bind_eq_some_iff.mp h
    exact (calls_step hs).trans (ih hm)

theorem task_of_moves {c c' : Pool Op Ans E α W Call} {call : Call} {ms : List (Move In Call)}
    (h : M.moves? c (.start call :: ms) = some c') :
    ∃ t, c'.tasks[c.tasks.length]? = some t ∧ t.call = call := by
  obtain ⟨c₁, hs, hm⟩ := Option.bind_eq_some_iff.mp h
  cases hs
  obtain ⟨new, hnew⟩ := calls_moves hm
  have hget : (c'.tasks.map (·.call))[c.tasks.length]? = some call := by
    rw [← hnew]
    simp [fresh]
  rw [List.getElem?_map, Option.map_eq_some_iff] at hget
  exact hget

/-! ## Invariants -/

theorem Reach.invariant {Ok : Pool Op Ans E α W Call → Move In Call → Prop}
    {c₀ : Pool Op Ans E α W Call} (I : Pool Op Ans E α W Call → Prop) (h₀ : I c₀)
    (hstep : ∀ c m c', M.Reach Ok c₀ c → I c → Ok c m → M.step? c m = some c' → I c')
    {c : Pool Op Ans E α W Call} (h : M.Reach Ok c₀ c) : I c := by
  induction h with
  | start => exact h₀
  | next h hok hs ih => exact hstep _ _ _ h ih hok hs

theorem Reach.trans {Ok : Pool Op Ans E α W Call → Move In Call → Prop}
    {c₀ c₁ c₂ : Pool Op Ans E α W Call} (h : M.Reach Ok c₀ c₁) (h' : M.Reach Ok c₁ c₂) :
    M.Reach Ok c₀ c₂ := by
  induction h' with
  | start => exact h
  | next _ hok hs ih => exact ih.next hok hs

theorem log_step {c c' : Pool Op Ans E α W Call} {m : Move In Call}
    (h : M.step? c m = some c') :
    c'.log = c.log ∨ ∃ i x e, m = .run i x ∧ c'.log = c.log ++ [(i, e)] := by
  cases m with
  | start call =>
    cases h
    exact .inl rfl
  | drift x =>
    obtain ⟨w, -, rfl⟩ := Option.map_eq_some_iff.mp h
    exact .inl rfl
  | run i x =>
    obtain ⟨call, o, k, a, w, -, -, rfl⟩ := step_run h
    exact .inr ⟨i, x, ⟨o, a⟩, rfl, rfl⟩

theorem Reach.at {Ok : Pool Op Ans E α W Call → Move In Call → Prop}
    {c₀ c : Pool Op Ans E α W Call} (h : M.Reach Ok c₀ c) {pre post : List (Nat × Event Op Ans)}
    {i : Nat} {e : Event Op Ans} (hlog : c.log = pre ++ (i, e) :: post)
    (hlen : c₀.log.length ≤ pre.length) :
    ∃ c₁ x c₂, M.Reach Ok c₀ c₁ ∧ c₁.log = pre ∧ Ok c₁ (.run i x) ∧
      M.step? c₁ (.run i x) = some c₂ ∧ c₂.log = pre ++ [(i, e)] ∧ M.Reach Ok c₂ c := by
  induction h generalizing post with
  | start =>
    rw [hlog, List.length_append, List.length_cons] at hlen
    omega
  | @next c c' m h hok hs ih =>
    have hold : ∀ post, c.log = pre ++ (i, e) :: post → ∃ c₁ x c₂, M.Reach Ok c₀ c₁ ∧
        c₁.log = pre ∧ Ok c₁ (.run i x) ∧ M.step? c₁ (.run i x) = some c₂ ∧
        c₂.log = pre ++ [(i, e)] ∧ M.Reach Ok c₂ c' := by
      intro post hc
      obtain ⟨c₁, x, c₂, h₁, hpre, hok₁, hs₁, hlog₂, h₂⟩ := ih hc
      exact ⟨c₁, x, c₂, h₁, hpre, hok₁, hs₁, hlog₂, h₂.next hok hs⟩
    rcases log_step hs with hsame | ⟨j, x, e', rfl, hsnoc⟩
    · exact hold post (hsame ▸ hlog)
    · rw [hsnoc] at hlog
      rcases Prog.split_append hlog with ⟨mid, hc, -⟩ | ⟨mid, hpre, hlast⟩
      · exact hold mid hc
      · cases mid with
        | nil =>
          obtain ⟨hje, rfl⟩ := List.cons.inj hlast
          obtain ⟨rfl, rfl⟩ := Prod.mk.inj hje
          rw [List.append_nil] at hpre
          exact ⟨c, x, c', h, hpre.symm, hok, hs, hpre ▸ hsnoc, .start⟩
        | cons e'' mid =>
          have := congrArg List.length hlast
          simp at this

def OnTheWay (M : Machine Op Ans E α W In Call) (c : Pool Op Ans E α W Call) : Prop :=
  (∀ i, c.tasks.length ≤ i → c.trace i = []) ∧
    ∀ i t, c.tasks[i]? = some t → Prog.Steps (M.body t.call) (c.trace i) t.rest

theorem onTheWay_fresh {c : Pool Op Ans E α W Call} (h : M.OnTheWay c) {n : List Call}
    {i : Nat} {t : Task Op Ans E α Call} (hi : c.tasks.length ≤ i)
    (hn : (n.map M.fresh)[i - c.tasks.length]? = some t) :
    Prog.Steps (M.body t.call) (c.trace i) t.rest := by
  rw [List.getElem?_map, Option.map_eq_some_iff] at hn
  obtain ⟨call, -, rfl⟩ := hn
  rw [h.1 i hi]
  exact .refl _

theorem onTheWay_step {c c' : Pool Op Ans E α W Call} {m : Move In Call} (h : M.OnTheWay c)
    (hs : M.step? c m = some c') : M.OnTheWay c' := by
  cases m with
  | start call =>
    cases hs
    refine ⟨fun i hi => h.1 i (by simp at hi; omega), fun i t ht => ?_⟩
    rcases Nat.lt_or_ge i c.tasks.length with hi | hi
    · rw [List.getElem?_append_left hi] at ht
      exact h.2 i t ht
    · rw [List.getElem?_append_right hi] at ht
      exact onTheWay_fresh (n := [call]) h hi ht
  | drift x =>
    obtain ⟨w, -, rfl⟩ := Option.map_eq_some_iff.mp hs
    exact h
  | run i x =>
    obtain ⟨call, o, k, a, w, ht, -, rfl⟩ := step_run hs
    have hi : i < c.tasks.length := (List.getElem?_eq_some_iff.mp ht).1
    refine ⟨fun j hj => ?_, fun j t hj => ?_⟩
    · simp only [List.length_append, List.length_set, List.length_map] at hj
      rw [trace_snoc, if_neg (by omega), h.1 j (by omega), List.append_nil]
    · rw [trace_snoc]
      rcases getElem?_advance hi hj with ⟨rfl, rfl⟩ | ⟨hji, hj⟩ | ⟨hji, hj⟩
      · rw [if_pos rfl]
        exact Prog.steps_snoc (h.2 j _ ht) a
      · rw [if_neg (Ne.symm hji), List.append_nil]
        exact h.2 j t hj
      · rw [if_neg (by omega), List.append_nil]
        exact onTheWay_fresh h hji hj

theorem Reach.onTheWay {Ok : Pool Op Ans E α W Call → Move In Call → Prop} {w : W}
    {c : Pool Op Ans E α W Call} (h : M.Reach Ok (.empty w) c) : M.OnTheWay c :=
  h.invariant _ ⟨fun _ _ => rfl, fun _ _ ht => by simp [Pool.empty] at ht⟩
    fun _ _ _ _ hc _ hs => onTheWay_step hc hs

theorem Reach.task_of_mem {Ok : Pool Op Ans E α W Call → Move In Call → Prop} {w : W}
    {c : Pool Op Ans E α W Call} (h : M.Reach Ok (.empty w) c) {i : Nat} {e : Event Op Ans}
    (he : (i, e) ∈ c.log) : ∃ t, c.tasks[i]? = some t := by
  rcases Nat.lt_or_ge i c.tasks.length with hi | hi
  · exact ⟨_, List.getElem?_eq_getElem hi⟩
  · have hmem := Pool.mem_trace.mpr he
    rw [h.onTheWay.1 i hi] at hmem
    cases hmem

theorem Reach.finished {Ok : Pool Op Ans E α W Call → Move In Call → Prop} {w : W}
    {c : Pool Op Ans E α W Call} (h : M.Reach Ok (.empty w) c) {i : Nat} {call : Call}
    {out : Except E α} (hf : c.Finished i call out) : Prog.Run (M.body call) (c.trace i) out := by
  have hs := h.onTheWay.2 i _ hf
  have hr : Prog.Run (Prog.ofExcept out : Prog Op Ans E α) [] out := by
    cases out with
    | ok a => exact .pure a
    | error e => exact .throw e
  simpa using Prog.steps_run hs hr

theorem Reach.run_of_quiet {Ok : Pool Op Ans E α W Call → Move In Call → Prop} {w : W}
    {c : Pool Op Ans E α W Call} (h : M.Reach Ok (.empty w) c) (hq : c.quiet = true) {i : Nat}
    {t : Task Op Ans E α Call} (ht : c.tasks[i]? = some t) :
    ∃ out, Prog.Run (M.body t.call) (c.trace i) out := by
  obtain ⟨call, rest⟩ := t
  have hended : rest.ended = true := List.all_eq_true.mp hq _ (List.mem_of_getElem? ht)
  obtain ⟨out, rfl⟩ := Prog.eq_ofExcept_of_ended hended
  exact ⟨out, h.finished ht⟩

/-- What a task has been answered, the world of an earlier state has answered. -/
theorem Reach.answered {Ok : Pool Op Ans E α W Call → Move In Call → Prop} {w : W}
    {c : Pool Op Ans E α W Call} (h : M.Reach Ok (.empty w) c) {i : Nat} {e : Event Op Ans}
    (he : e ∈ c.trace i) :
    ∃ c₁ x w', M.Reach Ok (.empty w) c₁ ∧ M.exec c₁.world e.1 x = some (e.2, w') := by
  induction h with
  | start => cases he
  | @next c c' m h _ hs ih =>
    cases m with
    | start call =>
      cases hs
      exact ih he
    | drift x =>
      obtain ⟨w', -, rfl⟩ := Option.map_eq_some_iff.mp hs
      exact ih he
    | run j x =>
      obtain ⟨call, o, k, a, w', -, hexec, rfl⟩ := step_run hs
      rw [trace_snoc] at he
      rcases List.mem_append.mp he with he | he
      · exact ih he
      · split_ifs at he with hij
        · rw [List.mem_singleton] at he
          subst he
          exact ⟨c, x, w', h, hexec⟩
        · cases he

theorem Reach.spawned {Ok : Pool Op Ans E α W Call → Move In Call → Prop} {w : W}
    {c : Pool Op Ans E α W Call} (h : M.Reach Ok (.empty w) c) {i : Nat} {e : Event Op Ans}
    (he : e ∈ c.trace i) {call : Call} (hcall : call ∈ M.spawn e.1) :
    ∃ t ∈ c.tasks, t.call = call := by
  induction h with
  | start => cases he
  | @next c c' m h _ hs ih =>
    have hkeep : (∃ t ∈ c.tasks, t.call = call) → ∃ t ∈ c'.tasks, t.call = call := by
      intro ht
      have hmem : call ∈ c.tasks.map (·.call) := List.mem_map.mpr ht
      exact List.mem_map.mp ((calls_step hs).subset hmem)
    cases m with
    | start _ =>
      cases hs
      exact hkeep (ih he)
    | drift x =>
      obtain ⟨w', -, rfl⟩ := Option.map_eq_some_iff.mp hs
      exact ih he
    | run j x =>
      obtain ⟨_, o, k, a, w', -, -, rfl⟩ := step_run hs
      rw [trace_snoc] at he
      rcases List.mem_append.mp he with he | he
      · exact hkeep (ih he)
      · split_ifs at he with hij
        · rw [List.mem_singleton] at he
          subst he
          exact ⟨M.fresh call, List.mem_append_right _ (List.mem_map_of_mem hcall), rfl⟩
        · cases he

theorem Reach.calls {Ok : Pool Op Ans E α W Call → Move In Call → Prop}
    {c₀ c : Pool Op Ans E α W Call} (h : M.Reach Ok c₀ c) :
    c₀.tasks.map (·.call) <+: c.tasks.map (·.call) := by
  induction h with
  | start => exact List.prefix_rfl
  | next _ _ hs ih => exact ih.trans (calls_step hs)

theorem Reach.call_eq {Ok : Pool Op Ans E α W Call → Move In Call → Prop}
    {c₀ c : Pool Op Ans E α W Call} (h : M.Reach Ok c₀ c) {i : Nat} {t t' : Task Op Ans E α Call}
    (ht : c₀.tasks[i]? = some t) (ht' : c.tasks[i]? = some t') : t.call = t'.call := by
  obtain ⟨new, hnew⟩ := h.calls
  have hi : i < (c₀.tasks.map (·.call)).length := by
    simpa using (List.getElem?_eq_some_iff.mp ht).1
  have hget : (c.tasks.map (·.call))[i]? = (c₀.tasks.map (·.call))[i]? := by
    rw [← hnew, List.getElem?_append_left hi]
  simpa [ht, ht'] using hget.symm

theorem Reach.spawned_at {Ok : Pool Op Ans E α W Call → Move In Call → Prop} {w : W}
    {c : Pool Op Ans E α W Call} (h : M.Reach Ok (.empty w) c)
    {pre post : List (Nat × Event Op Ans)} {i : Nat} {e : Event Op Ans}
    (hlog : c.log = pre ++ (i, e) :: post) {call : Call} (hcall : call ∈ M.spawn e.1) :
    ∃ j t, c.tasks[j]? = some t ∧ t.call = call ∧ ∀ e', (j, e') ∈ c.log → (j, e') ∈ post := by
  obtain ⟨c₁, x, c₂, h₁, rfl, -, hs, hlog₂, h₂⟩ := h.at hlog (by simp [Pool.empty])
  obtain ⟨call₁, o, k, a, w', ht, -, rfl⟩ := step_run hs
  cases List.append_cancel_left hlog₂
  obtain ⟨n, hn⟩ := List.mem_iff_getElem?.mp hcall
  have hi : i < c₁.tasks.length := (List.getElem?_eq_some_iff.mp ht).1
  -- Its number is new.
  have hnew : ((c₁.tasks.set i ⟨call₁, k a⟩ ++ (M.spawn o).map M.fresh).map (·.call))[
      c₁.tasks.length + n]? = some call := by
    rw [List.map_append, List.getElem?_append_right (by simp)]
    simpa [fresh] using hn
  obtain ⟨later, hlater⟩ := h₂.calls
  have hget : (c.tasks.map (·.call))[c₁.tasks.length + n]? = some call := by
    rw [← hlater, List.getElem?_append_left (List.getElem?_eq_some_iff.mp hnew).1]
    exact hnew
  rw [List.getElem?_map, Option.map_eq_some_iff] at hget
  obtain ⟨t, hj, rfl⟩ := hget
  refine ⟨_, t, hj, rfl, fun e' he' => ?_⟩
  rw [hlog] at he'
  rcases List.mem_append.mp he' with he' | he'
  · have hnone := h₁.onTheWay.1 (c₁.tasks.length + n) (Nat.le_add_right ..)
    have hmem := Pool.mem_trace.mpr he'
    rw [hnone] at hmem
    cases hmem
  · rcases List.mem_cons.mp he' with heq | he'
    · obtain ⟨hji, -⟩ := Prod.mk.inj heq
      omega
    · exact he'

theorem Reach.head {Ok : Pool Op Ans E α W Call → Move In Call → Prop}
    {c₀ c : Pool Op Ans E α W Call} (h : M.Reach Ok c₀ c) : c₀ = c ∨ ∃ m, Ok c₀ m := by
  induction h with
  | start => exact .inl rfl
  | next _ hok _ ih =>
    rcases ih with rfl | h
    · exact .inr ⟨_, hok⟩
    · exact .inr h

/-- An invariant of the world, from what single events do to it. -/
theorem Reach.world_invariant {Ok : Pool Op Ans E α W Call → Move In Call → Prop}
    [∀ o, Nonempty (Ans o)] {w₀ : W} (J : W → Prop) (φ : Event Op Ans → Prop) (h₀ : J w₀)
    (hφ : ∀ call, (M.body call).Emits φ)
    (hexec : ∀ w o x a w', J w → M.exec w o x = some (a, w') → φ ⟨o, a⟩ → J w')
    (hdrift : ∀ w x w', J w → M.drift w x = some w' → J w')
    {c : Pool Op Ans E α W Call} (h : M.Reach Ok (.empty w₀) c) : J c.world := by
  apply h.invariant (fun c => J c.world) h₀
  intro c m c' hc hJ _ hs
  cases m with
  | start call => cases hs; exact hJ
  | drift x =>
    obtain ⟨w, hw, rfl⟩ := Option.map_eq_some_iff.mp hs
    exact hdrift _ _ _ hJ hw
  | run i x =>
    obtain ⟨call, o, k, a, w, ht, he, rfl⟩ := step_run hs
    have hsteps := Prog.steps_snoc (hc.onTheWay.2 i _ ht) a
    exact hexec _ _ _ _ _ hJ he (Prog.Emits.steps (hφ call) hsteps _ (by simp))

end Machine

end Coroutine
