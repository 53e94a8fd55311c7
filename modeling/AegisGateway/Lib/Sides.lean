import AegisGateway.Lib.Pool
import Mathlib.Data.List.Induction
import Mathlib.Data.List.ReduceOption

/-!
# Programs on the side

Some programs of a pool run on the side: they start nothing, and what they do to the world
cannot be seen in a view of it. Then the other programs take the same course whatever runs
beside them, as long as the part of the world that all share is the same when they move.
-/

namespace Coroutine

variable {Op : Type} {Ans : Op → Type} {E α W In Call P Q : Type}

/-! ## Lists with holes -/

theorem reduceOption_split {β : Type} {l : List (Option β)} {i : Nat} {b : β}
    (h : l[i]? = some (some b)) :
    l.reduceOption = (l.take i).reduceOption ++ b :: (l.drop (i + 1)).reduceOption := by
  obtain ⟨hi, hb⟩ := List.getElem?_eq_some_iff.mp h
  have hsplit : l = l.take i ++ some b :: l.drop (i + 1) := by
    rw [← hb, List.getElem_cons_drop, List.take_append_drop]
  conv_lhs => rw [hsplit]
  rw [List.reduceOption_append, List.reduceOption_cons_of_some]

theorem reduceOption_getElem? {β : Type} {l : List (Option β)} {i : Nat} {b : β}
    (h : l[i]? = some (some b)) : l.reduceOption[(l.take i).reduceOption.length]? = some b := by
  rw [reduceOption_split h, List.getElem?_append_right (Nat.le_refl _), Nat.sub_self]
  rfl

theorem reduceOption_set {β : Type} {l : List (Option β)} {i : Nat} {b : β}
    (h : l[i]? = some (some b)) (b' : β) :
    (l.set i (some b')).reduceOption =
      l.reduceOption.set (l.take i).reduceOption.length b' := by
  have hi : i < l.length := (List.getElem?_eq_some_iff.mp h).1
  have hset : (l.set i (some b'))[i]? = some (some b') := List.getElem?_set_self hi
  rw [reduceOption_split hset, reduceOption_split h, List.take_set_of_le (Nat.le_refl _),
    List.drop_set_of_lt (Nat.lt_succ_self _), List.set_append_right _ _ (Nat.le_refl _),
    Nat.sub_self]
  rfl

/-! ## The tasks that count -/

namespace Pool

variable (side : Call → Bool)

def entries (c : Pool Op Ans E α W Call) : List (Option (Task Op Ans E α Call × Trace Op Ans)) :=
  c.tasks.mapIdx fun i t => if side t.call then none else some (t, c.trace i)

def main (c : Pool Op Ans E α W Call) : List (Task Op Ans E α Call × Trace Op Ans) :=
  (c.entries side).reduceOption

def place (c : Pool Op Ans E α W Call) (i : Nat) : Nat :=
  ((c.entries side).take i).reduceOption.length

/-- A move of a task on the side, or its start. -/
def Aside (c : Pool Op Ans E α W Call) : Move In Call → Prop
  | .start call => side call = true
  | .run i _ => ∃ t, c.tasks[i]? = some t ∧ side t.call = true
  | .drift _ => False

def named (c : Pool Op Ans E α W Call) : Move In Call → Move In Call
  | .run i x => .run (c.place side i) x
  | m => m

variable {side}

theorem entries_getElem? {c : Pool Op Ans E α W Call} {i : Nat} {t : Task Op Ans E α Call}
    (ht : c.tasks[i]? = some t) (hside : side t.call = false) :
    (c.entries side)[i]? = some (some (t, c.trace i)) := by
  simp [entries, ht, hside]

theorem main_place {c : Pool Op Ans E α W Call} {i : Nat} {t : Task Op Ans E α Call}
    (ht : c.tasks[i]? = some t) (hside : side t.call = false) :
    (c.main side)[c.place side i]? = some (t, c.trace i) :=
  reduceOption_getElem? (entries_getElem? ht hside)

end Pool

namespace Machine

variable {M : Machine Op Ans E α W In Call} {side : Call → Bool}

def freshEntries (M : Machine Op Ans E α W In Call) (side : Call → Bool) (calls : List Call) :
    List (Option (Task Op Ans E α Call × Trace Op Ans)) :=
  calls.map fun call => if side call then none else some (M.fresh call, [])

theorem entries_append {c' : Pool Op Ans E α W Call} {ts : List (Task Op Ans E α Call)}
    {calls : List Call} (htasks : c'.tasks = ts ++ calls.map M.fresh)
    (hnew : ∀ i, ts.length ≤ i → c'.trace i = []) :
    c'.entries side = ts.mapIdx (fun i t => if side t.call then none else some (t, c'.trace i)) ++
      M.freshEntries side calls := by
  rw [Pool.entries, htasks, List.mapIdx_append]
  congr 1
  apply List.ext_getElem?
  intro j
  simp only [freshEntries, List.getElem?_mapIdx, List.getElem?_map]
  cases calls[j]? with
  | none => rfl
  | some call =>
    simp only [Option.map_some, hnew (j + ts.length) (Nat.le_add_left _ _)]
    rfl

theorem entries_start {c : Pool Op Ans E α W Call} (h : M.OnTheWay c) (call : Call) :
    ({ c with tasks := c.tasks ++ [M.fresh call] } : Pool Op Ans E α W Call).entries side =
      c.entries side ++ M.freshEntries side [call] :=
  entries_append rfl h.1

theorem entries_run {c : Pool Op Ans E α W Call} (h : M.OnTheWay c) {i : Nat}
    {t t' : Task Op Ans E α Call} (ht : c.tasks[i]? = some t) (hcall : t'.call = t.call) (w : W)
    (calls : List Call) (e : Event Op Ans) :
    ({ world := w
       tasks := c.tasks.set i t' ++ calls.map M.fresh
       log := c.log ++ [(i, e)] } : Pool Op Ans E α W Call).entries side =
      (c.entries side).set i (if side t.call then none else some (t', c.trace i ++ [e])) ++
        M.freshEntries side calls := by
  have hi : i < c.tasks.length := (List.getElem?_eq_some_iff.mp ht).1
  have hnew : ∀ j, (c.tasks.set i t').length ≤ j →
      ({ world := w, tasks := c.tasks.set i t' ++ calls.map M.fresh, log := c.log ++ [(i, e)] } :
        Pool Op Ans E α W Call).trace j = [] := by
    intro j hj
    rw [List.length_set] at hj
    rw [trace_snoc, if_neg (by omega), h.1 j hj]
    rfl
  rw [entries_append rfl hnew]
  congr 1
  apply List.ext_getElem?
  intro j
  simp only [trace_snoc, List.getElem?_mapIdx, List.getElem?_set, Pool.entries, List.length_mapIdx]
  by_cases hij : i = j
  · subst hij
    simp [hi, hcall]
  · simp [hij]

theorem main_start {c : Pool Op Ans E α W Call} (h : M.OnTheWay c) (call : Call) :
    ({ c with tasks := c.tasks ++ [M.fresh call] } : Pool Op Ans E α W Call).main side =
      c.main side ++ (M.freshEntries side [call]).reduceOption := by
  rw [Pool.main, entries_start h, List.reduceOption_append]
  rfl

section Run

variable {c : Pool Op Ans E α W Call} (h : M.OnTheWay c) {i : Nat} {t : Task Op Ans E α Call}
  (ht : c.tasks[i]? = some t) (t' : Task Op Ans E α Call) (hcall : t'.call = t.call) (w : W)
    (e : Event Op Ans)

include h ht hcall

theorem main_run_aside (hside : side t.call = true) :
    ({ world := w
       tasks := c.tasks.set i t' ++ ([] : List Call).map M.fresh
       log := c.log ++ [(i, e)] } : Pool Op Ans E α W Call).main side = c.main side := by
  have hentry : (c.entries side)[i]? = some none := by simp [Pool.entries, ht, hside]
  obtain ⟨hi, hnone⟩ := List.getElem?_eq_some_iff.mp hentry
  have hset : (c.entries side).set i none = c.entries side := by
    conv_lhs => rw [← hnone, List.set_getElem_self]
  rw [Pool.main, entries_run h ht hcall, if_pos hside, hset, freshEntries, List.map_nil,
    List.append_nil]
  rfl

theorem main_run (hside : side t.call = false) (calls : List Call) :
    ({ world := w
       tasks := c.tasks.set i t' ++ calls.map M.fresh
       log := c.log ++ [(i, e)] } : Pool Op Ans E α W Call).main side =
      (c.main side).set (c.place side i) (t', c.trace i ++ [e]) ++
        (M.freshEntries side calls).reduceOption := by
  rw [Pool.main, entries_run h ht hcall, if_neg (by simp [hside]), List.reduceOption_append,
    reduceOption_set (Pool.entries_getElem? ht hside)]
  rfl

end Run

/-! ## Runs -/

/-- What the programs on the side do is not seen in `view`, and what the others do depends on
`view` and on `shared` only. -/
structure Separated (M : Machine Op Ans E α W In Call) (side : Call → Bool) (view : W → P)
    (shared : W → Q) : Prop where
  aside : ∀ call, side call = true → (M.body call).Emits fun e => M.spawn e.1 = [] ∧
    ∀ w w' x, M.exec w e.1 x = some (e.2, w') → view w' = view w
  main : ∀ call, side call = false → (M.body call).Emits fun e =>
    ∀ w v x a w', view w = view v → shared w = shared v → M.exec w e.1 x = some (a, w') →
      ∃ v', M.exec v e.1 x = some (a, v') ∧ view v' = view w'
  drift : ∀ w v x w', view w = view v → M.drift w x = some w' →
    ∃ v', M.drift v x = some v' ∧ view v' = view w'

/-- The runs to a state, by the moves that are not on the side and what was shared when they were
made. -/
inductive Seen (M : Machine Op Ans E α W In Call) (side : Call → Bool) (shared : W → Q)
    (c₀ : Pool Op Ans E α W Call) : List (Move In Call × Q) → Pool Op Ans E α W Call → Prop
  | start : Seen M side shared c₀ [] c₀
  | aside {l : List (Move In Call × Q)} {c c' : Pool Op Ans E α W Call} {m : Move In Call}
      (h : Seen M side shared c₀ l c) (hm : c.Aside side m) (hs : M.step? c m = some c') :
      Seen M side shared c₀ l c'
  | shown {l : List (Move In Call × Q)} {c c' : Pool Op Ans E α W Call} {m : Move In Call}
      (h : Seen M side shared c₀ l c) (hm : ¬ c.Aside side m) (hs : M.step? c m = some c') :
      Seen M side shared c₀ (l ++ [(c.named side m, shared c.world)]) c'

section Seen

variable {view : W → P} {shared : W → Q} {w₀ : W} {l : List (Move In Call × Q)}
  {c c' d d' : Pool Op Ans E α W Call}

theorem Seen.reachable {c₀ : Pool Op Ans E α W Call} (h : M.Seen side shared c₀ l c) :
    M.Reachable c₀ c := by
  induction h with
  | start => exact .start
  | aside _ _ hs ih | shown _ _ hs ih => exact .next ih trivial hs

/-- Two states that look the same but for what is on the side. -/
structure Alike (side : Call → Bool) (view : W → P) (c d : Pool Op Ans E α W Call) : Prop where
  view : view c.world = view d.world
  main : c.main side = d.main side

variable [∀ o, Nonempty (Ans o)] (hM : M.Separated side view shared)

include hM

theorem aside_step (h : M.OnTheWay c) {m : Move In Call} (hm : c.Aside side m)
    (hs : M.step? c m = some c') : Alike side view c' c := by
  cases m with
  | start call =>
    cases hs
    refine ⟨rfl, ?_⟩
    have hcall : side call = true := hm
    rw [main_start h, freshEntries, List.map_singleton, if_pos hcall]
    exact List.append_nil _
  | drift x => exact hm.elim
  | run i x =>
    obtain ⟨call, o, k, a, w, ht, hexec, rfl⟩ := step_run hs
    obtain ⟨t, ht', hside⟩ := hm
    rw [ht] at ht'
    cases ht'
    obtain ⟨tr, out, hev⟩ := Prog.AllRuns.ahead (hM.aside call hside) (h.2 i _ ht) a
    obtain ⟨hspawn, hview⟩ := hev ⟨o, a⟩ (by simp)
    refine ⟨hview _ _ _ hexec, ?_⟩
    rw [hspawn]
    exact main_run_aside h ht ⟨call, k a⟩ rfl w ⟨o, a⟩ hside

theorem shown_step (hc : M.OnTheWay c) (hd : M.OnTheWay d) (halike : Alike side view c d)
    {m m' : Move In Call} (hm : ¬ c.Aside side m) (hm' : ¬ d.Aside side m')
    (hnamed : c.named side m = d.named side m') (hshared : shared c.world = shared d.world)
    (hs : M.step? c m = some c') (hs' : M.step? d m' = some d') : Alike side view c' d' := by
  cases m with
  | start call =>
    cases m' with
    | start call' =>
      cases hnamed
      cases hs
      cases hs'
      exact ⟨halike.view, by rw [main_start hc, main_start hd, halike.main]⟩
    | run | drift => cases hnamed
  | drift x =>
    cases m' with
    | drift x' =>
      cases hnamed
      obtain ⟨w, hw, rfl⟩ := Option.map_eq_some_iff.mp hs
      obtain ⟨v, hv, rfl⟩ := Option.map_eq_some_iff.mp hs'
      obtain ⟨v', hv', hview⟩ := hM.drift _ _ _ _ halike.view hw
      rw [hv] at hv'
      cases hv'
      exact ⟨hview.symm, halike.main⟩
    | run | start => cases hnamed
  | run i x =>
    cases m' with
    | run j y =>
      obtain ⟨hplace, rfl⟩ : c.place side i = d.place side j ∧ x = y := by
        simpa [Pool.named] using hnamed
      obtain ⟨call, o, k, a, w, ht, hexec, rfl⟩ := step_run hs
      obtain ⟨call', o', k', a', v, ht', hexec', rfl⟩ := step_run hs'
      have hside : side call = false := by
        by_contra hne
        exact hm ⟨_, ht, by simpa using hne⟩
      have hside' : side call' = false := by
        by_contra hne
        exact hm' ⟨_, ht', by simpa using hne⟩
      -- The two runs move the task that has the same place among those that count.
      have htask := Pool.main_place ht hside
      rw [halike.main, hplace, Pool.main_place ht' hside'] at htask
      obtain ⟨htask, htrace⟩ := Prod.mk.inj (Option.some.inj htask)
      cases htask
      obtain ⟨tr, out, hev⟩ := Prog.AllRuns.ahead (hM.main call hside) (hc.2 i _ ht) a
      obtain ⟨v', hv', hview⟩ := hev ⟨o, a⟩ (by simp) _ _ _ _ _ halike.view hshared hexec
      rw [hexec'] at hv'
      cases hv'
      refine ⟨hview.symm, ?_⟩
      rw [main_run hc ht ⟨call, k a⟩ rfl w _ hside, main_run hd ht' ⟨call, k a⟩ rfl v _ hside,
        halike.main, hplace, htrace]
    | start | drift => cases hnamed

theorem Seen.snoc {s : Move In Call × Q} (h : M.Seen side shared (.empty w₀) (l ++ [s]) c) :
    ∃ c₀ m c₁, M.Seen side shared (.empty w₀) l c₀ ∧ ¬ c₀.Aside side m ∧
      M.step? c₀ m = some c₁ ∧ s = (c₀.named side m, shared c₀.world) ∧ Alike side view c c₁ := by
  generalize hl : l ++ [s] = l' at h
  induction h with
  | start => simp at hl
  | aside h hm hs ih =>
    obtain ⟨c₀, m, c₁, h₀, hm₀, hs₀, hname, halike⟩ := ih hl
    have hstep := aside_step hM h.reachable.onTheWay hm hs
    exact ⟨c₀, m, c₁, h₀, hm₀, hs₀, hname, hstep.view.trans halike.view,
      hstep.main.trans halike.main⟩
  | shown h hm hs =>
    obtain ⟨rfl, hlast⟩ := List.append_inj' hl rfl
    exact ⟨_, _, _, h, hm, hs, List.singleton_inj.mp hlast, rfl, rfl⟩

theorem Seen.nil (h : M.Seen side shared (.empty w₀) [] c) :
    Alike side view c (.empty w₀) := by
  generalize hl : [] = l at h
  induction h with
  | start => exact ⟨rfl, rfl⟩
  | aside h hm hs ih =>
    have hstep := aside_step hM h.reachable.onTheWay hm hs
    exact ⟨hstep.view.trans (ih hl).view, hstep.main.trans (ih hl).main⟩
  | shown => simp at hl

/-- Two runs that show the same moves show the same tasks, whatever has been on the side. -/
theorem Seen.alike (h : M.Seen side shared (.empty w₀) l c)
    (h' : M.Seen side shared (.empty w₀) l d) : Alike side view c d := by
  induction l using List.reverseRecOn generalizing c d with
  | nil =>
    have hc := h.nil hM
    have hd := h'.nil hM
    exact ⟨hc.view.trans hd.view.symm, hc.main.trans hd.main.symm⟩
  | append_singleton l s ih =>
    obtain ⟨c₀, m, c₁, h₀, hm, hs, hname, hc⟩ := h.snoc hM
    obtain ⟨d₀, m', d₁, h₀', hm', hs', hname', hd⟩ := h'.snoc hM
    obtain ⟨hnamed, hshared⟩ := Prod.mk.inj (hname.symm.trans hname')
    have hstep := shown_step hM h₀.reachable.onTheWay h₀'.reachable.onTheWay (ih h₀ h₀') hm hm'
      hnamed hshared hs hs'
    exact ⟨hc.view.trans (hstep.view.trans hd.view.symm),
      hc.main.trans (hstep.main.trans hd.main.symm)⟩

end Seen

end Machine

end Coroutine
