import AegisGateway.Lib.TokenBucket
import AegisGateway.RateLimit
import Mathlib.Data.List.Induction

/-!
# What the limiter admits

Every call of `consume` takes the lock, so a run is a list of calls, here with the time
that each one reads.
-/

open TokenBucket

namespace AegisGateway

structure Consume where
  time : ℚ
  key : String
  tokens : ℚ
  deriving DecidableEq

namespace Buckets

variable (cfg : LimiterSettings)

/-- One call, and the admitted calls so far, the newest first. -/
def serve (s : Buckets × List Consume) (r : Consume) : Buckets × List Consume :=
  match consume cfg r.time s.1 r.key r.tokens with
  | (.ok _, buckets) => (buckets, r :: s.2)
  | (.error _, buckets) => (buckets, s.2)

def served (rs : List Consume) : Buckets × List Consume := rs.foldl (serve cfg) (∅, [])

def Timed (rs : List Consume) : Prop := rs.Pairwise fun r r' => r.time ≤ r'.time

def own (key : String) (rs : List Consume) : List Consume := rs.filter (·.key = key)

def grants (rs : List Consume) : List (Grant ℚ) := rs.map fun r => ⟨r.time, r.tokens⟩

def Admits (buckets : Buckets) (r : Consume) : Prop :=
  ∃ left, (consume cfg r.time buckets r.key r.tokens).1 = .ok left

/-! ## One bucket -/

/-- The bucket is what the grants leave of a full one. -/
structure Keeps (now : ℚ) (b : Option Bucket) (gs : List (Grant ℚ)) : Prop where
  granted : Granted (cfg.burst : ℚ) cfg.ratePerSecond gs
  past : ∀ g ∈ gs, g.time ≤ now
  new : b = none → gs = []
  level : ∀ b', b = some b' → b'.updatedAt ≤ now ∧ 0 ≤ b'.tokens ∧
    b'.tokens = room (cfg.burst : ℚ) cfg.ratePerSecond gs b'.updatedAt

variable {cfg} {now t : ℚ} {b : Option Bucket} {gs : List (Grant ℚ)}

theorem keeps_none : Keeps cfg now none [] where
  granted := .nil
  past := by simp
  new := fun _ => rfl
  level := by simp

theorem Keeps.later (h : Keeps cfg now b gs) (ht : now ≤ t) : Keeps cfg t b gs where
  granted := h.granted
  past := fun g hg => (h.past g hg).trans ht
  new := h.new
  level := fun b' hb => ⟨(h.level b' hb).1.trans ht, (h.level b' hb).2⟩

theorem Keeps.refill (h : Keeps cfg now b gs) :
    ((b.getD ⟨cfg.burst, now⟩).refill cfg now) =
      ⟨room (cfg.burst : ℚ) cfg.ratePerSecond gs now, now⟩ := by
  cases b with
  | none =>
    rw [h.new rfl]
    simp [Bucket.refill, room]
  | some b =>
    obtain ⟨hle, -, hlevel⟩ := h.level b rfl
    have helapsed : max 0 (now - b.updatedAt) = now - b.updatedAt :=
      max_eq_right (sub_nonneg.mpr hle)
    rw [← refill_room cfg.rate_pos.le gs hle, ← hlevel]
    simp only [Option.getD_some, Bucket.refill, helapsed]
    rfl

theorem Keeps.read (h : Keeps cfg now b gs) :
    Keeps cfg now (some ⟨room (cfg.burst : ℚ) cfg.ratePerSecond gs now, now⟩) gs where
  granted := h.granted
  past := h.past
  new := by simp
  level := by
    rintro b' ⟨⟩
    exact ⟨le_rfl, room_nonneg (Nat.cast_nonneg _) cfg.rate_pos.le h.granted h.past, rfl⟩

theorem Keeps.grant (h : Keeps cfg now b gs) {x : ℚ} (hx : 0 < x)
    (hle : x ≤ room (cfg.burst : ℚ) cfg.ratePerSecond gs now) :
    Keeps cfg now (some ⟨room (cfg.burst : ℚ) cfg.ratePerSecond gs now - x, now⟩)
      (⟨now, x⟩ :: gs) where
  granted := .cons h.granted hle h.past
  past := by simpa using h.past
  new := by simp
  level := by
    rintro b' ⟨⟩
    refine ⟨le_rfl, sub_nonneg.mpr hle, ?_⟩
    have hroom : room (cfg.burst : ℚ) cfg.ratePerSecond gs now ≤ cfg.burst := room_le gs now
    have hburst : room (cfg.burst : ℚ) cfg.ratePerSecond gs now - x ≤ cfg.burst := by linarith
    simp [room, TokenBucket.refill, hburst]

/-! ## All buckets -/

def Accounts (cfg : LimiterSettings) (now : ℚ) (s : Buckets × List Consume) : Prop :=
  ∀ key, Keeps cfg now (s.1.lookup key) (grants (own key s.2))

theorem consume_invalid {buckets : Buckets} {key : String} {x : ℚ} (h : x ≤ 0 ∨ cfg.burst < x) :
    consume cfg now buckets key x =
      (.error (.valueError "tokens must be in (0, burst]"), buckets) := if_pos h

section Valid

variable {buckets : Buckets} {key : String} {x : ℚ} (hpos : 0 < x) (hburst : x ≤ cfg.burst)
  (h : Keeps cfg now (buckets.lookup key) gs)

include hpos hburst h

theorem consume_denied (hx : room (cfg.burst : ℚ) cfg.ratePerSecond gs now < x) :
    ∃ m, consume cfg now buckets key x = (.error m,
      buckets.insert key ⟨room (cfg.burst : ℚ) cfg.ratePerSecond gs now, now⟩) := by
  unfold consume
  rw [if_neg (by simp [hpos, hburst]), h.refill]
  exact ⟨_, if_pos hx⟩

theorem consume_admitted (hx : x ≤ room (cfg.burst : ℚ) cfg.ratePerSecond gs now) :
    consume cfg now buckets key x = (.ok (room (cfg.burst : ℚ) cfg.ratePerSecond gs now - x),
      buckets.insert key ⟨room (cfg.burst : ℚ) cfg.ratePerSecond gs now - x, now⟩) := by
  unfold consume
  rw [if_neg (by simp [hpos, hburst]), h.refill]
  exact if_neg (not_lt.mpr hx)

end Valid

theorem own_cons (key : String) (r : Consume) (rs : List Consume) :
    own key (r :: rs) = if r.key = key then r :: own key rs else own key rs := by
  simp [own, List.filter_cons]

theorem Accounts.serve {s : Buckets × List Consume} (h : Accounts cfg now s) {r : Consume}
    (hr : now ≤ r.time) : Accounts cfg r.time (serve cfg s r) := by
  have hlater : Accounts cfg r.time s := fun key => (h key).later hr
  have hkey := hlater r.key
  unfold Buckets.serve
  by_cases hvalid : r.tokens ≤ 0 ∨ cfg.burst < r.tokens
  · rw [consume_invalid hvalid]
    exact hlater
  · push Not at hvalid
    obtain ⟨hpos, hburst⟩ := hvalid
    intro key
    by_cases hx : r.tokens ≤ room (cfg.burst : ℚ) cfg.ratePerSecond (grants (own r.key s.2)) r.time
    · rw [consume_admitted hpos hburst hkey hx]
      simp only [own_cons]
      split_ifs with he
      · subst he
        rw [AList.lookup_insert]
        exact hkey.grant hpos hx
      · rw [AList.lookup_insert_ne (Ne.symm he)]
        exact hlater key
    · obtain ⟨m, hm⟩ := consume_denied hpos hburst hkey (not_le.mp hx)
      rw [hm]
      by_cases he : r.key = key
      · subst he
        simp only [AList.lookup_insert]
        exact hkey.read
      · simp only [AList.lookup_insert_ne (Ne.symm he)]
        exact hlater key

theorem served_concat (rs : List Consume) (r : Consume) :
    served cfg (rs ++ [r]) = serve cfg (served cfg rs) r := by
  simp [served]

theorem accounts_served {rs : List Consume} (h : Timed rs) (ht : ∀ r ∈ rs, r.time ≤ t) :
    Accounts cfg t (served cfg rs) := by
  induction rs using List.reverseRecOn generalizing t with
  | nil => exact fun key => keeps_none
  | append_singleton rs r ih =>
    obtain ⟨htimed, -, hlast⟩ := List.pairwise_append.mp h
    have hr := ih htimed fun r' hr' => hlast r' hr' r (by simp)
    rw [served_concat]
    exact fun key => (hr.serve le_rfl key).later (ht r (by simp))

/-! ## The law -/

def spent (rs : List Consume) : ℚ := (rs.map (·.tokens)).sum

@[simp]
theorem total_grants (rs : List Consume) : total (grants rs) = spent rs := by
  simp [total, grants, spent, Function.comp_def]

/-- The call leaves every window that begins with an admitted call within burst and rate. -/
def WithinLaw (cfg : LimiterSettings) (admitted : List Consume) (r : Consume) : Prop :=
  ∀ newer i older, admitted = newer ++ i :: older →
    r.tokens + (spent newer + i.tokens) ≤ cfg.burst + cfg.ratePerSecond * (r.time - i.time)

theorem fits_grants {rs : List Consume} {r : Consume} :
    Fits (cfg.burst : ℚ) cfg.ratePerSecond (grants rs) r.time r.tokens ↔ WithinLaw cfg rs r := by
  constructor
  · rintro h newer i older rfl
    simpa using h (grants newer) ⟨i.time, i.tokens⟩ (grants older) (by simp [grants])
  · intro h newer g older hgs
    obtain ⟨newer', older', rfl, rfl, hg⟩ := List.map_eq_append_iff.mp hgs
    obtain ⟨i, older', rfl, rfl, rfl⟩ := List.map_eq_cons_iff.mp hg
    simpa [← total_grants, grants] using h newer' i older' rfl

theorem admits_iff {buckets : Buckets} {rs : List Consume} {r : Consume}
    (h : Keeps cfg r.time (buckets.lookup r.key) (grants rs)) (hpos : 0 < r.tokens)
    (hburst : r.tokens ≤ cfg.burst) : Admits cfg buckets r ↔ WithinLaw cfg rs r := by
  have hroom : r.tokens ≤ room (cfg.burst : ℚ) cfg.ratePerSecond (grants rs) r.time ↔
      WithinLaw cfg rs r := by
    rw [le_room_iff, fits_grants]
    exact and_iff_right hburst
  rw [← hroom]
  constructor
  · rintro ⟨left, hleft⟩
    by_contra hx
    obtain ⟨m, hm⟩ := consume_denied hpos hburst h (not_le.mp hx)
    rw [hm] at hleft
    cases hleft
  · intro hx
    exact ⟨_, by rw [consume_admitted hpos hburst h hx]⟩

/-! ## What has no influence -/

theorem consume_congr {buckets buckets' : Buckets} {key : String} {x : ℚ}
    (h : Keeps cfg now (buckets.lookup key) gs) (h' : Keeps cfg now (buckets'.lookup key) gs) :
    (consume cfg now buckets key x).1 = (consume cfg now buckets' key x).1 := by
  unfold consume
  rw [h.refill, h'.refill]
  by_cases hvalid : x ≤ 0 ∨ cfg.burst < x
  · rw [if_pos hvalid, if_pos hvalid]
  · rw [if_neg hvalid, if_neg hvalid]
    by_cases hx : room (cfg.burst : ℚ) cfg.ratePerSecond gs now < x <;> simp [hx]

variable (cfg)

theorem serve_eq (s : Buckets × List Consume) (r : Consume) :
    (Admits cfg s.1 r ∧ (serve cfg s r).2 = r :: s.2) ∨
      (¬ Admits cfg s.1 r ∧ (serve cfg s r).2 = s.2) := by
  unfold serve Admits
  rcases consume cfg r.time s.1 r.key r.tokens with ⟨e | left, buckets⟩
  · exact .inr ⟨by simp, rfl⟩
  · exact .inl ⟨⟨left, rfl⟩, rfl⟩

theorem served_sublist (rs : List Consume) : (served cfg rs).2.reverse.Sublist rs := by
  induction rs using List.reverseRecOn with
  | nil => exact List.Sublist.refl []
  | append_singleton rs r ih =>
    rw [served_concat]
    rcases serve_eq cfg (served cfg rs) r with ⟨-, he⟩ | ⟨-, he⟩ <;> rw [he]
    · rw [List.reverse_cons]
      exact ih.append (List.Sublist.refl [r])
    · exact ih.trans (List.sublist_append_left rs [r])

theorem own_sublist (key : String) (rs : List Consume) :
    (own key (served cfg rs).2).reverse.Sublist rs :=
  (List.filter_sublist.reverse).trans (served_sublist cfg rs)

theorem timed_own {rs : List Consume} (h : Timed rs) (key : String) :
    Timed (own key (served cfg rs).2).reverse := h.sublist (own_sublist cfg key rs)

theorem own_own (key : String) (rs : List Consume) : own key (own key rs) = own key rs := by
  simp [own]

/-- A run of the admitted calls on one key alone admits them all. -/
theorem served_own {rs : List Consume} (h : Timed rs) (key : String) :
    (served cfg (own key (served cfg rs).2).reverse).2 = own key (served cfg rs).2 := by
  induction rs using List.reverseRecOn with
  | nil => rfl
  | append_singleton rs r ih =>
    obtain ⟨htimed, -, hlast⟩ := List.pairwise_append.mp h
    have hbefore : ∀ r' ∈ rs, r'.time ≤ r.time := fun r' hr' => hlast r' hr' r (by simp)
    rw [served_concat]
    rcases serve_eq cfg (served cfg rs) r with ⟨hadm, he⟩ | ⟨-, he⟩
    · rw [he, own_cons]
      split_ifs with hk
      · subst hk
        have hold : Accounts cfg r.time (served cfg rs) := accounts_served htimed hbefore
        have hown : Accounts cfg r.time (served cfg (own r.key (served cfg rs).2).reverse) :=
          accounts_served (timed_own cfg htimed r.key)
            fun r' hr' => hbefore r' ((own_sublist cfg r.key rs).subset hr')
        have hkey := hown r.key
        rw [ih htimed, own_own] at hkey
        rw [List.reverse_cons, served_concat]
        rcases serve_eq cfg (served cfg (own r.key (served cfg rs).2).reverse) r with
          ⟨-, he'⟩ | ⟨hden, -⟩
        · rw [he', ih htimed]
        · obtain ⟨left, hleft⟩ := hadm
          exact absurd ⟨left, (consume_congr hkey (hold r.key)).trans hleft⟩ hden
      · exact ih htimed
    · rw [he]
      exact ih htimed

variable {cfg}

/-- Denied calls and calls on other keys might as well not have been made. -/
theorem consume_own {rs : List Consume} (h : Timed rs) {r : Consume}
    (hr : ∀ r' ∈ rs, r'.time ≤ r.time) :
    (consume cfg r.time (served cfg rs).1 r.key r.tokens).1 =
      (consume cfg r.time (served cfg (own r.key (served cfg rs).2).reverse).1 r.key r.tokens).1 := by
  have hold : Accounts cfg r.time (served cfg rs) := accounts_served h hr
  have hown : Accounts cfg r.time (served cfg (own r.key (served cfg rs).2).reverse) :=
    accounts_served (timed_own cfg h r.key)
      fun r' hr' => hr r' ((own_sublist cfg r.key rs).subset hr')
  have hkey := hown r.key
  rw [served_own cfg h, own_own] at hkey
  exact consume_congr (hold r.key) hkey

theorem window_spent (key : String) (rs : List Consume) (a b : ℚ) :
    total ((grants (own key rs)).filter fun g => a ≤ g.time ∧ g.time ≤ b) =
      spent ((own key rs).filter fun r => a ≤ r.time ∧ r.time ≤ b) := by
  rw [grants, List.filter_map, ← total_grants, grants]
  rfl

theorem exists_timed_bound (rs : List Consume) : ∃ t, ∀ r ∈ rs, r.time ≤ t := by
  induction rs with
  | nil => exact ⟨0, by simp⟩
  | cons r rs ih =>
    obtain ⟨t, ht⟩ := ih
    refine ⟨max r.time t, ?_⟩
    rintro r' (_ | ⟨_, hr'⟩)
    · exact le_max_left _ _
    · exact (ht r' hr').trans (le_max_right _ _)

/-- The limiter admits exactly what keeps every window that begins with an admitted call within
burst and rate. -/
theorem limiter_law (cfg : LimiterSettings) {rs : List Consume} (h : Timed rs) :
    (∀ r : Consume, (∀ r' ∈ rs, r'.time ≤ r.time) → 0 < r.tokens → r.tokens ≤ cfg.burst →
      (Admits cfg (served cfg rs).1 r ↔ WithinLaw cfg (own r.key (served cfg rs).2) r)) ∧
    (∀ key (a b : ℚ), a ≤ b →
      spent ((own key (served cfg rs).2).filter fun r => a ≤ r.time ∧ r.time ≤ b) ≤
        cfg.burst + cfg.ratePerSecond * (b - a)) ∧
    (∀ r : Consume, (∀ r' ∈ rs, r'.time ≤ r.time) →
      (consume cfg r.time (served cfg rs).1 r.key r.tokens).1 =
        (consume cfg r.time (served cfg (own r.key (served cfg rs).2).reverse).1 r.key
          r.tokens).1) ∧
    ∀ key b, (served cfg rs).1.lookup key = some b → 0 ≤ b.tokens ∧ b.tokens ≤ cfg.burst := by
  obtain ⟨t, ht⟩ := exists_timed_bound rs
  have hkeeps : Accounts cfg t (served cfg rs) := accounts_served h ht
  have hburst : (0 : ℚ) ≤ cfg.burst := Nat.cast_nonneg _
  refine ⟨fun r hr hpos hle => ?_, fun key a b hab => ?_, fun r hr => consume_own h hr,
    fun key b hb => ?_⟩
  · exact admits_iff (accounts_served h hr r.key) hpos hle
  · rw [← window_spent]
    exact window_le hburst cfg.rate_pos.le (hkeeps key).granted hab
  · obtain ⟨-, hnonneg, hlevel⟩ := (hkeeps key).level b hb
    exact ⟨hnonneg, hlevel ▸ room_le _ _⟩

/-! Two calls on one key use up a burst of two, and a third is refused. A second later there is one
token again, and no more. -/

def threeCalls : List Consume := [⟨0, "tenant-a", 1⟩, ⟨0, "tenant-a", 1⟩, ⟨0, "tenant-a", 1⟩]

theorem slow_rate_pos : (0 : ℚ) < 1 := by simp

def slow : LimiterSettings where
  ratePerSecond := 1
  burst := 2
  rate_pos := slow_rate_pos
  burst_pos := Nat.two_pos

theorem limiter_law_burst : Admits slow (served slow threeCalls).1 ⟨1, "tenant-a", 1⟩ ∧
    ¬ Admits slow (served slow threeCalls).1 ⟨1, "tenant-a", 2⟩ := by
  have htimed : Timed threeCalls := by simp [Timed, threeCalls]
  have hlog : own "tenant-a" (served slow threeCalls).2 =
      [⟨0, "tenant-a", 1⟩, ⟨0, "tenant-a", 1⟩] := by decide +kernel
  have hlaw := (limiter_law slow htimed).1
  have hpast : ∀ r' ∈ threeCalls, r'.time ≤ 1 := by decide +kernel
  constructor
  · rw [hlaw _ hpast (by decide +kernel) (by decide +kernel), hlog]
    rintro (_ | ⟨_, _ | ⟨_, newer⟩⟩) i older he <;> simp at he
    · obtain ⟨rfl, rfl⟩ := he
      decide +kernel
    · obtain ⟨rfl, rfl, rfl⟩ := he
      decide +kernel
  · rw [hlaw _ hpast (by decide +kernel) (by decide +kernel), hlog]
    intro hfits
    have := hfits [⟨0, "tenant-a", 1⟩] ⟨0, "tenant-a", 1⟩ [] rfl
    revert this
    decide +kernel

end Buckets

end AegisGateway
