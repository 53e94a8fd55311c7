import AegisGateway.Quota

/-!
# The hint of a denied call

A denied call says when to come back. Reading a bucket does not change what flows into it,
so the hint stands whatever else is denied in between.
-/

open TokenBucket

namespace AegisGateway

namespace Buckets

variable (cfg : LimiterSettings)

/-- `retry_after`. -/
def retryAfter (now : ℚ) (buckets : Buckets) (key : String) (tokens : ℚ) : ℚ :=
  (tokens - (((buckets.lookup key).getD ⟨cfg.burst, now⟩).refill cfg now).tokens) /
    cfg.ratePerSecond

def hint (wait : ℚ) : String := s!"tenant rate limit exceeded; retry after {formatFixed 3 wait}s"

def after (buckets : Buckets) (rs : List Consume) : Buckets :=
  rs.foldl (fun buckets r => (consume cfg r.time buckets r.key r.tokens).2) buckets

/-- No call of these on the key is admitted. -/
def NoneAdmitted (key : String) : Buckets → List Consume → Prop
  | _, [] => True
  | buckets, r :: rs => (r.key = key → ¬ Admits cfg buckets r) ∧
      NoneAdmitted key (consume cfg r.time buckets r.key r.tokens).2 rs

/-- What was `level` at `since` has not been drawn from. -/
structure Flows (level since : ℚ) (b : Bucket) : Prop where
  since_le : since ≤ b.updatedAt
  tokens : b.tokens =
    TokenBucket.refill (cfg.burst : ℚ) cfg.ratePerSecond level (b.updatedAt - since)

variable {cfg} {level since now t x wait : ℚ} {b : Bucket} {buckets : Buckets} {key m : String}
  {r : Consume} {rs : List Consume}

theorem Flows.refill (h : Flows cfg level since b) (ht : b.updatedAt ≤ t) :
    Flows cfg level since (b.refill cfg t) := by
  have helapsed : max 0 (t - b.updatedAt) = t - b.updatedAt := max_eq_right (sub_nonneg.mpr ht)
  refine ⟨h.since_le.trans ht, ?_⟩
  unfold Bucket.refill
  simp only [helapsed]
  have hflow := @refill_refill ℚ _ _ (cfg.burst : ℚ) cfg.ratePerSecond _ cfg.rate_pos.le level
    (b.updatedAt - since) (t - b.updatedAt) (sub_nonneg.mpr ht)
  rw [← h.tokens] at hflow
  rw [show t - since = b.updatedAt - since + (t - b.updatedAt) by ring, ← hflow]
  rfl

theorem flows_refill (b : Bucket) (now : ℚ) :
    Flows cfg (b.refill cfg now).tokens now (b.refill cfg now) := by
  refine ⟨le_rfl, ?_⟩
  have hle : (b.refill cfg now).tokens ≤ cfg.burst := min_le_left _ _
  simp [TokenBucket.refill, Bucket.refill] at hle ⊢

theorem consume_valid (hpos : 0 < x) (hburst : x ≤ cfg.burst) (hb : buckets.lookup key = some b) :
    ((b.refill cfg t).tokens < x → (consume cfg t buckets key x).2.lookup key =
      some (b.refill cfg t) ∧ ∃ m, (consume cfg t buckets key x).1 =
        .error (.aegis (.rateLimitExceeded m))) ∧
    (x ≤ (b.refill cfg t).tokens → ∃ left, (consume cfg t buckets key x).1 = .ok left) := by
  have hvalid : ¬ (x ≤ 0 ∨ cfg.burst < x) := by simp [hpos, hburst]
  unfold consume
  rw [if_neg hvalid, hb, Option.getD_some]
  constructor
  · intro hlt
    simp only [if_pos hlt]
    exact ⟨AList.lookup_insert _, _, rfl⟩
  · intro hle
    simp only [if_neg (not_lt.mpr hle)]
    exact ⟨_, rfl⟩

theorem Flows.denied (h : Flows cfg level since b) (hb : buckets.lookup key = some b)
    (htime : b.updatedAt ≤ r.time) (hr : r.key = key → ¬ Admits cfg buckets r) :
    ∃ b', (consume cfg r.time buckets r.key r.tokens).2.lookup key = some b' ∧
      Flows cfg level since b' ∧ b'.updatedAt ≤ r.time := by
  by_cases hvalid : r.tokens ≤ 0 ∨ cfg.burst < r.tokens
  · rw [consume_invalid hvalid]
    exact ⟨b, hb, h, htime⟩
  · push Not at hvalid
    obtain ⟨hpos, hburst⟩ := hvalid
    by_cases hkey : r.key = key
    · subst hkey
      obtain ⟨hdenied, hadmitted⟩ := @consume_valid cfg r.time r.tokens b buckets r.key hpos hburst hb
      have hlt : (b.refill cfg r.time).tokens < r.tokens := by
        by_contra hle
        exact hr rfl (hadmitted (not_lt.mp hle))
      exact ⟨_, (hdenied hlt).1, h.refill htime, le_rfl⟩
    · refine ⟨b, ?_, h, htime⟩
      rw [← hb]
      unfold consume
      split_ifs
      · rfl
      · simp only
        split_ifs
        · exact AList.lookup_insert_ne (Ne.symm hkey)
        · exact AList.lookup_insert_ne (Ne.symm hkey)

theorem Flows.after (h : Flows cfg level since b) (hb : buckets.lookup key = some b)
    (htimed : Timed rs) (hlater : ∀ r ∈ rs, b.updatedAt ≤ r.time)
    (hnone : NoneAdmitted cfg key buckets rs) (hupdated : b.updatedAt ≤ t)
    (hpast : ∀ r ∈ rs, r.time ≤ t) :
    ∃ b', (after cfg buckets rs).lookup key = some b' ∧ Flows cfg level since b' ∧
      b'.updatedAt ≤ t := by
  induction rs generalizing buckets b with
  | nil => exact ⟨b, hb, h, hupdated⟩
  | cons r rs ih =>
    obtain ⟨hr, hrs⟩ := hnone
    obtain ⟨hfirst, htimed⟩ := List.pairwise_cons.mp htimed
    obtain ⟨b', hb', hflows, hle⟩ := h.denied hb (hlater r List.mem_cons_self) hr
    refine ih hflows hb' htimed (fun r' hr' => hle.trans (hfirst r' hr')) hrs ?_ ?_
    · exact hle.trans (hpast r List.mem_cons_self)
    · exact fun r' hr' => hpast r' (List.mem_cons_of_mem _ hr')

theorem le_refill_iff (hx : x ≤ cfg.burst) : x ≤
    TokenBucket.refill (cfg.burst : ℚ) cfg.ratePerSecond level (t - since) ↔
      since + (x - level) / cfg.ratePerSecond ≤ t := by
  unfold TokenBucket.refill
  rw [le_min_iff, and_iff_right hx, ← sub_le_iff_le_add', ← le_sub_iff_add_le',
    div_le_iff₀ cfg.rate_pos]

theorem consume_denial (h : (consume cfg now buckets key x).1 =
      .error (.aegis (.rateLimitExceeded m))) :
    x ≤ cfg.burst ∧ 0 < x ∧ m = hint (retryAfter cfg now buckets key x) ∧
      (consume cfg now buckets key x).2.lookup key =
        some (((buckets.lookup key).getD ⟨cfg.burst, now⟩).refill cfg now) := by
  unfold consume at h ⊢
  by_cases hvalid : x ≤ 0 ∨ cfg.burst < x
  · rw [if_pos hvalid] at h
    cases h
  · rw [if_neg hvalid] at h ⊢
    push Not at hvalid
    simp only at h ⊢
    split_ifs at h ⊢ with hlt
    refine ⟨hvalid.2, hvalid.1, ?_, AList.lookup_insert _⟩
    injection h with h
    injection h with h
    injection h with h
    exact h.symm

/-- A denied call succeeds from the time on that it is told, and not before, whatever else is
denied in between. -/
theorem retry_exact (hdenied : (consume cfg now buckets key x).1 =
      .error (.aegis (.rateLimitExceeded m)))
    (htimed : Timed rs) (hlater : ∀ r ∈ rs, now ≤ r.time)
    (hnone : NoneAdmitted cfg key (consume cfg now buckets key x).2 rs)
    (ht : now ≤ t) (hpast : ∀ r ∈ rs, r.time ≤ t) :
    m = hint (retryAfter cfg now buckets key x) ∧
    (now + retryAfter cfg now buckets key x ≤ t → ∃ left,
      (consume cfg t (after cfg (consume cfg now buckets key x).2 rs) key x).1 = .ok left) ∧
    (t < now + retryAfter cfg now buckets key x → ∃ m',
      (consume cfg t (after cfg (consume cfg now buckets key x).2 rs) key x).1 =
        .error (.aegis (.rateLimitExceeded m'))) := by
  obtain ⟨hburst, hpos, hm, hb⟩ := consume_denial hdenied
  obtain ⟨b, hlookup, hflows, hle⟩ :=
    (flows_refill ((buckets.lookup key).getD ⟨cfg.burst, now⟩) now).after hb htimed hlater hnone
      ht hpast
  have hlevel : x ≤ (b.refill cfg t).tokens ↔ now + retryAfter cfg now buckets key x ≤ t := by
    rw [(hflows.refill hle).tokens]
    exact le_refill_iff hburst
  obtain ⟨hlow, hhigh⟩ := @consume_valid cfg t x b _ key hpos hburst hlookup
  refine ⟨hm, fun hwait => hhigh (hlevel.mpr hwait), fun hearly => (hlow ?_).2⟩
  exact lt_of_not_ge fun hle => absurd (hlevel.mp hle) (not_le.mpr hearly)

/-! A burst of two is spent at once; a third call is told to wait a second, another is denied in
between, and the third one succeeds a second later. -/

def spentOut : Buckets := (served slow threeCalls).1

def inBetween : List Consume := [⟨1 / 2, "tenant-a", 2⟩]

theorem retry_exact_spent : ∃ left, (consume slow 1 (after slow
    (consume slow 0 spentOut "tenant-a" 1).2 inBetween) "tenant-a" 1).1 = .ok left := by
  have hempty : spentOut.lookup "tenant-a" = some ⟨0, 0⟩ := by decide +kernel
  obtain ⟨-, m, hdenied⟩ := (@consume_valid slow 0 1 _ _ "tenant-a" (by decide +kernel)
    (by decide +kernel) hempty).1 (by decide +kernel)
  have hnone : NoneAdmitted slow "tenant-a" (consume slow 0 spentOut "tenant-a" 1).2
      inBetween := by
    refine ⟨fun _ => ?_, trivial⟩
    rintro ⟨left, hleft⟩
    have hok : ((consume slow (1 / 2) (consume slow 0 spentOut "tenant-a" 1).2 "tenant-a" 2).1.toBool)
        = true := by rw [hleft]; rfl
    revert hok
    decide +kernel
  exact (retry_exact hdenied (by simp [Timed, inBetween]) (by decide +kernel) hnone
    (by decide +kernel) (by decide +kernel)).2.1 (by decide +kernel)

end Buckets

end AegisGateway
