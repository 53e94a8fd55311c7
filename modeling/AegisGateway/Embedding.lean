import AegisGateway.CacheUse
import AegisGateway.Lib.Sparse
import AegisGateway.Release
import Mathlib.Algebra.Order.BigOperators.Group.List
import Mathlib.Tactic.Linarith

/-!
# The hashing embedder

`HashingEmbedder` of `control/cache.py`. A text is hashed word by word, and the order of its words
is lost: what is found by similarity is a matter of the words alone.
-/

namespace AegisGateway

/-- `math.sqrt`, which is off by a rounding at most. -/
structure SquareRoot where
  sqrt : ℚ → ℚ
  zero : sqrt 0 = 0
  pos : ∀ x, 0 < x → 0 < sqrt x
  close : ∀ x, 0 ≤ x → sqrt x * sqrt x ≤ (1 + 1 / 2 ^ 50) * x

/-- `isWord` is the class `\w` of the token pattern. -/
structure HashingEmbedder where
  dimensions : Nat := 1024
  isWord : Char → Bool
  root : SquareRoot
  dimensions_pos : 0 < dimensions := by decide

namespace HashingEmbedder

variable (E : HashingEmbedder) (P : Platform)

def apostrophe : Char := Char.ofNat 39

/-- `[\w'-]`. -/
def isTokenChar (c : Char) : Bool := E.isWord c || c == apostrophe || c == '-'

/-- `_TOKEN.findall(text.casefold())`: the longest runs of such characters. -/
def tokens (text : String) : List String :=
  (((text.toList.flatMap P.casefold).splitOnP fun c => !E.isTokenChar c).filter (· ≠ [])).map
    String.ofList

def tokenIndex (token : String) : Nat := bigEndian ((P.sha256 token).take 4) % E.dimensions

def tokenSign (token : String) : ℚ := if ((P.sha256 token).getD 4 0).toNat % 2 = 1 then 1 else -1

def signed (text : String) : List (Nat × ℚ) :=
  (E.tokens P text).map fun token => (E.tokenIndex P token, tokenSign P token)

def counts (text : String) : Vector := Sparse.tally (E.signed P text)

def embed (text : String) : Vector :=
  let counts := E.counts P text
  let norm := E.root.sqrt (counts.entries.map fun e => e.2 * e.2).sum
  if norm = 0 then ∅ else Sparse.divided counts norm

end HashingEmbedder

/-! ## The score of two texts -/

theorem cosine_eq_dot (v w : Vector) : cosine v w = Sparse.dot v w := by
  have hempty : ∀ v w : Vector, v.entries = [] → Sparse.dot v w = 0 := by
    intro v w hv
    simp [Sparse.dot, hv]
  unfold cosine
  split_ifs with h hlen
  · rcases h with h | h
    · exact (hempty v w h).symm
    · rw [Sparse.dot_comm, hempty w v h]
  · rw [Sparse.dot_comm]
    rfl
  · rfl

namespace HashingEmbedder

variable {E : HashingEmbedder} {P : Platform} {a b : String}

def size (E : HashingEmbedder) (P : Platform) (text : String) : ℚ :=
  Sparse.dot (E.counts P text) (E.counts P text)

theorem size_eq (text : String) :
    ((E.counts P text).entries.map fun e => e.2 * e.2).sum = E.size P text := by
  refine congrArg List.sum (List.map_congr_left fun e he => ?_)
  rw [Sparse.value_of_mem he]

theorem size_nonneg (text : String) : 0 ≤ E.size P text := by
  rw [← size_eq]
  exact List.sum_nonneg fun x hx => by
    obtain ⟨e, -, rfl⟩ := List.mem_map.mp hx
    exact mul_self_nonneg _

theorem embed_eq (text : String) : E.embed P text =
    if E.root.sqrt (E.size P text) = 0 then ∅
    else Sparse.divided (E.counts P text) (E.root.sqrt (E.size P text)) := by
  unfold embed
  dsimp only
  rw [size_eq]

theorem value_counts_perm (h : (E.tokens P a).Perm (E.tokens P b)) :
    Sparse.value (E.counts P a) = Sparse.value (E.counts P b) := by
  rw [counts, counts, Sparse.value_tally, Sparse.value_tally]
  exact Sparse.weight_perm (h.map _)

theorem size_perm (h : (E.tokens P a).Perm (E.tokens P b)) : E.size P a = E.size P b :=
  Sparse.dot_congr (value_counts_perm h) (value_counts_perm h)

theorem score_perm {threshold : ℚ} (hthreshold : threshold * (1 + 1 / 2 ^ 50) ≤ 1)
    (hpos : 0 ≤ threshold) (h : (E.tokens P a).Perm (E.tokens P b)) (hne : E.embed P a ≠ ∅) :
    threshold ≤ cosine (E.embed P a) (E.embed P b) := by
  have hnorm : E.root.sqrt (E.size P a) ≠ 0 := by
    intro hzero
    exact hne (by rw [embed_eq, if_pos hzero])
  have hsize : 0 < E.size P a := by
    refine (size_nonneg a).lt_of_ne fun hzero => hnorm ?_
    rw [← hzero, E.root.zero]
  have hroot := E.root.pos _ hsize
  have hdot : Sparse.dot (E.counts P a) (E.counts P b) = E.size P a :=
    Sparse.dot_congr rfl (value_counts_perm h).symm
  have hscore : cosine (E.embed P a) (E.embed P b) =
      E.size P a / (E.root.sqrt (E.size P a) * E.root.sqrt (E.size P a)) := by
    rw [cosine_eq_dot, embed_eq a, embed_eq b, ← size_perm h, if_neg hnorm, if_neg hnorm,
      Sparse.dot_divided, hdot]
  rw [hscore, le_div_iff₀ (mul_pos hroot hroot)]
  calc threshold * (E.root.sqrt (E.size P a) * E.root.sqrt (E.size P a))
      ≤ threshold * ((1 + 1 / 2 ^ 50) * E.size P a) :=
        mul_le_mul_of_nonneg_left (E.root.close _ hsize.le) hpos
    _ = threshold * (1 + 1 / 2 ^ 50) * E.size P a := by ring
    _ ≤ E.size P a := mul_le_of_le_one_left hsize.le hthreshold

theorem value_embed {text : String} {k : Nat} (h : Sparse.value (E.embed P text) k ≠ 0) :
    ∃ token ∈ E.tokens P text, E.tokenIndex P token = k := by
  rw [embed_eq] at h
  split_ifs at h
  · exact absurd rfl h
  · rw [Sparse.value_divided, counts, Sparse.value_tally] at h
    obtain ⟨p, hp, hk⟩ := Sparse.exists_of_weight (div_ne_zero_iff.mp h).1
    obtain ⟨token, htoken, rfl⟩ := List.mem_map.mp hp
    exact ⟨token, htoken, hk⟩

/-- The texts have a word in common, as far as the hash can tell. -/
def Overlap (E : HashingEmbedder) (P : Platform) (a b : String) : Prop :=
  ∃ token ∈ E.tokens P a, ∃ token' ∈ E.tokens P b, E.tokenIndex P token = E.tokenIndex P token'

theorem overlap_of_score (h : cosine (E.embed P a) (E.embed P b) ≠ 0) : E.Overlap P a b := by
  rw [cosine_eq_dot] at h
  obtain ⟨k, ha, hb⟩ := Sparse.exists_of_dot h
  obtain ⟨token, htoken, hk⟩ := value_embed ha
  obtain ⟨token', htoken', hk'⟩ := value_embed hb
  exact ⟨token, htoken, token', htoken', hk.trans hk'.symm⟩

end HashingEmbedder

/-! ## What a lookup finds by its words -/

namespace Entries

open Platform (conversationText)
open Recency (since)

section

variable {sim : Vector → Vector → ℚ} {P : Platform} {cfg : CacheSettings} {now : ℚ} {es : Entries}
  {q : GatewayRequest} {ns : String}

theorem foundBy_isSome {s : Slot} (hlive : Live now es s) (hscope : s.2.scope = P.scope q ns)
    (hscore : cfg.similarityThreshold ≤ sim (P.embed (conversationText q)) s.2.vector) :
    (foundBy sim P cfg now es q ns).isSome = true := by
  unfold foundBy
  split
  next => rfl
  next =>
    rw [nearestBy_eq_best, Option.isSome_map, ← Option.ne_none_iff_isSome]
    intro hnone
    exact absurd (Ranks.best_eq_none_iff.mp hnone s (live_iff.mp hlive) hscope) (not_lt.mpr hscore)

theorem foundBy_close {key : String} {e : Entry} (h : foundBy sim P cfg now es q ns = some (key, e)) :
    key = P.fingerprint q ns ∨
      cfg.similarityThreshold ≤ sim (P.embed (conversationText q)) e.vector := by
  unfold foundBy at h
  split at h
  next =>
    cases h
    exact .inl rfl
  next =>
    rw [nearestBy_eq_best, Option.map_eq_some_iff] at h
    obtain ⟨s, hs, h⟩ := h
    cases h
    obtain ⟨front, back, -, -, hscore, -⟩ := Ranks.best_eq_some hs
    exact .inr hscore

end

/-- With the hashing embedder and a threshold that a rounding does not lift above one, an answer
that has been put for one conversation is there for every other of its scope whose transcript, the
names of the roles included, consists of the same tokens in whatever order, unless these cancel
each other, as long as it lives and has not fallen behind. And whatever is found was put, in the
same scope and not too long ago, for the conversation itself or for one that shares a token with
it, as far as the hash can tell. -/
theorem wording_found (E : HashingEmbedder) {P : Platform} {cfg : CacheSettings} :
    (cfg.similarityThreshold * (1 + 1 / 2 ^ 50) ≤ 1 →
      ∀ pre c post q v ns, c.op = .put q v ns → c.embed = E.embed P →
      Leaves P (P.fingerprint q ns) post →
      (since (P.fingerprint q ns) (uses P cfg (pre ++ c :: post))).dedup.length < cfg.maxEntries →
      ∀ now q' ns', (∀ d ∈ post, d.time ≤ now) → now < c.time + cfg.ttlSeconds →
        P.scope q' ns' = P.scope q ns →
        (E.tokens P (conversationText q')).Perm (E.tokens P (conversationText q)) →
        E.embed P (conversationText q') ≠ ∅ →
        (get { P with embed := E.embed P } cfg now (after P cfg (pre ++ c :: post))
          q' ns').1.isSome = true) ∧
    ∀ h, (∀ c ∈ h, c.embed = E.embed P) → ∀ now q ns r,
      (get { P with embed := E.embed P } cfg now (after P cfg h) q ns).1 = some r →
      ∃ c ∈ h, ∃ q' v ns', c.op = .put q' v ns' ∧ r = { v with cacheHit := true } ∧
        P.scope q' ns' = P.scope q ns ∧ now < c.time + cfg.ttlSeconds ∧
        (P.fingerprint q' ns' = P.fingerprint q ns ∨
          E.Overlap P (conversationText q) (conversationText q')) := by
  have hget : ∀ now es q ns, (get { P with embed := E.embed P } cfg now es q ns).1 =
      (foundBy cosine { P with embed := E.embed P } cfg now es q ns).map
        fun found => { found.2.response with cacheHit := true } := fun now es q ns => getBy_fst
  constructor
  · intro hthreshold pre c post q v ns hop hembed hleaves hroom now q' ns' hclock hlive hscope
      hwords hne
    have hpost : ∀ d ∈ post, d.time < c.time + cfg.ttlSeconds := fun d hd =>
      (hclock d hd).trans_lt hlive
    have hmem := put_stays cosine hop hleaves hpost hroom
    rw [afterBy_cosine] at hmem
    rw [hget, Option.isSome_map]
    -- The same words have the same vector, and only a rounding keeps the score from one.
    refine foundBy_isSome ⟨hmem, hlive⟩ hscope.symm ?_
    change _ ≤ cosine (E.embed P (conversationText q')) (c.embed (conversationText q))
    rw [hembed]
    exact HashingEmbedder.score_perm hthreshold cfg.threshold_pos.le hwords hne
  · intro h hembed now q ns r hr
    rw [hget, Option.map_eq_some_iff] at hr
    obtain ⟨⟨key, e⟩, hfound, rfl⟩ := hr
    obtain ⟨hmem, hscope⟩ := foundBy_mem hfound
    obtain ⟨hmem, hlive⟩ := mem_evictExpired hmem
    rw [← afterBy_cosine] at hmem
    obtain ⟨c, hc, q', v, ns', hop, hs⟩ := put_of_mem cosine h _ hmem
    cases hs
    refine ⟨c, hc, q', v, ns', hop, rfl, hscope, hlive, (foundBy_close hfound).imp_right ?_⟩
    -- A threshold above zero asks for a word in common.
    intro hscore
    change _ ≤ cosine (E.embed P (conversationText q)) (c.embed (conversationText q')) at hscore
    rw [hembed c hc] at hscore
    exact HashingEmbedder.overlap_of_score (cfg.threshold_pos.trans_le hscore).ne'

/-- The digits of the root up to the sixtieth binary place. -/
def binaryRoot : SquareRoot where
  sqrt x := if x < 1 then x else (Nat.sqrt ⌊x * 4 ^ 60⌋₊ : ℚ) / 2 ^ 60
  zero := by norm_num
  pos := by
    intro x hx
    split_ifs with h
    · exact hx
    · have hfloor : 1 ≤ ⌊x * 4 ^ 60⌋₊ := Nat.le_floor (by push_cast; linarith)
      have hroot : 0 < Nat.sqrt ⌊x * 4 ^ 60⌋₊ := Nat.sqrt_pos.mpr hfloor
      positivity
  close := by
    intro x hx
    have hslack : x ≤ (1 + 1 / 2 ^ 50) * x := le_mul_of_one_le_left hx (by norm_num)
    split_ifs with h
    · exact (mul_le_of_le_one_left hx h.le).trans hslack
    · have hsq : ((Nat.sqrt ⌊x * 4 ^ 60⌋₊ : ℚ)) * Nat.sqrt ⌊x * 4 ^ 60⌋₊ ≤ x * 4 ^ 60 := by
        have hle : ((Nat.sqrt ⌊x * 4 ^ 60⌋₊ * Nat.sqrt ⌊x * 4 ^ 60⌋₊ : ℕ) : ℚ) ≤ ⌊x * 4 ^ 60⌋₊ := by
          exact_mod_cast Nat.sqrt_le _
        push_cast at hle
        exact hle.trans (Nat.floor_le (by positivity))
      have hfour : (2 : ℚ) ^ 60 * 2 ^ 60 = 4 ^ 60 := by norm_num
      rw [div_mul_div_comm, hfour, div_le_iff₀ (by positivity)]
      exact hsq.trans (mul_le_mul_of_nonneg_right hslack (by positivity))

def plainEmbedder : HashingEmbedder where
  isWord c := c.isAlphanum || c == '_'
  root := binaryRoot

def paid : List CacheCall :=
  [⟨0, plainEmbedder.embed Sample.platform, .put (asking "Does Alice pay Bob?") answer "default"⟩]

theorem wording_found_swapped : (get { Sample.platform with
      embed := plainEmbedder.embed Sample.platform } Sample.service.cache 1
    (after Sample.platform Sample.service.cache paid) (asking "Does Bob pay Alice?")
      "default").1.isSome = true := by
  have hwords : (plainEmbedder.tokens Sample.platform
      (conversationText (asking "Does Bob pay Alice?"))).Perm (plainEmbedder.tokens Sample.platform
        (conversationText (asking "Does Alice pay Bob?"))) := by decide +kernel
  have hne : plainEmbedder.embed Sample.platform
      (conversationText (asking "Does Bob pay Alice?")) ≠ ∅ := by
    intro hempty
    have hlength := congrArg (fun v : Vector => v.entries.length) hempty
    revert hlength
    decide +kernel
  have hthreshold : Sample.service.cache.similarityThreshold * (1 + 1 / 2 ^ 50) ≤ 1 := by
    decide +kernel
  have hlive : (1 : ℚ) < 0 + Sample.service.cache.ttlSeconds := by decide +kernel
  exact (wording_found plainEmbedder).1 hthreshold [] ⟨0, plainEmbedder.embed Sample.platform,
    .put (asking "Does Alice pay Bob?") answer "default"⟩ [] _ _ _ rfl (by simp only)
    (by simp [Leaves]) (room_of_short cosine rfl (by decide)) 1 (asking "Does Bob pay Alice?")
    "default" (by simp) hlive (scope_asking _ _ _) hwords hne

end Entries

end AegisGateway
