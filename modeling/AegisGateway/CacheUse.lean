import AegisGateway.CacheHistory
import AegisGateway.Lib.Ranks
import AegisGateway.Lib.Recency

/-!
# What the cache keeps and finds

The entries stand by their last use: a put or a hit brings a fingerprint to the front, and
only the back is dropped. Any function of two vectors may stand for `_cosine`.
-/

open JsonText Recency

namespace AegisGateway

namespace Entries

section

variable (sim : Vector → Vector → ℚ)

def nearestBy (threshold : ℚ) (scope : String) (vector : Vector) (es : Entries) :
    Option (String × Entry) × ℚ :=
  es.entries.reverse.foldl (fun (best, bestScore) ⟨key, e⟩ =>
    if e.scope ≠ scope then (best, bestScore)
    else if bestScore ≤ sim vector e.vector then (some (key, e), sim vector e.vector)
    else (best, bestScore)) (none, threshold)

variable (P : Platform) (cfg : CacheSettings)

def getBy (now : ℚ) (es : Entries) (q : GatewayRequest) (ns : String) :
    Option GatewayResponse × Entries :=
  let scope := P.scope q ns
  let fingerprint := P.fingerprint q ns
  let vector := P.embed (Platform.conversationText q)
  let es := es.evictExpired now
  match (es.lookup fingerprint).filter (·.scope = scope) with
  | some exact => (some { exact.response with cacheHit := true }, es.moveToEnd fingerprint exact)
  | none =>
    match (es.nearestBy sim cfg.similarityThreshold scope vector).1 with
    | none => (none, es)
    | some (key, e) => (some { e.response with cacheHit := true }, es.moveToEnd key e)

/-- The entry that `get` finds, under its fingerprint. -/
def foundBy (now : ℚ) (es : Entries) (q : GatewayRequest) (ns : String) :
    Option (String × Entry) :=
  match ((es.evictExpired now).lookup (P.fingerprint q ns)).filter (·.scope = P.scope q ns) with
  | some exact => some (P.fingerprint q ns, exact)
  | none => ((es.evictExpired now).nearestBy sim cfg.similarityThreshold (P.scope q ns)
      (P.embed (Platform.conversationText q))).1

def performBy (es : Entries) (c : CacheCall) : Entries :=
  match c.op with
  | .get q ns => (getBy sim { P with embed := c.embed } cfg c.time es q ns).2
  | .put q response ns => put { P with embed := c.embed } cfg c.time es q response ns
  | .size => (size c.time es).2
  | .clear => (clear es).2

def afterBy (h : List CacheCall) : Entries := h.foldl (performBy sim P cfg) ∅

def usedBy (es : Entries) (c : CacheCall) : Option String :=
  match c.op with
  | .get q ns => (foundBy sim { P with embed := c.embed } cfg c.time es q ns).map (·.1)
  | .put q _ ns => some (P.fingerprint q ns)
  | .size => none
  | .clear => none

def usesFrom (es : Entries) : List CacheCall → List String
  | [] => []
  | c :: h => (usedBy sim P cfg es c).toList ++ usesFrom (performBy sim P cfg es c) h

def usesBy (h : List CacheCall) : List String := usesFrom sim P cfg ∅ h

end

/-! The gateway's own measure. -/

theorem performBy_cosine (P : Platform) (cfg : CacheSettings) :
    performBy cosine P cfg = perform P cfg := by
  funext es c
  unfold performBy perform
  cases c.op <;> rfl

theorem afterBy_cosine (P : Platform) (cfg : CacheSettings) (h : List CacheCall) :
    afterBy cosine P cfg h = after P cfg h := by
  rw [afterBy, after, performBy_cosine]

/-! ## What a lookup finds -/

section

variable {sim : Vector → Vector → ℚ} {P : Platform} {cfg : CacheSettings} {now : ℚ} {es : Entries}
  {q : GatewayRequest} {ns : String}

theorem nearestBy_eq_best {threshold : ℚ} {scope : String} {vector : Vector} (es : Entries) :
    (nearestBy sim threshold scope vector es).1 =
      (Ranks.best (fun s : Slot => s.2.scope = scope) (fun s => sim vector s.2.vector) threshold
        es.entries).1.map fun s => (s.1, s.2) := by
  have hscan := Ranks.foldl_eq_best (fun s : Slot => s.2.scope = scope)
    (fun s => sim vector s.2.vector) threshold (fun s => (s.1, s.2)) es.entries
  exact congrArg Prod.fst hscan

theorem getBy_eq : getBy sim P cfg now es q ns =
    (foundBy sim P cfg now es q ns).elim (none, es.evictExpired now) fun found =>
      (some { found.2.response with cacheHit := true },
        (es.evictExpired now).moveToEnd found.1 found.2) := by
  unfold getBy foundBy
  dsimp only
  cases ((es.evictExpired now).lookup (P.fingerprint q ns)).filter (·.scope = P.scope q ns) with
  | some exact => rfl
  | none =>
    dsimp only
    cases ((es.evictExpired now).nearestBy sim cfg.similarityThreshold (P.scope q ns)
      (P.embed (Platform.conversationText q))).1 <;> rfl

theorem foundBy_mem {key : String} {e : Entry} (h : foundBy sim P cfg now es q ns = some (key, e)) :
    ⟨key, e⟩ ∈ (es.evictExpired now).entries ∧ e.scope = P.scope q ns := by
  unfold foundBy at h
  split at h
  next exact hexact =>
    obtain ⟨hlookup, hscope⟩ := Option.filter_eq_some_iff.mp hexact
    cases h
    exact ⟨AList.mem_lookup_iff.mp hlookup, by simpa using hscope⟩
  next =>
    rw [nearestBy_eq_best, Option.map_eq_some_iff] at h
    obtain ⟨s, hs, h⟩ := h
    cases h
    obtain ⟨front, back, hsplit, hscope, -⟩ := Ranks.best_eq_some hs
    exact ⟨by rw [hsplit]; simp, hscope⟩

end

/-! ## What a call keeps -/

theorem mem_insert_of_ne {es : Entries} {key : String} {e : Entry} {s : Slot} (hs : s ∈ es.entries)
    (hne : s.1 ≠ key) : s ∈ (es.insert key e).entries := by
  have hlookup : es.lookup s.1 = some s.2 := AList.mem_lookup_iff.mpr hs
  rw [← AList.lookup_insert_ne hne] at hlookup
  exact AList.mem_lookup_iff.mp hlookup

theorem mem_insert_self (es : Entries) (key : String) (e : Entry) :
    ⟨key, e⟩ ∈ (es.insert key e).entries := List.mem_cons_self

theorem slot_unique {es : Entries} {key : String} {e e' : Entry} (h : ⟨key, e⟩ ∈ es.entries)
    (h' : ⟨key, e'⟩ ∈ es.entries) : e = e' := by
  have hlookup : es.lookup key = some e := AList.mem_lookup_iff.mpr h
  rw [AList.mem_lookup_iff.mpr h'] at hlookup
  exact (Option.some.inj hlookup).symm

theorem length_keys (es : Entries) : es.keys.length = es.entries.length := List.length_map _

theorem keys_evictExpired (now : ℚ) (es : Entries) : (es.evictExpired now).keys.Sublist es.keys :=
  List.filter_sublist.map _

theorem mem_evict_of_live {now : ℚ} {es : Entries} {s : Slot} (hs : s ∈ es.entries)
    (hlive : now < s.2.expiresAt) : s ∈ (es.evictExpired now).entries :=
  List.mem_filter.mpr ⟨hs, decide_eq_true hlive⟩

theorem keys_trim (max : Nat) (es : Entries) : (es.trim max).keys = es.keys.take max :=
  List.map_take

theorem mem_trim {max : Nat} {es : Entries} {s : Slot} (hs : s ∈ es.entries)
    (hkey : s.1 ∈ es.keys.take max) : s ∈ (es.trim max).entries := by
  rw [← keys_trim] at hkey
  obtain ⟨s', hs', hkey⟩ := List.mem_map.mp hkey
  obtain rfl : s' = s := by
    obtain ⟨key, e⟩ := s
    obtain ⟨key', e'⟩ := s'
    obtain rfl : key' = key := hkey
    rw [slot_unique hs (List.mem_of_mem_take hs')]
  exact hs'

section

variable {sim : Vector → Vector → ℚ} {P : Platform} {cfg : CacheSettings} {es : Entries}
  {c : CacheCall}

def entryOf (P : Platform) (cfg : CacheSettings) (c : CacheCall) (q : GatewayRequest)
    (response : GatewayResponse) (ns : String) : Entry :=
  { scope := P.scope q ns
    fingerprint := P.fingerprint q ns
    vector := c.embed (Platform.conversationText q)
    response := { response with cacheHit := false }
    expiresAt := c.time + cfg.ttlSeconds }

theorem performBy_put {q : GatewayRequest} {response : GatewayResponse} {ns : String}
    (hop : c.op = .put q response ns) : performBy sim P cfg es c =
      trim cfg.maxEntries (es.insert (P.fingerprint q ns) (entryOf P cfg c q response ns)) := by
  rw [performBy, hop]
  rfl

theorem performBy_get {q : GatewayRequest} {ns : String} (hop : c.op = .get q ns) :
    performBy sim P cfg es c = (foundBy sim { P with embed := c.embed } cfg c.time es q ns).elim
      (es.evictExpired c.time) fun found =>
        (es.evictExpired c.time).moveToEnd found.1 found.2 := by
  rw [performBy, hop]
  dsimp only
  rw [getBy_eq]
  cases foundBy sim { P with embed := c.embed } cfg c.time es q ns <;> rfl

theorem mem_performBy {s : Slot} (hs : s ∈ (performBy sim P cfg es c).entries) :
    (s ∈ es.entries ∧ Leaves P s.1 [c]) ∨ ∃ q response ns, c.op = .put q response ns ∧
      s = ⟨P.fingerprint q ns, entryOf P cfg c q response ns⟩ := by
  cases hop : c.op with
  | get q ns =>
    refine .inl ⟨?_, leaves_of_read (by simp [hop]) (by simp [hop])⟩
    rw [performBy_get hop] at hs
    cases hfound : foundBy sim { P with embed := c.embed } cfg c.time es q ns with
    | none =>
      rw [hfound] at hs
      exact (mem_evictExpired hs).1
    | some found =>
      rw [hfound] at hs
      rcases mem_insert hs with rfl | ⟨hs, -⟩
      · exact (mem_evictExpired (foundBy_mem hfound).1).1
      · exact (mem_evictExpired hs).1
  | put q response ns =>
    rw [performBy_put hop] at hs
    rcases mem_insert (List.mem_of_mem_take hs) with rfl | ⟨hs, hne⟩
    · exact .inr ⟨q, response, ns, rfl, rfl⟩
    · refine .inl ⟨hs, fun c' hc' => ?_⟩
      obtain rfl := List.mem_singleton.mp hc'
      refine ⟨by simp [hop], fun q' response' ns' hop' => ?_⟩
      obtain ⟨rfl, rfl, rfl⟩ := CacheOp.put.inj (hop.symm.trans hop')
      exact Ne.symm hne
  | size =>
    rw [performBy, hop] at hs
    exact .inl ⟨(mem_evictExpired hs).1, leaves_of_read (by simp [hop]) (by simp [hop])⟩
  | clear =>
    rw [performBy, hop] at hs
    cases hs

theorem byUse_performBy {us : List String} (h : ByUse us es.keys) :
    ByUse (us ++ (usedBy sim P cfg es c).toList) (performBy sim P cfg es c).keys := by
  have hevict : ByUse us (es.evictExpired c.time).keys := h.sublist (keys_evictExpired _ _)
  cases hop : c.op with
  | get q ns =>
    rw [performBy_get hop, usedBy, hop]
    dsimp only
    cases foundBy sim { P with embed := c.embed } cfg c.time es q ns with
    | none => simpa using hevict
    | some found =>
      have htouch := hevict.touch found.1
      rw [← AList.keys_insert] at htouch
      exact htouch
  | put q response ns =>
    rw [performBy_put hop, usedBy, hop, keys_trim, AList.keys_insert]
    exact (h.touch _).sublist (List.take_sublist _ _)
  | size =>
    rw [performBy, usedBy, hop]
    exact (List.append_nil us).symm ▸ hevict
  | clear =>
    rw [performBy, usedBy, hop]
    exact byUse_nil _

theorem length_performBy (h : es.entries.length ≤ cfg.maxEntries) :
    (performBy sim P cfg es c).entries.length ≤ cfg.maxEntries := by
  have hevict : (es.evictExpired c.time).entries.length ≤ cfg.maxEntries :=
    (List.length_filter_le _ _).trans h
  cases hop : c.op with
  | get q ns =>
    rw [performBy_get hop]
    cases hfound : foundBy sim { P with embed := c.embed } cfg c.time es q ns with
    | none => exact hevict
    | some found =>
      -- The entry that is found moves, and nothing is added.
      have hkey : found.1 ∈ (es.evictExpired c.time).keys :=
        List.mem_map_of_mem (f := Sigma.fst) (foundBy_mem hfound).1
      rw [← length_keys, (List.perm_cons_erase hkey).length_eq,
        ← AList.keys_insert (b := found.2), length_keys] at hevict
      exact hevict
  | put q response ns =>
    rw [performBy_put hop]
    exact List.length_take_le _ _
  | size =>
    rw [performBy, hop]
    exact hevict
  | clear =>
    rw [performBy, hop]
    exact Nat.zero_le _

theorem mem_of_usedBy {key : String} (hused : usedBy sim P cfg es c = some key)
    (hc : Leaves P key [c]) : ∃ e, ⟨key, e⟩ ∈ es.entries := by
  cases hop : c.op with
  | get q ns =>
    rw [usedBy, hop] at hused
    obtain ⟨found, hfound, rfl⟩ := Option.map_eq_some_iff.mp hused
    exact ⟨found.2, (mem_evictExpired (foundBy_mem hfound).1).1⟩
  | put q response ns =>
    rw [usedBy, hop] at hused
    exact absurd (Option.some.inj hused) ((hc c (by simp)).2 q response ns hop)
  | size =>
    rw [usedBy, hop] at hused
    cases hused
  | clear =>
    rw [usedBy, hop] at hused
    cases hused

theorem mem_performBy_of_used {us : List String} {s : Slot} (h : ByUse us es.keys)
    (hs : s ∈ es.entries) (hlive : c.time < s.2.expiresAt) (hc : Leaves P s.1 [c])
    (hroom : (since s.1 (us ++ (usedBy sim P cfg es c).toList)).dedup.length < cfg.maxEntries) :
    s ∈ (performBy sim P cfg es c).entries := by
  have hevict := mem_evict_of_live hs hlive
  obtain ⟨hclear, hput⟩ := hc c (by simp)
  cases hop : c.op with
  | get q ns =>
    rw [performBy_get hop]
    cases hfound : foundBy sim { P with embed := c.embed } cfg c.time es q ns with
    | none => exact hevict
    | some found =>
      by_cases hkey : s.1 = found.1
      · obtain ⟨key, e⟩ := s
        obtain rfl : key = found.1 := hkey
        obtain rfl := slot_unique hevict (foundBy_mem hfound).1
        exact mem_insert_self _ _ _
      · exact mem_insert_of_ne hevict hkey
  | put q response ns =>
    have hne := hput q response ns hop
    have hinsert := mem_insert_of_ne (e := entryOf P cfg c q response ns) hs (Ne.symm hne)
    have huse := h.touch (P.fingerprint q ns)
    rw [← AList.keys_insert (b := entryOf P cfg c q response ns)] at huse
    rw [usedBy, hop] at hroom
    rw [performBy_put hop]
    exact mem_trim hinsert (huse.mem_take (List.mem_map_of_mem hinsert) hroom)
  | size =>
    rw [performBy, hop]
    exact hevict
  | clear => exact absurd hop hclear

end

/-! ## Along a run -/

section

variable (sim : Vector → Vector → ℚ) (P : Platform) (cfg : CacheSettings)

theorem usesFrom_concat (es : Entries) (h : List CacheCall) (c : CacheCall) :
    usesFrom sim P cfg es (h ++ [c]) =
      usesFrom sim P cfg es h ++ (usedBy sim P cfg (h.foldl (performBy sim P cfg) es) c).toList := by
  induction h generalizing es with
  | nil => simp [usesFrom]
  | cons d h ih =>
    rw [List.cons_append, usesFrom, ih, usesFrom, List.append_assoc]
    rfl

theorem usesBy_concat (h : List CacheCall) (c : CacheCall) : usesBy sim P cfg (h ++ [c]) =
    usesBy sim P cfg h ++ (usedBy sim P cfg (afterBy sim P cfg h) c).toList :=
  usesFrom_concat sim P cfg ∅ h c

theorem afterBy_concat (h : List CacheCall) (c : CacheCall) :
    afterBy sim P cfg (h ++ [c]) = performBy sim P cfg (afterBy sim P cfg h) c := by
  rw [afterBy, List.foldl_append]
  rfl

theorem byUse_after (h : List CacheCall) :
    ByUse (usesBy sim P cfg h) (afterBy sim P cfg h).keys := by
  induction h using List.reverseRecOn with
  | nil => exact byUse_nil _
  | append_singleton h c ih =>
    rw [usesBy_concat, afterBy_concat]
    exact byUse_performBy ih

theorem length_after (h : List CacheCall) :
    (afterBy sim P cfg h).entries.length ≤ cfg.maxEntries := by
  induction h using List.reverseRecOn with
  | nil => exact Nat.zero_le _
  | append_singleton h c ih =>
    rw [afterBy_concat]
    exact length_performBy ih

theorem identity_after (h : List CacheCall) : ∀ s ∈ (afterBy sim P cfg h).entries,
    ∃ q ns, s.1 = P.fingerprint q ns ∧ s.2.scope = P.scope q ns := by
  induction h using List.reverseRecOn with
  | nil =>
    intro s hs
    cases hs
  | append_singleton h c ih =>
    intro s hs
    rw [afterBy_concat] at hs
    rcases mem_performBy hs with ⟨hs, -⟩ | ⟨q, response, ns, -, rfl⟩
    · exact ih s hs
    · exact ⟨q, ns, rfl, rfl⟩

variable {P cfg} {pre post : List CacheCall} {c : CacheCall} {q : GatewayRequest}
  {v : GatewayResponse} {ns : String}

theorem only_put (hop : c.op = .put q v ns) (hleaves : Leaves P (P.fingerprint q ns) post) :
    ∀ s ∈ (afterBy sim P cfg (pre ++ c :: post)).entries, s.1 = P.fingerprint q ns →
      s = ⟨P.fingerprint q ns, entryOf P cfg c q v ns⟩ := by
  induction post using List.reverseRecOn with
  | nil =>
    intro s hs hkey
    rw [afterBy_concat] at hs
    rcases mem_performBy hs with ⟨-, hleaves⟩ | ⟨q', response, ns', hop', rfl⟩
    · exact absurd hkey.symm ((hleaves c (by simp)).2 q v ns hop)
    · obtain ⟨rfl, rfl, rfl⟩ := CacheOp.put.inj (hop'.symm.trans hop)
      rfl
  | append_singleton post d ih =>
    obtain ⟨hpost, hd⟩ := List.forall_mem_append.mp hleaves
    intro s hs hkey
    rw [← List.cons_append, ← List.append_assoc, afterBy_concat] at hs
    rcases mem_performBy hs with ⟨hs, -⟩ | ⟨q', response, ns', hop', rfl⟩
    · exact ih hpost s hs hkey
    · exact absurd hkey ((hd d (by simp)).2 q' response ns' hop')

theorem put_of_mem (h : List CacheCall) : ∀ s ∈ (afterBy sim P cfg h).entries,
    ∃ c ∈ h, ∃ q v ns, c.op = .put q v ns ∧
      s = ⟨P.fingerprint q ns, entryOf P cfg c q v ns⟩ := by
  induction h using List.reverseRecOn with
  | nil =>
    intro s hs
    cases hs
  | append_singleton h c ih =>
    intro s hs
    rw [afterBy_concat] at hs
    rcases mem_performBy hs with ⟨hs, -⟩ | ⟨q, v, ns, hop, rfl⟩
    · obtain ⟨c', hc', hput⟩ := ih s hs
      exact ⟨c', List.mem_append_left _ hc', hput⟩
    · exact ⟨c, by simp, q, v, ns, hop, rfl⟩

theorem since_put_le (hop : c.op = .put q v ns) :
    (since (P.fingerprint q ns) (usesBy sim P cfg (pre ++ c :: post))).length ≤ post.length := by
  induction post using List.reverseRecOn with
  | nil =>
    have hused : usedBy sim P cfg (afterBy sim P cfg pre) c = some (P.fingerprint q ns) := by
      rw [usedBy, hop]
    rw [usesBy_concat, hused, Option.toList_some, since_concat_self]
    exact le_rfl
  | append_singleton post d ih =>
    rw [← List.cons_append, ← List.append_assoc, usesBy_concat, List.length_append]
    cases usedBy sim P cfg (afterBy sim P cfg (pre ++ c :: post)) d with
    | none =>
      rw [Option.toList_none, List.append_nil]
      exact ih.trans (Nat.le_succ _)
    | some key =>
      rw [Option.toList_some]
      by_cases hkey : key = P.fingerprint q ns
      · rw [hkey, since_concat_self]
        exact Nat.zero_le _
      · rw [since_concat hkey, List.length_append]
        exact Nat.add_le_add_right ih 1

theorem room_of_short (hop : c.op = .put q v ns) (hshort : post.length < cfg.maxEntries) :
    (since (P.fingerprint q ns) (usesBy sim P cfg (pre ++ c :: post))).dedup.length <
      cfg.maxEntries :=
  ((List.dedup_sublist _).length_le.trans (since_put_le sim hop)).trans_lt hshort

/-- What was put stays while it lives and has not fallen behind. -/
theorem put_stays (hop : c.op = .put q v ns) (hleaves : Leaves P (P.fingerprint q ns) post)
    (hlive : ∀ d ∈ post, d.time < c.time + cfg.ttlSeconds)
    (hroom : (since (P.fingerprint q ns) (usesBy sim P cfg (pre ++ c :: post))).dedup.length <
      cfg.maxEntries) :
    ⟨P.fingerprint q ns, entryOf P cfg c q v ns⟩ ∈
      (afterBy sim P cfg (pre ++ c :: post)).entries := by
  induction post using List.reverseRecOn with
  | nil =>
    obtain ⟨n, hn⟩ := Nat.exists_eq_succ_of_ne_zero cfg.maxEntries_pos.ne'
    rw [afterBy_concat, performBy_put hop]
    apply mem_trim (mem_insert_self _ _ _)
    rw [AList.keys_insert, hn, List.take_succ_cons]
    exact List.mem_cons_self
  | append_singleton post d ih =>
    obtain ⟨hpost, hd⟩ := List.forall_mem_append.mp hleaves
    obtain ⟨hbefore, hnow⟩ := List.forall_mem_append.mp hlive
    rw [← List.cons_append, ← List.append_assoc] at hroom ⊢
    rw [usesBy_concat] at hroom
    have hthere : ⟨P.fingerprint q ns, entryOf P cfg c q v ns⟩ ∈
        (afterBy sim P cfg (pre ++ c :: post)).entries := by
      cases hused : usedBy sim P cfg (afterBy sim P cfg (pre ++ c :: post)) d with
      | none =>
        rw [hused, Option.toList_none, List.append_nil] at hroom
        exact ih hpost hbefore hroom
      | some key =>
        by_cases hkey : key = P.fingerprint q ns
        · -- A hit shows that the entry is still there.
          obtain ⟨e, he⟩ := mem_of_usedBy (hkey ▸ hused) hd
          rwa [only_put sim hop hpost _ he rfl] at he
        · rw [hused] at hroom
          exact ih hpost hbefore ((dedup_since_concat_le hkey _).trans_lt hroom)
    rw [afterBy_concat]
    exact mem_performBy_of_used (byUse_after sim P cfg _) hthere (hnow d (by simp)) hd hroom

end

/-! ## Retention -/

/-- The fingerprints that a run of the gateway's cache has put or hit. -/
def uses (P : Platform) (cfg : CacheSettings) (h : List CacheCall) : List String :=
  usesBy cosine P cfg h

/-- The cache stays within its bound, and what was put is found as long as it lives, unless
as many others as there is room for have been put or hit since it was last used. -/
theorem recent_found {P : Platform} {cfg : CacheSettings} (hsha : Function.Injective P.sha256) :
    (∀ h, (after P cfg h).entries.length ≤ cfg.maxEntries) ∧
    ∀ pre c post q v ns, c.op = .put q v ns →
      Leaves P (P.fingerprint q ns) post →
      (since (P.fingerprint q ns) (uses P cfg (pre ++ c :: post))).dedup.length < cfg.maxEntries →
      ∀ now embed q' ns', (∀ d ∈ post, d.time ≤ now) → now < c.time + cfg.ttlSeconds →
        P.fingerprint q' ns' = P.fingerprint q ns →
        (get { P with embed } cfg now (after P cfg (pre ++ c :: post)) q' ns').1 =
          some { v with cacheHit := true } := by
  refine ⟨fun h => ?_, ?_⟩
  · rw [← afterBy_cosine]
    exact length_after cosine P cfg h
  · intro pre c post q v ns hop hleaves hroom now embed q' ns' hclock hlive hkey
    have hpost : ∀ d ∈ post, d.time < c.time + cfg.ttlSeconds := fun d hd =>
      (hclock d hd).trans_lt hlive
    have hmem := put_stays cosine hop hleaves hpost hroom
    rw [afterBy_cosine] at hmem
    have hlookup := AList.mem_lookup_iff.mpr (mem_evict_of_live hmem hlive)
    have hscope := scope_of_fingerprint hsha hkey
    rw [← hkey] at hlookup
    apply get_exact (P := { P with embed }) (e := entryOf P cfg c q v ns)
    rw [show ({ P with embed } : Platform).fingerprint q' ns' = P.fingerprint q' ns' from rfl,
      hlookup]
    exact Option.filter_some_pos (decide_eq_true hscope.symm)

def asking (text : String) : GatewayRequest :=
  { Sample.request with messages := [⟨.user, text, none⟩] }

theorem scope_asking (text text' ns : String) :
    Sample.platform.scope (asking text) ns = Sample.platform.scope (asking text') ns := by
  simp only [Platform.scope, Platform.scopeData, asking]

theorem fingerprint_asking_ne {text text' : String}
    (h : Platform.conversationText (asking text) ≠ Platform.conversationText (asking text')) :
    Sample.platform.fingerprint (asking text) "default" ≠
      Sample.platform.fingerprint (asking text') "default" := by
  intro heq
  have htext := Sample.sha256_injective (hexdigest_inj heq)
  rw [scope_asking text text'] at htext
  exact h (String.append_right_inj _ |>.mp htext)

def small : CacheSettings :=
  { Sample.service.cache with maxEntries := 3, maxEntries_pos := by decide }

def pong : GatewayResponse := { answer with text := "pong" }

/-- Two answers are put before a third one, and the first one is found once more. -/
def busy : List CacheCall :=
  [⟨0, blind, .put (asking "ping") pong "default"⟩,
    ⟨1, blind, .put (asking "hello") answer "default"⟩,
    ⟨2, blind, .put (asking "bye") answer "default"⟩, ⟨3, blind, .get (asking "ping") "default"⟩]

theorem recent_found_stored :
    (get { Sample.platform with embed := blind } small 3 (after Sample.platform small
      (busy.take 3)) (asking "ping") "default").1 = some { pong with cacheHit := true } ∧
    (get { Sample.platform with embed := blind } small 4 (after Sample.platform small busy)
      (asking "hello") "default").1 = some { answer with cacheHit := true } := by
  have hfound := (@recent_found Sample.platform small Sample.sha256_injective).2
  have hne : ∀ text ∈ ["hello", "bye"], Sample.platform.fingerprint (asking text) "default" ≠
      Sample.platform.fingerprint (asking "ping") "default" := fun text htext =>
    fingerprint_asking_ne (by revert text; decide +kernel)
  have hbye : Sample.platform.fingerprint (asking "bye") "default" ≠
      Sample.platform.fingerprint (asking "hello") "default" :=
    fingerprint_asking_ne (by decide +kernel)
  constructor
  · refine hfound [] _ [⟨1, blind, .put (asking "hello") answer "default"⟩,
      ⟨2, blind, .put (asking "bye") answer "default"⟩] _ _ _ rfl ?_
      (room_of_short cosine rfl (by decide)) _ _ _ _ ?_ ?_ rfl
    · simpa [Leaves] using hne
    · decide +kernel
    · decide +kernel
  · refine hfound [⟨0, blind, .put (asking "ping") pong "default"⟩] _
      [⟨2, blind, .put (asking "bye") answer "default"⟩, ⟨3, blind, .get (asking "ping") "default"⟩]
      _ _ _ rfl ?_ (room_of_short cosine rfl (by decide)) _ _ _ _ ?_ ?_ rfl
    · simpa [Leaves] using hbye
    · decide +kernel
    · decide +kernel

/-! ## The nearest entry -/

def Live (now : ℚ) (es : Entries) (s : Slot) : Prop := s ∈ es.entries ∧ now < s.2.expiresAt

def ofScope (scope : String) (es : Entries) : List Slot :=
  es.entries.filter fun s => s.2.scope = scope

section

variable {sim : Vector → Vector → ℚ} {P : Platform} {cfg : CacheSettings} {now : ℚ}
  {es es' : Entries} {q : GatewayRequest} {ns : String}

theorem live_iff {s : Slot} : Live now es s ↔ s ∈ (es.evictExpired now).entries :=
  ⟨fun h => mem_evict_of_live h.1 h.2, mem_evictExpired⟩

theorem exact_iff {e : Entry} :
    ((es.evictExpired now).lookup (P.fingerprint q ns)).filter (·.scope = P.scope q ns) = some e ↔
      Live now es ⟨P.fingerprint q ns, e⟩ ∧ e.scope = P.scope q ns := by
  rw [Option.filter_eq_some_iff, live_iff, ← Option.mem_def, AList.mem_lookup_iff,
    decide_eq_true_iff]

theorem foundBy_exact {e : Entry} (hlive : Live now es ⟨P.fingerprint q ns, e⟩)
    (hscope : e.scope = P.scope q ns) :
    foundBy sim P cfg now es q ns = some (P.fingerprint q ns, e) := by
  rw [foundBy, exact_iff.mpr ⟨hlive, hscope⟩]

theorem get_single {s : Slot} (hs : es.entries = [s]) (hlive : now < s.2.expiresAt)
    (hkey : s.1 = P.fingerprint q ns) (hscope : s.2.scope = P.scope q ns) :
    (get P cfg now es q ns).1 = some { s.2.response with cacheHit := true } := by
  refine get_exact (exact_iff.mpr ⟨⟨?_, hlive⟩, hscope⟩)
  rw [← hkey, hs]
  exact List.mem_singleton_self s

theorem foundBy_nearest (hnone : ∀ s, Live now es s → s.1 ≠ P.fingerprint q ns) :
    foundBy sim P cfg now es q ns = ((es.evictExpired now).nearestBy sim cfg.similarityThreshold
      (P.scope q ns) (P.embed (Platform.conversationText q))).1 := by
  have hexact : ((es.evictExpired now).lookup (P.fingerprint q ns)).filter
      (·.scope = P.scope q ns) = none := by
    rw [Option.eq_none_iff_forall_ne_some]
    intro e he
    exact hnone _ (exact_iff.mp he).1 rfl
  rw [foundBy, hexact]

theorem foundBy_congr (h : ofScope (P.scope q ns) es = ofScope (P.scope q ns) es') :
    foundBy sim P cfg now es q ns = foundBy sim P cfg now es' q ns := by
  have hmem : ∀ (es : Entries) (s : Slot), s ∈ ofScope (P.scope q ns) es ↔
      s ∈ es.entries ∧ s.2.scope = P.scope q ns := by
    intro es s
    rw [ofScope, List.mem_filter, decide_eq_true_iff]
  have hexact : ((es.evictExpired now).lookup (P.fingerprint q ns)).filter
      (·.scope = P.scope q ns) = ((es'.evictExpired now).lookup (P.fingerprint q ns)).filter
        (·.scope = P.scope q ns) := by
    apply Option.ext
    intro e
    have hboth := (hmem es ⟨P.fingerprint q ns, e⟩).symm.trans (h ▸ hmem es' _)
    rw [exact_iff, exact_iff, Live, Live]
    tauto
  have hbest : ∀ es : Entries, (nearestBy sim cfg.similarityThreshold (P.scope q ns)
      (P.embed (Platform.conversationText q)) (es.evictExpired now)).1 =
        (Ranks.best (fun s : Slot => s.2.scope = P.scope q ns)
          (fun s => sim (P.embed (Platform.conversationText q)) s.2.vector) cfg.similarityThreshold
          ((ofScope (P.scope q ns) es).filter fun s => now < s.2.expiresAt)).1.map
            fun s => (s.1, s.2) := by
    intro es
    rw [nearestBy_eq_best, ← Ranks.best_filter, ofScope, evictExpired, List.filter_comm]
  rw [foundBy, foundBy, hexact, hbest es, hbest es', h]

theorem getBy_fst : (getBy sim P cfg now es q ns).1 =
    (foundBy sim P cfg now es q ns).map fun found =>
      { found.2.response with cacheHit := true } := by
  rw [getBy_eq]
  cases foundBy sim P cfg now es q ns <;> rfl

/-- The nearest entry has the highest score, and was used after those that score the same. -/
theorem nearest_best {us : List String} (huse : ByUse us es.keys) {score : Slot → ℚ} {bound : ℚ}
    {scope : String} {s : Slot} (h : (Ranks.best (fun s : Slot => s.2.scope = scope) score bound
      (es.evictExpired now).entries).1 = some s) :
    Live now es s ∧ s.2.scope = scope ∧ bound ≤ score s ∧
      ∀ s', Live now es s' → s'.2.scope = scope →
        score s' < score s ∨ score s' = score s ∧ (s' = s ∨ s.1 ∈ since s'.1 us) := by
  obtain ⟨front, back, hsplit, hscope, hbound, hfront, hback⟩ := Ranks.best_eq_some h
  have hkeys : (es.evictExpired now).keys = front.map (·.1) ++ s.1 :: back.map (·.1) := by
    rw [AList.keys, hsplit]
    simp [List.keys]
  refine ⟨live_iff.mpr (by simp [hsplit]), hscope, hbound, fun s' hs' hscope' => ?_⟩
  rw [live_iff, hsplit] at hs'
  rcases List.mem_append.mp hs' with hs' | hs'
  · exact .inl (hfront s' hs' hscope')
  rcases List.mem_cons.mp hs' with rfl | hs'
  · exact .inr ⟨rfl, .inl rfl⟩
  · rcases (hback s' hs' hscope').lt_or_eq with hlt | heq
    · exact .inl hlt
    · have hevict := huse.sublist (keys_evictExpired now es)
      rw [hkeys] at hevict
      have hrest := (List.pairwise_append.mp hevict).2.1
      exact .inr ⟨heq, .inr ((List.pairwise_cons.mp hrest).1 _ (List.mem_map_of_mem hs'))⟩

end

/-- A lookup misses only what is not there. It finds what was asked for, or else the most
similar of what lives in the scope, the last one used among equals, and looks at nothing
outside of the scope. -/
theorem lookup_best {P : Platform} {cfg : CacheSettings} (hsha : Function.Injective P.sha256)
    (sim : Vector → Vector → ℚ) (h : List CacheCall) (now : ℚ) (embed : String → Vector)
    (q : GatewayRequest) (ns : String) :
    let es := afterBy sim P cfg h
    let outcome := fun es => (getBy sim { P with embed } cfg now es q ns).1
    let score := fun s : Slot => sim (embed (Platform.conversationText q)) s.2.vector
    (outcome es = none ↔ (∀ s, Live now es s → s.1 ≠ P.fingerprint q ns) ∧
      ∀ s, Live now es s → s.2.scope = P.scope q ns → score s < cfg.similarityThreshold) ∧
    (∀ s, Live now es s → s.1 = P.fingerprint q ns →
      outcome es = some { s.2.response with cacheHit := true }) ∧
    ((∀ s, Live now es s → s.1 ≠ P.fingerprint q ns) → ∀ r, outcome es = some r →
      ∃ s, Live now es s ∧ s.2.scope = P.scope q ns ∧ cfg.similarityThreshold ≤ score s ∧
        r = { s.2.response with cacheHit := true } ∧
        ∀ s', Live now es s' → s'.2.scope = P.scope q ns → score s' < score s ∨
          score s' = score s ∧ (s' = s ∨ s.1 ∈ since s'.1 (usesBy sim P cfg h))) ∧
    ∀ es es' : Entries, ofScope (P.scope q ns) es = ofScope (P.scope q ns) es' →
      outcome es = outcome es' := by
  intro es outcome score
  have hexact : ∀ s, Live now es s → s.1 = P.fingerprint q ns →
      outcome es = some { s.2.response with cacheHit := true } := by
    rintro ⟨key, e⟩ hlive rfl
    obtain ⟨q', ns', hkey, hscope⟩ := identity_after sim P cfg h _ hlive.1
    have hfound : foundBy sim { P with embed } cfg now es q ns = some (P.fingerprint q ns, e) :=
      foundBy_exact hlive (hscope.trans (scope_of_fingerprint hsha hkey).symm)
    exact getBy_fst.trans (by rw [hfound]; rfl)
  have hnearest : (∀ s, Live now es s → s.1 ≠ P.fingerprint q ns) → outcome es =
      (Ranks.best (fun s : Slot => s.2.scope = P.scope q ns) score cfg.similarityThreshold
        (es.evictExpired now).entries).1.map fun s => { s.2.response with cacheHit := true } := by
    intro hnone
    have hfound : foundBy sim { P with embed } cfg now es q ns =
        (nearestBy sim cfg.similarityThreshold (P.scope q ns)
          (embed (Platform.conversationText q)) (es.evictExpired now)).1 := foundBy_nearest hnone
    rw [nearestBy_eq_best] at hfound
    exact getBy_fst.trans (by rw [hfound, Option.map_map]; rfl)
  refine ⟨⟨?_, ?_⟩, hexact, fun hnone r hr => ?_, ?_⟩
  · intro hmiss
    have hnone : ∀ s, Live now es s → s.1 ≠ P.fingerprint q ns := by
      intro s hs hkey
      rw [hexact s hs hkey] at hmiss
      cases hmiss
    rw [hnearest hnone, Option.map_eq_none_iff, Ranks.best_eq_none_iff] at hmiss
    exact ⟨hnone, fun s hs hscope => hmiss s (live_iff.mp hs) hscope⟩
  · rintro ⟨hnone, hlow⟩
    rw [hnearest hnone, Option.map_eq_none_iff, Ranks.best_eq_none_iff]
    exact fun s hs hscope => hlow s (live_iff.mpr hs) hscope
  · rw [hnearest hnone, Option.map_eq_some_iff] at hr
    obtain ⟨s, hs, rfl⟩ := hr
    obtain ⟨hlive, hscope, hbound, hmax⟩ := nearest_best (byUse_after sim P cfg h) hs
    exact ⟨s, hlive, hscope, hbound, rfl, hmax⟩
  · intro es es' hsame
    have hfound : foundBy sim { P with embed } cfg now es q ns =
        foundBy sim { P with embed } cfg now es' q ns := foundBy_congr hsame
    change (getBy sim { P with embed } cfg now es q ns).1 =
      (getBy sim { P with embed } cfg now es' q ns).1
    rw [getBy_fst, getBy_fst, hfound]

def along (axis : Nat) (x : ℚ) : String → Vector := fun _ => AList.insert axis x ∅

def pinged : CacheCall := ⟨0, along 0 1, .put (asking "ping") pong "default"⟩

def others : List CacheCall :=
  [⟨1, along 1 1, .put (asking "hello") answer "default"⟩,
    ⟨2, along 0 (49 / 50), .put (asking "bye") answer "default"⟩]

def axes : List CacheCall := [] ++ pinged :: others

def pingedSlot : Slot :=
  ⟨Sample.platform.fingerprint (asking "ping") "default",
    entryOf Sample.platform small pinged (asking "ping") pong "default"⟩

theorem axes_slots {s : Slot}
    (hs : s ∈ (afterBy cosine Sample.platform small axes).entries) :
    s.1 ≠ Sample.platform.fingerprint (asking "ping?") "default" ∧
      (s = pingedSlot ∨ cosine (along 0 1 "") s.2.vector < 1) := by
  have hne : ∀ text ∈ ["ping", "hello", "bye"],
      Sample.platform.fingerprint (asking text) "default" ≠
        Sample.platform.fingerprint (asking "ping?") "default" := fun text htext =>
    fingerprint_asking_ne (by revert text; decide +kernel)
  obtain ⟨c, hc, q, v, ns, hop, rfl⟩ := put_of_mem cosine axes _ hs
  simp only [axes, pinged, others, List.nil_append, List.mem_cons, List.not_mem_nil,
    or_false] at hc
  rcases hc with rfl | rfl | rfl
  all_goals obtain ⟨rfl, rfl, rfl⟩ := CacheOp.put.inj hop
  · exact ⟨hne _ (by simp), .inl rfl⟩
  · exact ⟨hne _ (by simp), .inr (by decide +kernel)⟩
  · exact ⟨hne _ (by simp), .inr (by decide +kernel)⟩

/-- Of the two in the same direction, the nearer one is found. -/
theorem lookup_best_stored : (getBy cosine { Sample.platform with embed := along 0 1 } small 3
    (afterBy cosine Sample.platform small axes) (asking "ping?") "default").1 =
      some { pong with cacheHit := true } := by
  obtain ⟨hmiss, -, hbest, -⟩ := @lookup_best _ small Sample.sha256_injective cosine axes 3
    (along 0 1) (asking "ping?") "default"
  have hne : ∀ text ∈ ["hello", "bye"], Sample.platform.fingerprint (asking text) "default" ≠
      Sample.platform.fingerprint (asking "ping") "default" := fun text htext =>
    fingerprint_asking_ne (by revert text; decide +kernel)
  have hstays : pingedSlot ∈ (afterBy cosine Sample.platform small axes).entries :=
    put_stays cosine rfl (by simpa [Leaves, others] using hne) (by decide +kernel)
      (room_of_short cosine rfl (by decide))
  have hping : Live 3 (afterBy cosine Sample.platform small axes) pingedSlot :=
    ⟨hstays, by decide +kernel⟩
  have hscore : cosine (along 0 1 "") (along 0 1 "") = 1 := by decide +kernel
  have hnone : ∀ s, Live 3 (afterBy cosine Sample.platform small axes) s →
      s.1 ≠ Sample.platform.fingerprint (asking "ping?") "default" := fun s hs =>
    (axes_slots hs.1).1
  cases hfound : (getBy cosine { Sample.platform with embed := along 0 1 } small 3
      (afterBy cosine Sample.platform small axes) (asking "ping?") "default").1 with
  | none =>
    have hlow := (hmiss.mp hfound).2 _ hping (scope_asking _ _ _)
    exact absurd (hlow.trans_eq' hscore) (by decide +kernel)
  | some r =>
    obtain ⟨s, hlive, -, -, rfl, hmax⟩ := hbest hnone r hfound
    rcases (axes_slots hlive.1).2 with rfl | hlt
    · rfl
    · -- No other entry is as near as the one of the same direction.
      rcases hmax _ hping (scope_asking _ _ _) with h | ⟨h, -⟩
      · exact absurd (hscore.symm.trans_lt h) hlt.not_gt
      · exact absurd (h.symm.trans hscore) hlt.ne

end Entries

end AegisGateway
