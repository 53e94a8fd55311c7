import AegisGateway.Exchanges

/-!
# Shadows

A shadow runs the request of its call once more. That request has been resolved already,
and it still names its prompt.
-/

open Coroutine

namespace AegisGateway

namespace Service

variable {svc : Service}

/-- The request that a provider or the cache is asked with. -/
def handed : Op → Option GatewayRequest
  | .complete q _ | .openStream q _ | .cacheGet q _ => some q
  | _ => none

theorem Resolved.prompt {q q' : GatewayRequest} {tr : GatewayTrace} (h : svc.Resolved q tr q') :
    q'.prompt = q.prompt := by
  obtain ⟨added, rfl, -⟩ := h.messages
  rfl

theorem Concerns.messages {x : Exchange} {e : GatewayEvent} (h : Concerns x e) {q : GatewayRequest}
    (hq : handed e.1 = some q) : q.messages = x.request.messages := by
  rcases e with ⟨o, a⟩
  cases o with
  | complete q' route | openStream q' route =>
    cases hq
    obtain ⟨remaining, rfl⟩ := h.call q route rfl
    rfl
  | cacheGet q' ns =>
    cases hq
    rw [(h.get q ns rfl).1]
  | _ => cases hq

theorem exchange_of_task {c : State} (h : svc.machine.Reachable initial c) {i : Nat}
    {t : Task Op Ans PyExc Outcome Call} (ht : c.tasks[i]? = some t) {args : Arguments}
    (hargs : callArguments t.call = some args) {e : GatewayEvent} (he : e ∈ c.trace i)
    (hp : preliminary e.1 = false) :
    ∃ x, svc.Resolved args.request (c.trace i) x.request ∧
      ∀ e' ∈ c.trace i, preliminary e'.1 = false → Concerns x e' := by
  rcases oneExchange_of_reachable h ht hargs with hall | ⟨tr₀, tr₁, x, htr, hb, hx⟩
  · rw [hall e he] at hp
    cases hp
  refine ⟨x, hb.resolved.mono (htr ▸ List.subset_append_left _ _), fun e' he' hp' => ?_⟩
  rw [htr] at he'
  rcases List.mem_append.mp he' with he' | he'
  · rw [hb.preliminary e' he'] at hp'
    cases hp'
  · exact hx e' he'

theorem not_preliminary_of_handed {o : Op} {q : GatewayRequest} (h : handed o = some q) :
    preliminary o = false := by
  cases o <;> first | rfl | cases h

/-- A shadow hands on the messages of its call exactly if the request names no prompt. -/
theorem shadow_messages {c : State} (h : svc.machine.Reachable initial c) {i : Nat}
    {t : Task Op Ans PyExc Outcome Call} (ht : c.tasks[i]? = some t) {args : Arguments}
    (hargs : callArguments t.call = some args) {q' : GatewayRequest} {routeId : String}
    {releaseId : Option String}
    (hstarted : ev (.createTask (.shadow q' routeId releaseId)) () ∈ c.trace i) {j : Nat}
    {t' : Task Op Ans PyExc Outcome Call} (ht' : c.tasks[j]? = some t')
    (hshadow : t'.call = .shadow q' routeId releaseId) {e e' : GatewayEvent}
    (he : e ∈ c.trace i) {q : GatewayRequest} (hq : handed e.1 = some q) (he' : e' ∈ c.trace j)
    {q₂ : GatewayRequest} (hq₂ : handed e'.1 = some q₂) :
    q₂.messages = q.messages ↔ args.request.prompt = none := by
  obtain ⟨x, hresolved, hx⟩ := exchange_of_task h ht hargs hstarted rfl
  have hp := not_preliminary_of_handed hq
  have hp' := not_preliminary_of_handed hq₂
  obtain ⟨args', hargs', hrequest⟩ : ∃ args', callArguments t'.call = some args' ∧
      args'.request = q' := by
    rw [hshadow]
    exact ⟨_, rfl, rfl⟩
  obtain ⟨x', hresolved', hx'⟩ := exchange_of_task h ht' hargs' he' hp'
  rw [hrequest] at hresolved'
  cases (hx _ hstarted rfl).task _ rfl
  obtain ⟨added, hadded, hnone⟩ := hresolved'.messages
  have hmessages : x'.request.messages = added ++ x.request.messages := by
    rw [hadded]
    rfl
  rw [(hx e he hp).messages hq, (hx' e' he' hp').messages hq₂, hmessages,
    List.append_left_eq_self, hnone]
  exact (Iff.of_eq (congrArg (· = none) hresolved.prompt))

/-! ## Two runs -/

def shadowedRelease : Release :=
  { Sample.release with state := .candidate, canaryPercent := 0, shadowPercent := 100 }

def promptedRequest : GatewayRequest :=
  { Sample.request with prompt := some ⟨"greeting", none⟩ }

def setUp : List (Move Input Call) :=
  [.start (.createArtifact .prompt "greeting" "v1" [("template", .str "Be brief.")]),
    .start (.createRelease shadowedRelease), .run 0 .go, .run 1 .go]

/-- A call, with `n` operations up to its provider, and `m` operations of its shadow. -/
def shadowedMoves (request : GatewayRequest) (n m : Nat) : List (Move Input Call) :=
  .start (.generate request none) :: (Sample.goes 2 n ++
    .run 2 (Sample.completion "hello") :: (Sample.goes 2 7 ++
      (Sample.goes 3 m ++ [.run 3 (Sample.completion "hello")])))

def isShadow : Call → Bool
  | .shadow _ _ _ => true
  | _ => false

def startsShadow : Op → Bool
  | .createTask call => isShadow call
  | _ => false

def handedMessages (tr : GatewayTrace) : List (List Message) :=
  tr.filterMap fun e => (handed e.1).map (·.messages)

theorem shadow_of_starts {e : GatewayEvent} (h : startsShadow e.1 = true) :
    ∃ q routeId releaseId, e = ev (.createTask (.shadow q routeId releaseId)) () := by
  rcases e with ⟨o, a⟩
  cases o with
  | createTask call =>
    cases call with
    | shadow q routeId releaseId => exact ⟨q, routeId, releaseId, rfl⟩
    | _ => cases h
  | _ => cases h

/-- Without a prompt the shadow asks what its call has asked. -/
theorem shadow_messages_plain : ∃ (c : State) (j : Nat) (e e' : GatewayEvent) (q q₂ : GatewayRequest),
    Sample.service.machine.Reachable initial c ∧ e ∈ c.trace 2 ∧ e' ∈ c.trace j ∧ j ≠ 2 ∧
    handed e.1 = some q ∧ handed e'.1 = some q₂ ∧ q₂.messages = q.messages := by
  obtain ⟨c₁, hm₁, hlen, c, hm, ⟨e₀, he₀, hstarts⟩, ⟨e, he, hq⟩, hshadows⟩ :
      ∃ c₁ ∈ Sample.service.machine.moves? initial setUp, c₁.tasks.length = 2 ∧
        ∃ c ∈ Sample.service.machine.moves? c₁ (shadowedMoves Sample.request 7 5),
        (∃ e ∈ c.trace 2, startsShadow e.1 = true) ∧
        (∃ e ∈ c.trace 2, (handed e.1).isSome = true) ∧
        ∀ t ∈ c.tasks.zipIdx, isShadow t.1.call = true → t.2 ≠ 2 ∧
          ∃ e ∈ c.trace t.2, (handed e.1).isSome = true := by decide +kernel
  have hc := Machine.reachable_of_moves _ (Machine.reachable_of_moves _ .start hm₁) hm
  obtain ⟨t, ht, hcall⟩ := Machine.task_of_moves hm
  rw [hlen] at ht
  obtain ⟨q', routeId, releaseId, rfl⟩ := shadow_of_starts hstarts
  have hspawn : Call.shadow q' routeId releaseId ∈ Sample.service.machine.spawn
      (.createTask (.shadow q' routeId releaseId)) := List.mem_singleton_self _
  obtain ⟨t', ht', hcall'⟩ := hc.spawned he₀ hspawn
  obtain ⟨j, hj⟩ := List.getElem?_of_mem ht'
  obtain ⟨hne, e', he', hq₂⟩ := hshadows (t', j) (List.mk_mem_zipIdx_iff_getElem?.mpr hj)
    (by rw [hcall']; rfl)
  obtain ⟨q, hq⟩ := Option.isSome_iff_exists.mp hq
  obtain ⟨q₂, hq₂⟩ := Option.isSome_iff_exists.mp hq₂
  have hargs : callArguments t.call = some { request := Sample.request } := by
    rw [hcall]
    rfl
  have hsame := shadow_messages hc ht hargs he₀ hj hcall' he hq he' hq₂
  exact ⟨c, j, e, e', q, q₂, hc, he, he', hne, hq, hq₂, hsame.mpr rfl⟩

/-- With a prompt the shadow puts the message of the prompt in front once more, from the one
artifact there is. -/
theorem shadow_repeats_prompt : ∃ c : State, Sample.service.machine.Reachable initial c ∧
    c.world.database.artifacts.length = 1 ∧ (∃ e ∈ c.trace 2, startsShadow e.1 = true) ∧
    (∃ t ∈ c.tasks[3]?, isShadow t.call = true) ∧
    handedMessages (c.trace 2) =
      [[⟨.developer, "Be brief.", none⟩, ⟨.user, "hello gateway", none⟩]] ∧
    handedMessages (c.trace 3) = [[⟨.developer, "Be brief.", none⟩,
      ⟨.developer, "Be brief.", none⟩, ⟨.user, "hello gateway", none⟩]] := by
  obtain ⟨c, hm, hd⟩ : ∃ c ∈ Sample.service.machine.moves? initial
      (setUp ++ shadowedMoves promptedRequest 8 6),
      c.world.database.artifacts.length = 1 ∧ (∃ e ∈ c.trace 2, startsShadow e.1 = true) ∧
        (∃ t ∈ c.tasks[3]?, isShadow t.call = true) ∧
        handedMessages (c.trace 2) =
          [[⟨.developer, "Be brief.", none⟩, ⟨.user, "hello gateway", none⟩]] ∧
        handedMessages (c.trace 3) = [[⟨.developer, "Be brief.", none⟩,
          ⟨.developer, "Be brief.", none⟩, ⟨.user, "hello gateway", none⟩]] := by decide +kernel
  exact ⟨c, Machine.reachable_of_moves _ .start hm, hd⟩

end Service

end AegisGateway
