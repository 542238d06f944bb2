import DepSpec.Proofs.Service.Lockstep
import DepSpec.Proofs.Service.LoopbackCaches

set_option autoImplicit false

/-! # Caching is transparent

Clients that share a cache are told what they would be told without it, if their services agree.
What goes into the cache is an answer that some client got to the very specifier that it asked for
(`Conversation.Faithful`), and the invariant `IsTransparent` says that nothing else is ever in there,
whatever the clients do in the meantime and whatever the cache has given up. -/

namespace DepSpec

namespace Sharing

open Conversation (Turn)

variable {reply : String → Except ClientError Answer} {sh : Sharing}

/-- A client that speaks line by line with a service of these replies, and has been told nothing
    else. -/
structure Agrees (reply : String → Except ClientError Answer) (client : CachedClient) : Prop where
  framing : client.service.settings.framing = .newline
  response : ∀ spec, client.service.response spec = reply spec
  faithful : client.conversation.Faithful client.service

/-- Whether the connection of a client is closed. -/
def isClosed (sh : Sharing) (i : Nat) : Bool :=
  sh.clients[i]?.any (·.conversation.isClosed)

/-- What was told and what is remembered is what would be replied; behind a connection that is closed
    there may be the news that the service is gone instead. -/
structure IsTransparent (reply : String → Except ClientError Answer) (sh : Sharing) : Prop where
  clients : ∀ client ∈ sh.clients, Agrees reply client
  cache : sh.cache.Holds reply
  told : ∀ i spec answer, (i, spec, answer) ∈ sh.told →
    answer = reply spec ∨ answer = .error .gone ∧ sh.isClosed i = true

/-! ## One step -/

/-- A connection that is closed stays so when any of the clients takes a turn. -/
theorem isClosed_set {client : CachedClient} {i : Nat} (hclient : sh.clients[i]? = some client)
    (t : Turn) {after : Sharing}
    (hafter : after.clients =
      sh.clients.set i { client with conversation := client.conversation.turn client.service t })
    {j : Nat} (h : sh.isClosed j = true) : after.isClosed j = true := by
  rw [isClosed, hafter]
  by_cases hij : i = j
  · subst hij
    obtain ⟨hi, -⟩ := List.getElem?_eq_some_iff.1 hclient
    rw [isClosed, hclient, Option.any_some] at h
    rw [List.getElem?_set_self hi, Option.any_some]
    exact Conversation.isClosed_turn h t
  · rw [List.getElem?_set_ne hij]
    exact h

/-- One more thing is told, which is what would be replied or comes from a connection that is
    closed. -/
theorem IsTransparent.tell (h : sh.IsTransparent reply) {after : Sharing}
    (hclosed : ∀ j, sh.isClosed j = true → after.isClosed j = true) {i : Nat} {spec : String}
    {answer : Except ClientError Answer}
    (hanswer : answer = reply spec ∨ answer = .error .gone ∧ after.isClosed i = true) :
    ∀ j spec' answer', (j, spec', answer') ∈ sh.told ++ [(i, spec, answer)] →
      answer' = reply spec' ∨ answer' = .error .gone ∧ after.isClosed j = true := by
  intro j spec' answer' hmem
  rcases List.mem_append.1 hmem with hold | hnew
  · exact (h.told j spec' answer' hold).imp_right (And.imp_right (hclosed j))
  · cases List.mem_singleton.1 hnew
    exact hanswer

theorem IsTransparent.turn (h : sh.IsTransparent reply) {i : Nat} {client : CachedClient}
    (hclient : sh.clients[i]? = some client) (t : Turn) :
    (sh.turn i client t).IsTransparent reply := by
  have hagrees := h.clients client (List.mem_of_getElem? hclient)
  have hfaithful := hagrees.faithful.turn hagrees.framing t
  have hclients : ∀ client' ∈ sh.clients.set i
      { client with conversation := client.conversation.turn client.service t },
      Agrees reply client' := by
    intro client' hmem
    rcases List.mem_or_eq_of_mem_set hmem with hold | rfl
    · exact h.clients client' hold
    · exact { hagrees with faithful := hfaithful }
  obtain ⟨hi, -⟩ := List.getElem?_eq_some_iff.1 hclient
  rw [Sharing.turn]
  dsimp only
  split
  · exact ⟨hclients, h.cache, fun j spec answer hmem =>
      (h.told j spec answer hmem).imp_right (And.imp_right (isClosed_set hclient t rfl))⟩
  · next spec answer hnew =>
    have hanswer := hfaithful.answered (List.mem_of_getElem? hnew)
    rw [hagrees.response] at hanswer
    refine ⟨hclients, h.cache.remember (hanswer.imp_right And.left),
      h.tell (fun j => isClosed_set hclient t rfl) (hanswer.imp_right (And.imp_right ?_))⟩
    intro hclosed
    rw [isClosed, List.getElem?_set_self hi, Option.any_some]
    exact hclosed

theorem IsTransparent.step (h : sh.IsTransparent reply) (i : Nat) (t : Turn) :
    (sh.step i t).IsTransparent reply := by
  rw [Sharing.step]
  split
  · exact h
  · next client hclient =>
    split
    · next spec =>
      split
      · split
        · next answer hhit =>
          have hanswer := h.cache spec answer (Cache.mem_entries_of_get? hhit)
          exact ⟨h.clients, h.cache, h.tell (fun _ hclosed => hclosed) (Or.inl hanswer.symm)⟩
        · exact h.turn hclient _
      · exact h
    · exact h.turn hclient _

/-- What a step may do: nothing that anybody is told, or tell one client one thing. If that is an
    answer, it is in the cache afterwards, and if not, the cache is as it was. -/
def Tells (sh : Sharing) (i : Nat) (after : Sharing) : Prop :=
  after.told = sh.told ∧ after.cache = sh.cache ∨
    ∃ spec answer, after.told = sh.told ++ [(i, spec, answer)] ∧
      (∀ a, answer = .ok a → after.cache.get? spec = some a) ∧
      ∀ e, answer = .error e → after.cache = sh.cache

theorem tells_turn (sh : Sharing) (i : Nat) (client : CachedClient) (t : Turn) :
    sh.Tells i (sh.turn i client t) := by
  rw [turn]
  dsimp only
  split
  · exact Or.inl ⟨rfl, rfl⟩
  · next spec answer hnew =>
    refine Or.inr ⟨spec, answer, rfl, ?_, ?_⟩
    · rintro a rfl
      exact Cache.get?_insert
    · rintro e rfl
      rfl

theorem tells_step (sh : Sharing) (i : Nat) (t : Turn) : sh.Tells i (sh.step i t) := by
  rw [step]
  split
  · exact Or.inl ⟨rfl, rfl⟩
  · next client hclient =>
    split
    · next spec =>
      split
      · split
        · next answer hhit =>
          refine Or.inr ⟨spec, .ok answer, rfl, ?_, nofun⟩
          intro a ha
          rw [hhit, Except.ok.inj ha]
        · exact tells_turn sh i client _
      · exact Or.inl ⟨rfl, rfl⟩
    · exact tells_turn sh i client t

/-! ## Runs -/

theorem IsTransparent.run (h : sh.IsTransparent reply) (steps : List (Nat × Turn)) :
    (sh.run steps).IsTransparent reply := by
  induction steps generalizing sh with
  | nil => exact h
  | cons step steps ih => exact ih (h.step step.1 step.2)

/-- Clients of services that agree with each other line by line. -/
def AllAgree (reply : String → Except ClientError Answer) (clients : List (Service × Server)) :
    Prop :=
  ∀ client ∈ clients, client.1.settings.framing = .newline ∧ client.2.phase = .listening ∧
    ∀ spec, client.1.response spec = reply spec

theorem isTransparent_opened {clients : List (Service × Server)} (h : AllAgree reply clients)
    (capacity : Nat) : (opened capacity clients).IsTransparent reply where
  clients := by
    intro client hclient
    obtain ⟨⟨service, server⟩, hmem, rfl⟩ := List.mem_map.1 hclient
    obtain ⟨hframing, hlistening, hresponse⟩ := h _ hmem
    exact ⟨hframing, hresponse, Conversation.faithful_opened hlistening⟩
  cache := nofun
  told := nofun

/-- **Caching is transparent.** Of services that agree, a client is told what it would be told
    without the cache, however the asks of all clients overlap and whatever happens to their
    servers: the reply to its own specifier, or, behind a connection that is closed, that the service
    is gone. The cache holds replies alone. Each step tells at most one client something: an answer,
    which is then in the cache, or a failure, which leaves the cache as it was. The same holds of
    the clients of a loopback, which take turns and may have several caches. -/
theorem caching_is_transparent (capacity : Nat) {clients : List (Service × Server)}
    {reply : String → Except ClientError Answer} (hclients : AllAgree reply clients) :
    (∀ client ∈ clients, ∀ ts : List Turn,
      let c := (Conversation.opened client.1 client.2).turns client.1 ts
      ∀ spec answer, (spec, answer) ∈ c.exchanges →
        answer = reply spec ∨ answer = .error .gone ∧ c.isClosed = true) ∧
    (∀ steps : List (Nat × Turn),
      let sh := (opened capacity clients).run steps
      (∀ i spec answer, (i, spec, answer) ∈ sh.told →
        answer = reply spec ∨ answer = .error .gone ∧ sh.isClosed i = true) ∧
      (∀ spec answer, (spec, answer) ∈ sh.cache.entries → reply spec = .ok answer) ∧
      ∀ i t, sh.Tells i (sh.step i t)) ∧
    ∀ client ∈ clients, ∀ l, Loopback.Hosts client.1 l → ∀ cache link spec,
      let answer := (l.askCached cache link spec).1
      let l' := (l.askCached cache link spec).2
      (answer = reply spec ∨ answer = .error .gone ∧ l'.isConnected link = false) ∧
      (∀ c ∈ l'.caches, ∀ spec answer, (spec, answer) ∈ c.entries → reply spec = .ok answer) ∧
      ∀ e, answer = .error e → l'.caches = l.caches := by
  refine ⟨?_, ?_, ?_⟩
  · intro client hclient ts c spec answer hmem
    obtain ⟨hframing, hlistening, hresponse⟩ := hclients client hclient
    have hfaithful := (Conversation.faithful_opened hlistening).turns hframing ts
    rw [← hresponse]
    exact hfaithful.answered hmem
  · intro steps sh
    have h := (isTransparent_opened hclients capacity).run steps
    exact ⟨h.told, h.cache, tells_step sh⟩
  · intro client hclient l hhosts cache link spec
    obtain ⟨hframing, -, hresponse⟩ := hclients client hclient
    obtain rfl : client.1.response = reply := funext hresponse
    exact Loopback.cached_asks_are_transparent hframing hhosts cache link spec

/-! ## Asks that overlap -/

open Conversation (bangService bangServer)

/-- Both clients miss the tag at the same time. The fatal answer to the first evicts it, and is what
    the second is told from the cache. The first finds its connection closed when it asks again. -/
def overlappingSteps : List (Nat × Turn) :=
  [(0, .act (.ask "tag")), (1, .act (.ask "tag")), (0, .act (.deliver 9)), (0, .act .respond),
    (1, .act (.deliver 1)), (0, .act (.receive 99)), (1, .act (.deliver 9)), (1, .act .respond),
    (1, .act (.receive 99)), (0, .act (.ask "!")), (0, .act (.deliver 9)), (0, .act .respond),
    (0, .act (.receive 99)), (1, .act (.ask "!")), (0, .act (.ask "tag")), (0, .act (.receive 0))]

/-- Two clients of a loopback with one cache. The first has asked what is fatal. -/
def bangLoopback : Loopback :=
  let l : Loopback := { service := bangService, server := bangServer }
  ((((l.connect 1).2.connect 1).2.openCache 1).2.askCached 0 0 "!").2

theorem hosts_bangLoopback : Loopback.Hosts bangService bangLoopback := by
  have hlistens : Loopback.Hosts bangService { service := bangService, server := bangServer } :=
    .listens rfl rfl rfl rfl rfl
  exact (((hlistens.connect 1).connect 1).openCache 1).askCached 0 0 "!"

theorem fatal_answer_is_shared :
    let sh := (opened 1 (List.replicate 2 (bangService, bangServer))).run overlappingSteps
    (sh.told.map fun (i, spec, _) => (i, spec)) =
        [(0, "tag"), (1, "tag"), (0, "!"), (1, "!"), (0, "tag")] ∧
      (∀ spec answer, (1, spec, answer) ∈ sh.told → answer = bangService.reply spec) ∧
      (0, "tag", .error .gone) ∈ sh.told ∧
      (∃ answer, sh.cache.entries = [("!", answer)] ∧ bangService.reply "!" = .ok answer) ∧
      (bangLoopback.askCached 0 1 "!").1 = bangService.reply "!" := by
  have hagree : AllAgree bangService.reply (List.replicate 2 (bangService, bangServer)) := by
    intro client hclient
    obtain rfl := List.eq_of_mem_replicate hclient
    exact ⟨rfl, rfl, Service.response_eq_reply rfl⟩
  intro sh
  obtain ⟨-, hruns, hloopbacks⟩ := caching_is_transparent 1 hagree
  obtain ⟨htold, hcache, -⟩ := hruns overlappingSteps
  obtain ⟨hanswer, -⟩ := hloopbacks (bangService, bangServer) (by simp) bangLoopback
    hosts_bangLoopback 0 1 "!"
  have hrun : (sh.told.map fun (i, spec, _) => (i, spec)) =
        [(0, "tag"), (1, "tag"), (0, "!"), (1, "!"), (0, "tag")] ∧
      sh.isClosed 1 = false ∧ (0, "tag", .error .gone) ∈ sh.told ∧
      sh.cache.entries.map Prod.fst = ["!"] := by decide +kernel
  obtain ⟨hasked, hopen, hgone, hentries⟩ := hrun
  refine ⟨hasked, ?_, hgone, ?_, hanswer.resolve_right ?_⟩
  · intro spec answer hmem
    refine (htold 1 spec answer hmem).resolve_right ?_
    rintro ⟨-, hclosed⟩
    exact absurd (hopen.symm.trans hclosed) Bool.false_ne_true
  · obtain ⟨⟨spec, answer⟩, hsingle, hspec⟩ := List.map_eq_singleton_iff.1 hentries
    cases hspec
    exact ⟨answer, hsingle, hcache "!" answer (hsingle ▸ List.mem_singleton_self _)⟩
  · decide +kernel

end Sharing

end DepSpec
