import DepSpec.Proofs.Service.LoopbackAsks
import DepSpec.Proofs.Service.Retention

set_option autoImplicit false

/-! # Cached clients of a loopback

The clients of a loopback ask one after the other, each over its own link and through a cache that
it may share (`Loopback.askCached`). Between two asks everything is at rest (`Loopback.Rests`): what
the server has written was read, and each connection waits or is closed. An ask of one client leaves
the others as they are (`Loopback.Leaves`), unless its answer is fatal and closes them
(`Server.Rests.serveReads`). So what is remembered in any cache is what the service responds, however
the clients take turns. -/

namespace DepSpec

open Text

/-! ## What a cache holds -/

namespace Cache

variable {reply : String → Except ClientError Answer} {c : Cache}

/-- A cache that only holds what would be replied. -/
def Holds (reply : String → Except ClientError Answer) (c : Cache) : Prop :=
  ∀ spec answer, (spec, answer) ∈ c.entries → reply spec = .ok answer

theorem Holds.insert (h : c.Holds reply) {spec : String} {answer : Answer}
    (hanswer : reply spec = .ok answer) : (c.insert spec answer).Holds reply := by
  intro spec' answer' hmem
  rcases mem_entries_insert hmem with hold | hnew
  · exact h spec' answer' hold
  · cases hnew
    exact hanswer

/-- Failures are not remembered. -/
theorem Holds.remember (h : c.Holds reply) {spec : String} {answer : Except ClientError Answer}
    (hanswer : answer = reply spec ∨ answer = .error .gone) :
    (c.remember spec answer).Holds reply := by
  cases answer with
  | error e => exact h
  | ok answer => exact h.insert (hanswer.resolve_right nofun).symm

end Cache

/-! ## What the server does for another client -/

namespace Server

variable {s : Service} {server : Server} {i j : Nat} {k : Connection} {asked : List String}

/-- The other connections stay as they are. -/
theorem getElem?_serveReads_of_ne (hij : i ≠ j) (hk : server.connections[j]? = some k)
    (delivered : Bool) (reads : List (List UInt8)) :
    (server.serveReads s delivered i reads).connections[j]? = some k := by
  have hother : (i == j) = false := beq_eq_false_iff_ne.2 hij
  exact serveReads_keeps (P := fun now => now.connections[j]? = some k)
    (fun _ _ hk => getElem?_step_of_not_concerns hk hother)
    (fun _ hk => getElem?_step_of_not_concerns hk hother) hk reads

/-- A server that listens and was not asked to stop, or that is not there. -/
def IsSteady (server : Server) : Prop :=
  server.phase = .listening ∧ server.cancellation.reason = none ∨ server.isRunning = false

theorem IsSteady.of_running (h : server.IsSteady) (hrunning : server.isRunning = true) :
    server.phase = .listening ∧ server.cancellation.reason = none := by
  rcases h with hlistens | hnot
  · exact hlistens
  · rw [hrunning] at hnot
    cases hnot

theorem settle_of_not_running (h : server.isRunning = false) : server.settle s = server := by
  rw [settle]
  split
  · cases hphase : server.phase with
    | starting | stopped => simp [run, step, stop, finish, hphase]
    | listening | shuttingDown =>
      rw [isRunning, hphase] at h
      cases h
  · rfl

/-- Settling carries out a stop that was asked for. -/
theorem settle_of_listening (hphase : server.phase = .listening) {reason : StopReason}
    (hreason : server.cancellation.reason = some reason) :
    (server.settle s).phase = .stopped reason ∧
      (server.settle s).connections =
        server.connections.map fun k => if k.isClosed then k else k.close .shutdown := by
  simp [settle, Cancellation.isCancelled, hreason, run, step, stop, finish, hphase]

theorem isSteady_settle (h : server.phase = .listening ∨ server.isRunning = false) :
    (server.settle s).IsSteady := by
  rcases h with hphase | hnot
  · cases hreason : server.cancellation.reason with
    | none =>
      rw [settle_of_reason hreason]
      exact Or.inl ⟨hphase, hreason⟩
    | some reason =>
      right
      rw [isRunning, (settle_of_listening hphase hreason).1]
  · rw [settle_of_not_running hnot]
    exact Or.inr hnot

theorem IsSteady.serveReads (h : server.IsSteady) (delivered : Bool) (reads : List (List UInt8)) :
    ((server.serveReads s delivered i reads).settle s).IsSteady := by
  apply isSteady_settle
  rw [isRunning, phase_serveReads, ← isRunning]
  exact h.imp_left And.left

theorem Attends.of_same (h : server.Attends s j asked k) {after : Server}
    (hrunning : after.isRunning = true) (hk : after.connections[j]? = some k)
    (hreason : after.cancellation.reason = none) : after.Attends s j asked k :=
  ⟨{ h.aligned with isRunning := hrunning, connection := hk }, h.waiting, hreason⟩

theorem Rests.accept (h : server.Rests s j k) : (server.step s .accept).Rests s j k := by
  have hk := getElem?_step_of_not_concerns (s := s) h.connection (e := .accept) rfl
  cases h with
  | closed _ hclosed hqueue => exact .closed hk hclosed hqueue
  | attends h =>
    refine .attends (h.of_same (isRunning_step h.aligned.isRunning (by simp)) hk ?_)
    rw [reason_step, h.reason]
    rfl

/-- **What is served to one client leaves another at rest**; a fatal answer closes its connection
    too. -/
theorem Rests.serveReads (h : server.Rests s j k) (hsteady : server.IsSteady) (hij : i ≠ j)
    (delivered : Bool) (reads : List (List UInt8)) :
    ∃ k', ((server.serveReads s delivered i reads).settle s).Rests s j k' ∧
      k'.written = k.written := by
  have hk := getElem?_serveReads_of_ne (s := s) hij h.connection delivered reads
  have hphase := phase_serveReads (s := s) server i delivered reads
  generalize server.serveReads s delivered i reads = served at hk hphase ⊢
  cases h with
  | closed _ hclosed hqueue =>
    exact ⟨k, .closed (getElem?_settle_of_closed hk hclosed hqueue) hclosed hqueue, rfl⟩
  | @attends asked h =>
    have hlistening := hphase.trans (hsteady.of_running h.aligned.isRunning).1
    cases hreason : served.cancellation.reason with
    | none =>
      rw [settle_of_reason hreason]
      have hrunning : served.isRunning = true := by
        rw [isRunning, hlistening]
      exact ⟨k, .attends (h.of_same hrunning hk hreason), rfl⟩
    | some reason =>
      -- What was fatal to the other client stops the server, and with it this connection.
      obtain ⟨hreading, -⟩ := Connection.isWaiting_iff.1 h.waiting
      refine ⟨k.close .shutdown, .closed ?_ rfl rfl, rfl⟩
      rw [(settle_of_listening hlistening hreason).2, List.getElem?_map, hk, Option.map_some,
        Connection.isClosed, hreading]
      rfl

end Server

namespace Loopback

variable {s : Service} {l l' : Loopback} {n : Nat}

/-! ## Everything at rest -/

/-- A client that has read all that the server has written to it. -/
structure LinkRests (s : Service) (server : Server) (link : Link) : Prop where
  reader : link.reader = {}
  present : link.present = true
  connection : ∀ i, link.connection = some i →
    ∃ k, server.Rests s i k ∧ link.taken = k.written.length

/-- All clients and the server between two asks. -/
structure Rests (s : Service) (l : Loopback) : Prop where
  service : l.service = s
  steady : l.server.IsSteady
  links : ∀ (n : Nat) link, l.links[n]? = some link → LinkRests s l.server link
  apart : ∀ m n i, l.connectionOf m = some i → l.connectionOf n = some i → m = n

/-- Whether the client at a link has a connection that is open. -/
def isConnected (l : Loopback) (n : Nat) : Bool :=
  (l.connectionOf n).any fun i => l.server.connections[i]?.any fun k => !k.isClosed

/-- A client that the server waits for, as the link to it. -/
theorem LinkRests.eq_of_connection {server : Server} {link : Link} (h : LinkRests s server link)
    {i : Nat} (hi : link.connection = some i) :
    ∃ k, server.Rests s i k ∧ link = { connection := some i, taken := k.written.length } := by
  obtain ⟨hreader, hpresent, hconnection⟩ := h
  obtain ⟨k, hk, htaken⟩ := hconnection i hi
  refine ⟨k, hk, ?_⟩
  cases link
  subst hi hreader hpresent htaken
  rfl

/-- An ask of another client leaves a client at rest. -/
theorem Rests.link_of_ne (h : l.Rests s) {n m : Nat} (hmn : n ≠ m) {link : Link}
    (hlink : l.links[m]? = some link)
    (hserver : l'.server = l.server ∨ ∃ i delivered reads, l.connectionOf n = some i ∧
      l'.server = (l.server.serveReads l.service delivered i reads).settle l.service) :
    LinkRests s l'.server link := by
  obtain ⟨hreader, hpresent, hconnection⟩ := h.links m link hlink
  rcases hserver with hsame | ⟨i, delivered, reads, hi, hserver⟩
  · rw [hsame]
    exact ⟨hreader, hpresent, hconnection⟩
  · refine ⟨hreader, hpresent, fun j hj => ?_⟩
    have hother : l.connectionOf m = some j := by
      rw [Loopback.connectionOf, hlink]
      exact hj
    have hij : i ≠ j := by
      rintro rfl
      exact hmn (h.apart n m i hi hother)
    obtain ⟨k, hk, htaken⟩ := hconnection j hj
    obtain ⟨k', hk', hwritten⟩ := hk.serveReads h.steady hij delivered reads
    rw [hserver, h.service]
    exact ⟨k', hk', htaken.trans (congrArg List.length hwritten).symm⟩

/-! ## An ask -/

theorem IsCut.rests {link : Link} (h : l.IsCut n link) (hpresent : link.present = true) :
    LinkRests s l.server link ∧ l.isConnected n = false := by
  refine ⟨⟨h.reader, hpresent, fun i hi => ?_⟩, ?_⟩
  · obtain ⟨k, hk, hclosed, hqueue, htaken⟩ := h.connection i hi
    exact ⟨k, .closed hk hclosed hqueue, htaken⟩
  · rw [isConnected, Loopback.connectionOf, h.isLink, Option.bind_some]
    cases hconnection : link.connection with
    | none => rfl
    | some i =>
      obtain ⟨k, hk, hclosed, -⟩ := h.connection i hconnection
      rw [Option.any_some, hk, Option.any_some, hclosed]
      rfl

/-- There is no answer without a link. -/
theorem askCut_of_no_link (hlink : l.links[n]? = none) (requestSizes answerSizes : List Nat)
    {spec : String} (hone : Client.isOneLine spec = true) :
    (l.askCut requestSizes answerSizes n spec).1 = .error .gone ∧
      (l.askCut requestSizes answerSizes n spec).2.links[n]? = none := by
  rw [askCut_line hone]
  simp [deliver, collect, readLine, hlink, Client.answer]

/-- A client at rest is cut off, or the server waits for it. -/
theorem Rests.cut_or_attends (h : l.Rests s) {link : Link} (hlink : l.links[n]? = some link) :
    l.IsCut n link ∨ ∃ i asked k, l.Attends s n i asked k := by
  have hrests := h.links n link hlink
  cases hi : link.connection with
  | none =>
    refine Or.inl ⟨hlink, hrests.reader, fun i hsome => ?_⟩
    rw [hi] at hsome
    cases hsome
  | some i =>
    obtain ⟨k, hk, rfl⟩ := hrests.eq_of_connection hi
    cases hk with
    | @attends asked hattends => exact Or.inr ⟨i, asked, k, h.service, hlink, hattends⟩
    | closed hk hclosed hqueue => exact Or.inl (isCut_of_closed hlink hk hclosed hqueue)

/-- The client that asks is at rest again. Its answer is the response, or that the service is gone if
    it has no open connection. -/
theorem Rests.askCut_own (hframing : s.settings.framing = .newline)
    (h : l.Rests s)
    (requestSizes answerSizes : List Nat) (n : Nat) {spec : String}
    (hone : Client.isOneLine spec = true) :
    let l' := (l.askCut requestSizes answerSizes n spec).2
    (∀ link, l'.links[n]? = some link → LinkRests s l'.server link) ∧
      ((l.askCut requestSizes answerSizes n spec).1 = s.response spec ∨
        (l.askCut requestSizes answerSizes n spec).1 = .error .gone ∧ l'.isConnected n = false) := by
  intro l'
  cases hlink : l.links[n]? with
  | none =>
    obtain ⟨hgone, hnone⟩ := askCut_of_no_link hlink requestSizes answerSizes hone
    refine ⟨fun link hsome => ?_, Or.inr ⟨hgone, ?_⟩⟩
    · rw [hnone] at hsome
      cases hsome
    · rw [isConnected, Loopback.connectionOf, hnone]
      rfl
  | some link =>
    rcases h.cut_or_attends hlink with hcut | ⟨i, asked, k, hattends⟩
    · obtain ⟨hgone, hcut'⟩ := hcut.askCut requestSizes answerSizes hone
      obtain ⟨hrests, hclosed⟩ := hcut'.rests (s := s) (h.links n link hlink).present
      refine ⟨fun link' hlink' => ?_, Or.inr ⟨hgone, hclosed⟩⟩
      cases hcut'.isLink.symm.trans hlink'
      exact hrests
    · obtain ⟨hanswer, c, k', -, hfollows⟩ :=
        hattends.askCut hframing requestSizes answerSizes spec
      refine ⟨fun link' hlink' => ?_, Or.inl hanswer⟩
      cases hfollows.link.symm.trans hlink'
      refine ⟨rfl, rfl, fun j hj => ?_⟩
      cases hj
      exact ⟨k', hfollows.server.rests, rfl⟩

/-- **An ask leaves everything at rest**, and gets its response as long as its connection is open. -/
theorem Rests.askCut (hframing : s.settings.framing = .newline)
    (h : l.Rests s)
    (requestSizes answerSizes : List Nat) (n : Nat) (spec : String) :
    let l' := (l.askCut requestSizes answerSizes n spec).2
    l'.Rests s ∧ ((l.askCut requestSizes answerSizes n spec).1 = s.response spec ∨
      (l.askCut requestSizes answerSizes n spec).1 = .error .gone ∧ l'.isConnected n = false) := by
  cases hone : Client.isOneLine spec with
  | false =>
    rw [askCut_refused (s := s) hone]
    exact ⟨h, Or.inl rfl⟩
  | true =>
    obtain ⟨hleaves, hserver⟩ := askCut_spec requestSizes answerSizes n spec l
    -- The link that asks is at rest by its own answer, and every other one because it is left alone.
    obtain ⟨hown, hanswer⟩ := h.askCut_own hframing requestSizes answerSizes n hone
    refine ⟨⟨hleaves.service.trans h.service, ?_, ?_, ?_⟩, hanswer⟩
    · rcases hserver with hsame | ⟨i, delivered, reads, -, hserved⟩
      · rw [hsame]
        exact h.steady
      · rw [hserved]
        exact h.steady.serveReads delivered reads
    · intro m link hlink
      by_cases hm : n = m
      · subst hm
        exact hown link hlink
      · rw [hleaves.links m hm] at hlink
        exact h.link_of_ne hm hlink hserver
    · intro a b i ha hb
      rw [hleaves.connectionOf] at ha hb
      exact h.apart a b i ha hb

/-! ## A client that connects -/

/-- No link belongs to a connection that the server does not have. -/
theorem Rests.connectionOf_ne (h : l.Rests s) {i : Nat} (hnone : l.server.connections[i]? = none)
    (n : Nat) : l.connectionOf n ≠ some i := by
  intro hi
  obtain ⟨link, hlink, hconnection⟩ := Option.bind_eq_some_iff.1 hi
  obtain ⟨k, hk, -⟩ := (h.links n link hlink).connection i hconnection
  rw [hk.connection] at hnone
  cases hnone

/-- A link is the last one or was there before. -/
theorem getElem?_concat_cases {links : List Link} {last link : Link}
    (h : (links ++ [last])[n]? = some link) :
    links[n]? = some link ∨ n = links.length ∧ link = last := by
  rw [List.getElem?_append] at h
  split at h
  · exact Or.inl h
  · rw [List.getElem?_singleton] at h
    split at h
    · cases h
      exact Or.inr ⟨by omega, rfl⟩
    · cases h

/-- One more link, which is at rest and belongs to no connection of another. -/
theorem Rests.concat (h : l.Rests s) {server : Server} (hsteady : server.IsSteady)
    (hkeeps : ∀ i k, l.server.Rests s i k → server.Rests s i k) {last : Link}
    (hlast : LinkRests s server last)
    (hnew : ∀ i, last.connection = some i → l.server.connections[i]? = none) :
    Rests s { l with links := l.links ++ [last], server := server } := by
  have hconnection {m i : Nat}
      (hi : Loopback.connectionOf { l with links := l.links ++ [last], server := server } m =
        some i) :
      l.connectionOf m = some i ∨ m = l.links.length ∧ l.server.connections[i]? = none := by
    obtain ⟨link, hm, hlink⟩ := Option.bind_eq_some_iff.1 hi
    rcases getElem?_concat_cases hm with hold | ⟨hlength, rfl⟩
    · exact Or.inl (Option.bind_eq_some_iff.2 ⟨link, hold, hlink⟩)
    · exact Or.inr ⟨hlength, hnew i hlink⟩
  refine ⟨h.service, hsteady, ?_, ?_⟩
  · intro m link hm
    rcases getElem?_concat_cases hm with hold | ⟨-, rfl⟩
    · obtain ⟨hreader, hpresent, hlink⟩ := h.links m link hold
      refine ⟨hreader, hpresent, fun i hi => ?_⟩
      obtain ⟨k, hk, htaken⟩ := hlink i hi
      exact ⟨k, hkeeps i k hk, htaken⟩
    · exact hlast
  · -- The last link is on none of the connections that there were.
    intro a b i ha hb
    rcases hconnection ha with ha | ⟨ha, hnone⟩
    · rcases hconnection hb with hb | ⟨-, hnone⟩
      · exact h.apart a b i ha hb
      · exact absurd ha (h.connectionOf_ne hnone a)
    · rcases hconnection hb with hb | ⟨hb, -⟩
      · exact absurd hb (h.connectionOf_ne hnone b)
      · exact ha.trans hb.symm

theorem Rests.connect (h : l.Rests s) (attempts : Nat) : (l.connect attempts).2.Rests s := by
  obtain rfl := h.service
  cases hpath : SocketPath.connectRetrying attempts fun _ => l.server.path with
  | error e =>
    rw [Loopback.connect, hpath]
    exact h
  | ok identity =>
    by_cases hown : l.server.socket = some identity ∧ l.server.isRunning = true
    · obtain ⟨hlistening, hreason⟩ := h.steady.of_running hown.2
      have hserver := (attends_connect hlistening ⟨⟨identity, hpath, hown.1⟩, hreason⟩).1.server
      rw [Loopback.connect, hpath] at hserver ⊢
      simp only [if_pos hown] at hserver ⊢
      have hlink : LinkRests l.service (l.server.step l.service .accept)
          { connection := some l.server.connections.length } := by
        refine ⟨rfl, rfl, fun i hi => ?_⟩
        cases hi
        exact ⟨_, .attends hserver, rfl⟩
      have hsteady : (l.server.step l.service .accept).IsSteady := by
        rw [Server.step, if_pos hlistening]
        exact h.steady
      refine h.concat hsteady (fun i k hk => hk.accept) hlink fun i hi => ?_
      cases hi
      exact List.getElem?_eq_none (Nat.le_refl _)
    · have hlink : LinkRests l.service l.server { connection := none } := ⟨rfl, rfl, by simp⟩
      rw [Loopback.connect, hpath]
      simp only [if_neg hown]
      exact h.concat h.steady (fun _ _ hk => hk) hlink (by simp)

/-! ## Asks through caches -/

/-- Clients at rest with caches that only hold what the service responds. -/
structure IsTransparent (s : Service) (l : Loopback) : Prop where
  rests : l.Rests s
  caches : ∀ c ∈ l.caches, c.Holds s.response

/-- A client asks for what its cache does not know, and the answer is remembered. -/
theorem askCached_eq {cache : Nat} {c : Cache} (hc : l.caches[cache]? = some c) (link : Nat)
    (spec : String) :
    l.askCached cache link spec =
      match c.get? spec with
      | some answer => (.ok answer, l)
      | none => ((l.ask link spec).1, { (l.ask link spec).2 with
          caches := (l.ask link spec).2.caches.set cache (c.remember spec (l.ask link spec).1) }) := by
  rw [askCached, hc]
  dsimp only
  rw [Cache.ask_eq]
  cases c.get? spec with
  | none => rfl
  | some answer =>
    obtain ⟨hlength, hget⟩ := List.getElem?_eq_some_iff.1 hc
    dsimp only
    rw [← hget, List.set_getElem_self]

theorem leaves_ask (link : Nat) (spec : String) (l : Loopback) :
    l.Leaves link (l.ask link spec).2 :=
  (askCut_spec _ _ link spec l).1

theorem Rests.ask (hframing : s.settings.framing = .newline)
    (h : l.Rests s) (link : Nat) (spec : String) :
    let l' := (l.ask link spec).2
    l'.Rests s ∧ ((l.ask link spec).1 = s.response spec ∨
      (l.ask link spec).1 = .error .gone ∧ l'.isConnected link = false) :=
  h.askCut hframing _ _ link spec

theorem IsTransparent.ask (hframing : s.settings.framing = .newline)
    (h : l.IsTransparent s) (link : Nat)
    (spec : String) : (l.ask link spec).2.IsTransparent s := by
  refine ⟨(h.rests.ask hframing link spec).1, fun c hc => h.caches c ?_⟩
  rw [← (leaves_ask link spec l).caches]
  exact hc

/-- **An ask through a cache** gets the reply as long as its connection is open, leaves replies alone
    in every cache, and changes no cache if it fails. -/
theorem IsTransparent.askCached (hframing : s.settings.framing = .newline)
    (h : l.IsTransparent s) (cache link : Nat)
    (spec : String) :
    let answer := (l.askCached cache link spec).1
    let l' := (l.askCached cache link spec).2
    l'.IsTransparent s ∧
      (answer = s.response spec ∨ answer = .error .gone ∧ l'.isConnected link = false) ∧
      ∀ e, answer = .error e → l'.caches = l.caches := by
  have hask := h.ask hframing link spec
  obtain ⟨-, hanswer⟩ := h.rests.ask hframing link spec
  have hsame := (leaves_ask link spec l).caches
  cases hc : l.caches[cache]? with
  | none =>
    rw [Loopback.askCached, hc]
    exact ⟨hask, hanswer, fun _ _ => hsame⟩
  | some c =>
    have hholds := h.caches c (List.mem_of_getElem? hc)
    rw [askCached_eq hc]
    cases hget : c.get? spec with
    | some answer =>
      have hreply := hholds spec answer (Cache.mem_entries_of_get? hget)
      exact ⟨h, Or.inl hreply.symm, fun _ _ => rfl⟩
    | none =>
      refine ⟨⟨⟨hask.rests.service, hask.rests.steady, hask.rests.links, hask.rests.apart⟩, ?_⟩,
        hanswer, ?_⟩
      · intro c' hc'
        rcases List.mem_or_eq_of_mem_set hc' with hold | rfl
        · exact hask.caches c' hold
        · exact hholds.remember (hanswer.imp_right And.left)
      · intro e he
        obtain ⟨hlength, hget⟩ := List.getElem?_eq_some_iff.1 hc
        have herror : (l.ask link spec).1 = .error e := he
        dsimp only
        rw [herror, Cache.remember, hsame, ← hget, List.set_getElem_self]

/-- What clients make of a loopback whose server listens: they connect, open caches and ask. -/
inductive Hosts (s : Service) : Loopback → Prop
  | listens {l : Loopback} (hservice : l.service = s) (hlistening : l.server.phase = .listening)
    (hreason : l.server.cancellation.reason = none) (hlinks : l.links = [])
    (hcaches : l.caches = []) : Hosts s l
  | connect {l : Loopback} (h : Hosts s l) (attempts : Nat) : Hosts s (l.connect attempts).2
  | openCache {l : Loopback} (h : Hosts s l) (capacity : Nat) : Hosts s (l.openCache capacity).2
  | ask {l : Loopback} (h : Hosts s l) (link : Nat) (spec : String) : Hosts s (l.ask link spec).2
  | askCached {l : Loopback} (h : Hosts s l) (cache link : Nat) (spec : String) :
    Hosts s (l.askCached cache link spec).2

theorem Hosts.isTransparent (hframing : s.settings.framing = .newline)
    (h : Hosts s l) : l.IsTransparent s := by
  induction h with
  | listens hservice hlistening hreason hlinks hcaches =>
    refine ⟨⟨hservice, Or.inl ⟨hlistening, hreason⟩, ?_, ?_⟩, ?_⟩
    · intro n link hlink
      rw [hlinks] at hlink
      cases hlink
    · intro m n i hi
      rw [Loopback.connectionOf, hlinks] at hi
      cases hi
    · intro c hc
      rw [hcaches] at hc
      cases hc
  | connect h attempts ih =>
    refine ⟨ih.rests.connect attempts, ?_⟩
    rw [Loopback.connect]
    split <;> exact ih.caches
  | openCache h capacity ih =>
    obtain ⟨⟨hservice, hsteady, hlinks, hapart⟩, hcaches⟩ := ih
    refine ⟨⟨hservice, hsteady, hlinks, hapart⟩, fun c hc => ?_⟩
    rcases List.mem_append.1 hc with hold | hnew
    · exact hcaches c hold
    · rw [List.mem_singleton.1 hnew]
      exact fun _ _ hmem => absurd hmem List.not_mem_nil
  | ask h link spec ih => exact ih.ask hframing link spec
  | askCached h cache link spec ih => exact (ih.askCached hframing cache link spec).1

/-- **Caching is transparent to the clients of a loopback.** However they connect, open and share
    caches, and take turns in asking: each is told the reply to its own specifier as long as its
    connection is open, the caches hold replies alone, and an ask that fails changes no cache. -/
theorem cached_asks_are_transparent (hframing : s.settings.framing = .newline)
    (h : Hosts s l) (cache link : Nat)
    (spec : String) :
    let answer := (l.askCached cache link spec).1
    let l' := (l.askCached cache link spec).2
    (answer = s.response spec ∨ answer = .error .gone ∧ l'.isConnected link = false) ∧
      (∀ c ∈ l'.caches, c.Holds s.response) ∧
      ∀ e, answer = .error e → l'.caches = l.caches := by
  obtain ⟨hafter, hanswer, hfailed⟩ :=
    (h.isTransparent hframing).askCached hframing cache link spec
  exact ⟨hanswer, hafter.caches, hfailed⟩

end Loopback

end DepSpec
