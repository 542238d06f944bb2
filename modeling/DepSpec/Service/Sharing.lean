import DepSpec.Service.Conversation

set_option autoImplicit false

/-! # Clients that share a cache

Several clients, each in conversation with a server of a service of its own, look into one cache
before they ask, and put into it what they are answered. They go on independently: a client that has
missed the cache waits for its answer, and meanwhile others ask, are told from the cache, and change
it. Servers that are one and the same show each client what the others do as something that happens
elsewhere.

A server can break a conversation off at any time (`Server.Event.breaks`). What is on its way to the
client can still be read, and behind it the stream ends. -/

namespace DepSpec

/-- Whether an event may close a connection from the side of the server: a response that cannot be
    written does, reading that fails, and the stop. -/
def Server.Event.breaks (i : Nat) : Server.Event → Bool
  | .respond j delivered => j == i && !delivered
  | .lose j | .notice j => j == i
  | .finish => true
  | _ => false

namespace Conversation

/-- A step of a conversation that the server may break off. -/
inductive Turn where
  | act (a : Act)
  | breakOff (e : Server.Event)
  deriving Repr, DecidableEq

/-- What a turn does to a conversation. -/
def turn (s : Service) (c : Conversation) : Turn → Conversation
  | .act a => c.step s a
  | .breakOff e => if e.breaks c.connection then { c with server := c.server.step s e } else c

/-- What a sequence of turns does to a conversation. -/
def turns (s : Service) (c : Conversation) (ts : List Turn) : Conversation := ts.foldl (turn s) c

/-- What was asked and is answered, with the answers. -/
def exchanges (c : Conversation) : List (String × Except ClientError Answer) :=
  c.asked.zip c.answers

end Conversation

/-- Remember what a service has answered, if it has. -/
def Cache.remember (cache : Cache) (spec : String) : Except ClientError Answer → Cache
  | .ok answer => cache.insert spec answer
  | .error _ => cache

/-- Asking through a cache is looking into it, and remembering what the service answers. -/
theorem Cache.ask_eq {σ : Type} (cache : Cache) (spec : String)
    (ask : σ → Except ClientError Answer × σ) (s : σ) :
    cache.ask spec ask s =
      match cache.get? spec with
      | some answer => (.ok answer, cache, s)
      | none => ((ask s).1, cache.remember spec (ask s).1, (ask s).2) := by
  rw [Cache.ask]
  cases cache.get? spec with
  | some answer => rfl
  | none =>
    rcases ask s with ⟨answer | e, s'⟩ <;> rfl

/-- A client that looks into a cache before it asks. -/
structure CachedClient where
  service : Service
  conversation : Conversation

/-- Clients with the cache that they share. -/
structure Sharing where
  cache : Cache
  clients : List CachedClient
  /-- What the clients were told, with the numbers of the clients and in the order of being told. -/
  told : List (Nat × String × Except ClientError Answer) := []

namespace Sharing

/-- Clients that have connected to listening servers, and a cache that is empty. -/
def opened (capacity : Nat) (clients : List (Service × Server)) : Sharing where
  cache := .ofCapacity capacity
  clients := clients.map fun (service, server) =>
    { service := service, conversation := .opened service server }

/-- The conversation of a client takes a turn. An answer that this brings is remembered. -/
def turn (sh : Sharing) (i : Nat) (client : CachedClient) (t : Conversation.Turn) : Sharing :=
  let c := client.conversation.turn client.service t
  let sh := { sh with clients := sh.clients.set i { client with conversation := c } }
  match c.exchanges[client.conversation.exchanges.length]? with
  | none => sh
  | some (spec, answer) =>
    { sh with cache := sh.cache.remember spec answer, told := sh.told ++ [(i, spec, answer)] }

/-- What happens next at a client. It asks only for what the cache does not know, and nothing while
    it waits. -/
def step (sh : Sharing) (i : Nat) (t : Conversation.Turn) : Sharing :=
  match sh.clients[i]? with
  | none => sh
  | some client =>
    match t with
    | .act (.ask spec) =>
      if client.conversation.isIdle then
        match sh.cache.get? spec with
        | some answer => { sh with told := sh.told ++ [(i, spec, .ok answer)] }
        | none => sh.turn i client (.act (.ask spec))
      else sh
    | t => sh.turn i client t

/-- What a sequence of turns, each at the client with its number, makes of the clients. -/
def run (sh : Sharing) (steps : List (Nat × Conversation.Turn)) : Sharing :=
  steps.foldl (fun sh step => sh.step step.1 step.2) sh

end Sharing

end DepSpec
