import DepSpec.Service.Response

set_option autoImplicit false

/-! # The answer cache

A bounded memory of answers by specifier. The entries stand in the order of their last insertion,
the oldest first. A new specifier that meets a full cache first drives out the oldest tenth of it,
or one entry of a small cache. -/

namespace DepSpec

/-- Answers by specifier, the oldest insertion first. -/
structure Cache where
  capacity : Nat
  entries : List (String × Answer) := []

namespace Cache

/-- The capacity of a cache that is given none. -/
def defaultCapacity : Nat := 500000

/-- An empty cache; it can always hold one entry. -/
def ofCapacity (capacity : Nat) : Cache := { capacity := max capacity 1 }

/-- How many answers there are. -/
def size (c : Cache) : Nat := c.entries.length

/-- Whether there is no answer. -/
def isEmpty (c : Cache) : Bool := c.entries.isEmpty

/-- Whether there is an answer to a specifier. -/
def contains (c : Cache) (spec : String) : Bool := c.entries.any fun (key, _) => key == spec

/-- The answer to a specifier, if it is remembered. -/
def get? (c : Cache) (spec : String) : Option Answer := c.entries.lookup spec

/-- Forget all answers. -/
def clear (c : Cache) : Cache := { c with entries := [] }

/-- How many entries a full cache gives up at once. -/
def batch (c : Cache) : Nat := max 1 (c.capacity / 10)

/-- The cache with room for a specifier. -/
def makeRoom (c : Cache) (spec : String) : Cache :=
  if c.capacity ≤ c.size && !c.contains spec then { c with entries := c.entries.drop c.batch }
  else c

/-- Remember an answer as the newest. -/
def insert (c : Cache) (spec : String) (answer : Answer) : Cache :=
  let c := c.makeRoom spec
  { c with entries := c.entries.filter (fun entry => entry.1 != spec) ++ [(spec, answer)] }

/-! ## Operations through handles -/

/-- What can be done with a handle of a shared cache. -/
inductive Op where
  | insert (spec : String) (answer : Answer)
  | get (spec : String)
  | isEmpty
  | clear
  | clone

/-- What an operation gives back. -/
inductive Reply where
  | done
  | answer (answer : Option Answer)
  | flag (b : Bool)

end Cache

/-- A cache that several handles share. -/
structure SharedCache where
  cache : Cache
  handles : Nat := 1

/-- An operation through a handle; a handle that does not exist does nothing. -/
def SharedCache.apply (s : SharedCache) (handle : Nat) (op : Cache.Op) :
    Cache.Reply × SharedCache :=
  if handle < s.handles then
    match op with
    | .insert spec answer => (.done, { s with cache := s.cache.insert spec answer })
    | .get spec => (.answer (s.cache.get? spec), s)
    | .isEmpty => (.flag s.cache.isEmpty, s)
    | .clear => (.done, { s with cache := s.cache.clear })
    | .clone => (.done, { s with handles := s.handles + 1 })
  else (.done, s)

end DepSpec
