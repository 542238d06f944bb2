import DepSpec.Service.Cache

set_option autoImplicit false

/-! # The table behind a cache

The answers of a cache are kept in a table that has no order, each with the time of its insertion.
A full table that meets a new specifier lists its specifiers by their times and takes the first of
them out, one by one. A `Cache` is such a table with its rows in the order of their times, which need
not be known then. -/

namespace DepSpec

/-- An answer in a table. -/
structure CacheRow where
  spec : String
  answer : Answer
  /-- When the answer was inserted. -/
  time : Nat

/-- Answers by specifier, in any order. -/
structure CacheTable where
  capacity : Nat
  rows : List CacheRow := []

namespace CacheTable

/-- An empty table; it can always hold one answer. -/
def ofCapacity (capacity : Nat) : CacheTable := { capacity := max capacity 1 }

/-- How many answers there are. -/
def size (t : CacheTable) : Nat := t.rows.length

/-- Whether there is an answer to a specifier. -/
def contains (t : CacheTable) (spec : String) : Bool := t.rows.any fun row => row.spec == spec

/-- The answer to a specifier, if there is one. -/
def get? (t : CacheTable) (spec : String) : Option Answer :=
  (t.rows.find? fun row => row.spec == spec).map CacheRow.answer

/-- Take out the answer to a specifier. -/
def remove (t : CacheTable) (spec : String) : CacheTable :=
  { t with rows := t.rows.filter fun row => row.spec != spec }

/-- Forget all answers. -/
def clear (t : CacheTable) : CacheTable := { t with rows := [] }

/-- How many answers a full table gives up at once. -/
def batch (t : CacheTable) : Nat := max 1 (t.capacity / 10)

/-- The specifiers with the times of their insertion, the oldest first. The rows are met in the
    order that `walk` brings them in. -/
def byAge (walk : List CacheRow → List CacheRow) (t : CacheTable) : List (String × Nat) :=
  ((walk t.rows).map fun row => (row.spec, row.time)).mergeSort fun a b => decide (a.2 ≤ b.2)

/-- Take out the oldest answers. -/
def evict (walk : List CacheRow → List CacheRow) (t : CacheTable) : CacheTable :=
  ((t.byAge walk).take t.batch).foldl (fun t entry => t.remove entry.1) t

/-- Put in an answer at this time, in the place of an earlier one to its specifier. -/
def insert (walk : List CacheRow → List CacheRow) (t : CacheTable) (time : Nat) (spec : String)
    (answer : Answer) : CacheTable :=
  let t := if t.capacity ≤ t.size && !t.contains spec then t.evict walk else t
  { t with rows := ⟨spec, answer, time⟩ :: (t.remove spec).rows }

/-- An operation at this time. -/
def apply (walk : List CacheRow → List CacheRow) (t : CacheTable) (time : Nat) :
    Cache.Op → CacheTable
  | .insert spec answer => t.insert walk time spec answer
  | .clear => t.clear
  | .get _ | .isEmpty | .clone => t

end CacheTable

end DepSpec
