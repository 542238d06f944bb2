import DepSpec.Service.CacheTable
import Mathlib.Data.List.Nodup
import Mathlib.Data.List.Perm.Basic

set_option autoImplicit false

/-! # A cache is a table in the order of its times

Where every insertion comes later than those before it, a table and a cache hold the same answers
(`CacheTable.Represents`): its rows in the order of their times are the entries of the cache. The
list of its specifiers by age is that order then, in whatever order the rows are met
(`Represents.byAge_eq`), so that taking out the oldest of them one by one is to drop the first
entries (`Represents.evict`). -/

namespace DepSpec

namespace CacheRow

/-- What a cache remembers of a row. -/
def entry (row : CacheRow) : String × Answer := (row.spec, row.answer)

theorem lookup_map_entry (rows : List CacheRow) (spec : String) :
    (rows.map entry).lookup spec = (rows.find? fun row => row.spec == spec).map answer := by
  induction rows with
  | nil => rfl
  | cons row rows ih =>
    by_cases h : row.spec = spec
    · simp [entry, h]
    · simp [entry, h, Ne.symm h, List.lookup_cons, beq_false_of_ne, ih]

theorem filter_map_entry (rows : List CacheRow) (spec : String) :
    (rows.map entry).filter (fun old => old.1 != spec) =
      (rows.filter fun row => row.spec != spec).map entry := by
  rw [List.filter_map]
  rfl

/-- Where no two rows have one specifier, the row of a specifier is found wherever it is. -/
theorem find?_eq_some_iff {rows : List CacheRow} (h : (rows.map spec).Nodup) {row : CacheRow}
    {key : String} :
    (rows.find? fun row => row.spec == key) = some row ↔ row ∈ rows ∧ row.spec = key := by
  constructor
  · intro hfind
    have hkey := List.find?_some hfind
    exact ⟨List.mem_of_find?_eq_some hfind, eq_of_beq hkey⟩
  · rintro ⟨hmem, rfl⟩
    have hsome : (rows.find? fun other => other.spec == row.spec).isSome :=
      List.find?_isSome.2 ⟨row, hmem, beq_self_eq_true _⟩
    obtain ⟨other, hother⟩ := Option.isSome_iff_exists.1 hsome
    have hspec := List.find?_some hother
    rw [hother,
      List.inj_on_of_nodup_map h (List.mem_of_find?_eq_some hother) hmem (eq_of_beq hspec)]

/-- Without the specifiers of its first part, a list of rows is its second part. -/
theorem filter_front {front back : List CacheRow} (h : ((front ++ back).map spec).Nodup) :
    (front ++ back).filter (fun row => row.spec ∉ front.map spec) = back := by
  rw [List.map_append, List.nodup_append] at h
  rw [List.filter_append, List.filter_eq_nil_iff.2, List.filter_eq_self.2, List.nil_append]
  · intro row hrow
    refine decide_eq_true fun hfront => ?_
    exact h.2.2 _ hfront _ (List.mem_map_of_mem hrow) rfl
  · intro row hrow hkept
    exact of_decide_eq_true hkept (List.mem_map_of_mem hrow)

end CacheRow

namespace CacheTable

/-- A table that holds what a cache holds: its rows, the oldest first, are the entries, and all of
    them were inserted before `now`, each with a specifier of its own. -/
structure Represents (now : Nat) (rows : List CacheRow) (t : CacheTable) (c : Cache) : Prop where
  capacity_eq : t.capacity = c.capacity
  perm : rows.Perm t.rows
  entries_eq : rows.map CacheRow.entry = c.entries
  older : rows.Pairwise fun a b => a.time < b.time
  distinct : (rows.map CacheRow.spec).Nodup
  before : ∀ row ∈ rows, row.time < now

theorem represents_ofCapacity (now capacity : Nat) :
    Represents now [] (ofCapacity capacity) (.ofCapacity capacity) :=
  ⟨rfl, .nil, rfl, .nil, List.nodup_nil, nofun⟩

/-- Taking out several answers leaves the rows of the others. -/
theorem foldl_remove (t : CacheTable) (entries : List (String × Nat)) :
    entries.foldl (fun t entry => t.remove entry.1) t =
      { t with rows := t.rows.filter fun row => row.spec ∉ entries.map Prod.fst } := by
  induction entries generalizing t with
  | nil => simp
  | cons entry entries ih =>
    rw [List.foldl_cons, ih, remove, List.filter_filter]
    congr 2
    funext row
    rw [List.map_cons, Bool.and_comm]
    simp [bne]

namespace Represents

variable {now : Nat} {rows : List CacheRow} {t : CacheTable} {c : Cache}

theorem later (h : Represents now rows t c) {time : Nat} (htime : now ≤ time) :
    Represents time rows t c :=
  { h with before := fun row hrow => Nat.lt_of_lt_of_le (h.before row hrow) htime }

theorem size_eq (h : Represents now rows t c) : t.size = c.size := by
  rw [size, Cache.size, ← h.entries_eq, List.length_map, h.perm.length_eq]

theorem contains_eq (h : Represents now rows t c) (spec : String) :
    t.contains spec = c.contains spec := by
  rw [contains, Cache.contains, ← h.entries_eq, List.any_map, ← h.perm.any_eq]
  rfl

theorem get?_eq (h : Represents now rows t c) (spec : String) : t.get? spec = c.get? spec := by
  have hdistinct : (t.rows.map CacheRow.spec).Nodup := (h.perm.map _).nodup_iff.1 h.distinct
  rw [get?, Cache.get?, ← h.entries_eq, CacheRow.lookup_map_entry]
  congr 1
  ext row
  rw [CacheRow.find?_eq_some_iff hdistinct, CacheRow.find?_eq_some_iff h.distinct, h.perm.mem_iff]

/-- **The specifiers by age** are those of the cache in their order. -/
theorem byAge_eq (h : Represents now rows t c) {walk : List CacheRow → List CacheRow}
    (hwalk : ∀ rows, (walk rows).Perm rows) :
    t.byAge walk = rows.map fun row => (row.spec, row.time) := by
  have hperm : (t.byAge walk).Perm (rows.map fun row => (row.spec, row.time)) :=
    (List.mergeSort_perm _ _).trans (((hwalk t.rows).trans h.perm.symm).map _)
  have hsorted : (t.byAge walk).Pairwise fun a b => decide (a.2 ≤ b.2) = true := by
    apply List.pairwise_mergeSort
    · intro a b d hab hbd
      exact decide_eq_true (Nat.le_trans (of_decide_eq_true hab) (of_decide_eq_true hbd))
    · intro a b
      simpa using Nat.le_total a.2 b.2
  have holder : (rows.map fun row => (row.spec, row.time)).Pairwise fun a b => a.2 < b.2 :=
    List.pairwise_map.2 h.older
  refine hperm.eq_of_pairwise ?_ hsorted (holder.imp fun hlt => decide_eq_true (Nat.le_of_lt hlt))
  intro a b ha hb hab hba
  -- no two rows have the same time
  have htimes : ((rows.map fun row => (row.spec, row.time)).map Prod.snd).Nodup :=
    List.pairwise_map.2 (holder.imp Nat.ne_of_lt)
  exact List.inj_on_of_nodup_map htimes (hperm.mem_iff.1 ha) hb
    (Nat.le_antisymm (of_decide_eq_true hab) (of_decide_eq_true hba))

/-- **To take out the oldest answers one by one is to drop the first entries.** -/
theorem evict (h : Represents now rows t c) {walk : List CacheRow → List CacheRow}
    (hwalk : ∀ rows, (walk rows).Perm rows) :
    Represents now (rows.drop t.batch) (t.evict walk)
      { c with entries := c.entries.drop c.batch } := by
  have hkept : (rows.filter fun row => row.spec ∉ (rows.take t.batch).map CacheRow.spec) =
      rows.drop t.batch := by
    have hsplit := List.take_append_drop t.batch rows
    have hfront := CacheRow.filter_front (hsplit.symm ▸ h.distinct)
    rwa [hsplit] at hfront
  have hevict : t.evict walk = { t with rows := t.rows.filter fun row =>
      row.spec ∉ (rows.take t.batch).map CacheRow.spec } := by
    rw [CacheTable.evict, foldl_remove, h.byAge_eq hwalk, ← List.map_take, List.map_map]
    rfl
  have hbatch : t.batch = c.batch := by rw [batch, Cache.batch, h.capacity_eq]
  rw [hevict]
  exact {
    capacity_eq := h.capacity_eq
    perm := hkept ▸ h.perm.filter _
    entries_eq := by rw [List.map_drop, h.entries_eq, hbatch]
    older := h.older.sublist (List.drop_sublist _ _)
    distinct := h.distinct.sublist ((List.drop_sublist _ _).map _)
    before := fun row hrow => h.before row (List.mem_of_mem_drop hrow) }

/-- A table makes room when the cache does. -/
theorem makeRoom (h : Represents now rows t c) {walk : List CacheRow → List CacheRow}
    (hwalk : ∀ rows, (walk rows).Perm rows) (spec : String) :
    ∃ rows', Represents now rows'
      (if t.capacity ≤ t.size && !t.contains spec then t.evict walk else t) (c.makeRoom spec) := by
  rw [Cache.makeRoom, h.capacity_eq, h.size_eq, h.contains_eq]
  split
  · exact ⟨_, h.evict hwalk⟩
  · exact ⟨_, h⟩

/-- What is inserted later than everything before is the last row. -/
theorem insert (h : Represents now rows t c) {walk : List CacheRow → List CacheRow}
    (hwalk : ∀ rows, (walk rows).Perm rows) {time : Nat} (htime : now ≤ time) (spec : String)
    (answer : Answer) :
    ∃ rows', Represents (time + 1) rows' (t.insert walk time spec answer) (c.insert spec answer) := by
  obtain ⟨room, hroom⟩ := h.makeRoom hwalk spec
  let row : CacheRow := ⟨spec, answer, time⟩
  refine ⟨(room.filter fun old => old.spec != spec) ++ [row], ?_⟩
  have hbefore : ∀ old ∈ room.filter (fun old => old.spec != spec), old.time < time :=
    fun old hold => Nat.lt_of_lt_of_le (hroom.before old (List.mem_of_mem_filter hold)) htime
  exact {
    capacity_eq := hroom.capacity_eq
    perm := List.perm_append_comm.trans ((hroom.perm.filter _).cons _)
    entries_eq := by
      rw [List.map_append, ← CacheRow.filter_map_entry, hroom.entries_eq]
      rfl
    older := by
      refine List.pairwise_append.2 ⟨hroom.older.filter _, List.pairwise_singleton _ _, ?_⟩
      intro row hrow last hlast
      rw [List.mem_singleton.1 hlast]
      exact hbefore row hrow
    distinct := by
      rw [List.map_append, List.nodup_append]
      refine ⟨hroom.distinct.sublist (List.filter_sublist.map _), List.nodup_singleton _, ?_⟩
      intro key hkey last hlast
      obtain ⟨row, hrow, rfl⟩ := List.mem_map.1 hkey
      rw [List.mem_singleton.1 hlast]
      exact bne_iff_ne.1 (List.mem_filter.1 hrow).2
    before := by
      intro row hrow
      rcases List.mem_append.1 hrow with hold | hnew
      · exact Nat.lt_succ_of_lt (hbefore row hold)
      · rw [List.mem_singleton.1 hnew]
        exact Nat.lt_succ_self time }

theorem clear (h : Represents now rows t c) : Represents now [] t.clear c.clear where
  capacity_eq := h.capacity_eq
  perm := .nil
  entries_eq := rfl
  older := .nil
  distinct := List.nodup_nil
  before := nofun

/-- What is done to a shared cache is done to its table. -/
theorem apply {s : SharedCache} (h : Represents now rows t s.cache)
    {walk : List CacheRow → List CacheRow} (hwalk : ∀ rows, (walk rows).Perm rows) {time : Nat}
    (htime : now ≤ time) (handle : Nat) (op : Cache.Op) :
    ∃ rows', Represents (time + 1) rows' (if handle < s.handles then t.apply walk time op else t)
      (s.apply handle op).2.cache := by
  have hlater := h.later (Nat.le_succ_of_le htime)
  unfold SharedCache.apply
  by_cases hhandle : handle < s.handles
  · rw [if_pos hhandle, if_pos hhandle]
    cases op with
    | insert spec answer => exact h.insert hwalk htime spec answer
    | clear => exact ⟨[], hlater.clear⟩
    | get spec | isEmpty | clone => exact ⟨rows, hlater⟩
  · rw [if_neg hhandle, if_neg hhandle]
    exact ⟨rows, hlater⟩

end Represents

end CacheTable

namespace SharedCache

open CacheTable

/-- The table of a shared cache after operations, each through the handle with its number and at its
    time. -/
def table (walk : List CacheRow → List CacheRow) (clock : Nat → Nat) (s : SharedCache)
    (t : CacheTable) : List (Nat × Cache.Op) → CacheTable
  | [] => t
  | (handle, op) :: steps =>
    (s.apply handle op).2.table walk (fun n => clock (n + 1))
      (if handle < s.handles then t.apply walk (clock 0) op else t) steps

/-- A cache after operations, each through the handle with its number. -/
def run (s : SharedCache) : List (Nat × Cache.Op) → SharedCache
  | [] => s
  | (handle, op) :: steps => (s.apply handle op).2.run steps

/-- **A run of a shared cache is a run of its table**, if each operation comes later than the one
    before it. -/
theorem represents_run {walk : List CacheRow → List CacheRow} (hwalk : ∀ rows, (walk rows).Perm rows)
    {clock : Nat → Nat} (hclock : ∀ n, clock n < clock (n + 1)) {rows : List CacheRow}
    {t : CacheTable} {s : SharedCache} (h : Represents (clock 0) rows t s.cache)
    (steps : List (Nat × Cache.Op)) :
    ∃ now rows', Represents now rows' (s.table walk clock t steps) (s.run steps).cache := by
  induction steps generalizing clock rows t s with
  | nil => exact ⟨clock 0, rows, h⟩
  | cons step steps ih =>
    obtain ⟨handle, op⟩ := step
    obtain ⟨rows', hnext⟩ := h.apply hwalk (Nat.le_refl _) handle op
    exact ih (fun n => hclock (n + 1)) (hnext.later (hclock 0))

end SharedCache

end DepSpec
