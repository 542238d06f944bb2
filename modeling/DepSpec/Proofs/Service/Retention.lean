import DepSpec.Proofs.Service.Eviction
import Mathlib.Data.List.Dedup

set_option autoImplicit false

/-! # What a cache keeps

The entries of a cache are the newest part of what was inserted since the last clear, each specifier
at its last insertion (`Cache.latest`). Every operation keeps this (`Cache.Retains`): room is made at
the old end, an insertion takes its specifier out of the middle and puts it at the new end. How much
there is at least follows from the size, which changes only as the three cases of an insertion
say. -/

namespace DepSpec

namespace Cache

/-! ## The latest insertions -/

/-- The specifiers that are remembered, the oldest insertion first. -/
def keys (c : Cache) : List String := c.entries.map Prod.fst

/-- The insertions of a log that no later one overwrites. -/
def latest : List (String × Answer) → List (String × Answer)
  | [] => []
  | entry :: log => if entry.1 ∈ log.map Prod.fst then latest log else entry :: latest log

/-- The specifiers of a log, in the order of their last insertion. -/
theorem map_fst_latest (log : List (String × Answer)) :
    (latest log).map Prod.fst = (log.map Prod.fst).dedup := by
  induction log with
  | nil => rfl
  | cons entry log ih =>
    by_cases h : entry.1 ∈ log.map Prod.fst
    · rw [latest, if_pos h, ih, List.map_cons, List.dedup_cons_of_mem h]
    · rw [latest, if_neg h, List.map_cons, ih, List.map_cons, List.dedup_cons_of_notMem h]

theorem nodup_latest (log : List (String × Answer)) : ((latest log).map Prod.fst).Nodup := by
  rw [map_fst_latest]
  exact List.nodup_dedup _

theorem lookup_eq_none_of_not_mem {entries : List (String × Answer)} {spec : String}
    (h : spec ∉ entries.map Prod.fst) : entries.lookup spec = none := by
  rw [List.lookup_eq_none_iff]
  intro entry hentry
  exact bne_iff_ne.2 fun heq => h (heq ▸ List.mem_map_of_mem hentry)

theorem lookup_isSome_of_mem {entries : List (String × Answer)} {spec : String}
    (h : spec ∈ entries.map Prod.fst) : (entries.lookup spec).isSome := by
  obtain ⟨entry, hentry, rfl⟩ := List.mem_map.1 h
  exact List.lookup_isSome_iff.2 ⟨entry, hentry, beq_self_eq_true _⟩

theorem lookup_cons_eq (entries : List (String × Answer)) (key : String) (answer : Answer)
    (spec : String) :
    ((key, answer) :: entries).lookup spec =
      if spec = key then some answer else entries.lookup spec := by
  by_cases h : spec = key
  · rw [if_pos h, h, List.lookup_cons_self]
  · rw [if_neg h, List.lookup_cons, beq_false_of_ne h]

/-- What is latest for a specifier is what was inserted for it last. -/
theorem lookup_latest (log : List (String × Answer)) (spec : String) :
    (latest log).lookup spec = log.reverse.lookup spec := by
  induction log with
  | nil => rfl
  | cons entry log ih =>
    obtain ⟨key, answer⟩ := entry
    rw [List.reverse_cons, List.lookup_append, ← ih, lookup_cons_eq, latest]
    have hmem : key ∈ log.map Prod.fst ↔ key ∈ (latest log).map Prod.fst := by
      rw [map_fst_latest, List.mem_dedup]
    by_cases h : key ∈ log.map Prod.fst
    · rw [if_pos h]
      by_cases hspec : spec = key
      · -- a later insertion for the same specifier is found first
        rw [hspec]
        obtain ⟨later, hlater⟩ := Option.isSome_iff_exists.1 (lookup_isSome_of_mem (hmem.1 h))
        rw [hlater, Option.some_or]
      · rw [if_neg hspec, List.lookup_nil, Option.or_none]
    · rw [if_neg h, lookup_cons_eq]
      by_cases hspec : spec = key
      · rw [hspec, if_pos rfl, if_pos rfl, lookup_eq_none_of_not_mem (mt hmem.2 h),
          Option.none_or]
      · rw [if_neg hspec, if_neg hspec, List.lookup_nil, Option.or_none]

/-- An insertion takes the place of an earlier one for its specifier. -/
theorem latest_concat (log : List (String × Answer)) (entry : String × Answer) :
    latest (log ++ [entry]) = (latest log).filter (fun old => old.1 != entry.1) ++ [entry] := by
  induction log with
  | nil => rfl
  | cons old log ih =>
    rw [List.cons_append, latest, ih, latest]
    by_cases hlater : old.1 ∈ log.map Prod.fst
    · rw [if_pos hlater, if_pos (by simp [hlater])]
    · by_cases hentry : old.1 = entry.1
      · rw [if_pos (by simp [hentry]), if_neg hlater, List.filter_cons_of_neg (by simp [hentry])]
      · rw [if_neg (by simp [hlater, hentry]), if_neg hlater,
          List.filter_cons_of_pos (by simp [hentry]), List.cons_append]

/-! ## Insertions -/

variable {c : Cache} {spec : String} {answer : Answer}

theorem contains_iff : c.contains spec = true ↔ spec ∈ c.keys := by
  simp [contains, keys]

theorem length_keys : c.keys.length = c.size := List.length_map _

/-- There is room for a specifier that is remembered already. -/
theorem makeRoom_of_mem (h : spec ∈ c.keys) : c.makeRoom spec = c := by
  rw [makeRoom, contains_iff.2 h, Bool.not_true, Bool.and_false, if_neg Bool.false_ne_true]

theorem makeRoom_of_lt (h : c.size < c.capacity) : c.makeRoom spec = c := by
  rw [makeRoom, decide_eq_false (Nat.not_le.2 h), Bool.false_and, if_neg Bool.false_ne_true]

theorem makeRoom_of_full (hfull : c.capacity ≤ c.size) (h : spec ∉ c.keys) :
    c.makeRoom spec = { c with entries := c.entries.drop c.batch } := by
  rw [makeRoom, if_pos]
  simp [hfull, mt contains_iff.1 h]

/-- Room is made at the old end. -/
theorem makeRoom_suffix (c : Cache) (spec : String) :
    (c.makeRoom spec).entries <:+ c.entries := by
  unfold makeRoom
  split
  · exact List.drop_suffix _ _
  · exact List.suffix_refl _

theorem capacity_insert : (c.insert spec answer).capacity = c.capacity := by
  unfold insert makeRoom
  split <;> rfl

theorem keys_insert (h : c.keys.Nodup) :
    (c.insert spec answer).keys = (c.makeRoom spec).keys.erase spec ++ [spec] := by
  have hnodup : (c.makeRoom spec).keys.Nodup :=
    h.sublist ((makeRoom_suffix c spec).map Prod.fst).sublist
  rw [hnodup.erase_eq_filter, keys, insert, List.map_append, keys, List.filter_map]
  rfl

/-- A specifier that is remembered becomes the newest, and nothing goes. -/
theorem keys_insert_of_mem (hnodup : c.keys.Nodup) (h : spec ∈ c.keys) :
    (c.insert spec answer).keys = c.keys.erase spec ++ [spec] := by
  rw [keys_insert hnodup, makeRoom_of_mem h]

theorem keys_insert_of_lt (hnodup : c.keys.Nodup) (h : spec ∉ c.keys) (hlt : c.size < c.capacity) :
    (c.insert spec answer).keys = c.keys ++ [spec] := by
  rw [keys_insert hnodup, makeRoom_of_lt hlt, List.erase_of_not_mem h]

/-- A new specifier drives the oldest out of a full cache. -/
theorem keys_insert_of_full (hnodup : c.keys.Nodup) (h : spec ∉ c.keys)
    (hfull : c.capacity ≤ c.size) :
    (c.insert spec answer).keys = c.keys.drop c.batch ++ [spec] := by
  have hkeys : (c.makeRoom spec).keys = c.keys.drop c.batch := by
    rw [makeRoom_of_full hfull h, keys, keys, List.map_drop]
  rw [keys_insert hnodup, hkeys, List.erase_of_not_mem (mt List.mem_of_mem_drop h)]

theorem get?_insert : (c.insert spec answer).get? spec = some answer := by
  have hold : ((c.makeRoom spec).entries.filter fun entry => entry.1 != spec).lookup spec = none := by
    apply lookup_eq_none_of_not_mem
    simp
  rw [get?, insert, List.lookup_append, hold, Option.none_or, List.lookup_cons_self]

theorem mem_entries_of_get? (h : c.get? spec = some answer) : (spec, answer) ∈ c.entries := by
  obtain ⟨front, back, hentries, -⟩ := List.lookup_eq_some_iff.1 h
  rw [hentries]
  exact List.mem_append_right _ List.mem_cons_self

theorem mem_entries_insert {entry : String × Answer}
    (h : entry ∈ (c.insert spec answer).entries) : entry ∈ c.entries ∨ entry = (spec, answer) := by
  rcases List.mem_append.1 h with hold | hnew
  · exact Or.inl ((makeRoom_suffix c spec).subset (List.mem_filter.1 hold).1)
  · exact Or.inr (List.mem_singleton.1 hnew)

/-! ## What every operation keeps -/

/-- A cache of this capacity, after these insertions since the last clear: its entries are the newest
    of the latest ones, in their order. -/
structure Retains (capacity : Nat) (c : Cache) (log : List (String × Answer)) : Prop where
  capacity_eq : c.capacity = max capacity 1
  size_le : c.size ≤ c.capacity
  entries_suffix : c.entries <:+ latest log

theorem retains_ofCapacity (capacity : Nat) : Retains capacity (ofCapacity capacity) [] :=
  ⟨rfl, Nat.zero_le _, List.suffix_refl _⟩

namespace Retains

variable {capacity : Nat} {log : List (String × Answer)}

theorem keys_suffix (h : Retains capacity c log) : c.keys <:+ (log.map Prod.fst).dedup := by
  rw [← map_fst_latest]
  exact h.entries_suffix.map Prod.fst

theorem nodup (h : Retains capacity c log) : c.keys.Nodup :=
  (List.nodup_dedup _).sublist h.keys_suffix.sublist

/-- An answer is the last one inserted, or there is none. -/
theorem get?_eq (h : Retains capacity c log) (spec : String) :
    c.get? spec = if spec ∈ c.keys then log.reverse.lookup spec else none := by
  by_cases hspec : spec ∈ c.keys
  · obtain ⟨older, holder⟩ := h.entries_suffix
    have hnodup := nodup_latest log
    rw [← holder, List.map_append] at hnodup
    have hnot : spec ∉ older.map Prod.fst := fun hmem =>
      (List.nodup_append.1 hnodup).2.2 spec hmem spec hspec rfl
    rw [if_pos hspec, get?, ← lookup_latest, ← holder, List.lookup_append,
      lookup_eq_none_of_not_mem hnot, Option.none_or]
  · rw [if_neg hspec, get?, lookup_eq_none_of_not_mem hspec]

/-- What is remembered stays as long as anything older does. -/
theorem mem_of_older (h : Retains capacity c log) {older newer : String}
    (horder : [older, newer].Sublist (log.map Prod.fst).dedup) (holder : older ∈ c.keys) :
    newer ∈ c.keys := by
  obtain ⟨gone, hgone⟩ := h.keys_suffix
  have hnodup := List.nodup_dedup (log.map Prod.fst)
  rw [← hgone] at horder hnodup
  obtain ⟨front, back, hpair, hfront, hback⟩ := List.sublist_append_iff.1 horder
  cases front with
  | nil =>
    rw [List.nil_append] at hpair
    exact hback.mem (hpair ▸ List.mem_cons_of_mem older List.mem_cons_self)
  | cons first front =>
    obtain ⟨rfl, -⟩ := List.cons.inj hpair
    exact absurd rfl ((List.nodup_append.1 hnodup).2.2 _ (hfront.mem List.mem_cons_self) _ holder)

theorem size_insert_le (h : Retains capacity c log) :
    (c.insert spec answer).size ≤ c.capacity := by
  have hsize := h.size_le
  have hcapacity := h.capacity_eq
  rw [← length_keys]
  by_cases hmem : spec ∈ c.keys
  · rw [keys_insert_of_mem h.nodup hmem, List.length_append, List.length_erase_of_mem hmem,
      List.length_singleton, length_keys]
    omega
  · by_cases hlt : c.size < c.capacity
    · rw [keys_insert_of_lt h.nodup hmem hlt, List.length_append, length_keys]
      exact hlt
    · rw [keys_insert_of_full h.nodup hmem (Nat.not_lt.1 hlt), List.length_append,
        List.length_drop, List.length_singleton, length_keys, batch]
      omega

theorem insert (h : Retains capacity c log) (spec : String) (answer : Answer) :
    Retains capacity (c.insert spec answer) (log ++ [(spec, answer)]) where
  capacity_eq := by rw [capacity_insert, h.capacity_eq]
  size_le := by
    rw [capacity_insert]
    exact h.size_insert_le
  entries_suffix := by
    obtain ⟨gone, hgone⟩ :=
      ((makeRoom_suffix c spec).trans h.entries_suffix).filter fun old => old.1 != spec
    exact ⟨gone, by rw [latest_concat, Cache.insert, ← List.append_assoc, hgone]⟩

theorem clear (h : Retains capacity c log) : Retains capacity c.clear [] :=
  ⟨h.capacity_eq, Nat.zero_le _, List.suffix_refl _⟩

end Retains

/-! ## Runs -/

/-- The insertions since the last clear, after one more operation. -/
def Op.record (log : List (String × Answer)) : Op → List (String × Answer)
  | .insert spec answer => log ++ [(spec, answer)]
  | .clear => []
  | .get _ | .isEmpty | .clone => log

end Cache

namespace SharedCache

open Cache

/-- An empty cache with one handle. -/
def ofCapacity (capacity : Nat) : SharedCache := { cache := .ofCapacity capacity }

/-- The insertions since the last clear, the newest last, after operations that follow a log. -/
def insertions (s : SharedCache) (log : List (String × Answer)) :
    List (Nat × Op) → List (String × Answer)
  | [] => log
  | (handle, op) :: steps =>
    (s.apply handle op).2.insertions (if handle < s.handles then op.record log else log) steps

variable {capacity : Nat} {s : SharedCache} {log : List (String × Answer)}

theorem apply_of_lt {handle : Nat} (hhandle : handle < s.handles) (spec : String) :
    s.apply handle (.get spec) = (.answer (s.cache.get? spec), s) ∧
      ∀ answer, (s.apply handle (.insert spec answer)).2.cache = s.cache.insert spec answer := by
  simp only [apply, if_pos hhandle, implies_true, and_self]

theorem retains_apply (h : Retains capacity s.cache log) (handle : Nat) (op : Op) :
    Retains capacity (s.apply handle op).2.cache
      (if handle < s.handles then op.record log else log) := by
  unfold apply
  by_cases hhandle : handle < s.handles
  · rw [if_pos hhandle, if_pos hhandle]
    cases op with
    | insert spec answer => exact h.insert spec answer
    | clear => exact h.clear
    | get spec | isEmpty | clone => exact h
  · rw [if_neg hhandle, if_neg hhandle]
    exact h

theorem retains_run (h : Retains capacity s.cache log) (steps : List (Nat × Op)) :
    Retains capacity (s.run steps).cache (s.insertions log steps) := by
  induction steps generalizing s log with
  | nil => exact h
  | cons step steps ih => exact ih (retains_apply h step.1 step.2)

/-- **A cache keeps the newest.** After any operations through any handles, it holds no more than its
    capacity, its specifiers are the last ones in the order of their last insertion since the last
    clear (`List.dedup` keeps the last of equal elements), and each has the answer that was inserted
    last. A table in no order, which keeps the times of its insertions and finds the oldest by them,
    holds the same after the same operations, if each comes later than the one before. An insertion is
    always remembered; it drives nothing out if its specifier was there or a place is free, and the
    oldest tenth of a full cache if not. -/
theorem run_keeps_newest (capacity : Nat) (steps : List (Nat × Op)) :
    let s := (ofCapacity capacity).run steps
    let log := (ofCapacity capacity).insertions [] steps
    let full := max capacity 1
    s.cache.size ≤ full ∧
    s.cache.keys <:+ (log.map Prod.fst).dedup ∧
    (∀ older newer, [older, newer].Sublist (log.map Prod.fst).dedup → older ∈ s.cache.keys →
      newer ∈ s.cache.keys) ∧
    (∀ walk clock, (∀ rows, List.Perm (walk rows) rows) → (∀ n, clock n < clock (n + 1)) →
      let t := (ofCapacity capacity).table walk clock (.ofCapacity capacity) steps
      t.size = s.cache.size ∧ (t.byAge walk).map Prod.fst = s.cache.keys ∧
        ∀ spec, t.get? spec = s.cache.get? spec) ∧
    ∀ handle < s.handles, ∀ spec,
      s.apply handle (.get spec) =
        (.answer (if spec ∈ s.cache.keys then log.reverse.lookup spec else none), s) ∧
      ∀ answer,
        let c := (s.apply handle (.insert spec answer)).2.cache
        c.get? spec = some answer ∧
        (spec ∈ s.cache.keys → c.keys.Perm s.cache.keys) ∧
        (spec ∉ s.cache.keys → s.cache.size < full → c.keys = s.cache.keys ++ [spec]) ∧
        (spec ∉ s.cache.keys → s.cache.size = full →
          c.keys = s.cache.keys.drop (max 1 (full / 10)) ++ [spec] ∧
          c.size = full - max 1 (full / 10) + 1) := by
  intro s log full
  have h : Retains capacity s.cache log := retains_run (retains_ofCapacity capacity) steps
  have hcapacity : s.cache.capacity = full := h.capacity_eq
  refine ⟨hcapacity ▸ h.size_le, h.keys_suffix, fun older newer => h.mem_of_older, ?_, ?_⟩
  · intro walk clock hwalk hclock t
    obtain ⟨now, rows, ht⟩ := represents_run (s := ofCapacity capacity) hwalk hclock
      (CacheTable.represents_ofCapacity (clock 0) capacity) steps
    refine ⟨ht.size_eq, ?_, ht.get?_eq⟩
    rw [ht.byAge_eq hwalk, keys, ← ht.entries_eq, List.map_map, List.map_map]
    rfl
  intro handle hhandle spec
  obtain ⟨hget, hinsert⟩ := apply_of_lt hhandle spec
  refine ⟨by rw [hget, h.get?_eq], ?_⟩
  intro answer c
  have hc : c = s.cache.insert spec answer := hinsert answer
  rw [hc]
  refine ⟨get?_insert, ?_, ?_, ?_⟩
  · intro hmem
    rw [keys_insert_of_mem h.nodup hmem]
    exact List.perm_append_comm.trans (List.perm_cons_erase hmem).symm
  · intro hmem hlt
    exact keys_insert_of_lt h.nodup hmem (hcapacity ▸ hlt)
  · intro hmem hfull
    have hkeys : (s.cache.insert spec answer).keys =
        s.cache.keys.drop (max 1 (full / 10)) ++ [spec] := by
      rw [keys_insert_of_full h.nodup hmem (Nat.le_of_eq (hcapacity.trans hfull.symm)), batch,
        hcapacity]
    refine ⟨hkeys, ?_⟩
    rw [← length_keys, hkeys, List.length_append, List.length_drop, length_keys, hfull]
    rfl

/-- Two handles of a cache for two answers. The one that was overwritten outlives the one that came
    after its first insertion, and the one that was driven out can come back. -/
theorem overwritten_answer_is_kept :
    let s := (ofCapacity 2).run [(0, .insert "a" (.error "first")), (0, .clone),
      (1, .insert "b" (.error "only")), (0, .insert "a" (.error "last")),
      (1, .insert "c" (.error "new"))]
    s.apply 1 (.get "a") = (.answer (some (.error "last")), s) ∧
      s.apply 0 (.get "b") = (.answer none, s) ∧
      (s.apply 1 (.insert "b" (.error "again"))).2.cache.size = 2 := by
  intro s
  obtain ⟨-, -, -, -, h⟩ := run_keeps_newest 2 [(0, .insert "a" (.error "first")), (0, .clone),
    (1, .insert "b" (.error "only")), (0, .insert "a" (.error "last")),
    (1, .insert "c" (.error "new"))]
  refine ⟨(h 1 (by decide) "a").1, (h 0 (by decide) "b").1, ?_⟩
  exact (((h 1 (by decide) "b").2 (.error "again")).2.2.2 (by decide) rfl).2

end SharedCache

end DepSpec
