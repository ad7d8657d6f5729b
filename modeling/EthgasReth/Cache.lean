import Mathlib
import EthgasReth.Primitives

/-!
# The flashblock cache

`cache.rs`: flashblocks that arrived before their parent block, by block number
and index.  Every operation is described by what `cached` reads afterwards, and
a drain by the flashblocks it returns.
-/

set_option autoImplicit false

namespace EthgasReth.Cache

open EthgasReth.Primitives

def maxCacheAheadBlocks : Nat := 5

structure FlashblockCache where
  entries : HashMap Nat (HashMap Nat FlashBlock)
  latestCanonical : Option Nat

namespace FlashblockCache

def new (latestCanonical : Nat) : FlashblockCache :=
  { entries := ∅, latestCanonical := some latestCanonical }

def cached (cache : FlashblockCache) (blockNumber : Nat) (index : Nat) :
    Option FlashBlock :=
  (cache.entries.lookup blockNumber).bind fun byIndex => byIndex.lookup index

def hasFlashblock (cache : FlashblockCache) (blockNumber : Nat) (index : Nat) : Bool :=
  (cache.cached blockNumber index).isSome

def isCacheable (cache : FlashblockCache) (blockNumber : Nat) : Bool :=
  match cache.latestCanonical with
  | some canonical => blockNumber ≤ canonical + maxCacheAheadBlocks + 1
  | none => false

/-- Returns whether the flashblock was cached, and the cache after the call. -/
def insert (cache : FlashblockCache) (flashblock : FlashBlock) : Bool × FlashblockCache :=
  if ¬ cache.isCacheable flashblock.blockNumber then (false, cache)
  else
    let minBlockNumberToRetain := flashblock.blockNumber - maxCacheAheadBlocks
    let retained := cache.entries.retain fun number => minBlockNumberToRetain < number
    let byIndex := (retained.lookup flashblock.blockNumber).getD ∅
    (true, { cache with
      entries := retained.insert flashblock.blockNumber
        (byIndex.insert flashblock.index flashblock) })

def drain (cache : FlashblockCache) (blockNumber : Nat) :
    List FlashBlock × FlashblockCache :=
  match cache.entries.lookup blockNumber with
  | none => ([], cache)
  | some byIndex =>
      (byIndex.values.insertionSort fun a b => a.index ≤ b.index,
        { cache with entries := cache.entries.erase blockNumber })

def updateCanonical (cache : FlashblockCache) (blockNumber : Nat) : FlashblockCache :=
  { latestCanonical := some blockNumber
    entries := cache.entries.retain fun number => blockNumber < number }

/-! ## What each operation leaves cached -/

@[simp] theorem cached_new (canonical number : Nat) (index : Nat) :
    (new canonical).cached number index = none := by
  simp [cached, new]

theorem cached_updateCanonical (cache : FlashblockCache) (canonical number : Nat)
    (index : Nat) :
    (cache.updateCanonical canonical).cached number index =
      if canonical < number then cache.cached number index else none := by
  simp only [cached, updateCanonical, HashMap.lookup_retain, decide_eq_true_eq]
  split <;> rfl

theorem lookup_drain (cache : FlashblockCache) (drained number : Nat) :
    (cache.drain drained).2.entries.lookup number =
      if number = drained then none else cache.entries.lookup number := by
  unfold drain
  cases found : cache.entries.lookup drained with
  | none =>
      by_cases same : number = drained
      · rw [if_pos same, same, found]
      · rw [if_neg same]
  | some byIndex =>
      by_cases same : number = drained
      · rw [if_pos same, same, AList.lookup_erase]
      · rw [if_neg same, AList.lookup_erase_ne same]

theorem cached_drain (cache : FlashblockCache) (drained number : Nat) (index : Nat) :
    (cache.drain drained).2.cached number index =
      if number = drained then none else cache.cached number index := by
  simp only [cached, lookup_drain]
  split <;> rfl

theorem insert_not_cacheable (cache : FlashblockCache) (flashblock : FlashBlock)
    (far : cache.isCacheable flashblock.blockNumber = false) :
    cache.insert flashblock = (false, cache) := by
  simp [insert, far]

theorem insert_answer (cache : FlashblockCache) (flashblock : FlashBlock) :
    (cache.insert flashblock).1 = cache.isCacheable flashblock.blockNumber := by
  unfold insert
  cases cache.isCacheable flashblock.blockNumber <;> rfl

/-- An accepted flashblock replaces the entry at its own index; blocks at
`maxCacheAheadBlocks` or more below it are evicted. -/
theorem cached_insert (cache : FlashblockCache) (flashblock : FlashBlock)
    (near : cache.isCacheable flashblock.blockNumber = true) (number : Nat)
    (index : Nat) :
    (cache.insert flashblock).2.cached number index =
      if number = flashblock.blockNumber ∧ index = flashblock.index then some flashblock
      else if flashblock.blockNumber - maxCacheAheadBlocks < number then
        cache.cached number index
      else none := by
  simp only [insert, near, not_true_eq_false, if_false, cached]
  by_cases sameBlock : number = flashblock.blockNumber
  · subst sameBlock
    rw [AList.lookup_insert, Option.bind_some]
    by_cases sameIndex : index = flashblock.index
    · subst sameIndex
      simp
    · rw [AList.lookup_insert_ne sameIndex, HashMap.lookup_retain]
      by_cases kept : flashblock.blockNumber - maxCacheAheadBlocks < flashblock.blockNumber
      · simp only [kept, decide_true, if_true, sameIndex, and_false, if_false]
        cases cache.entries.lookup flashblock.blockNumber <;> simp
      · simp [kept, sameIndex]
  · rw [AList.lookup_insert_ne sameBlock, HashMap.lookup_retain]
    by_cases kept : flashblock.blockNumber - maxCacheAheadBlocks < number
    · simp [kept, sameBlock]
    · simp [kept, sameBlock]

@[simp] theorem latestCanonical_insert (cache : FlashblockCache) (flashblock : FlashBlock) :
    (cache.insert flashblock).2.latestCanonical = cache.latestCanonical := by
  unfold insert
  split <;> rfl

@[simp] theorem latestCanonical_drain (cache : FlashblockCache) (drained : Nat) :
    (cache.drain drained).2.latestCanonical = cache.latestCanonical := by
  unfold drain
  split <;> rfl

/-! ## What a drain returns -/

theorem mem_drain (cache : FlashblockCache) (number : Nat) (flashblock : FlashBlock) :
    flashblock ∈ (cache.drain number).1 ↔ ∃ index, cache.cached number index = some flashblock := by
  unfold drain
  cases found : cache.entries.lookup number with
  | none => simp [cached, found]
  | some byIndex => simp [cached, found, HashMap.mem_values]

def Stores (P : Nat → Nat → FlashBlock → Prop) (cache : FlashblockCache) : Prop :=
  ∀ number index flashblock, cache.cached number index = some flashblock →
    P number index flashblock

section Stores

variable {P : Nat → Nat → FlashBlock → Prop} {cache : FlashblockCache}

theorem stores_new (canonical : Nat) : (new canonical).Stores P := by
  intro number index flashblock found
  simp at found

theorem Stores.insert (stores : cache.Stores P) {flashblock : FlashBlock}
    (holds : P flashblock.blockNumber flashblock.index flashblock) :
    (cache.insert flashblock).2.Stores P := by
  intro number index other found
  cases near : cache.isCacheable flashblock.blockNumber with
  | false =>
      rw [insert_not_cacheable cache flashblock near] at found
      exact stores number index other found
  | true =>
      rw [cached_insert cache flashblock near] at found
      split at found
      · rename_i here
        cases found
        rw [here.1, here.2]
        exact holds
      · split at found
        · exact stores number index other found
        · cases found

theorem Stores.updateCanonical (stores : cache.Stores P) (canonical : Nat) :
    (cache.updateCanonical canonical).Stores P := by
  intro number index other found
  rw [cached_updateCanonical] at found
  split at found
  · exact stores number index other found
  · cases found

theorem Stores.drain (stores : cache.Stores P) (drained : Nat) :
    (cache.drain drained).2.Stores P := by
  intro number index other found
  rw [cached_drain] at found
  split at found
  · cases found
  · exact stores number index other found

end Stores

def KeysMatch : FlashblockCache → Prop :=
  Stores fun number index flashblock =>
    flashblock.blockNumber = number ∧ flashblock.index = index

section KeysMatch

variable {cache : FlashblockCache}

theorem drain_nodup (keys : cache.KeysMatch) (number : Nat) :
    (cache.drain number).1.Nodup := by
  unfold FlashblockCache.drain
  cases found : cache.entries.lookup number with
  | none => simp
  | some byIndex =>
      have distinct : byIndex.values.Nodup := by
        refine List.Nodup.of_map (·.index) ?_
        have sameKeys : byIndex.values.map (·.index) = byIndex.keys := by
          simp only [HashMap.values, AList.keys, List.keys, List.map_map]
          apply List.map_congr_left
          intro entry member
          have stored : cache.cached number entry.1 = some entry.2 := by
            simp only [cached, found, Option.bind_some]
            exact AList.mem_lookup_iff.mpr member
          exact (keys number entry.1 entry.2 stored).2
        rw [sameKeys]
        exact byIndex.keys_nodup
      exact ((List.perm_insertionSort _ _).nodup_iff).mpr distinct

theorem drain_sorted (number : Nat) :
    (cache.drain number).1.Pairwise fun a b => a.index ≤ b.index := by
  unfold FlashblockCache.drain
  cases cache.entries.lookup number with
  | none => simp
  | some byIndex =>
      have total : Std.Total fun a b : FlashBlock => a.index ≤ b.index := ⟨fun a b => le_total _ _⟩
      have trans : IsTrans FlashBlock fun a b => a.index ≤ b.index := ⟨fun a b c => le_trans⟩
      exact List.pairwise_insertionSort _ _

theorem drain_eq (keys : cache.KeysMatch) (number : Nat) (expected : List FlashBlock)
    (increasing : expected.Pairwise fun a b => a.index < b.index)
    (members : ∀ flashblock,
      flashblock ∈ expected ↔ ∃ index, cache.cached number index = some flashblock) :
    (cache.drain number).1 = expected := by
  have distinct : expected.Nodup :=
    increasing.imp fun less same => by rw [same] at less; exact lt_irrefl _ less
  have perm : List.Perm (cache.drain number).1 expected := by
    rw [List.perm_ext_iff_of_nodup (drain_nodup keys number) distinct]
    intro flashblock
    rw [mem_drain, members]
  refine perm.eq_of_pairwise ?_ (drain_sorted number) (increasing.imp le_of_lt)
  intro a b first second forth back
  obtain ⟨i, storedA⟩ := (mem_drain cache number a).mp first
  obtain ⟨j, storedB⟩ := (members b).mp second
  have same : i = j := by
    rw [← (keys number i a storedA).2, ← (keys number j b storedB).2]
    exact le_antisymm forth back
  subst same
  rw [storedA] at storedB
  exact Option.some.inj storedB

end KeysMatch

end FlashblockCache

end EthgasReth.Cache
