import EthgasReth.Cache
import EthgasReth.Reference

/-!
# The flashblock cache over its history

Any sequence of inserts, drains and canonical updates.  What is cached for a block and an
index is the flashblock that was accepted there last, unless the block has been drained
or evicted since.  The numbers of the cached blocks stay within the window above the
canonical block as long as no update moves the window away from below a cached block:
an insert looks at the far end of the window, an update only at the near one.
-/

set_option autoImplicit false

namespace EthgasReth.CacheHistory

open EthgasReth.Primitives
open EthgasReth.Cache
open EthgasReth.Cache.FlashblockCache

/-! ## Histories -/

inductive Operation where
  | insert (flashblock : FlashBlock)
  | drain (blockNumber : Nat)
  | updateCanonical (blockNumber : Nat)

def Operation.apply (cache : FlashblockCache) : Operation → FlashblockCache
  | .insert flashblock => (cache.insert flashblock).2
  | .drain blockNumber => (cache.drain blockNumber).2
  | .updateCanonical blockNumber => cache.updateCanonical blockNumber

def run (start : Nat) (history : List Operation) : FlashblockCache :=
  history.foldl Operation.apply (FlashblockCache.new start)

/-- Every call meets the condition in the cache that it finds. -/
def Meets (condition : FlashblockCache → Operation → Prop) (start : Nat)
    (history : List Operation) : Prop :=
  ∀ before operation after, history = before ++ operation :: after →
    condition (run start before) operation

theorem run_snoc (start : Nat) (history : List Operation) (operation : Operation) :
    run start (history ++ [operation]) = operation.apply (run start history) := by
  simp [run]

/-- The places at which a longer history can be split. -/
theorem snoc_split {history before after : List Operation} {last operation : Operation}
    (split : history ++ [last] = before ++ operation :: after) :
    (before = history ∧ operation = last ∧ after = []) ∨
      ∃ rest, after = rest ++ [last] ∧ history = before ++ operation :: rest := by
  rcases List.eq_nil_or_concat after with rfl | ⟨rest, final, rfl⟩
  · obtain ⟨sameHistory, sameLast⟩ := List.append_inj' split rfl
    cases sameLast
    exact Or.inl ⟨sameHistory.symm, rfl, rfl⟩
  · have whole : history ++ [last] = (before ++ operation :: rest) ++ [final] := by
      simpa using split
    obtain ⟨sameHistory, sameLast⟩ := List.append_inj' whole rfl
    cases sameLast
    exact Or.inr ⟨rest, by simp, sameHistory⟩

theorem meets_snoc {condition : FlashblockCache → Operation → Prop} {start : Nat}
    {history : List Operation} {operation : Operation} :
    Meets condition start (history ++ [operation]) ↔
      Meets condition start history ∧ condition (run start history) operation := by
  constructor
  · intro meets
    refine ⟨?_, meets history operation [] rfl⟩
    intro before other after split
    exact meets before other (after ++ [operation]) (by simp [split])
  · rintro ⟨earlier, last⟩ before other after split
    rcases snoc_split split with ⟨rfl, rfl, rfl⟩ | ⟨rest, rfl, shorter⟩
    · exact last
    · exact earlier before other rest shorter

theorem run_canonical (start : Nat) (history : List Operation) :
    ∃ canonical, (run start history).latestCanonical = some canonical := by
  induction history using List.reverseRecOn with
  | nil => exact ⟨start, rfl⟩
  | append_singleton history operation ih =>
      rw [run_snoc]
      cases operation with
      | insert flashblock =>
          simp only [Operation.apply, latestCanonical_insert]
          exact ih
      | drain blockNumber =>
          simp only [Operation.apply, latestCanonical_drain]
          exact ih
      | updateCanonical blockNumber => exact ⟨blockNumber, rfl⟩

/-! ## The window -/

/-- The cached block numbers lie in the window above the canonical block, there are at most
six of them, and what a drain returns comes from inside the window. -/
def InsideWindow (cache : FlashblockCache) : Prop :=
  ∀ canonical, cache.latestCanonical = some canonical →
    (∀ number ∈ cache.entries.keys,
      canonical < number ∧ number ≤ canonical + maxCacheAheadBlocks + 1) ∧
    cache.entries.keys.length ≤ 6 ∧
    ∀ number, ∀ flashblock ∈ (cache.drain number).1,
      canonical < number ∧ number ≤ canonical + maxCacheAheadBlocks + 1

def Above (cache : FlashblockCache) : Operation → Prop
  | .insert flashblock => ∀ canonical, cache.latestCanonical = some canonical →
      canonical < flashblock.blockNumber
  | _ => True

/-- The canonical block is not moved to where a cached block is beyond its window. -/
def InReach (cache : FlashblockCache) : Operation → Prop
  | .updateCanonical blockNumber => ∀ number ∈ cache.entries.keys,
      number ≤ blockNumber + maxCacheAheadBlocks + 1
  | _ => True

theorem mem_keys {cache : FlashblockCache} {number : Nat} :
    number ∈ cache.entries.keys ↔ (cache.entries.lookup number).isSome := by
  rw [AList.lookup_isSome, AList.mem_keys]

theorem mem_keys_updateCanonical {cache : FlashblockCache} {canonical number : Nat} :
    number ∈ (cache.updateCanonical canonical).entries.keys ↔
      canonical < number ∧ number ∈ cache.entries.keys := by
  rw [mem_keys, mem_keys, updateCanonical, HashMap.lookup_retain]
  by_cases above : canonical < number <;> simp [above]

theorem mem_keys_drain {cache : FlashblockCache} {drained number : Nat} :
    number ∈ (cache.drain drained).2.entries.keys ↔
      number ≠ drained ∧ number ∈ cache.entries.keys := by
  rw [mem_keys, mem_keys, lookup_drain]
  by_cases same : number = drained <;> simp [same]

theorem mem_keys_insert {cache : FlashblockCache} {flashblock : FlashBlock} {number : Nat}
    (near : cache.isCacheable flashblock.blockNumber = true) :
    number ∈ (cache.insert flashblock).2.entries.keys ↔
      number = flashblock.blockNumber ∨
        (flashblock.blockNumber - maxCacheAheadBlocks < number ∧ number ∈ cache.entries.keys) := by
  rw [mem_keys, mem_keys]
  simp only [FlashblockCache.insert, near, not_true_eq_false, if_false]
  by_cases same : number = flashblock.blockNumber
  · subst same
    simp
  · rw [AList.lookup_insert_ne same, HashMap.lookup_retain]
    by_cases kept : flashblock.blockNumber - maxCacheAheadBlocks < number <;> simp [kept, same]

def KeysInside (cache : FlashblockCache) : Prop :=
  ∀ canonical, cache.latestCanonical = some canonical → ∀ number ∈ cache.entries.keys,
    canonical < number ∧ number ≤ canonical + maxCacheAheadBlocks + 1

theorem insideWindow_iff {cache : FlashblockCache} : InsideWindow cache ↔ KeysInside cache := by
  constructor
  · intro inside canonical isCanonical
    exact (inside canonical isCanonical).1
  · intro inside canonical isCanonical
    have bounds := inside canonical isCanonical
    refine ⟨bounds, ?_, ?_⟩
    · have within : cache.entries.keys.toFinset ⊆
          Finset.Ioc canonical (canonical + maxCacheAheadBlocks + 1) := by
        intro number member
        rw [Finset.mem_Ioc]
        exact bounds number (List.mem_toFinset.mp member)
      have few := Finset.card_le_card within
      rw [List.toFinset_card_of_nodup cache.entries.keys_nodup, Nat.card_Ioc] at few
      change _ ≤ canonical + 5 + 1 - canonical at few
      omega
    · intro number flashblock member
      apply bounds number
      obtain ⟨index, found⟩ := (mem_drain cache number flashblock).mp member
      rw [mem_keys]
      obtain ⟨byIndex, isBucket, -⟩ := Option.bind_eq_some_iff.mp found
      simp [isBucket]

theorem KeysInside.apply {cache : FlashblockCache} {operation : Operation}
    (inside : KeysInside cache) (above : Above cache operation) (reach : InReach cache operation) :
    KeysInside (operation.apply cache) := by
  cases operation with
  | insert flashblock =>
      intro canonical isCanonical number member
      simp only [Operation.apply, latestCanonical_insert] at isCanonical
      cases near : cache.isCacheable flashblock.blockNumber with
      | false =>
          rw [Operation.apply, insert_not_cacheable cache flashblock near] at member
          exact inside canonical isCanonical number member
      | true =>
          rcases (mem_keys_insert near).mp member with rfl | ⟨-, wasCached⟩
          · refine ⟨above canonical isCanonical, ?_⟩
            simpa [isCacheable, isCanonical] using near
          · exact inside canonical isCanonical number wasCached
  | drain blockNumber =>
      intro canonical isCanonical number member
      simp only [Operation.apply, latestCanonical_drain] at isCanonical
      exact inside canonical isCanonical number (mem_keys_drain.mp member).2
  | updateCanonical blockNumber =>
      intro canonical isCanonical number member
      cases isCanonical
      obtain ⟨isAbove, wasCached⟩ := mem_keys_updateCanonical.mp member
      exact ⟨isAbove, reach number wasCached⟩

theorem run_keysInside {start : Nat} {history : List Operation}
    (above : Meets Above start history) (reach : Meets InReach start history) :
    KeysInside (run start history) := by
  induction history using List.reverseRecOn with
  | nil =>
      intro canonical _ number member
      simp [run, FlashblockCache.new] at member
  | append_singleton history operation ih =>
      rw [meets_snoc] at above reach
      rw [run_snoc]
      exact (ih above.1 reach.1).apply above.2 reach.2

/-- The cache is inside its window all along a history exactly when no canonical update is
made while a block beyond the new window is cached. -/
theorem cache_inside_window_iff (start : Nat) (history : List Operation)
    (above : Meets Above start history) :
    (∀ before after, history = before ++ after → InsideWindow (run start before)) ↔
      Meets InReach start history := by
  constructor
  · intro inside before operation after split
    cases operation with
    | insert | drain => trivial
    | updateCanonical blockNumber =>
        intro number member
        have next := inside (before ++ [.updateCanonical blockNumber]) after (by simp [split])
        rw [run_snoc] at next
        rcases Nat.lt_or_ge blockNumber number with isAbove | isBelow
        · exact ((next blockNumber rfl).1 number
            (mem_keys_updateCanonical.mpr ⟨isAbove, member⟩)).2
        · omega
  · intro reach before after split
    rw [insideWindow_iff]
    refine run_keysInside ?_ ?_
    · intro earlier operation later isSplit
      exact above earlier operation (later ++ after) (by simp [split, isSplit])
    · intro earlier operation later isSplit
      exact reach earlier operation (later ++ after) (by simp [split, isSplit])

/-- Updates that never move the canonical block back stay in reach. -/
theorem forward_inReach {start : Nat} {history : List Operation} (above : Meets Above start history)
    (forward : Meets (fun cache operation => ∀ blockNumber,
      operation = .updateCanonical blockNumber → ∀ canonical,
        cache.latestCanonical = some canonical → canonical ≤ blockNumber) start history) :
    Meets InReach start history := by
  induction history using List.reverseRecOn with
  | nil =>
      intro before operation after impossible
      simp at impossible
  | append_singleton history last ih =>
      rw [meets_snoc] at above forward ⊢
      have earlier := ih above.1 forward.1
      refine ⟨earlier, ?_⟩
      cases last with
      | insert | drain => trivial
      | updateCanonical blockNumber =>
          intro number member
          obtain ⟨canonical, isCanonical⟩ := run_canonical start history
          have bound := (run_keysInside above.1 earlier canonical isCanonical number member).2
          have higher := forward.2 blockNumber rfl canonical isCanonical
          omega

/-! ## A cache that is moved back -/

def flashblockOf (number index : Nat) : FlashBlock := Reference.flashblock 7 number index [] []

def movedOn : List Operation := [.insert (flashblockOf 16 0), .updateCanonical 11]

def movedBack : List Operation := [.insert (flashblockOf 16 0), .updateCanonical 5]

theorem meets_pair {condition : FlashblockCache → Operation → Prop} {start : Nat}
    {first second : Operation} (one : condition (FlashblockCache.new start) first)
    (two : condition (first.apply (FlashblockCache.new start)) second) :
    Meets condition start [first, second] := by
  have none : Meets condition start [] := by
    intro before operation after impossible
    simp at impossible
  have single : Meets condition start ([] ++ [first]) := meets_snoc.mpr ⟨none, one⟩
  exact meets_snoc.mpr ⟨single, two⟩

theorem cached_sixteen :
    ((FlashblockCache.new 10).insert (flashblockOf 16 0)).2.entries.keys = [16] := by
  decide

theorem cache_inside_window_iff_moved_on :
    Meets InReach 10 movedOn ∧
      ∀ before after, movedOn = before ++ after → InsideWindow (run 10 before) := by
  have above : Meets Above 10 movedOn := by
    refine meets_pair ?_ trivial
    intro canonical isCanonical
    cases isCanonical
    decide
  have reach : Meets InReach 10 movedOn := by
    refine meets_pair trivial ?_
    intro number member
    rw [Operation.apply, cached_sixteen, List.mem_singleton] at member
    rw [member]
    decide
  exact ⟨reach, (cache_inside_window_iff 10 movedOn above).mpr reach⟩

/-- The block stays cached, eleven above the canonical one. -/
theorem cached_beyond_window_after_move_back :
    ¬ ∀ (start : Nat) (history : List Operation), Meets Above start history →
      ∀ before after, history = before ++ after → InsideWindow (run start before) := by
  intro claim
  have above : Meets Above 10 movedBack := by
    refine meets_pair ?_ trivial
    intro canonical isCanonical
    cases isCanonical
    decide
  have inside := claim 10 movedBack above movedBack [] (by simp)
  have bounds := (inside 5 rfl).1 16 (by decide)
  exact absurd bounds.2 (by decide)

/-! ## What was accepted last -/

/-- The call takes out what is cached for the block, other than to return it. -/
def Evicts (cache : FlashblockCache) (number : Nat) : Operation → Prop
  | .insert flashblock => (cache.insert flashblock).1 = true ∧
      number ≤ flashblock.blockNumber - maxCacheAheadBlocks
  | .drain _ => False
  | .updateCanonical blockNumber => number ≤ blockNumber

def StoresAt (cache : FlashblockCache) (number index : Nat) (operation : Operation) : Prop :=
  ∃ flashblock, operation = .insert flashblock ∧
    (cache.insert flashblock).1 = true ∧
    flashblock.blockNumber = number ∧ flashblock.index = index

/-- The flashblock was accepted between the two parts of a history, and its block has been
neither drained nor evicted since. -/
structure Held (start : Nat) (before after : List Operation) (flashblock : FlashBlock) : Prop where
  accepted : ((run start before).insert flashblock).1 = true
  undrained : .drain flashblock.blockNumber ∉ after
  kept : ∀ middle operation rest, after = middle ++ operation :: rest →
    ¬ Evicts (run start (before ++ .insert flashblock :: middle)) flashblock.blockNumber operation

/-- No other flashblock was accepted in its place since. -/
def Newest (start : Nat) (before after : List Operation) (flashblock : FlashBlock) : Prop :=
  ∀ middle operation rest, after = middle ++ operation :: rest →
    ¬ StoresAt (run start (before ++ .insert flashblock :: middle)) flashblock.blockNumber
      flashblock.index operation

theorem cached_apply_stores {cache : FlashblockCache} {flashblock : FlashBlock}
    (accepted : (cache.insert flashblock).1 = true) :
    (Operation.apply cache (.insert flashblock)).cached flashblock.blockNumber flashblock.index =
      some flashblock := by
  rw [insert_answer] at accepted
  rw [Operation.apply, cached_insert cache flashblock accepted, if_pos ⟨rfl, rfl⟩]

theorem cached_apply_evicts {cache : FlashblockCache} {number index : Nat} {operation : Operation}
    (elsewhere : ¬ StoresAt cache number index operation)
    (gone : operation = .drain number ∨ Evicts cache number operation) :
    (operation.apply cache).cached number index = none := by
  cases operation with
  | insert flashblock =>
      rcases gone with impossible | ⟨accepted, below⟩
      · cases impossible
      · have other : ¬ (number = flashblock.blockNumber ∧ index = flashblock.index) := by
          rintro ⟨rfl, rfl⟩
          exact elsewhere ⟨flashblock, rfl, accepted, rfl, rfl⟩
        have near := (insert_answer cache flashblock).symm.trans accepted
        rw [Operation.apply, cached_insert cache flashblock near, if_neg other,
          if_neg (Nat.not_lt.mpr below)]
  | drain blockNumber =>
      rcases gone with same | impossible
      · cases same
        rw [Operation.apply, cached_drain, if_pos rfl]
      · exact impossible.elim
  | updateCanonical blockNumber =>
      rcases gone with impossible | below
      · cases impossible
      · rw [Operation.apply, cached_updateCanonical, if_neg (Nat.not_lt.mpr below)]

theorem cached_apply_keeps {cache : FlashblockCache} {number index : Nat} {operation : Operation}
    (elsewhere : ¬ StoresAt cache number index operation)
    (undrained : operation ≠ .drain number) (kept : ¬ Evicts cache number operation) :
    (operation.apply cache).cached number index = cache.cached number index := by
  cases operation with
  | insert flashblock =>
      cases near : cache.isCacheable flashblock.blockNumber with
      | false => rw [Operation.apply, insert_not_cacheable cache flashblock near]
      | true =>
          have accepted := (insert_answer cache flashblock).trans near
          have other : ¬ (number = flashblock.blockNumber ∧ index = flashblock.index) := by
            rintro ⟨rfl, rfl⟩
            exact elsewhere ⟨flashblock, rfl, accepted, rfl, rfl⟩
          have above : flashblock.blockNumber - maxCacheAheadBlocks < number := by
            by_contra below
            exact kept ⟨accepted, Nat.not_lt.mp below⟩
          rw [Operation.apply, cached_insert cache flashblock near, if_neg other, if_pos above]
  | drain blockNumber =>
      have other : number ≠ blockNumber := by
        rintro rfl
        exact undrained rfl
      rw [Operation.apply, cached_drain, if_neg other]
  | updateCanonical blockNumber =>
      have above : blockNumber < number := Nat.not_le.mp kept
      rw [Operation.apply, cached_updateCanonical, if_pos above]

/-- The latest of the flashblocks accepted for a block and an index, if the block has not
been emptied since. -/
def Latest (start : Nat) (history : List Operation) (number index : Nat) (flashblock : FlashBlock) :
    Prop :=
  flashblock.blockNumber = number ∧ flashblock.index = index ∧
    ∃ before after, history = before ++ .insert flashblock :: after ∧
      Held start before after flashblock ∧ Newest start before after flashblock

theorem held_snoc {start : Nat} {before after : List Operation} {flashblock : FlashBlock}
    {last : Operation} :
    Held start before (after ++ [last]) flashblock ↔
      Held start before after flashblock ∧ last ≠ .drain flashblock.blockNumber ∧
        ¬ Evicts (run start (before ++ .insert flashblock :: after)) flashblock.blockNumber last := by
  constructor
  · rintro ⟨accepted, undrained, kept⟩
    simp only [List.mem_append, List.mem_singleton, not_or] at undrained
    refine ⟨⟨accepted, undrained.1, ?_⟩, Ne.symm undrained.2, kept after last [] rfl⟩
    intro middle operation rest split
    exact kept middle operation (rest ++ [last]) (by simp [split])
  · rintro ⟨⟨accepted, undrained, kept⟩, notDrain, notEvict⟩
    refine ⟨accepted, ?_, ?_⟩
    · simp only [List.mem_append, List.mem_singleton, not_or]
      exact ⟨undrained, Ne.symm notDrain⟩
    · intro middle operation rest split
      rcases snoc_split split with ⟨rfl, rfl, rfl⟩ | ⟨others, rfl, shorter⟩
      · exact notEvict
      · exact kept middle operation others shorter

theorem newest_snoc {start : Nat} {before after : List Operation} {flashblock : FlashBlock}
    {last : Operation} :
    Newest start before (after ++ [last]) flashblock ↔
      Newest start before after flashblock ∧
        ¬ StoresAt (run start (before ++ .insert flashblock :: after)) flashblock.blockNumber
          flashblock.index last := by
  constructor
  · intro newest
    refine ⟨?_, newest after last [] rfl⟩
    intro middle operation rest split
    exact newest middle operation (rest ++ [last]) (by simp [split])
  · rintro ⟨newest, notStored⟩ middle operation rest split
    rcases snoc_split split with ⟨rfl, rfl, rfl⟩ | ⟨others, rfl, shorter⟩
    · exact notStored
    · exact newest middle operation others shorter

theorem latest_snoc {start : Nat} {history : List Operation} {last : Operation}
    {number index : Nat} {flashblock : FlashBlock} :
    Latest start (history ++ [last]) number index flashblock ↔
      (last = .insert flashblock ∧ StoresAt (run start history) number index last) ∨
        (Latest start history number index flashblock ∧ last ≠ .drain number ∧
          ¬ Evicts (run start history) number last ∧
          ¬ StoresAt (run start history) number index last) := by
  constructor
  · rintro ⟨rfl, rfl, before, after, split, held, newest⟩
    rcases snoc_split split with ⟨rfl, rfl, rfl⟩ | ⟨rest, rfl, shorter⟩
    · exact Or.inl ⟨rfl, flashblock, rfl, held.accepted, rfl, rfl⟩
    · rw [held_snoc, ← shorter] at held
      rw [newest_snoc, ← shorter] at newest
      exact Or.inr ⟨⟨rfl, rfl, before, rest, shorter, held.1, newest.1⟩, held.2.1, held.2.2,
        newest.2⟩
  · rintro (⟨rfl, other, isOther, accepted, isNumber, isIndex⟩ |
      ⟨⟨rfl, rfl, before, after, rfl, held, newest⟩, undrained, kept, elsewhere⟩)
    · cases isOther
      refine ⟨isNumber, isIndex, history, [], rfl, ⟨accepted, by simp, ?_⟩, ?_⟩
      · intro middle operation rest impossible
        simp at impossible
      · intro middle operation rest impossible
        simp at impossible
    · refine ⟨rfl, rfl, before, after ++ [last], by simp, ?_, ?_⟩
      · exact held_snoc.mpr ⟨held, undrained, kept⟩
      · exact newest_snoc.mpr ⟨newest, elsewhere⟩

/-- What is cached is what was accepted last. -/
theorem cached_run_iff (start : Nat) (history : List Operation) (number index : Nat)
    (flashblock : FlashBlock) :
    (run start history).cached number index = some flashblock ↔
      Latest start history number index flashblock := by
  induction history using List.reverseRecOn with
  | nil =>
      constructor
      · intro impossible
        simp [run] at impossible
      · rintro ⟨-, -, before, after, impossible, -⟩
        simp at impossible
  | append_singleton history last ih =>
      rw [run_snoc, latest_snoc, ← ih]
      by_cases stores : StoresAt (run start history) number index last
      · obtain ⟨other, rfl, accepted, rfl, rfl⟩ := stores
        rw [cached_apply_stores accepted, Option.some.injEq]
        constructor
        · rintro rfl
          exact Or.inl ⟨rfl, other, rfl, accepted, rfl, rfl⟩
        · rintro (⟨same, -⟩ | ⟨-, -, -, elsewhere⟩)
          · exact Operation.insert.inj same
          · exact absurd ⟨other, rfl, accepted, rfl, rfl⟩ elsewhere
      · by_cases gone : last = .drain number ∨ Evicts (run start history) number last
        · rw [cached_apply_evicts stores gone]
          constructor
          · intro impossible
            cases impossible
          · rintro (⟨-, isStored⟩ | ⟨-, undrained, kept, -⟩)
            · exact absurd isStored stores
            · exact absurd gone (not_or.mpr ⟨undrained, kept⟩)
        · rw [not_or] at gone
          rw [cached_apply_keeps stores gone.1 gone.2]
          constructor
          · intro found
            exact Or.inr ⟨found, gone.1, gone.2, stores⟩
          · rintro (⟨-, isStored⟩ | ⟨found, -⟩)
            · exact absurd isStored stores
            · exact found

theorem run_keysMatch (start : Nat) (history : List Operation) :
    (run start history).KeysMatch := by
  intro number index flashblock found
  obtain ⟨isNumber, isIndex, -⟩ := (cached_run_iff start history number index flashblock).mp found
  exact ⟨isNumber, isIndex⟩

theorem held_cached {start : Nat} {before after : List Operation} {flashblock : FlashBlock}
    (held : Held start before after flashblock) :
    ((run start (before ++ .insert flashblock :: after)).cached flashblock.blockNumber
      flashblock.index).isSome := by
  induction after using List.reverseRecOn with
  | nil => rw [run_snoc, cached_apply_stores held.accepted, Option.isSome_some]
  | append_singleton after last ih =>
      obtain ⟨earlier, undrained, kept⟩ := held_snoc.mp held
      have found := ih earlier
      rw [← List.cons_append, ← List.append_assoc, run_snoc]
      by_cases stores : StoresAt (run start (before ++ .insert flashblock :: after))
          flashblock.blockNumber flashblock.index last
      · obtain ⟨other, rfl, accepted, isNumber, isIndex⟩ := stores
        rw [← isNumber, ← isIndex, cached_apply_stores accepted, Option.isSome_some]
      · rw [cached_apply_keeps stores undrained kept]
        exact found

theorem drain_increasing {cache : FlashblockCache} (keys : cache.KeysMatch) (number : Nat) :
    (cache.drain number).1.Pairwise fun a b => a.index < b.index := by
  have distinct := drain_nodup keys number
  refine ((drain_sorted number).and distinct).imp_of_mem ?_
  rintro a b inA inB ⟨atMost, differ⟩
  refine lt_of_le_of_ne atMost ?_
  intro same
  obtain ⟨i, foundA⟩ := (mem_drain cache number a).mp inA
  obtain ⟨j, foundB⟩ := (mem_drain cache number b).mp inB
  have sameKey : i = j := by
    rw [← (keys number i a foundA).2, ← (keys number j b foundB).2, same]
  subst sameKey
  rw [foundA] at foundB
  exact differ (Option.some.inj foundB)

/-- After every history a drain returns, by increasing index, the latest flashblock for each
index that was accepted since the block was last emptied, and touches no other block.  A
block is emptied otherwise by the evictions alone. -/
theorem drain_returns_accepted (start : Nat) (history : List Operation) (number : Nat) :
    ((run start history).drain number).1.Pairwise (fun a b => a.index < b.index) ∧
    (∀ flashblock, flashblock ∈ ((run start history).drain number).1 ↔
      Latest start history number flashblock.index flashblock) ∧
    (∀ before after flashblock, history = before ++ .insert flashblock :: after →
      flashblock.blockNumber = number → Held start before after flashblock →
      ∃ latest ∈ ((run start history).drain number).1, latest.index = flashblock.index) ∧
    (∀ other, other ≠ number →
      ((run start history).drain number).2.entries.lookup other =
        (run start history).entries.lookup other) ∧
    ∀ operation index, operation ≠ .drain number →
      ((run start history).cached number index).isSome →
      ¬ StoresAt (run start history) number index operation →
      ((operation.apply (run start history)).cached number index = none ↔
        Evicts (run start history) number operation) := by
  have keys := run_keysMatch start history
  refine ⟨drain_increasing keys number, ?_, ?_, ?_, ?_⟩
  · intro flashblock
    rw [mem_drain, ← cached_run_iff]
    constructor
    · rintro ⟨index, found⟩
      rw [(keys number index flashblock found).2]
      exact found
    · intro found
      exact ⟨flashblock.index, found⟩
  · rintro before after flashblock rfl rfl held
    obtain ⟨latest, found⟩ := Option.isSome_iff_exists.mp (held_cached held)
    exact ⟨latest, (mem_drain _ _ _).mpr ⟨_, found⟩, (keys _ _ _ found).2⟩
  · intro other differs
    rw [lookup_drain, if_neg differs]
  · intro operation index undrained found elsewhere
    constructor
    · intro gone
      by_contra kept
      rw [cached_apply_keeps elsewhere undrained kept] at gone
      simp [gone] at found
    · intro evicts
      exact cached_apply_evicts elsewhere (Or.inr evicts)

/-- An insert at block 0 evicts what block 0 held before. -/
example : ((run 0 [.insert (flashblockOf 0 0), .insert (flashblockOf 0 1)]).drain 0).1.map
    (fun flashblock => flashblock.index) = [1] := by decide

end EthgasReth.CacheHistory
