import EthgasReth.Contiguous

/-!
# A canonical block against the pending one

After a canonical update, a published snapshot that still covers the block should
list exactly its transactions.  Every strategy but one sees to that: when the
transactions differ the snapshot is rebuilt from the blocks above, and when that
rebuild fails the main loop leaves the contradicted snapshot in the cell.
-/

set_option autoImplicit false

namespace EthgasReth.Reconcile

open EthgasReth.Primitives
open EthgasReth.Lib
open EthgasReth.Pending
open EthgasReth.BlockAssembler
open EthgasReth.Build
open EthgasReth.Build.StateProcessor
open EthgasReth.Ledger
open EthgasReth.BuildSpec
open EthgasReth.Validation
open EthgasReth.Cache
open EthgasReth.Processor
open EthgasReth.Run
open EthgasReth.Snapshots
open EthgasReth.Contiguous

variable {processor : StateProcessor}

/-! ## What a snapshot tracks for a block -/

def Covers (pending : PendingBlocks) (number : Nat) : Prop :=
  (pending.headerForBlock number).isSome

def trackedHashes (pending : PendingBlocks) (number : Nat) : List B256 :=
  (pending.getTransactionsForBlock number).map (·.txHash)

def ofBlock (number : Nat) (flashblocks : List FlashBlock) : List FlashBlock :=
  flashblocks.filter fun flashblock => decide (flashblock.blockNumber = number)

theorem groups_tracked {groups : List (Nat × List FlashBlock)} {perBlock : List (List Entry)}
    (entries : List.Forall₂ (GroupEntries processor) groups perBlock)
    (keyed : Keyed FlashBlock.blockNumber groups) (number : Nat) :
    (rawTransactions (ofBlock number (ungroup groups))).mapM processor.alloy.decode2718 =
      .ok (((perBlock.flatten.map Entry.rpc).filter fun transaction =>
        decide (transaction.blockNumber.getD 0 = number)).map fun transaction =>
          transaction.inner) := by
  induction entries with
  | nil => rfl
  | @cons group entries groups perBlock first _ ih =>
      have later := ih fun other member => keyed other (List.mem_cons_of_mem _ member)
      have headKeyed := (keyed group (List.mem_cons_self ..)).2
      have split : ofBlock number (ungroup (group :: groups)) =
          ofBlock number group.2 ++ ofBlock number (ungroup groups) := by
        simp [ungroup, ofBlock]
      rw [split, rawTransactions_append, List.flatten_cons, List.map_append, List.filter_append,
        List.map_append]
      refine mapM_append_of ?_ later
      by_cases same : group.1 = number
      · have flashblocks : ofBlock number group.2 = group.2 := by
          rw [ofBlock, List.filter_eq_self]
          intro flashblock member
          simpa [headKeyed flashblock member] using same
        have transactions : ((entries.map Entry.rpc).filter fun transaction =>
            decide (transaction.blockNumber.getD 0 = number)) = entries.map Entry.rpc := by
          rw [List.filter_eq_self]
          intro transaction member
          obtain ⟨entry, inside, rfl⟩ := List.mem_map.mp member
          simpa [first.number entry inside] using same
        rw [flashblocks, transactions, List.map_map]
        exact first.transactions
      · have flashblocks : ofBlock number group.2 = [] := by
          rw [ofBlock, List.filter_eq_nil_iff]
          intro flashblock member
          simpa [headKeyed flashblock member] using same
        have transactions : ((entries.map Entry.rpc).filter fun transaction =>
            decide (transaction.blockNumber.getD 0 = number)) = [] := by
          rw [List.filter_eq_nil_iff]
          intro transaction member
          obtain ⟨entry, inside, rfl⟩ := List.mem_map.mp member
          simpa [first.number entry inside] using same
        rw [flashblocks, transactions]
        rfl

theorem Sound.tracked {pending : PendingBlocks} (sound : Sound processor pending) (number : Nat) :
    (rawTransactions (ofBlock number pending.flashblocks)).mapM processor.alloy.decode2718 =
      .ok ((pending.getTransactionsForBlock number).map fun transaction => transaction.inner) := by
  obtain ⟨perBlock, describes⟩ := sound.described
  have tracked := groups_tracked describes.entries (groupEntries_keyed _ _) number
  rw [flashblocksPerBlock, ungroup_groupEntries _ _ sound.gapFree.ordered] at tracked
  rw [PendingBlocks.getTransactionsForBlock, describes.tracks.transactions]
  exact tracked

theorem trackedHashes_eq (pending : PendingBlocks) (number : Nat) :
    trackedHashes pending number =
      ((pending.getTransactionsForBlock number).map fun transaction => transaction.inner).map
        (·.txHash) := by
  rw [trackedHashes, List.map_map]
  rfl

theorem Sound.covers_iff {pending : PendingBlocks} (sound : Sound processor pending)
    (number : Nat) : Covers pending number ↔ ofBlock number pending.flashblocks ≠ [] := by
  obtain ⟨perBlock, describes⟩ := sound.described
  have numbers : Covers pending number ↔
      number ∈ pending.headers.map fun header => header.header.number := by
    simp [Covers, PendingBlocks.headerForBlock]
  rw [numbers, describes.headers, flashblocksPerBlock, mem_keys_groupEntries, ofBlock, Ne,
    List.filter_eq_nil_iff]
  simp

/-! ## Agreement with the canonical block -/

/-- A snapshot that covers the block lists its transactions. -/
def AgreesWith (block : Block) (pending : PendingBlocks) : Prop :=
  Covers pending block.number → trackedHashes pending block.number = block.txHashes

theorem agreesWith_congr {block : Block} {old new : PendingBlocks}
    (oldSound : Sound processor old) (newSound : Sound processor new)
    (same : ofBlock block.number new.flashblocks = ofBlock block.number old.flashblocks)
    (agrees : AgreesWith block old) : AgreesWith block new := by
  intro covers
  have covered : Covers old block.number := by
    rw [Sound.covers_iff oldSound, ← same]
    exact (Sound.covers_iff newSound _).mp covers
  rw [← agrees covered, trackedHashes_eq, trackedHashes_eq]
  have newTracked := Sound.tracked newSound block.number
  rw [same, Sound.tracked oldSound block.number] at newTracked
  rw [Except.ok.inj newTracked]

theorem agreesWith_uncovered {block : Block} {pending : PendingBlocks}
    (sound : Sound processor pending)
    (none : ∀ flashblock ∈ pending.flashblocks, flashblock.blockNumber ≠ block.number) :
    AgreesWith block pending := by
  intro covers
  refine absurd ?_ ((Sound.covers_iff sound _).mp covers)
  rw [ofBlock, List.filter_eq_nil_iff]
  intro flashblock member
  simpa using none flashblock member

/-! ## The update -/

instance (block : Block) (pending : PendingBlocks) : Decidable (AgreesWith block pending) :=
  inferInstanceAs (Decidable ((pending.headerForBlock block.number).isSome →
    trackedHashes pending block.number = block.txHashes))

theorem processCanonicalBlock_some (node : Node) (address : Nat) (pending : Arc PendingBlocks)
    (block : Block) :
    processor.processCanonicalBlock node address (some pending) block =
      if pending.value.latestBlockNumber ≤ node.effectiveCanonicalNumber block.number then .ok none
      else if trackedHashes pending.value block.number ≠ block.txHashes then
        processor.buildShared node address none (retained node block pending.value)
      else if node.effectiveCanonicalNumber block.number - pending.value.earliestBlockNumber >
          processor.maxDepth then
        processor.buildShared node address none (retained node block pending.value)
      else processor.buildShared node address (some pending) pending.value.flashblocks := by
  have rebuild := detect_requiresRebuild (trackedHashes pending.value block.number) block.txHashes
  have hashes : (pending.value.getTransactionsForBlock block.number).map (·.txHash) =
      trackedHashes pending.value block.number := rfl
  unfold StateProcessor.processCanonicalBlock CanonicalBlockReconciler.reconcile
  simp only [hashes]
  by_cases caughtUp : pending.value.latestBlockNumber ≤ node.effectiveCanonicalNumber block.number
  · simp only [caughtUp, if_true]
  · simp only [caughtUp, if_false]
    by_cases differ : trackedHashes pending.value block.number ≠ block.txHashes
    · rw [if_pos differ]
      simp only [rebuild.mpr differ, if_true]
      rfl
    · have keeps : (ReorgDetector.detect (trackedHashes pending.value block.number)
          block.txHashes).requiresRebuild = false := by
        rw [← Bool.not_eq_true]
        exact fun needed => differ (rebuild.mp needed)
      rw [if_neg differ]
      by_cases deep : node.effectiveCanonicalNumber block.number -
          pending.value.earliestBlockNumber > processor.maxDepth
      · rw [if_pos deep]
        simp only [keeps, Bool.false_eq_true, if_false, deep, if_true]
        rfl
      · rw [if_neg deep]
        simp only [keeps, Bool.false_eq_true, if_false, deep]

def PublishedAgrees (block : Block) (state : ProcessorState) : Prop :=
  ∀ pending, state.pendingBlocks = some pending → AgreesWith block pending.value

theorem apply_agrees {node : Node} {state : ProcessorState} {flashblock : FlashBlock} {block : Block}
    (all : AllSnapshots (Sound processor) state) (agree : flashblock.NumbersAgree)
    (elsewhere : flashblock.blockNumber ≠ block.number) (agrees : PublishedAgrees block state) :
    PublishedAgrees block
      (processor.applyFlashblock node state.pendingBlocks flashblock state) := by
  have published : ∀ pending new,
      processor.processFlashblock node state.nextAddress state.pendingBlocks flashblock = .ok new →
      processor.publishable node new = some pending → AgreesWith block pending.value := by
    intro pending new processed isPublished
    obtain ⟨rfl, -⟩ := publishable_some isPublished
    rcases processFlashblock_new processed with ⟨isOld, -⟩ | ⟨built, rfl, builds⟩
    · exact agrees pending isOld
    · obtain ⟨sound, lists⟩ := builds_sound all.1 (by rintro other ⟨⟩; exact agree) builds
      generalize cell : state.pendingBlocks = prev at lists
      generalize flashblocksEq : built.flashblocks = flashblocks at lists
      cases lists with
      | fresh first =>
          refine agreesWith_uncovered sound ?_
          intro other member
          rw [flashblocksEq, List.mem_singleton] at member
          rw [member]
          exact elsewhere
      | appended continues =>
          refine agreesWith_congr (all.1 _ cell) sound ?_ (agrees _ cell)
          rw [flashblocksEq]
          simp [ofBlock, elsewhere]
  generalize applied : processor.applyFlashblock node state.pendingBlocks flashblock state = next
  have outcome := @applyFlashblock_applied processor node state.pendingBlocks flashblock state
  rw [applied] at outcome
  cases outcome with
  | rejected cached => exact agrees
  | cleared fresh processed unpublished =>
      intro pending absent
      cases absent
  | unchanged fresh processed isPublished before same =>
      rintro pending ⟨⟩
      exact published _ _ processed isPublished
  | broadcast fresh processed isPublished differs =>
      rintro pending ⟨⟩
      exact published _ _ processed isPublished

theorem load_agrees (node : Node) {state : ProcessorState} {block : Block}
    (agrees : PublishedAgrees block state) : PublishedAgrees block (load processor node state) := by
  rcases load_state processor node state with same | cleared
  · rw [load, same]
    exact agrees
  · rw [load, cleared]
    intro pending absent
    cases absent

theorem replay_agrees (nodes : Nat → Node) (flashblocks : List FlashBlock)
    {state : ProcessorState} {block : Block} (all : AllSnapshots (Sound processor) state)
    (agree : ∀ flashblock ∈ flashblocks, flashblock.NumbersAgree)
    (elsewhere : ∀ flashblock ∈ flashblocks, flashblock.blockNumber ≠ block.number)
    (agrees : PublishedAgrees block state) :
    PublishedAgrees block (processor.replayCached nodes flashblocks state) := by
  have kept : KeptByBuilds processor (Guard.onWire FlashBlock.NumbersAgree) (Sound processor) :=
    sound_kept fun _ agree => agree
  induction flashblocks generalizing nodes state with
  | nil => exact agrees
  | cons flashblock rest ih =>
      rw [replayCached_cons]
      have loaded := kept.kept.load (nodes 0) all
      have head := agree flashblock (List.mem_cons_self ..)
      refine ih _ (kept.apply loaded head trivial)
        (fun other member => agree other (List.mem_cons_of_mem _ member))
        (fun other member => elsewhere other (List.mem_cons_of_mem _ member)) ?_
      exact apply_agrees loaded head (elsewhere flashblock (List.mem_cons_self ..))
        (load_agrees (nodes 0) agrees)

/-- The reorg is seen, and the rebuild that should answer it fails. -/
def RebuildFails (processor : StateProcessor) (node : Node) (block : Block)
    (pending : PendingBlocks) : Prop :=
  Covers pending block.number ∧ trackedHashes pending block.number ≠ block.txHashes ∧
    node.effectiveCanonicalNumber block.number < pending.latestBlockNumber ∧
    ∃ failure, processor.buildPendingState node.client none (retained node block pending) =
      .error failure

theorem le_effectiveCanonicalNumber (node : Node) (number : Nat) :
    number ≤ node.effectiveCanonicalNumber number := by
  unfold Node.effectiveCanonicalNumber
  split
  · exact Nat.le_max_left _ _
  · exact Nat.le_refl _

theorem retained_agrees {node : Node} {block : Block} {pending built : PendingBlocks}
    (sound : Sound processor pending)
    (success : processor.buildPendingState node.client none (retained node block pending) =
      .ok (some built)) : AgreesWith block built := by
  rcases sound.retained node block with empty | gapFree
  · rw [empty] at success
    cases success
  · obtain ⟨builtSound, whole⟩ := build_sound gapFree
      (fun other member => sound.agree other (List.mem_of_mem_filter member)) success
    refine agreesWith_uncovered builtSound ?_
    intro flashblock member
    rw [whole] at member
    have above : node.effectiveCanonicalNumber block.number < flashblock.blockNumber :=
      of_decide_eq_true (List.mem_filter.mp member).2
    have atLeast := le_effectiveCanonicalNumber node block.number
    omega

theorem reconcile_agrees {node : Node} {state : ProcessorState} {block : Block}
    {new : Option (Arc PendingBlocks)} (all : AllSnapshots (Sound processor) state)
    (reconciled : processor.processCanonicalBlock node state.nextAddress state.pendingBlocks block =
      .ok new) : PublishedAgrees block (processor.publishReconciled node block new state) := by
  intro pending isPublished
  obtain ⟨isNew, -⟩ := publishable_some isPublished
  subst isNew
  cases cell : state.pendingBlocks with
  | none =>
      rw [cell] at reconciled
      cases reconciled
  | some old =>
      rw [cell, processCanonicalBlock_some] at reconciled
      have sound := all.1 old cell
      split at reconciled
      · cases reconciled
      · split at reconciled
        · rcases buildShared_ok reconciled with ⟨absent, -⟩ | ⟨built, isBuilt, success⟩
          · cases absent
          · cases isBuilt
            exact retained_agrees sound success
        · rename_i same
          split at reconciled
          · rcases buildShared_ok reconciled with ⟨absent, -⟩ | ⟨built, isBuilt, success⟩
            · cases absent
            · cases isBuilt
              exact retained_agrees sound success
          · rcases buildShared_ok reconciled with ⟨absent, -⟩ | ⟨built, isBuilt, success⟩
            · cases absent
            · cases isBuilt
              obtain ⟨builtSound, whole⟩ := build_sound sound.gapFree sound.agree success
              refine agreesWith_congr sound builtSound (by rw [whole]) ?_
              exact fun _ => not_not.mp same

/-- When the reconciliation fails, the snapshot it leaves agrees with the block
unless the failure was that of the rebuild. -/
theorem reconcile_error {node : Node} {address : Nat} {block : Block} {pending : Arc PendingBlocks}
    {failure : StateProcessorError}
    (failed : processor.processCanonicalBlock node address (some pending) block = .error failure) :
    AgreesWith block pending.value ∨ RebuildFails processor node block pending.value := by
  rw [processCanonicalBlock_some] at failed
  split at failed
  · cases failed
  · rename_i ahead
    split at failed
    · rename_i differ
      by_cases covers : Covers pending.value block.number
      · right
        refine ⟨covers, differ, by omega, ?_⟩
        cases buildRan : processor.buildPendingState node.client none
            (retained node block pending.value) with
        | error failure => exact ⟨failure, rfl⟩
        | ok result =>
            rw [StateProcessor.buildShared] at failed
            simp only [Option.map_none, buildRan] at failed
            cases failed
      · left
        intro covered
        exact absurd covered covers
    · rename_i same
      left
      exact fun _ => not_not.mp same

/-- Whether the published snapshot agrees with a canonical block once its update
is done: always, unless the rebuild that the disagreement called for fails. -/
theorem canonical_update_agrees_iff {state : ProcessorState}
    (reached : Reachable processor (Guard.onWire FlashBlock.NumbersAgree) state)
    (nodes : Nat → Node) (block : Block) :
    PublishedAgrees block (processor.processUpdate nodes (.canonical block) state) ↔
      ∀ pending, (load processor (nodes 0) state).pendingBlocks = some pending →
        ¬ RebuildFails processor (nodes 0) block pending.value := by
  have kept : KeptByBuilds processor (Guard.onWire FlashBlock.NumbersAgree) (Sound processor) :=
    sound_kept fun _ agree => agree
  obtain ⟨all, cached⟩ := kept.kept.reachable reached
  obtain ⟨keys, -⟩ := keysMatch_kept.reachable reached
  have loaded := kept.kept.load (nodes 0) all
  have loadedCached : CacheFromWire (Guard.onWire FlashBlock.NumbersAgree)
      (load processor (nodes 0) state) := cacheFromWire_load (nodes 0) cached
  have loadedKeys : (load processor (nodes 0) state).cache.KeysMatch :=
    (@keysMatch_kept processor (Guard.onWire FlashBlock.NumbersAgree)).load (nodes 0) keys
  cases reconciled : processor.processCanonicalBlock (nodes 0)
      (load processor (nodes 0) state).nextAddress
      (load processor (nodes 0) state).pendingBlocks block with
  | ok new =>
      have drained : ∀ flashblock ∈ (((load processor (nodes 0) state).cache.updateCanonical
          block.number).drain (block.number + 1)).1,
          flashblock.NumbersAgree ∧ flashblock.blockNumber ≠ block.number := by
        intro flashblock member
        obtain ⟨index, found⟩ := (FlashblockCache.mem_drain _ _ flashblock).mp member
        refine ⟨FlashblockCache.Stores.updateCanonical loadedCached block.number _ _ _ found, ?_⟩
        rw [(FlashblockCache.Stores.updateCanonical loadedKeys block.number _ _ _ found).1]
        omega
      refine iff_of_true ?_ ?_
      · rw [processUpdate_canonical_ok nodes block state reconciled]
        exact replay_agrees _ _
          (kept.kept.reconcile (nodes 0) _ block new loaded trivial reconciled)
          (fun flashblock member => (drained flashblock member).1)
          (fun flashblock member => (drained flashblock member).2)
          (reconcile_agrees loaded reconciled)
      · rintro pending isLoaded ⟨-, differ, ahead, failure, failed⟩
        rw [isLoaded, processCanonicalBlock_some, if_neg (by omega), if_pos differ,
          StateProcessor.buildShared] at reconciled
        simp only [Option.map_none, failed] at reconciled
        cases reconciled
  | error failure =>
      rw [processUpdate_canonical_error nodes block state reconciled]
      constructor
      · rintro agrees pending isLoaded ⟨covers, differ, -, -⟩
        exact differ (agrees pending isLoaded covers)
      · intro fine pending isLoaded
        rw [isLoaded] at reconciled
        rcases reconcile_error reconciled with agrees | fails
        · exact agrees
        · exact absurd fails (fine pending isLoaded)

def twoBlocks : List FlashBlock :=
  [Reference.flashblock 7 1 0 [(1, 0)] [(1, true)], Reference.flashblock 8 2 0 [(2, 1)] [(2, true)]]

theorem twoBlocks_reachable (node : Node) :
    Reachable Reference.processor (Guard.onWire FlashBlock.NumbersAgree)
      (Reference.afterFlashblocks node twoBlocks) := by
  apply Reference.afterFlashblocks_reachable
  intro flashblock member
  simp only [twoBlocks, List.mem_cons, List.not_mem_nil, or_false] at member
  rcases member with rfl | rfl <;> exact Reference.flashblock_agrees _ _ _ _ _

/-- The canonical block 1 has the transaction that was pending for it. -/
theorem canonical_update_agrees_matching :
    PublishedAgrees (Reference.canonicalBlock 1 [(1, 0)])
      (Reference.processor.processUpdate (fun _ => Reference.nodeAt 1 id)
        (.canonical (Reference.canonicalBlock 1 [(1, 0)]))
        (Reference.afterFlashblocks (Reference.nodeAt 0 fun _ => 0) twoBlocks)) := by
  apply (canonical_update_agrees_iff (twoBlocks_reachable _) _ _).mpr
  rintro pending isLoaded ⟨-, differ, -⟩
  have matching : (load Reference.processor (Reference.nodeAt 1 id)
      (Reference.afterFlashblocks (Reference.nodeAt 0 fun _ => 0) twoBlocks)).pendingBlocks.all
      (fun pending => decide (trackedHashes pending.value 1 =
        (Reference.canonicalBlock 1 [(1, 0)]).txHashes)) = true := by decide
  rw [isLoaded] at matching
  exact differ (of_decide_eq_true matching)

/-- The canonical block 1 is empty, so Alice's second transaction fails on it and
so does the rebuild of block 2; both blocks stay published. -/
theorem contradicted_snapshot_stays :
    ¬ ∀ (processor : StateProcessor) (state : ProcessorState) (nodes : Nat → Node) (block : Block),
      Reachable processor (Guard.onWire FlashBlock.NumbersAgree) state →
      PublishedAgrees block (processor.processUpdate nodes (.canonical block) state) := by
  intro claim
  let before := Reference.afterFlashblocks (Reference.nodeAt 0 fun _ => 0) twoBlocks
  let block := Reference.canonicalBlock 1 []
  let after := Reference.processor.processUpdate (fun _ => Reference.nodeAt 1 fun _ => 0)
    (.canonical block) before
  have agrees := claim Reference.processor before (fun _ => Reference.nodeAt 1 fun _ => 0) block
    (twoBlocks_reachable _)
  have contradicts : after.pendingBlocks.any
      (fun pending => !decide (AgreesWith block pending.value)) = true := by decide
  obtain ⟨pending, isPending, differ⟩ := (Option.any_eq_true _ _).mp contradicts
  simp [agrees pending isPending] at differ

end EthgasReth.Reconcile
