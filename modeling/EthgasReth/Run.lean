import EthgasReth.Processor

/-!
# Runs of the processor

A run starts from an empty processor and takes any number of steps: an update
dequeued by the main loop, with its replays, or a stale snapshot dropped by the
receiving task.  A guard restricts the flashblocks that arrive and the
circumstances in which flashblocks and canonical blocks are applied.

An invariant is proved once for each of the three things a step is made of:
clearing the cell, applying one flashblock, publishing a reconciled snapshot.
-/

set_option autoImplicit false

namespace EthgasReth.Run

open EthgasReth.Primitives
open EthgasReth.Lib
open EthgasReth.Pending
open EthgasReth.Build
open EthgasReth.Cache
open EthgasReth.Processor

/-- `wire` is asked of every flashblock taken from the queue, `flashblock` of
every application of one, replays included, on the snapshot it is applied to,
and `canonical` of every canonical block, on the snapshot it meets. -/
structure Guard where
  wire : FlashBlock → Prop
  flashblock : Node → Option (Arc PendingBlocks) → FlashBlock → Prop
  canonical : Node → Option (Arc PendingBlocks) → Block → Prop

def Guard.onWire (wire : FlashBlock → Prop) : Guard where
  wire := wire
  flashblock := fun _ _ _ => True
  canonical := fun _ _ _ => True

variable (processor : StateProcessor) (guard : Guard)

theorem load_eq (node : Node) (state : ProcessorState) :
    (processor.loadPendingOrDropStale node state).1 =
      (processor.loadPendingOrDropStale node state).2.pendingBlocks := by
  unfold StateProcessor.loadPendingOrDropStale
  split
  · rename_i absent
    exact absent.symm
  · rename_i pending present
    split
    · exact present.symm
    · split
      · exact present.symm
      · rfl

theorem load_state (node : Node) (state : ProcessorState) :
    (processor.loadPendingOrDropStale node state).2 = state ∨
      (processor.loadPendingOrDropStale node state).2 =
        { state with pendingBlocks := none } := by
  unfold StateProcessor.loadPendingOrDropStale
  split
  · exact Or.inl rfl
  · split
    · exact Or.inl rfl
    · split
      · exact Or.inl rfl
      · exact Or.inr rfl

def load (node : Node) (state : ProcessorState) : ProcessorState :=
  (processor.loadPendingOrDropStale node state).2

@[simp] theorem load_sent (node : Node) (state : ProcessorState) :
    (load processor node state).sent = state.sent := by
  rcases load_state processor node state with same | cleared
  · rw [load, same]
  · rw [load, cleared]

def ReplayMeets (nodes : Nat → Node) : List FlashBlock → ProcessorState → Prop
  | [], _ => True
  | flashblock :: rest, state =>
      let loaded := load processor (nodes 0) state
      guard.flashblock (nodes 0) loaded.pendingBlocks flashblock ∧
        ReplayMeets (fun i => nodes (i + 1)) rest
          (processor.applyFlashblock (nodes 0) loaded.pendingBlocks flashblock loaded)

def UpdateMeets (nodes : Nat → Node) (update : StateUpdate) (state : ProcessorState) : Prop :=
  let loaded := load processor (nodes 0) state
  match update with
  | .flashblock flashblock =>
      guard.wire flashblock ∧ guard.flashblock (nodes 0) loaded.pendingBlocks flashblock
  | .canonical block =>
      guard.canonical (nodes 0) loaded.pendingBlocks block ∧
        ∀ new, processor.processCanonicalBlock (nodes 0) loaded.nextAddress
            loaded.pendingBlocks block = .ok new →
          ReplayMeets processor guard (fun i => nodes (i + 1))
            ((loaded.cache.updateCanonical block.number).drain (block.number + 1)).1
            (processor.publishReconciled (nodes 0) block new loaded)

inductive Step : ProcessorState → ProcessorState → Prop
  | update {state : ProcessorState} (nodes : Nat → Node) (update : StateUpdate)
      (meets : UpdateMeets processor guard nodes update state) :
      Step state (processor.processUpdate nodes update state)
  | received {state : ProcessorState} (canonicalBlockNumber : Nat) :
      Step state (processor.dropPendingBehind canonicalBlockNumber state)

def system : System ProcessorState where
  Init := fun state => ∃ client, state = StateProcessor.initial client
  Step := Step processor guard

abbrev Reachable (state : ProcessorState) : Prop := (system processor guard).Reachable state

/-- The states a reader of the published cell can see: those between two steps,
and those in the middle of a canonical update, after its own publication and
after each of its replays. -/
inductive Visible : ProcessorState → Prop
  | reached {state : ProcessorState} (reached : Reachable processor guard state) : Visible state
  | replaying {state : ProcessorState} (reached : Reachable processor guard state)
      (nodes : Nat → Node) (block : Block) (new : Option (Arc PendingBlocks)) (count : Nat)
      (meets : UpdateMeets processor guard nodes (.canonical block) state)
      (reconciled : processor.processCanonicalBlock (nodes 0)
        (load processor (nodes 0) state).nextAddress
        (load processor (nodes 0) state).pendingBlocks block = .ok new) :
      Visible (processor.replayCached (fun i => nodes (i + 1))
        ((((load processor (nodes 0) state).cache.updateCanonical block.number).drain
          (block.number + 1)).1.take count)
        (processor.publishReconciled (nodes 0) block new (load processor (nodes 0) state)))

variable {processor guard}

theorem processUpdate_flashblock (nodes : Nat → Node) (flashblock : FlashBlock)
    (state : ProcessorState) :
    processor.processUpdate nodes (.flashblock flashblock) state =
      processor.applyFlashblock (nodes 0) (load processor (nodes 0) state).pendingBlocks
        flashblock (load processor (nodes 0) state) := by
  simp only [StateProcessor.processUpdate, load_eq, load]

theorem processUpdate_canonical_ok (nodes : Nat → Node) (block : Block) (state : ProcessorState)
    {new : Option (Arc PendingBlocks)}
    (reconciled : processor.processCanonicalBlock (nodes 0)
      (load processor (nodes 0) state).nextAddress
      (load processor (nodes 0) state).pendingBlocks block = .ok new) :
    processor.processUpdate nodes (.canonical block) state =
      processor.replayCached (fun i => nodes (i + 1))
        (((load processor (nodes 0) state).cache.updateCanonical block.number).drain
          (block.number + 1)).1
        (processor.publishReconciled (nodes 0) block new (load processor (nodes 0) state)) := by
  simp only [StateProcessor.processUpdate, load_eq]
  simp only [load] at reconciled ⊢
  rw [reconciled]

theorem processUpdate_canonical_error (nodes : Nat → Node) (block : Block)
    (state : ProcessorState) {failure : StateProcessorError}
    (failed : processor.processCanonicalBlock (nodes 0)
      (load processor (nodes 0) state).nextAddress
      (load processor (nodes 0) state).pendingBlocks block = .error failure) :
    processor.processUpdate nodes (.canonical block) state = load processor (nodes 0) state := by
  simp only [StateProcessor.processUpdate, load_eq]
  simp only [load] at failed ⊢
  rw [failed]

theorem replayCached_cons (nodes : Nat → Node) (flashblock : FlashBlock)
    (rest : List FlashBlock) (state : ProcessorState) :
    processor.replayCached nodes (flashblock :: rest) state =
      processor.replayCached (fun i => nodes (i + 1)) rest
        (processor.applyFlashblock (nodes 0) (load processor (nodes 0) state).pendingBlocks
          flashblock (load processor (nodes 0) state)) := by
  simp only [StateProcessor.replayCached, load_eq, load]

theorem dropPendingBehind_state (processor : StateProcessor) (canonical : Nat)
    (state : ProcessorState) :
    processor.dropPendingBehind canonical state = state ∨
      processor.dropPendingBehind canonical state = { state with pendingBlocks := none } := by
  unfold StateProcessor.dropPendingBehind
  split
  · exact Or.inl rfl
  · split
    · exact Or.inl rfl
    · exact Or.inr rfl

/-! ## What an application does -/

/-- The outcomes of applying a flashblock: the cell is left alone and the
flashblock possibly cached, the cell is cleared, the snapshot in it stays, or a
new one is published and broadcast. -/
inductive Applied (processor : StateProcessor) (node : Node) (prev : Option (Arc PendingBlocks))
    (flashblock : FlashBlock) (state : ProcessorState) : ProcessorState → Prop
  | rejected {cache : FlashblockCache}
      (cached : cache = state.cache ∨ cache = (state.cache.insert flashblock).2) :
      Applied processor node prev flashblock state { state with cache := cache }
  | cleared {new : Option (Arc PendingBlocks)} (fresh : node.isSuperseded flashblock = false)
      (processed : processor.processFlashblock node state.nextAddress prev flashblock = .ok new)
      (unpublished : processor.publishable node new = none) :
      Applied processor node prev flashblock state
        { state with pendingBlocks := none, nextAddress := state.nextAddress + 1 }
  | unchanged {new : Option (Arc PendingBlocks)} {old pending : Arc PendingBlocks}
      (fresh : node.isSuperseded flashblock = false)
      (processed : processor.processFlashblock node state.nextAddress prev flashblock = .ok new)
      (published : processor.publishable node new = some pending)
      (before : prev = some old) (same : old.address = pending.address) :
      Applied processor node prev flashblock state
        { state with pendingBlocks := some pending, nextAddress := state.nextAddress + 1 }
  | broadcast {new : Option (Arc PendingBlocks)} {pending : Arc PendingBlocks}
      (fresh : node.isSuperseded flashblock = false)
      (processed : processor.processFlashblock node state.nextAddress prev flashblock = .ok new)
      (published : processor.publishable node new = some pending)
      (differs : ∀ old, prev = some old → old.address ≠ pending.address) :
      Applied processor node prev flashblock state
        { state with
          pendingBlocks := some pending
          sent := state.sent ++ [pending]
          nextAddress := state.nextAddress + 1 }

theorem applyFlashblock_applied (node : Node) (prev : Option (Arc PendingBlocks))
    (flashblock : FlashBlock) (state : ProcessorState) :
    Applied processor node prev flashblock state
      (processor.applyFlashblock node prev flashblock state) := by
  unfold StateProcessor.applyFlashblock
  split
  · exact .rejected (Or.inl rfl)
  · rename_i notSuperseded
    have fresh : node.isSuperseded flashblock = false := by simpa using notSuperseded
    split
    · rename_i new processed
      cases published : processor.publishable node new with
      | none => exact .cleared fresh processed published
      | some pending =>
          cases prev with
          | none => exact .broadcast fresh processed published (by simp)
          | some old =>
              by_cases same : old.address = pending.address
              · simp only [Arc.ptrEq, same, decide_true, if_true]
                exact .unchanged fresh processed published rfl same
              · simp only [Arc.ptrEq, same, decide_false, Bool.false_eq_true, if_false]
                refine .broadcast fresh processed published ?_
                intro other isOther
                cases isOther
                exact same
    · exact .rejected (Or.inr rfl)
    · split
      · exact .rejected (Or.inr rfl)
      · exact .rejected (Or.inl rfl)
    · exact .rejected (Or.inl rfl)

theorem applyFlashblock_cache (node : Node) (prev : Option (Arc PendingBlocks))
    (flashblock : FlashBlock) (state : ProcessorState) :
    (processor.applyFlashblock node prev flashblock state).cache = state.cache ∨
      (processor.applyFlashblock node prev flashblock state).cache =
        (state.cache.insert flashblock).2 := by
  generalize applied : processor.applyFlashblock node prev flashblock state = next
  have outcome := @applyFlashblock_applied processor node prev flashblock state
  rw [applied] at outcome
  cases outcome with
  | rejected cached => exact cached
  | cleared => exact Or.inl rfl
  | unchanged => exact Or.inl rfl
  | broadcast => exact Or.inl rfl

/-! ## The invariant rule -/

/-- An invariant of the three things a step is made of.  `apply` and `reconcile`
speak about the snapshot in the cell, which is the one a step has just loaded. -/
structure Kept (processor : StateProcessor) (guard : Guard) (Inv : ProcessorState → Prop) :
    Prop where
  initial : ∀ client, Inv (StateProcessor.initial client)
  clear : ∀ state, Inv state → Inv { state with pendingBlocks := none }
  apply : ∀ node state flashblock, Inv state → guard.wire flashblock →
    guard.flashblock node state.pendingBlocks flashblock →
    Inv (processor.applyFlashblock node state.pendingBlocks flashblock state)
  reconcile : ∀ node state block new, Inv state → guard.canonical node state.pendingBlocks block →
    processor.processCanonicalBlock node state.nextAddress state.pendingBlocks block = .ok new →
    Inv (processor.publishReconciled node block new state)

section Rule

variable {Inv : ProcessorState → Prop}

def CacheFromWire (guard : Guard) (state : ProcessorState) : Prop :=
  state.cache.Stores fun _ _ flashblock => guard.wire flashblock

theorem cacheFromWire_load (node : Node) {state : ProcessorState}
    (cached : CacheFromWire guard state) : CacheFromWire guard (load processor node state) := by
  rcases load_state processor node state with same | cleared
  · rw [load, same]
    exact cached
  · rw [load, cleared]
    exact cached

theorem cacheFromWire_apply (node : Node) (prev : Option (Arc PendingBlocks))
    {flashblock : FlashBlock} {state : ProcessorState} (cached : CacheFromWire guard state)
    (wire : guard.wire flashblock) :
    CacheFromWire guard (processor.applyFlashblock node prev flashblock state) := by
  unfold CacheFromWire
  rcases @applyFlashblock_cache processor node prev flashblock state with same | more
  · rw [same]
    exact cached
  · rw [more]
    exact FlashblockCache.Stores.insert cached wire

theorem cacheFromWire_reconcile (node : Node) (block : Block) (new : Option (Arc PendingBlocks))
    {state : ProcessorState} (cached : CacheFromWire guard state) :
    CacheFromWire guard (processor.publishReconciled node block new state) :=
  (FlashblockCache.Stores.updateCanonical cached block.number).drain (block.number + 1)

theorem Kept.load (kept : Kept processor guard Inv) (node : Node) {state : ProcessorState}
    (holds : Inv state) : Inv (load processor node state) := by
  rcases load_state processor node state with same | cleared
  · rw [Run.load, same]
    exact holds
  · rw [Run.load, cleared]
    exact kept.clear state holds

theorem Kept.replay (kept : Kept processor guard Inv) (nodes : Nat → Node)
    (flashblocks : List FlashBlock) {state : ProcessorState}
    (wires : ∀ flashblock ∈ flashblocks, guard.wire flashblock)
    (meets : ReplayMeets processor guard nodes flashblocks state)
    (cached : CacheFromWire guard state) (holds : Inv state) :
    Inv (processor.replayCached nodes flashblocks state) ∧
      CacheFromWire guard (processor.replayCached nodes flashblocks state) := by
  induction flashblocks generalizing nodes state with
  | nil => exact ⟨holds, cached⟩
  | cons flashblock rest ih =>
      rw [replayCached_cons]
      obtain ⟨head, tail⟩ := meets
      have wire := wires flashblock (List.mem_cons_self ..)
      exact ih (fun i => nodes (i + 1))
        (fun other member => wires other (List.mem_cons_of_mem _ member)) tail
        (cacheFromWire_apply _ _ (cacheFromWire_load (nodes 0) cached) wire)
        (kept.apply (nodes 0) _ flashblock (kept.load (nodes 0) holds) wire head)

theorem Kept.update (kept : Kept processor guard Inv) (nodes : Nat → Node)
    (update : StateUpdate) {state : ProcessorState}
    (meets : UpdateMeets processor guard nodes update state)
    (cached : CacheFromWire guard state) (holds : Inv state) :
    Inv (processor.processUpdate nodes update state) ∧
      CacheFromWire guard (processor.processUpdate nodes update state) := by
  have loadedCached : CacheFromWire guard (Run.load processor (nodes 0) state) :=
    cacheFromWire_load (nodes 0) cached
  have loadedHolds := kept.load (nodes 0) holds
  cases update with
  | flashblock flashblock =>
      obtain ⟨wire, applied⟩ := meets
      rw [processUpdate_flashblock]
      exact ⟨kept.apply (nodes 0) _ flashblock loadedHolds wire applied,
        cacheFromWire_apply _ _ loadedCached wire⟩
  | canonical block =>
      obtain ⟨met, replays⟩ := meets
      cases reconciled : processor.processCanonicalBlock (nodes 0)
          (Run.load processor (nodes 0) state).nextAddress
          (Run.load processor (nodes 0) state).pendingBlocks block with
      | error failure =>
          rw [processUpdate_canonical_error nodes block state reconciled]
          exact ⟨loadedHolds, loadedCached⟩
      | ok new =>
          rw [processUpdate_canonical_ok nodes block state reconciled]
          refine kept.replay _ _ ?_ (replays new reconciled)
            (cacheFromWire_reconcile (nodes 0) block new loadedCached)
            (kept.reconcile (nodes 0) _ block new loadedHolds met reconciled)
          intro flashblock member
          obtain ⟨index, found⟩ := (FlashblockCache.mem_drain _ _ flashblock).mp member
          exact FlashblockCache.Stores.updateCanonical loadedCached block.number _ _ _ found

theorem Kept.reachable (kept : Kept processor guard Inv) {state : ProcessorState}
    (reached : Reachable processor guard state) : Inv state ∧ CacheFromWire guard state := by
  refine @System.Reachable.invariant _ _ (fun state => Inv state ∧ CacheFromWire guard state)
    ?_ ?_ _ reached
  · rintro state ⟨client, rfl⟩
    refine ⟨kept.initial client, ?_⟩
    unfold CacheFromWire StateProcessor.initial
    cases client.bestBlockNumber <;> exact FlashblockCache.stores_new _
  · rintro state next - ⟨holds, cached⟩ taken
    cases taken with
    | update nodes update meets => exact kept.update nodes update meets cached holds
    | received canonical =>
        rcases dropPendingBehind_state processor canonical state with same | cleared
        · rw [same]
          exact ⟨holds, cached⟩
        · rw [cleared]
          exact ⟨kept.clear state holds, cached⟩

/-- Every cached flashblock is stored under its own number and index. -/
theorem keysMatch_kept : Kept processor guard fun state => state.cache.KeysMatch where
  initial := by
    intro client
    unfold StateProcessor.initial
    cases client.bestBlockNumber <;> exact FlashblockCache.stores_new _
  clear := fun _ keys => keys
  apply := by
    intro node state flashblock keys _ _
    rcases @applyFlashblock_cache processor node state.pendingBlocks flashblock state with same | more
    · rw [same]
      exact keys
    · rw [more]
      exact FlashblockCache.Stores.insert keys ⟨rfl, rfl⟩
  reconcile := fun _ _ block _ keys _ _ =>
    (FlashblockCache.Stores.updateCanonical keys block.number).drain (block.number + 1)

theorem replayMeets_take {nodes : Nat → Node} {flashblocks : List FlashBlock}
    {state : ProcessorState} (count : Nat)
    (meets : ReplayMeets processor guard nodes flashblocks state) :
    ReplayMeets processor guard nodes (flashblocks.take count) state := by
  induction flashblocks generalizing nodes state count with
  | nil => simpa using meets
  | cons flashblock rest ih =>
      cases count with
      | zero => trivial
      | succ count => exact ⟨meets.1, ih count meets.2⟩

theorem Kept.visible (kept : Kept processor guard Inv) {state : ProcessorState}
    (visible : Visible processor guard state) : Inv state ∧ CacheFromWire guard state := by
  cases visible with
  | reached reached => exact kept.reachable reached
  | replaying reached nodes block new count meets reconciled =>
      obtain ⟨holds, cached⟩ := kept.reachable reached
      obtain ⟨met, replays⟩ := meets
      have loadedHolds := kept.load (nodes 0) holds
      have loadedCached : CacheFromWire guard (Run.load processor (nodes 0) _) :=
        cacheFromWire_load (nodes 0) cached
      refine kept.replay _ _ ?_ (replayMeets_take count (replays new reconciled))
        (cacheFromWire_reconcile (nodes 0) block new loadedCached)
        (kept.reconcile (nodes 0) _ block new loadedHolds met reconciled)
      intro flashblock member
      obtain ⟨index, found⟩ :=
        (FlashblockCache.mem_drain _ _ flashblock).mp (List.mem_of_mem_take member)
      exact FlashblockCache.Stores.updateCanonical loadedCached block.number _ _ _ found

end Rule

end EthgasReth.Run
