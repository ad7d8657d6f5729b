import EthgasReth.Incremental
import EthgasReth.PendingState
import EthgasReth.Reference
import EthgasReth.Snapshots

/-!
# Coherence along a run

A snapshot stays replayed from build to build as long as the provider shows its
anchor whenever a build starts from its bundle, and flashblocks are appended in
the order of their blocks.
-/

set_option autoImplicit false

namespace EthgasReth.Coherence

open EthgasReth.Primitives
open EthgasReth.Lib
open EthgasReth.Execution
open EthgasReth.Pending
open EthgasReth.Build
open EthgasReth.Build.StateProcessor
open EthgasReth.Ledger
open EthgasReth.BuildSpec
open EthgasReth.Replay
open EthgasReth.Incremental
open EthgasReth.Processor
open EthgasReth.PendingState
open EthgasReth.Run
open EthgasReth.Snapshots

variable {processor : StateProcessor} {contracts : SystemContracts processor.evm}

/-! ## The anchor -/

section Anchor

variable {chain : Chain contracts} {check : Check processor} {client : Client}
  {flashblocks : List FlashBlock} {prev : Option PendingBlocks} {built pending : PendingBlocks}
  {run next : BuildRun processor} {final : View}

/-- The header and the state the provider shows under one number belong to one
block of the chain. -/
def Shows (chain : Chain contracts) (client : Client) : Prop :=
  ∀ number header view, client.headerByNumber number = .ok (some header) →
    client.stateByBlockNumber number = .ok view →
    view = chain.stateOf (processor.alloy.hashSlow header)

/-- The provider still shows the snapshot's anchor where the next build looks
for it. -/
def AnchorKept (processor : StateProcessor) (client : Client) (pending : PendingBlocks) : Prop :=
  ∀ number ∈ anchorNumber pending.flashblocks, ∀ header,
    client.headerByNumber number = .ok (some header) →
    pending.anchor = some { header := header, hash := processor.alloy.hashSlow header }

theorem readAnchor_ok {number : Nat} {header : Header} {view : View}
    (success : readAnchor client number = .ok (header, view)) :
    client.headerByNumber number = .ok (some header) ∧
      client.stateByBlockNumber number = .ok view := by
  unfold readAnchor at success
  split at success
  · cases success
  · cases success
  · rename_i found headerRead
    split at success
    · cases success
    · rename_i state stateRead
      cases success
      exact ⟨headerRead, stateRead⟩

theorem returns_anchored (shows : Shows chain client)
    (returns : Returns client prev flashblocks next built) :
    next.view = chain.stateOf (processor.alloy.hashSlow next.anchor) := by
  obtain ⟨number, -, success⟩ := returns.anchored
  obtain ⟨headerRead, stateRead⟩ := readAnchor_ok success
  exact shows number _ _ headerRead stateRead

theorem returns_sameAnchor (shows : Shows chain client)
    (old : Replayed chain check pending run final) (kept : AnchorKept processor client pending)
    (sameNumber : anchorNumber flashblocks = anchorNumber pending.flashblocks)
    (returns : Returns client prev flashblocks next built) :
    next.anchor = run.anchor ∧ next.view = run.view := by
  obtain ⟨number, isNumber, success⟩ := returns.anchored
  obtain ⟨headerRead, -⟩ := readAnchor_ok success
  rw [sameNumber] at isNumber
  have recorded := kept number isNumber next.anchor headerRead
  rw [old.finished.2] at recorded
  have same : next.anchor = run.anchor :=
    (congrArg SealedHeader.header (Option.some.inj recorded)).symm
  refine ⟨same, ?_⟩
  rw [returns_anchored shows returns, old.anchored, same]

theorem anchorNumber_append {flashblock : FlashBlock} (nonempty : flashblocks ≠ [])
    (ordered : Ordered (flashblocks ++ [flashblock])) :
    anchorNumber (flashblocks ++ [flashblock]) = anchorNumber flashblocks := by
  obtain ⟨before, values, shape, -, earlier⟩ :=
    groupEntries_last FlashBlock.blockNumber flashblocks flashblock ordered
  rw [anchorNumber, anchorNumber, flashblocksPerBlock, flashblocksPerBlock, shape, earlier]
  cases before with
  | cons group rest => rfl
  | nil =>
      by_cases newBlock : values = []
      · rw [newBlock] at earlier
        exact absurd ((groupEntries_eq_nil _ _).mp (by simpa using earlier)) nonempty
      · simp [newBlock]

end Anchor

/-! ## Along a run -/

def InOrder (pending : PendingBlocks) (flashblock : FlashBlock) : Prop :=
  ∀ other ∈ pending.flashblocks, other.blockNumber ≤ flashblock.blockNumber

/-- Runs on a chain, with a condition on the updates that build on the snapshot
they find: `appends` on the flashblock appended to it, `continues` where its own
flashblocks are built again. -/
def chainGuard (chain : Chain contracts) (appends : Client → PendingBlocks → FlashBlock → Prop)
    (continues : Client → PendingBlocks → Prop) : Guard where
  wire := fun _ => True
  flashblock := fun node prev flashblock => Shows chain node.client ∧
    ∀ pending, prev = some pending → Continues pending.value flashblock →
      appends node.client pending.value flashblock
  canonical := fun node prev block => Shows chain node.client ∧
    ∀ pending, prev = some pending →
      strategy processor node pending.value block = .continue → continues node.client pending.value

def Coherent (chain : Chain contracts) (check : Check processor) (pending : PendingBlocks) : Prop :=
  ∃ run final, Replayed chain check pending run final

theorem coherent_kept (lawful : processor.evm.Lawful) {chain : Chain contracts}
    {check : Check processor} {appends : Client → PendingBlocks → FlashBlock → Prop}
    {continues : Client → PendingBlocks → Prop}
    (implies : ∀ context run success, agrees context run success → check context run success)
    (stays : ∀ client pending, continues client pending → AnchorKept processor client pending)
    (appendStays : ∀ client pending flashblock, appends client pending flashblock →
      AnchorKept processor client pending ∧ InOrder pending flashblock)
    (carries : ∀ client pending flashblock, appends client pending flashblock →
      ∀ run final, Replayed chain check pending run final →
      ∀ block ∈ run.blocks, block.flashblocks = sameBlock pending flashblock →
      ∀ extended : BlockRun processor, extended.flashblocks = block.flashblocks ++ [flashblock] →
        ∀ known ∈ block.runs, ∀ success, check block.context known success →
          check extended.context known success) :
    KeptByBuilds processor (chainGuard chain appends continues) (Coherent chain check) := by
  intro node prev update built before allowed builds
  cases builds with
  | @fresh _ flashblock _ _ _ success =>
      obtain ⟨next, returns⟩ := buildPendingState_ok success
      have shows := allowed.2.1.1
      have ordered : Ordered [flashblock] := List.pairwise_singleton _ _
      exact ⟨next, _, fresh_replayed lawful ordered implies
        (returns_anchored shows returns) returns⟩
  | @appended pending flashblock _ continues success =>
      obtain ⟨run, final, old⟩ := before pending rfl
      obtain ⟨-, ⟨shows, met⟩, -⟩ := allowed
      have condition := met pending rfl continues
      obtain ⟨kept, inOrder⟩ := appendStays _ _ _ condition
      obtain ⟨next, returns⟩ := buildPendingState_ok success
      have ordered : Ordered (pending.value.flashblocks ++ [flashblock]) := by
        refine List.pairwise_append.mpr ⟨old.ordered, List.pairwise_singleton _ _, ?_⟩
        intro other member last isLast
        rw [List.mem_singleton.mp isLast]
        exact inOrder other member
      obtain ⟨sameAnchor, sameView⟩ := returns_sameAnchor shows old kept
        (anchorNumber_append old.nonempty ordered) returns
      exact ⟨next, _, appended_replayed lawful implies old ordered sameAnchor sameView
        (carries _ _ _ condition run final old) returns⟩
  | @retained pending block _ success =>
      obtain ⟨run, final, old⟩ := before pending rfl
      obtain ⟨next, returns⟩ := buildPendingState_ok success
      have ordered : Ordered (Snapshots.retained node block pending.value) :=
        List.Pairwise.filter _ old.ordered
      exact ⟨next, _, fresh_replayed lawful ordered implies
        (returns_anchored allowed.1 returns) returns⟩
  | @continued pending block _ continuing success =>
      obtain ⟨run, final, old⟩ := before pending rfl
      obtain ⟨shows, met⟩ := allowed
      obtain ⟨next, returns⟩ := buildPendingState_ok success
      obtain ⟨sameAnchor, sameView⟩ := returns_sameAnchor shows old
        (stays _ _ (met pending rfl continuing)) rfl returns
      exact ⟨next, _, continued_replayed lawful old sameAnchor sameView returns⟩

/-! ## The state that is served -/

def Opens (chain : Chain contracts) (provider : Provider) : Prop :=
  ∀ hash view, provider.stateByBlockHash hash = .ok view → view = chain.stateOf hash

/-! ## The main result -/

/-- The bundle is the execution of the snapshot's flashblocks on the state of the
recorded anchor, and whatever state is served from it is that execution, on an
anchor that is canonical. -/
def ExecutedOnAnchor (chain : Chain contracts) (pending : Arc PendingBlocks) : Prop :=
  ∃ anchor final, pending.value.anchor = some anchor ∧
    executeFlashblocks processor anchor.header pending.value.flashblocks
      (chain.stateOf anchor.hash) = some final ∧
    (PendingStateProvider.mk (chain.stateOf anchor.hash) pending.value.bundleState).world =
      final.world ∧
    ∀ provider cached served, Opens chain provider → Keeps cached pending →
      provider.localPendingState (pendingOverlay (some pending) cached).1 = .ok (some served) →
      (∃ number, provider.blockNumber anchor.hash = .ok (some number)) ∧
        served.world = final.world

theorem coherent_executed (lawful : processor.evm.Lawful) {chain : Chain contracts}
    {check : Check processor} {pending : Arc PendingBlocks}
    (coherent : Coherent chain check pending.value) : ExecutedOnAnchor chain pending := by
  obtain ⟨run, final, replayed⟩ := coherent
  have isAnchor := replayed.finished.2
  have denotes := replayed.denotes lawful
  rw [replayed.anchored] at denotes
  refine ⟨_, final, isAnchor, ?_, denotes, ?_⟩
  · have executed := blocksReplay_execute replayed.prepares replayed.signed replayed.replays
    rw [replayed.grouped] at executed
    rw [executeFlashblocks, ← replayed.anchored]
    exact executed
  · intro provider cached served opens keeps success
    have isOverlay : (pendingOverlay (some pending) cached).1 = overlayOf (some pending) :=
      pendingOverlay_fst fun other isOther => by
        cases isOther
        exact keeps
    rw [isOverlay] at success
    obtain ⟨found, overlayRan, success⟩ := bind_eq_ok success
    cases found with
    | none => cases success
    | some overlay =>
        obtain ⟨view, opened, success⟩ := bind_eq_ok success
        cases success
        obtain ⟨isFound, onChain⟩ := servedOverlay_ok overlayRan
        simp only [overlayOf, isAnchor, Option.bind_some, Option.map_some] at isFound
        cases isFound
        rw [PendingOverlay.fromBundle, opens _ _ opened]
        exact ⟨onChain, denotes⟩

/-- Runs in which, whenever a build starts from a snapshot's bundle, the provider
shows the snapshot's anchor, and what is appended comes in order. -/
def coherenceGuard (chain : Chain contracts) : Guard :=
  chainGuard chain
    (fun client pending flashblock => AnchorKept processor client pending ∧
      InOrder pending flashblock)
    (AnchorKept processor)

theorem published_executed_on_anchor (lawful : processor.evm.Lawful) (chain : Chain contracts)
    {state : ProcessorState} {pending : Arc PendingBlocks}
    (visible : Visible processor (coherenceGuard chain) state)
    (published : state.pendingBlocks = some pending) : ExecutedOnAnchor chain pending := by
  have kept : KeptByBuilds processor (coherenceGuard chain)
      (Coherent chain fun _ _ _ => True) :=
    coherent_kept lawful (fun _ _ _ _ => trivial) (fun _ _ kept => kept) (fun _ _ _ met => met)
      (fun _ _ _ _ _ _ _ _ _ _ _ _ _ _ _ _ => trivial)
  exact coherent_executed lawful ((kept.visible visible).1 pending published)

/-- A chain on which a block's hash is the number of transactions Alice has sent
up to it. -/
def aliceChain : @Chain Reference.processor Reference.systemContracts where
  stateOf := fun hash => Reference.stateAt hash.toNat
  live := fun hash => Reference.stateAt_live hash.toNat

theorem nodeAt_shows (best : Nat) {nonce : Nat → Nat} (small : ∀ number, nonce number < 2 ^ 256) :
    Shows aliceChain (Reference.nodeAt best nonce).client := by
  intro number header view headerRead stateRead
  cases stateRead
  change Except.ok (if number ≤ best then _ else _) = _ at headerRead
  split at headerRead
  · cases headerRead
    change _ = Reference.stateAt (BitVec.ofNat 256 (nonce number)).toNat
    rw [BitVec.toNat_ofNat, Nat.mod_eq_of_lt (small number)]
  · cases headerRead

def genesis : Node := Reference.nodeAt 0 fun _ => 0

theorem genesis_shows : Shows aliceChain genesis.client :=
  nodeAt_shows 0 fun _ => by decide

def executing : FlashBlock := Reference.flashblock 7 1 0 [(1, 0)] [(1, true)]

def following : FlashBlock := Reference.flashblock 7 1 1 [(2, 1)] [(2, true)]

def executed : ProcessorState := Reference.afterFlashblocks genesis [executing]

theorem executed_reachable {appends : Client → PendingBlocks → FlashBlock → Prop}
    {continues : Client → PendingBlocks → Prop} :
    Reachable Reference.processor (chainGuard aliceChain appends continues) executed := by
  refine .step (.init ⟨genesis.client, rfl⟩) ?_
  refine .update (fun _ => genesis) (.flashblock executing) ⟨trivial, genesis_shows, ?_⟩
  intro pending isPending
  cases isPending

theorem executed_snapshot {pending : Arc PendingBlocks}
    (isPending : (load Reference.processor genesis executed).pendingBlocks = some pending) :
    pending.value.flashblocks = [executing] ∧
      AnchorKept Reference.processor genesis.client pending.value := by
  have snapshot : (load Reference.processor genesis executed).pendingBlocks.map (fun pending =>
      (pending.value.flashblocks, pending.value.anchor)) =
        some ([executing], some ⟨Reference.header 0 0, 0⟩) := rfl
  rw [isPending] at snapshot
  have whole : pending.value.flashblocks = [executing] :=
    congrArg Prod.fst (Option.some.inj snapshot)
  refine ⟨whole, ?_⟩
  intro number isNumber header headerRead
  rw [whole] at isNumber
  cases isNumber
  cases headerRead
  exact congrArg Prod.snd (Option.some.inj snapshot)

theorem following_met {before : Arc PendingBlocks}
    (isBefore : (load Reference.processor genesis executed).pendingBlocks = some before) :
    AnchorKept Reference.processor genesis.client before.value ∧ InOrder before.value following := by
  obtain ⟨earlier, kept⟩ := executed_snapshot isBefore
  refine ⟨kept, ?_⟩
  intro other member
  rw [earlier] at member
  rw [List.mem_singleton.mp member]
  decide

/-- Both flashblocks on a chain that stays as it is. -/
theorem published_executed_on_anchor_two :
    ∃ pending, (Reference.afterFlashblocks genesis [executing, following]).pendingBlocks =
        some pending ∧
      pending.value.flashblocks = [executing, following] ∧ ExecutedOnAnchor aliceChain pending := by
  have reached : Reachable Reference.processor (coherenceGuard aliceChain)
      (Reference.afterFlashblocks genesis [executing, following]) := by
    refine .step executed_reachable (.update (fun _ => genesis) (.flashblock following) ?_)
    refine ⟨trivial, genesis_shows, ?_⟩
    intro before isBefore _
    exact following_met isBefore
  have evaluates : (Reference.afterFlashblocks genesis
      [executing, following]).pendingBlocks.map (fun pending => pending.value.flashblocks) =
        some [executing, following] := rfl
  obtain ⟨pending, isPending, whole⟩ := Option.map_eq_some_iff.mp evaluates
  exact ⟨pending, isPending, whole, published_executed_on_anchor Reference.evm_lawful aliceChain
    (.reached reached) isPending⟩

/-- A node at height 1, before and after block 1 was replaced by one with five
transactions of Alice. -/
def beforeReorg : Node := Reference.nodeAt 1 fun _ => 0

def afterReorg : Node := Reference.nodeAt 1 fun _ => 5

/-- Block 2 has a transaction of Alice's in its first flashblock and none in the
second. -/
def beforeSwitch : FlashBlock := Reference.flashblock 7 2 0 [(1, 0)] [(1, true)]

def afterSwitch : FlashBlock := Reference.flashblock 7 2 1 [] []

/-- The second flashblock arrives after the reorganisation: the snapshot keeps the
writes made on the old block 1 and is anchored on the new one, on which Alice's
transaction does not even execute. -/
theorem bundle_moved_to_other_anchor :
    ¬ ∀ (processor : StateProcessor) (contracts : SystemContracts processor.evm)
      (chain : Chain contracts) (state : ProcessorState) (pending : Arc PendingBlocks),
      processor.evm.Lawful →
      Visible processor (chainGuard chain (fun _ _ _ => True) fun _ _ => True) state →
      state.pendingBlocks = some pending → ExecutedOnAnchor chain pending := by
  intro claim
  let first := Reference.processor.processUpdate (fun _ => beforeReorg) (.flashblock beforeSwitch)
    (StateProcessor.initial beforeReorg.client)
  let second := Reference.processor.processUpdate (fun _ => afterReorg) (.flashblock afterSwitch)
    first
  have reached : Reachable Reference.processor
      (chainGuard aliceChain (fun _ _ _ => True) fun _ _ => True) second := by
    have begun : Reachable Reference.processor
        (chainGuard aliceChain (fun _ _ _ => True) fun _ _ => True) first :=
      .step (.init ⟨beforeReorg.client, rfl⟩) (.update (fun _ => beforeReorg)
        (.flashblock beforeSwitch)
        ⟨trivial, nodeAt_shows 1 fun _ => by decide, fun _ _ _ => trivial⟩)
    exact .step begun (.update (fun _ => afterReorg) (.flashblock afterSwitch)
      ⟨trivial, nodeAt_shows 1 fun _ => by decide, fun _ _ _ => trivial⟩)
  have evaluates : second.pendingBlocks.map
      (fun pending => (pending.value.flashblocks, pending.value.anchor)) =
        some ([beforeSwitch, afterSwitch], some ⟨Reference.header 1 5, 5⟩) := rfl
  obtain ⟨pending, isPending, same⟩ := Option.map_eq_some_iff.mp evaluates
  have whole : pending.value.flashblocks = [beforeSwitch, afterSwitch] := congrArg Prod.fst same
  have isAnchor : pending.value.anchor = some ⟨Reference.header 1 5, 5⟩ := congrArg Prod.snd same
  obtain ⟨anchor, final, sameAnchor, executes, -⟩ := claim Reference.processor
    Reference.systemContracts aliceChain second pending Reference.evm_lawful (.reached reached)
    isPending
  rw [isAnchor] at sameAnchor
  cases sameAnchor
  have fails : (executeFlashblocks Reference.processor (Reference.header 1 5)
      [beforeSwitch, afterSwitch] (aliceChain.stateOf 5)).isSome = false := by decide
  rw [whole] at executes
  change executeFlashblocks Reference.processor (Reference.header 1 5)
      [beforeSwitch, afterSwitch] (aliceChain.stateOf 5) = some final at executes
  rw [executes] at fails
  cases fails

end EthgasReth.Coherence
