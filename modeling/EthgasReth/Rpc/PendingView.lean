import EthgasReth.Ingress
import EthgasReth.PendingState
import EthgasReth.Rpc.GetLogs

/-!
# What `pending` resolves to

The overlay's cache beside the node's tasks, and the reads that go through the gates: the
callers of `served_overlay` in `runner/src/eth_api.rs`, and `builder_balance` of `rpc/eth.rs`,
which has the gates for itself.
-/

set_option autoImplicit false

namespace EthgasReth.Rpc.PendingView

open EthgasReth.Primitives
open EthgasReth.Lib
open EthgasReth.Execution
open EthgasReth.Pending
open EthgasReth.Build
open EthgasReth.Build.StateProcessor
open EthgasReth.Ledger
open EthgasReth.BuildSpec
open EthgasReth.Processor
open EthgasReth.Snapshots
open EthgasReth.Ingress
open EthgasReth.PendingState
open EthgasReth.Rpc.GetLogs

/-! ## The cache and the tasks -/

structure Viewed where
  node : FlashblocksState
  cached : Cached

variable (processor : StateProcessor)

/-- The read holds the cache's lock; the published cell is loaded once, under it. -/
inductive Step : Viewed → Viewed → Prop
  | node {viewed : Viewed} {next : FlashblocksState}
      (taken : Ingress.Step processor viewed.node next) : Step viewed { viewed with node := next }
  | read {viewed : Viewed} :
      Step viewed { viewed with
        cached := (pendingOverlay viewed.node.pendingBlocks viewed.cached).2 }

def views : System Viewed where
  Init := fun viewed => (tasks processor).Init viewed.node ∧ viewed.cached = none
  Step := Step processor

/-! ## The balances of a snapshot -/

def newestBalance (flashblocks : List FlashBlock) (address : Address) : Option U256 :=
  flashblocks.reverse.findSome? fun flashblock =>
    flashblock.metadata.newAccountBalances.lookup address

def NewestBalances (pending : PendingBlocks) : Prop :=
  ∀ address, pending.accountBalances.lookup address = newestBalance pending.flashblocks address

section Balances

variable {processor}

theorem newestBalance_append (earlier later : List FlashBlock) (address : Address) :
    newestBalance (earlier ++ later) address =
      (newestBalance later address).or (newestBalance earlier address) := by
  rw [newestBalance, List.reverse_append, List.findSome?_append]
  rfl

theorem lookup_collectBalances (flashblocks : List FlashBlock) (address : Address) :
    (collectBalances flashblocks).lookup address = newestBalance flashblocks address := by
  unfold collectBalances
  induction flashblocks using List.reverseRecOn with
  | nil => rfl
  | append_singleton earlier last ih =>
      rw [List.foldl_concat, HashMap.lookup_extend, ih, newestBalance_append]
      simp [newestBalance]

theorem recordBalances_extend (balances : HashMap Address U256) (builder : PendingBlocksBuilder) :
    recordBalances balances builder =
      { builder with accountBalances := builder.accountBalances.extend balances } := by
  unfold recordBalances HashMap.extend
  induction balances.entries generalizing builder with
  | nil => rfl
  | cons entry rest ih =>
      rw [List.foldl_cons, ih]
      rfl

theorem recordRuns_balances {context : BlockContext processor} {index : Nat}
    {runs : List TransactionRun} {tally final : Tally}
    (success : recordRuns context index runs tally = .ok final) :
    final.builder.accountBalances = tally.builder.accountBalances := by
  induction runs generalizing index tally with
  | nil =>
      cases success
      rfl
  | cons run rest ih =>
      obtain ⟨next, first, success⟩ := bind_eq_ok success
      obtain ⟨produced, -, -, rfl⟩ := recordRun_ok first
      rw [ih success]
      simp only [Tally.withTransactionState, recorded, PendingBlocksBuilder.withTransactionState,
        PendingBlocksBuilder.withReceipt]
      by_cases known : (tally.builder.transactionsByHash.lookup run.hash).isSome
      · rw [PendingBlocksBuilder.withTransaction_known (by exact known)]
        rfl
      · rw [PendingBlocksBuilder.withTransaction_fresh (by exact known)]
        rfl

theorem recordBlock_balances {block : BlockRun processor} {builder after : PendingBlocksBuilder}
    (success : recordBlock block builder = .ok after)
    (newest : ∀ address, builder.accountBalances.lookup address =
      newestBalance builder.flashblocks address) (address : Address) :
    after.accountBalances.lookup address = newestBalance after.flashblocks address := by
  obtain ⟨tally, runsRan, success⟩ := bind_eq_ok success
  cases success
  obtain ⟨flashblocks, -⟩ := recordRuns_frame runsRan
  have balances := recordRuns_balances runsRan
  simp only [recordBalances_extend]
  rw [HashMap.lookup_extend, lookup_collectBalances, balances, flashblocks]
  simp only [PendingBlocksBuilder.withHeader, PendingBlocksBuilder.withFlashblocks]
  rw [newest address, newestBalance_append]

theorem recordBlocks_balances {blocks : List (BlockRun processor)}
    {builder after : PendingBlocksBuilder} (success : recordBlocks blocks builder = .ok after)
    (newest : ∀ address, builder.accountBalances.lookup address =
      newestBalance builder.flashblocks address) (address : Address) :
    after.accountBalances.lookup address = newestBalance after.flashblocks address := by
  induction blocks generalizing builder with
  | nil =>
      cases success
      exact newest address
  | cons block rest ih =>
      obtain ⟨next, first, success⟩ := bind_eq_ok success
      exact ih success (recordBlock_balances first newest)

theorem builds_balances {node : Node} {prev : Option (Arc PendingBlocks)} {update : StateUpdate}
    {built : PendingBlocks} (builds : Builds processor node prev update built) :
    NewestBalances built := by
  obtain ⟨earlier, flashblocks, run, returns⟩ := builds.returns
  obtain ⟨earliest, latest, last, -, -, -, -, rfl⟩ :=
    PendingBlocksBuilder.build_ok returns.finishes
  intro address
  exact recordBlocks_balances returns.records (fun _ => rfl) address

end Balances

/-! ## The cache shows nothing else -/

/-- Allocated below `next`, and no address is that of two values. -/
structure Allocated {α : Type} (next : Nat) (held : List (Arc α)) : Prop where
  below : ∀ pointer ∈ held, pointer.address < next
  distinct : ∀ pointer ∈ held, ∀ other ∈ held, pointer.address = other.address → pointer = other

/-- What is kept stays allocated, with one more pointer at most, and that at the next address. -/
theorem Allocated.extend {α : Type} {next later : Nat} {held kept : List (Arc α)}
    {fresh : Option (Arc α)} (allocated : Allocated next held) (grows : next ≤ later)
    (known : ∀ pointer ∈ kept, pointer ∈ held ∨ fresh = some pointer)
    (allocates : ∀ pointer, fresh = some pointer → pointer.address = next ∧ next < later) :
    Allocated later kept where
  below := by
    intro pointer member
    rcases known pointer member with old | isNew
    · have below := allocated.below pointer old
      omega
    · have atNext := allocates pointer isNew
      omega
  distinct := by
    intro pointer member other otherMember same
    rcases known pointer member with old | isNew
    · rcases known other otherMember with otherOld | otherNew
      · exact allocated.distinct pointer old other otherOld same
      · have below := allocated.below pointer old
        have atNext := allocates other otherNew
        omega
    · rcases known other otherMember with otherOld | otherNew
      · have below := allocated.below other otherOld
        have atNext := allocates pointer isNew
        omega
      · exact Option.some.inj (isNew.symm.trans otherNew)

def Viewed.held (viewed : Viewed) : List (Arc PendingBlocks) :=
  viewed.node.snapshots ++ (viewed.cached.map Prod.fst).toList

structure Coherent (viewed : Viewed) : Prop where
  allocated : Allocated viewed.node.nextAddress viewed.held
  overlays : ∀ snapshot overlay, viewed.cached = some (snapshot, overlay) →
    overlayOf (some snapshot) = some overlay
  newest : ∀ snapshot ∈ viewed.held, NewestBalances snapshot.value

section Coherent

variable {processor} {viewed : Viewed}

theorem node_snapshots {state next : FlashblocksState}
    (taken : Ingress.Step processor state next) :
    state.nextAddress ≤ next.nextAddress ∧ ∃ fresh : Option (Arc PendingBlocks),
      (∀ snapshot ∈ next.snapshots, snapshot ∈ state.snapshots ∨ fresh = some snapshot) ∧
      ∀ snapshot, fresh = some snapshot →
        (snapshot.address = state.nextAddress ∧ state.nextAddress < next.nextAddress) ∧
        ∃ update prev, Builds processor state.node prev update snapshot.value := by
  cases taken with
  | subscriber taken =>
      cases taken <;> exact ⟨le_rfl, none, fun _ member => Or.inl member, by simp⟩
  | stream taken =>
      obtain ⟨sameAddress, held⟩ := stream_snapshots taken
      exact ⟨by omega, none, fun snapshot member => Or.inl (held snapshot member), by simp⟩
  | loop taken =>
      obtain ⟨later, held⟩ := loop_snapshots taken
      refine ⟨later, ?_⟩
      by_cases made : ∃ snapshot ∈ next.snapshots, snapshot ∉ state.snapshots
      · obtain ⟨fresh, member, unknown⟩ := made
        rcases held fresh member with earlier |
          ⟨update, prev, built, ready, success, builds, isNew, bumped⟩
        · exact absurd earlier unknown
        refine ⟨some fresh, ?_, ?_⟩
        · intro snapshot inNext
          rcases held snapshot inNext with earlier | ⟨other, before, -, otherReady, same, -, -, -⟩
          · exact Or.inl earlier
          · cases ready.symm.trans otherReady
            exact Or.inr (Option.some.inj (success.symm.trans same))
        · intro snapshot isSame
          cases isSame
          rw [isNew]
          exact ⟨⟨rfl, by omega⟩, update, prev, builds⟩
      · refine ⟨none, fun snapshot member => Or.inl ?_, by simp⟩
        by_contra unknown
        exact made ⟨snapshot, member, unknown⟩
  | world taken => cases taken <;> exact ⟨le_rfl, none, fun _ member => Or.inl member, by simp⟩

theorem Coherent.node (coherent : Coherent viewed) {next : FlashblocksState}
    (taken : Ingress.Step processor viewed.node next) :
    Coherent { viewed with node := next } := by
  obtain ⟨later, fresh, known, allocates⟩ := node_snapshots taken
  have kept : ∀ snapshot ∈ ({ viewed with node := next } : Viewed).held,
      snapshot ∈ viewed.held ∨ fresh = some snapshot := by
    intro snapshot member
    rcases List.mem_append.mp member with inNode | inCache
    · rcases known snapshot inNode with earlier | isNew
      · exact Or.inl (List.mem_append_left _ earlier)
      · exact Or.inr isNew
    · exact Or.inl (List.mem_append_right _ inCache)
  refine ⟨?_, coherent.overlays, ?_⟩
  · exact coherent.allocated.extend later kept fun snapshot isNew => (allocates snapshot isNew).1
  · intro snapshot member
    rcases kept snapshot member with earlier | isNew
    · exact coherent.newest snapshot earlier
    · obtain ⟨-, update, prev, builds⟩ := allocates snapshot isNew
      exact builds_balances builds

theorem Coherent.same (coherent : Coherent viewed) {pending snapshot : Arc PendingBlocks}
    {overlay : PendingOverlay} (published : viewed.node.pendingBlocks = some pending)
    (isCached : viewed.cached = some (snapshot, overlay))
    (same : snapshot.ptrEq pending = true) : snapshot = pending := by
  refine coherent.allocated.distinct snapshot ?_ pending ?_ ?_
  · simp [Viewed.held, isCached]
  · simp [Viewed.held, FlashblocksState.snapshots, published]
  · simpa [Arc.ptrEq] using same

theorem Coherent.keeps (coherent : Coherent viewed) {pending : Arc PendingBlocks}
    (published : viewed.node.pendingBlocks = some pending) : Keeps viewed.cached pending := by
  intro snapshot overlay isCached same
  have isPending := coherent.same published isCached same
  subst isPending
  exact coherent.overlays snapshot overlay isCached

/-- The overlay is the published snapshot's, and the cache keeps it or nothing. -/
theorem pendingOverlay_eq (coherent : Coherent viewed) :
    (pendingOverlay viewed.node.pendingBlocks viewed.cached).1 =
        overlayOf viewed.node.pendingBlocks ∧
      ∀ snapshot overlay,
        (pendingOverlay viewed.node.pendingBlocks viewed.cached).2 = some (snapshot, overlay) →
        viewed.node.pendingBlocks = some snapshot ∧ overlayOf (some snapshot) = some overlay := by
  refine ⟨pendingOverlay_fst fun pending published => coherent.keeps published, ?_⟩
  intro snapshot overlay isKept
  cases published : viewed.node.pendingBlocks with
  | none => simp [pendingOverlay, published] at isKept
  | some pending =>
      cases anchored : pending.value.anchor with
      | none => simp [pendingOverlay, published, anchored] at isKept
      | some anchor =>
          cases hit : viewed.cached.filter fun entry => entry.1.ptrEq pending with
          | none =>
              simp only [pendingOverlay, published, anchored, hit, Option.some.injEq,
                Prod.mk.injEq] at isKept
              obtain ⟨rfl, rfl⟩ := isKept
              simp [overlayOf, anchored]
          | some entry =>
              obtain ⟨inCache, same⟩ := Option.filter_eq_some_iff.mp hit
              simp only [pendingOverlay, published, anchored, hit] at isKept
              cases inCache.symm.trans isKept
              have isPending := coherent.same published inCache same
              subst isPending
              exact ⟨rfl, coherent.overlays _ _ inCache⟩

theorem reachable_coherent (reached : (views processor).Reachable viewed) : Coherent viewed := by
  apply reached.invariant
  · intro state initial
    obtain ⟨⟨client, now, isNew⟩, empty⟩ := initial
    have nothing : state.held = [] := by
      simp [Viewed.held, isNew, empty, FlashblocksState.snapshots, FlashblocksState.new,
        snapshotsOf]
    exact ⟨⟨by simp [nothing], by simp [nothing]⟩, by simp [empty], by simp [nothing]⟩
  · intro state next _ coherent taken
    cases taken with
    | node taken => exact coherent.node taken
    | read =>
        obtain ⟨-, cached⟩ := pendingOverlay_eq coherent
        have kept : ∀ snapshot ∈ ({ state with
            cached := (pendingOverlay state.node.pendingBlocks state.cached).2 } : Viewed).held,
            snapshot ∈ state.held := by
          intro snapshot member
          rcases List.mem_append.mp member with inNode | inCache
          · exact List.mem_append_left _ inNode
          · simp only [Option.mem_toList, Option.map_eq_some_iff] at inCache
            obtain ⟨⟨pending, overlay⟩, isCached, rfl⟩ := inCache
            obtain ⟨published, -⟩ := cached pending overlay isCached
            simp [Viewed.held, FlashblocksState.snapshots, published]
        refine ⟨?_, fun snapshot overlay isCached => (cached snapshot overlay isCached).2, ?_⟩
        · exact coherent.allocated.extend le_rfl
            (fun snapshot member => Or.inl (kept snapshot member)) (by simp : ∀ pointer, none = some pointer → _)
        · exact fun snapshot member => coherent.newest snapshot (kept snapshot member)

end Coherent

/-! ## The gates -/

inductive BlockId where
  | hash (blockHash : B256)
  | number (number : BlockNumberOrTag)
  deriving DecidableEq

namespace BlockId

def pending : BlockId := .number .pending

def latest : BlockId := .number .latest

def isPending (blockId : BlockId) : Bool := blockId = pending

end BlockId

/-- reth's `eth` API beside its provider: what the overridden methods fall back on, with
`balance` as the node's own API has it. -/
structure EthApi (Env : Type) where
  provider : Provider
  evmEnvForHeader : SealedHeader → Except String Env
  evmEnvAt : BlockId → Except String (Env × BlockId)
  balance : Address → Option BlockId → Except String U256

section Gates

variable {Env : Type} (api : EthApi Env)

def evmEnvAt (overlay : Option PendingOverlay) (blockId : BlockId) :
    Except String (Env × BlockId) :=
  if blockId.isPending then do
    match ← api.provider.servedOverlay overlay with
    | some overlay =>
        let evmEnv ← api.evmEnvForHeader overlay.latestHeader
        return (evmEnv, .pending)
    | none => api.evmEnvAt blockId
  else api.evmEnvAt blockId

def builderBalance (published : Option (Arc PendingBlocks)) (address : Address) : Option U256 := do
  let snapshot ← published
  if api.provider.engineAtLeast snapshot.value.latestBlockNumber then none
  else
    let anchor ← snapshot.value.anchor
    match api.provider.blockNumber anchor.hash with
    | .ok (some _) => snapshot.value.accountBalances.lookup address
    | _ => none

def getBalance (published : Option (Arc PendingBlocks)) (address : Address)
    (blockNumber : Option BlockId) : Except String U256 :=
  let blockId := blockNumber.getD .latest
  if blockId.isPending then
    match builderBalance api published address with
    | some balance => .ok balance
    | none => api.balance address blockNumber
  else api.balance address blockNumber

end Gates

/-! ## The reads agree -/

section Agree

variable {Env : Type}

/-- `pending` stands for this snapshot: no engine block is as new, and its anchor is on the
chain. -/
structure Stands (provider : Provider) (published : Option (Arc PendingBlocks))
    (snapshot : PendingBlocks) (anchor : SealedHeader) : Prop where
  published : published.map (·.value) = some snapshot
  anchored : snapshot.anchor = some anchor
  newer : ∀ enginePending, provider.pendingBlockNumHash = .ok (some enginePending) →
    enginePending.number < snapshot.latestBlockNumber
  canonical : ∃ number, provider.blockNumber anchor.hash = .ok (some number)

/-- The environment, the state and the balances are all of the snapshot. -/
structure ReadsFrom (api : EthApi Env) (viewed : Viewed) (snapshot : PendingBlocks)
    (anchor : SealedHeader) : Prop where
  env : evmEnvAt api (pendingOverlay viewed.node.pendingBlocks viewed.cached).1 .pending =
    (api.evmEnvForHeader snapshot.latestHeader).map fun env => (env, .pending)
  world : api.provider.localPendingState
        (pendingOverlay viewed.node.pendingBlocks viewed.cached).1 =
    (api.provider.stateByBlockHash anchor.hash).map fun view =>
      some { anchor := view, bundle := snapshot.bundleState }
  balance : ∀ address, getBalance api viewed.node.pendingBlocks address (some .pending) =
    (newestBalance snapshot.flashblocks address).elim (api.balance address (some .pending)) .ok

structure ReadsElsewhere (api : EthApi Env) (viewed : Viewed) : Prop where
  state : evmEnvAt api (pendingOverlay viewed.node.pendingBlocks viewed.cached).1 .pending =
        api.evmEnvAt .pending ∧
      api.provider.localPendingState
        (pendingOverlay viewed.node.pendingBlocks viewed.cached).1 = .ok none ∨
    ∃ failure,
      evmEnvAt api (pendingOverlay viewed.node.pendingBlocks viewed.cached).1 .pending =
        .error failure ∧
      api.provider.localPendingState
        (pendingOverlay viewed.node.pendingBlocks viewed.cached).1 = .error failure
  balance : ∀ address, getBalance api viewed.node.pendingBlocks address (some .pending) =
    api.balance address (some .pending)

variable {api : EthApi Env} {published : Option (Arc PendingBlocks)}

theorem servedOverlay_stands {snapshot : PendingBlocks} {anchor : SealedHeader}
    (stands : Stands api.provider published snapshot anchor) :
    api.provider.servedOverlay (overlayOf published) =
      .ok (some (.fromBundle anchor snapshot.latestHeader snapshot.bundleState)) := by
  obtain ⟨pointer, isPublished, rfl⟩ := Option.map_eq_some_iff.mp stands.published
  obtain ⟨number, canonical⟩ := stands.canonical
  have older := engineAtLeast_eq_false.mpr stands.newer
  simp only [PendingBlocks.latestBlockNumber] at older
  simp [Provider.servedOverlay, overlayOf, isPublished, stands.anchored, PendingOverlay.fromBundle, older,
    canonical, bind, Except.bind]

theorem servedOverlay_elsewhere
    (elsewhere : ∀ snapshot anchor, ¬ Stands api.provider published snapshot anchor) :
    api.provider.servedOverlay (overlayOf published) = .ok none ∨
      ∃ failure, api.provider.servedOverlay (overlayOf published) = .error failure := by
  cases published with
  | none => exact Or.inl rfl
  | some pointer =>
      cases anchored : pointer.value.anchor with
      | none => simp [Provider.servedOverlay, overlayOf, anchored]
      | some anchor =>
          cases engine : api.provider.engineAtLeast pointer.value.latestBlockNumber with
          | true =>
              simp only [PendingBlocks.latestBlockNumber] at engine
              simp [Provider.servedOverlay, overlayOf, anchored, PendingOverlay.fromBundle, engine]
          | false =>
              have newer := engineAtLeast_eq_false.mp engine
              simp only [PendingBlocks.latestBlockNumber] at engine
              cases canonical : api.provider.blockNumber anchor.hash with
              | error failure =>
                  simp [Provider.servedOverlay, overlayOf, anchored, PendingOverlay.fromBundle, engine,
                    canonical, bind, Except.bind]
              | ok found =>
                  cases found with
                  | some number =>
                      exact absurd ⟨rfl, anchored, newer, number, canonical⟩
                        (elsewhere pointer.value anchor)
                  | none =>
                      simp [Provider.servedOverlay, overlayOf, anchored, PendingOverlay.fromBundle, engine,
                        canonical, bind, Except.bind]

theorem builderBalance_stands {snapshot : PendingBlocks} {anchor : SealedHeader}
    (stands : Stands api.provider published snapshot anchor) (address : Address) :
    builderBalance api published address = snapshot.accountBalances.lookup address := by
  obtain ⟨pointer, isPublished, rfl⟩ := Option.map_eq_some_iff.mp stands.published
  obtain ⟨number, canonical⟩ := stands.canonical
  have older := engineAtLeast_eq_false.mpr stands.newer
  simp [builderBalance, isPublished, older, stands.anchored, canonical]

theorem builderBalance_elsewhere
    (elsewhere : ∀ snapshot anchor, ¬ Stands api.provider published snapshot anchor)
    (address : Address) : builderBalance api published address = none := by
  cases published with
  | none => rfl
  | some pointer =>
      cases engine : api.provider.engineAtLeast pointer.value.latestBlockNumber with
      | true => simp [builderBalance, engine]
      | false =>
          cases anchored : pointer.value.anchor with
          | none => simp [builderBalance, engine, anchored]
          | some anchor =>
              have newer := engineAtLeast_eq_false.mp engine
              rcases canonical : api.provider.blockNumber anchor.hash with failure | found
              · simp [builderBalance, engine, anchored, canonical]
              cases found with
              | none => simp [builderBalance, engine, anchored, canonical]
              | some number =>
                  exact absurd ⟨rfl, anchored, newer, number, canonical⟩
                    (elsewhere pointer.value anchor)

theorem evmEnvAt_served {overlay : Option PendingOverlay} {found : PendingOverlay}
    (served : api.provider.servedOverlay overlay = .ok (some found)) :
    evmEnvAt api overlay .pending =
      (api.evmEnvForHeader found.latestHeader).map fun env => (env, .pending) := by
  simp only [evmEnvAt, served, BlockId.isPending, bind, Except.bind, decide_true, if_true]
  cases api.evmEnvForHeader found.latestHeader <;> rfl

theorem getBalance_pending (address : Address) :
    getBalance api published address (some .pending) =
      (builderBalance api published address).elim (api.balance address (some .pending)) .ok := by
  simp only [getBalance, Option.getD_some, BlockId.isPending]
  cases builderBalance api published address <;> rfl

variable {processor} {viewed : Viewed}

theorem stands_readsFrom (reached : (views processor).Reachable viewed) {snapshot : PendingBlocks}
    {anchor : SealedHeader}
    (stands : Stands api.provider viewed.node.pendingBlocks snapshot anchor) :
    ReadsFrom api viewed snapshot anchor := by
  have coherent := reachable_coherent reached
  have served := servedOverlay_stands stands
  rw [← (pendingOverlay_eq coherent).1] at served
  obtain ⟨pointer, isPublished, isSnapshot⟩ := Option.map_eq_some_iff.mp stands.published
  have newest : NewestBalances snapshot := by
    rw [← isSnapshot]
    apply coherent.newest
    simp [Viewed.held, FlashblocksState.snapshots, isPublished]
  constructor
  · exact evmEnvAt_served served
  · exact localPendingState_served served
  · intro address
    rw [getBalance_pending, builderBalance_stands stands, newest address]

theorem elsewhere_readsElsewhere (reached : (views processor).Reachable viewed)
    (elsewhere : ∀ snapshot anchor,
      ¬ Stands api.provider viewed.node.pendingBlocks snapshot anchor) :
    ReadsElsewhere api viewed := by
  have overlay := (pendingOverlay_eq (reachable_coherent reached)).1
  constructor
  · rcases servedOverlay_elsewhere elsewhere with served | ⟨failure, served⟩
    · rw [← overlay] at served
      left
      constructor
      · simp only [evmEnvAt, served, BlockId.isPending]
        rfl
      · simp only [Provider.localPendingState, served]
        rfl
    · rw [← overlay] at served
      refine Or.inr ⟨failure, ?_, ?_⟩
      · simp only [evmEnvAt, served, BlockId.isPending]
        rfl
      · simp only [Provider.localPendingState, served]
        rfl
  · intro address
    rw [getBalance_pending, builderBalance_elsewhere elsewhere]
    rfl

/-- Whatever the tasks and the earlier reads have done, the environment, the state and the
balances that `pending` is answered with are of one snapshot, the published one, or none of
them is. -/
theorem pending_reads_agree (reached : (views processor).Reachable viewed) (api : EthApi Env) :
    (∃ snapshot anchor, Stands api.provider viewed.node.pendingBlocks snapshot anchor ∧
      ReadsFrom api viewed snapshot anchor) ∨
    (∀ snapshot anchor, ¬ Stands api.provider viewed.node.pendingBlocks snapshot anchor) ∧
      ReadsElsewhere api viewed := by
  by_cases served : ∃ snapshot anchor,
      Stands api.provider viewed.node.pendingBlocks snapshot anchor
  · obtain ⟨snapshot, anchor, stands⟩ := served
    exact Or.inl ⟨snapshot, anchor, stands, stands_readsFrom reached stands⟩
  · have elsewhere : ∀ snapshot anchor,
        ¬ Stands api.provider viewed.node.pendingBlocks snapshot anchor := by
      intro snapshot anchor stands
      exact served ⟨snapshot, anchor, stands⟩
    exact Or.inr ⟨elsewhere, elsewhere_readsElsewhere reached elsewhere⟩

end Agree

theorem views_reachable {processor : StateProcessor} {node : FlashblocksState}
    (reached : (tasks processor).Reachable node) :
    (views processor).Reachable { node := node, cached := none } := by
  induction reached with
  | init initial => exact .init ⟨initial, rfl⟩
  | step _ taken ih => exact .step ih (.node taken)

/-- The engine has no pending block, and every block is on the chain, with the number of
transactions that Alice has sent up to it as its hash. -/
def sampleApi : EthApi Unit where
  provider := {
    pendingBlockNumHash := .ok none
    blockNumber := fun _ => .ok (some 0)
    stateByBlockHash := fun hash => .ok (Reference.stateAt hash.toNat) }
  evmEnvForHeader := fun _ => .ok ()
  evmEnvAt := fun blockId => .ok ((), blockId)
  balance := fun _ _ => .ok 0

/-- Three flashblocks are published and the overlay has been read once, so that it is in the
cache. -/
theorem pending_reads_agree_cached :
    ∃ viewed snapshot, viewed.cached ≠ none ∧ snapshot.flashblocks = Contiguous.threeFlashblocks ∧
      ReadsFrom sampleApi viewed snapshot ⟨Reference.header 0 0, 0⟩ := by
  have above : ∀ flashblock ∈ Contiguous.threeFlashblocks,
      0 < flashblock.metadata.blockNumber := by
    intro flashblock member
    simp only [Contiguous.threeFlashblocks, List.mem_cons, List.not_mem_nil, or_false] at member
    rcases member with rfl | rfl | rfl <;> decide
  obtain ⟨node, reached, -, -, -, -, -, -, same⟩ :=
    calm_reachable (Reference.nodeAt 0 fun _ => 0) rfl above
  have evaluates : (Reference.afterFlashblocks (Reference.nodeAt 0 fun _ => 0)
      Contiguous.threeFlashblocks).pendingBlocks.map (fun snapshot =>
        (snapshot.value.flashblocks, snapshot.value.anchor)) =
      some (Contiguous.threeFlashblocks, some ⟨Reference.header 0 0, 0⟩) := rfl
  rw [← same] at evaluates
  obtain ⟨pointer, published, isPair⟩ := Option.map_eq_some_iff.mp evaluates
  obtain ⟨whole, anchored⟩ := Prod.mk.inj isPair
  change node.pendingBlocks = some pointer at published
  have read := (views_reachable reached).step .read
  have filled : (pendingOverlay node.pendingBlocks none).2 ≠ none := by
    simp [published, pendingOverlay, anchored]
  have stands : Stands sampleApi.provider node.pendingBlocks pointer.value
      ⟨Reference.header 0 0, 0⟩ := by
    refine ⟨by rw [published]; rfl, anchored, ?_, 0, rfl⟩
    intro enginePending isPending
    cases isPending
  rcases pending_reads_agree read sampleApi with ⟨snapshot, anchor, served, reads⟩ | ⟨none, -⟩
  · cases Option.some.inj (stands.published.symm.trans served.published)
    cases Option.some.inj (stands.anchored.symm.trans served.anchored)
    exact ⟨_, _, filled, whole, reads⟩
  · exact absurd stands (none _ _)

end EthgasReth.Rpc.PendingView
