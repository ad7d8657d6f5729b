import EthgasReth.Contiguous

/-!
# One payload for every block of a snapshot

The validator compares payload ids only at index zero.  A snapshot whose blocks
each have one payload keeps that as long as a flashblock with the next index of
the last block carries the snapshot's payload id; a flashblock of another payload
with that index is appended all the same.
-/

set_option autoImplicit false

namespace EthgasReth.Payloads

open EthgasReth.Primitives
open EthgasReth.Lib
open EthgasReth.Pending
open EthgasReth.Build
open EthgasReth.Processor
open EthgasReth.Run
open EthgasReth.Snapshots
open EthgasReth.Contiguous

def OnePayloadPerBlock (flashblocks : List FlashBlock) : Prop :=
  ∀ a ∈ flashblocks, ∀ b ∈ flashblocks, a.blockNumber = b.blockNumber → a.payloadId = b.payloadId

instance (flashblocks : List FlashBlock) : Decidable (OnePayloadPerBlock flashblocks) :=
  inferInstanceAs (Decidable (∀ a ∈ flashblocks, ∀ b ∈ flashblocks,
    a.blockNumber = b.blockNumber → a.payloadId = b.payloadId))

/-- Numbers agree, and a flashblock that is applied as the next index of the
snapshot's last block has the snapshot's payload id. -/
def samePayloadGuard : Guard where
  wire := FlashBlock.NumbersAgree
  flashblock := fun node prev flashblock =>
    ∀ pending, prev = some pending → node.isSuperseded flashblock = false →
      flashblock.blockNumber = pending.value.latestBlockNumber →
      flashblock.index = pending.value.latestFlashblockIndex + 1 →
      flashblock.payloadId = pending.value.payloadId
  canonical := fun _ _ _ => True

theorem OnePayloadPerBlock.append {flashblocks : List FlashBlock} {flashblock : FlashBlock}
    (one : OnePayloadPerBlock flashblocks)
    (same : ∀ other ∈ flashblocks, other.blockNumber = flashblock.blockNumber →
      other.payloadId = flashblock.payloadId) :
    OnePayloadPerBlock (flashblocks ++ [flashblock]) := by
  intro a inA b inB number
  rcases List.mem_append.mp inA with inA | inA
  · rcases List.mem_append.mp inB with inB | inB
    · exact one a inA b inB number
    · rw [List.mem_singleton.mp inB] at number ⊢
      exact same a inA number
  · rw [List.mem_singleton.mp inA] at number ⊢
    rcases List.mem_append.mp inB with inB | inB
    · exact (same b inB number.symm).symm
    · rw [List.mem_singleton.mp inB]

variable {processor : StateProcessor}

theorem append_onePayload {pending : PendingBlocks} {flashblock : FlashBlock}
    (sound : Sound processor pending) (one : OnePayloadPerBlock pending.flashblocks)
    (continues : Continues pending flashblock)
    (same : flashblock.blockNumber = pending.latestBlockNumber →
      flashblock.index = pending.latestFlashblockIndex + 1 →
      flashblock.payloadId = pending.payloadId) :
    OnePayloadPerBlock (pending.flashblocks ++ [flashblock]) := by
  obtain ⟨last, isLast, number, index, payload⟩ := sound.last
  apply one.append
  intro other member sameNumber
  rcases continues with ⟨sameBlock, nextIndex⟩ | ⟨nextBlock, -⟩
  · have onLast : other.blockNumber = last.blockNumber := by omega
    calc other.payloadId
        = last.payloadId := one other member last (List.mem_of_getLast? isLast) onLast
      _ = pending.payloadId := payload.symm
      _ = flashblock.payloadId := (same sameBlock nextIndex).symm
  · have below := sound.le_latest member
    omega

theorem onePayload_kept : KeptByBuilds processor samePayloadGuard fun pending =>
    Sound processor pending ∧ OnePayloadPerBlock pending.flashblocks := by
  intro node prev update built before allowed builds
  have soundBefore : ∀ pending, prev = some pending → Sound processor pending.value :=
    fun pending isPrev => (before pending isPrev).1
  have agree : ∀ flashblock, update = .flashblock flashblock → flashblock.NumbersAgree := by
    rintro flashblock rfl
    exact allowed.1
  obtain ⟨sound, lists⟩ := builds_sound soundBefore agree builds
  refine ⟨sound, ?_⟩
  clear builds sound
  generalize built.flashblocks = flashblocks at lists
  cases lists with
  | fresh first =>
      intro a inA b inB _
      rw [List.mem_singleton.mp inA, List.mem_singleton.mp inB]
  | appended continues =>
      obtain ⟨old, one⟩ := before _ rfl
      obtain ⟨-, met, fresh⟩ := allowed
      exact append_onePayload old one continues (met _ rfl fresh)
  | retained =>
      obtain ⟨-, one⟩ := before _ rfl
      intro a inA b inB
      exact one a (List.mem_of_mem_filter inA) b (List.mem_of_mem_filter inB)
  | continued => exact (before _ rfl).2

/-- In every run in which a flashblock applied as the next index carries the
snapshot's payload id, no snapshot mixes two payloads of one block. -/
theorem visible_snapshot_onePayload {state : ProcessorState} {pending : Arc PendingBlocks}
    (visible : Visible processor samePayloadGuard state)
    (published : state.pendingBlocks = some pending) :
    OnePayloadPerBlock pending.value.flashblocks :=
  ((onePayload_kept.visible visible).1 pending published).2

/-- Block 1 begins and goes on under payload 7. -/
theorem visible_snapshot_onePayload_two :
    ∃ pending, (Reference.afterFlashblocks (Reference.nodeAt 0 fun _ => 0)
        [Reference.flashblock 7 1 0 [(1, 0)] [(1, true)],
          Reference.flashblock 7 1 1 [(2, 1)] [(2, true)]]).pendingBlocks = some pending ∧
      pending.value.flashblocks.length = 2 ∧ OnePayloadPerBlock pending.value.flashblocks := by
  let node := Reference.nodeAt 0 fun _ => 0
  let first := Reference.flashblock 7 1 0 [(1, 0)] [(1, true)]
  let second := Reference.flashblock 7 1 1 [(2, 1)] [(2, true)]
  have begun : Reachable Reference.processor samePayloadGuard
      (Reference.afterFlashblocks node [first]) := by
    refine .step (.init ⟨node.client, rfl⟩) (.update (fun _ => node) (.flashblock first) ?_)
    exact ⟨Reference.flashblock_agrees _ _ _ _ _, fun _ absent => nomatch absent⟩
  have agree : second.NumbersAgree := Reference.flashblock_agrees _ _ _ _ _
  have goneOn : Reachable Reference.processor samePayloadGuard
      (Reference.afterFlashblocks node ([first] ++ [second])) := by
    rw [Reference.afterFlashblocks_concat]
    refine .step begun (.update (fun _ => node) (.flashblock second) ⟨agree, ?_⟩)
    have payload : (load Reference.processor node (Reference.afterFlashblocks node [first])
        ).pendingBlocks.all (fun pending => decide (second.payloadId = pending.value.payloadId)) =
          true := by decide
    intro pending isPrev _ _ _
    rw [isPrev] at payload
    simpa using payload
  have published : (Reference.afterFlashblocks node [first, second]).pendingBlocks.any
      (fun pending => pending.value.flashblocks.length == 2) = true := by decide
  obtain ⟨pending, isPending, two⟩ := (Option.any_eq_true _ _).mp published
  exact ⟨pending, isPending, by simpa using two,
    visible_snapshot_onePayload (.reached goneOn) isPending⟩

def mixedPayloads : List FlashBlock :=
  [Reference.flashblock 7 1 0 [(1, 0)] [(1, true)], Reference.flashblock 9 1 1 [(2, 1)] [(2, true)]]

theorem mixed_payloads_published :
    ¬ ∀ (processor : StateProcessor) (state : ProcessorState) (pending : Arc PendingBlocks),
      Visible processor (Guard.onWire fun _ => True) state →
      state.pendingBlocks = some pending → OnePayloadPerBlock pending.value.flashblocks := by
  intro claim
  let node := Reference.nodeAt 0 fun _ => 0
  have reached : Reachable Reference.processor (Guard.onWire fun _ => True)
      (Reference.afterFlashblocks node mixedPayloads) :=
    Reference.afterFlashblocks_reachable node fun _ _ => trivial
  have mixed : (Reference.afterFlashblocks node mixedPayloads).pendingBlocks.any
      (fun pending => !decide (OnePayloadPerBlock pending.value.flashblocks)) = true := by decide
  obtain ⟨pending, isPending, differ⟩ := (Option.any_eq_true _ _).mp mixed
  have one := claim Reference.processor _ pending (.reached reached) isPending
  simp [one] at differ

end EthgasReth.Payloads
