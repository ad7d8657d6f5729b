import EthgasReth.BlockAssembler
import EthgasReth.Reference

/-!
# The same block, cut differently

The producer may cut a block into flashblocks wherever it likes.  `assemble` takes the base
from the first of them, the cumulative fields from the last, the transactions of all in
order and the receipts of all, and so sees nothing of the cuts.  Of the receipts it sees
those of the transactions in the block, whatever else the maps hold and however they are
iterated over.
-/

set_option autoImplicit false

namespace EthgasReth.Recutting

open EthgasReth.Primitives
open EthgasReth.Lib
open EthgasReth.BlockAssembler

/-! ## What assembly depends on -/

def CarriesHash (alloy : Alloy) (flashblocks : List FlashBlock) (hash : B256) : Prop :=
  ∃ raw ∈ rawTransactions flashblocks, ∃ tx, alloy.decode2718 raw = .ok tx ∧ tx.txHash = hash

def cumulative (diff : ExecutionPayloadFlashblockDeltaV1) : ExecutionPayloadFlashblockDeltaV1 :=
  { diff with transactions := [] }

structure SameContent (alloy : Alloy) (one two : List FlashBlock) : Prop where
  base : one.head?.map (·.base) = two.head?.map (·.base)
  latest : one.getLast?.map (fun flashblock => cumulative flashblock.diff) =
    two.getLast?.map (fun flashblock => cumulative flashblock.diff)
  transactions : rawTransactions one = rawTransactions two
  receipts : ∀ hash, CarriesHash alloy one hash →
    (collectReceipts one).lookup hash = (collectReceipts two).lookup hash

theorem requestsHash_congr {alloy : Alloy} {spec : ChainSpec} {block : Block}
    {one two : List FlashBlock}
    (requests : (one.getLast?.bind fun flashblock => flashblock.diff.requests) =
      two.getLast?.bind fun flashblock => flashblock.diff.requests)
    (receipts : ∀ tx ∈ block.transactions,
      (collectReceipts one).lookup tx.txHash = (collectReceipts two).lookup tx.txHash) :
    requestsHash alloy spec block one = requestsHash alloy spec block two := by
  simp only [requestsHash, requests]
  split
  · rfl
  · split
    · rfl
    · refine congrArg (· >>= _) (mapM_congr_mem ?_)
      intro tx member
      rw [receipts tx member]

theorem tryIntoBlock_transactions {alloy : Alloy} {payload : ExecutionPayloadV3} {block : Block}
    (converted : tryIntoBlock alloy payload = .ok block) :
    payload.transactions.mapM alloy.decode2718 = .ok block.transactions := by
  obtain ⟨_, _, converted⟩ := bind_eq_ok converted
  obtain ⟨transactions, decoded, converted⟩ := bind_eq_ok converted
  cases converted
  exact decoded

theorem assemble_congr {alloy : Alloy} {one two : List FlashBlock} (spec : ChainSpec)
    (same : SameContent alloy one two) :
    assemble alloy spec one = assemble alloy spec two := by
  obtain ⟨sameBase, sameLatest, sameTransactions, sameReceipts⟩ := same
  cases oneHead : one.head? with
  | none =>
      rw [oneHead, Option.map_none] at sameBase
      have twoHead := Option.map_eq_none_iff.mp sameBase.symm
      rw [assemble, oneHead, assemble, twoHead]
  | some first =>
      obtain ⟨other, twoHead, baseEq⟩ : ∃ other, two.head? = some other ∧
          other.base = first.base := by
        rw [oneHead, Option.map_some] at sameBase
        exact Option.map_eq_some_iff.mp sameBase.symm
      cases oneLast : one.getLast? with
      | none =>
          rw [List.getLast?_eq_none_iff.mp oneLast] at oneHead
          cases oneHead
      | some latest =>
          obtain ⟨final, twoLast, diffEq⟩ : ∃ final, two.getLast? = some final ∧
              cumulative final.diff = cumulative latest.diff := by
            rw [oneLast, Option.map_some] at sameLatest
            exact Option.map_eq_some_iff.mp sameLatest.symm
          simp only [cumulative, ExecutionPayloadFlashblockDeltaV1.mk.injEq] at diffEq
          obtain ⟨stateRoot, receiptsRoot, logsBloom, gasUsed, blockHash, _, withdrawals,
            blobGasUsed, excessBlobGas, requests⟩ := diffEq
          simp only [assemble, oneHead, twoHead, oneLast, twoLast, baseEq, stateRoot, receiptsRoot,
            logsBloom, gasUsed, blockHash, withdrawals, blobGasUsed, excessBlobGas,
            sameTransactions]
          split
          · rfl
          · split
            · rfl
            · split
              · rfl
              · apply bind_congr_ok
                intro block converted
                have decoded := tryIntoBlock_transactions (mapError_eq_ok converted)
                have sameRequests : requestsHash alloy spec block one =
                    requestsHash alloy spec block two := by
                  apply requestsHash_congr
                  · rw [oneLast, twoLast, Option.bind_some, Option.bind_some, requests]
                  · intro tx member
                    obtain ⟨raw, carried, read⟩ := mapM_mem decoded member
                    apply sameReceipts
                    rw [← sameTransactions] at carried
                    exact ⟨raw, carried, tx, read, rfl⟩
                rw [sameRequests]

/-! ## The receipts of all flashblocks -/

theorem collectReceipts_lookup (flashblocks : List FlashBlock) (hash : B256) :
    (collectReceipts flashblocks).lookup hash =
      flashblocks.reverse.findSome? fun flashblock => flashblock.metadata.receipts.lookup hash := by
  induction flashblocks using List.reverseRecOn with
  | nil => rfl
  | append_singleton flashblocks flashblock ih =>
      rw [collectReceipts_append, ih, List.reverse_append, List.reverse_singleton,
        List.singleton_append, List.findSome?_cons]
      cases flashblock.metadata.receipts.lookup hash <;> rfl

/-! ## Two flashblocks made one -/

/-- What the producer would have sent without the cut between the two. -/
def merge (first second : FlashBlock) : FlashBlock where
  payloadId := first.payloadId
  index := first.index
  base := first.base
  diff := { second.diff with
    transactions := first.diff.transactions ++ second.diff.transactions }
  metadata := { second.metadata with
    receipts := first.metadata.receipts.extend second.metadata.receipts }

theorem merge_sameContent (alloy : Alloy) (before after : List FlashBlock)
    (first second : FlashBlock) :
    SameContent alloy (before ++ [first, second] ++ after)
      (before ++ [merge first second] ++ after) := by
  constructor
  · cases before with
    | nil => rfl
    | cons head before => rfl
  · cases after using List.reverseRecOn with
    | nil => simp [merge, cumulative]
    | append_singleton after last =>
        simp only [← List.append_assoc, List.getLast?_concat]
  · simp [rawTransactions, merge]
  · intro hash _
    rw [collectReceipts_lookup, collectReceipts_lookup]
    simp only [List.reverse_append, List.findSome?_append, List.reverse_cons, List.reverse_nil,
      List.nil_append, List.findSome?_cons, List.findSome?_nil, merge, HashMap.lookup_extend]
    cases second.metadata.receipts.lookup hash <;> rfl

/-! ## Other receipts, other iteration orders -/

/-- Two flashblocks that differ at most in what no assembly of the block reads: receipts are
compared by what is found for the transactions of the block. -/
structure SameForBlock (alloy : Alloy) (flashblocks : List FlashBlock) (one two : FlashBlock) :
    Prop where
  base : two.base = one.base
  diff : two.diff = one.diff
  receipts : ∀ hash, CarriesHash alloy flashblocks hash →
    two.metadata.receipts.lookup hash = one.metadata.receipts.lookup hash

theorem map_eq_of_forall₂ {α β : Type} {R : α → α → Prop} {one two : List α} (read : α → β)
    (same : List.Forall₂ R one two) (agree : ∀ x y, R x y → read y = read x) :
    two.map read = one.map read := by
  induction same with
  | nil => rfl
  | cons head _ ih => rw [List.map_cons, List.map_cons, agree _ _ head, ih]

theorem sameForBlock_sameContent {alloy : Alloy} {one two : List FlashBlock}
    (same : List.Forall₂ (SameForBlock alloy one) one two) : SameContent alloy one two := by
  constructor
  · have bases := map_eq_of_forall₂ (·.base) same fun _ _ pair => pair.base
    rw [← List.head?_map, ← List.head?_map, bases]
  · have diffs := map_eq_of_forall₂ (fun flashblock => cumulative flashblock.diff) same
      fun _ _ pair => by rw [pair.diff]
    rw [← List.getLast?_map, ← List.getLast?_map, diffs]
  · have transactions := map_eq_of_forall₂ (fun flashblock => flashblock.diff.transactions) same
      fun _ _ pair => by rw [pair.diff]
    rw [rawTransactions, rawTransactions, List.flatMap_def, List.flatMap_def, transactions]
  · intro hash carried
    have receipts := map_eq_of_forall₂
      (fun flashblock => flashblock.metadata.receipts.lookup hash) same
      fun _ _ pair => pair.receipts hash carried
    have found (flashblocks : List FlashBlock) : (collectReceipts flashblocks).lookup hash =
        (flashblocks.map fun flashblock =>
          flashblock.metadata.receipts.lookup hash).reverse.findSome? id := by
      rw [collectReceipts_lookup, ← List.map_reverse, List.findSome?_map]
      rfl
    rw [found, found, receipts]

/-- Neither a cut nor anything about the receipts but those of the block's transactions. -/
theorem assembly_independent_of_cuts (alloy : Alloy) (spec : ChainSpec) :
    (∀ before first second after,
      assemble alloy spec (before ++ [first, second] ++ after) =
        assemble alloy spec (before ++ [merge first second] ++ after)) ∧
    (∀ flashblocks others, List.Forall₂ (SameForBlock alloy flashblocks) flashblocks others →
      assemble alloy spec others = assemble alloy spec flashblocks) := by
  constructor
  · intro before first second after
    exact assemble_congr spec (merge_sameContent alloy before after first second)
  · intro flashblocks others same
    exact (assemble_congr spec (sameForBlock_sameContent same)).symm

/-- Two transactions in one flashblock, and in two with the receipts the other way round
and one of a transaction that is not in the block. -/
theorem assembly_independent_of_cuts_stray_receipt :
    assemble Reference.alloy Reference.processor.chainSpec
        [Reference.flashblock 1 5 0 [(1, 0)] [(3, true), (2, true)],
          Reference.flashblock 1 5 1 [(2, 1)] [(1, true)]] =
      assemble Reference.alloy Reference.processor.chainSpec
        [Reference.flashblock 1 5 0 [(1, 0), (2, 1)] [(1, true), (2, true)]] := by
  have independent := assembly_independent_of_cuts Reference.alloy Reference.processor.chainSpec
  refine (independent.1 [] _ _ []).trans (independent.2 _ _ ?_)
  refine .cons ⟨rfl, rfl, ?_⟩ .nil
  intro hash carried
  obtain ⟨raw, member, tx, decoded, rfl⟩ := carried
  have cases : raw = [1, 0] ∨ raw = [2, 1] := by
    simpa [rawTransactions, Reference.flashblock] using member
  rcases cases with rfl | rfl
  · cases decoded
    rfl
  · cases decoded
    rfl

end EthgasReth.Recutting
