import EthgasReth.Simulator.SharedCache

/-!
# The verdict on an inclusion list

`validate_inclusion_list_constraint` counts the distinct listed hashes that the block has
and stops early when there are as many as entries; otherwise it tries the entries that
are missing one after another on one EVM.  The verdict is the constraint on each entry by
itself, so neither the order of the list nor a repeated entry changes it.  What is relied
on of the EVM is that `transact` does not commit.
-/

set_option autoImplicit false

namespace EthgasReth.Simulator.InclusionConstraint

open EthgasReth.Primitives
open EthgasReth.Lib
open EthgasReth.Execution
open EthgasReth.Simulator.BlockValidation

abbrev StateSource := Source StateQuery StateQuery.Answer RethProviderError

/-! ## The constraint -/

section Constraint

variable (api : ValidationApi) (source : StateSource)

def Rejects (evm : api.evmConfig.Evm) (transaction : Recovered) : Prop :=
  ∃ error, ((api.evmConfig.transact evm transaction).run source).1 = .error error

/-- Whatever was tried before, the same transactions are rejected. -/
def DoesNotCommit : Prop :=
  ∀ evm tried transaction,
    Rejects api source ((api.evmConfig.transact evm tried).run source).2 transaction ↔
      Rejects api source evm transaction

def Includes (block : RecoveredBlock) (hash : B256) : Prop :=
  ∃ tx ∈ block.block.transactions, tx.txHash = hash

def Satisfied (block : RecoveredBlock) (evm : api.evmConfig.Evm)
    (req : InclusionListTxWithMetadata) : Prop :=
  Includes block req.hash ∨
    ∃ transaction, api.recoverRawTransaction req.bytes = .ok transaction ∧
      Rejects api source evm transaction

end Constraint

def listed : Option InclusionListWithMetadata → List InclusionListTxWithMetadata
  | none => []
  | some inclusionList => inclusionList.txs

/-! ## The included hashes -/

theorem mem_foldl_included (txs : List InclusionListTxWithMetadata)
    (transactions : List TransactionSigned) (start : Finset B256) (hash : B256) :
    hash ∈ transactions.foldl (fun included tx =>
        match txs.find? fun req => req.hash = tx.txHash with
        | some req => insert req.hash included
        | none => included) start ↔
      hash ∈ start ∨ (∃ tx ∈ transactions, tx.txHash = hash) ∧ ∃ req ∈ txs, req.hash = hash := by
  induction transactions generalizing start with
  | nil => simp
  | cons tx rest ih =>
      rw [List.foldl_cons, ih]
      cases found : txs.find? fun req => req.hash = tx.txHash with
      | none =>
          have unlisted : ∀ req ∈ txs, req.hash ≠ tx.txHash := by
            simpa using List.find?_eq_none.mp found
          constructor
          · intro known
            rcases known with known | ⟨⟨other, member, same⟩, isListed⟩
            · exact Or.inl known
            · exact Or.inr ⟨⟨other, List.mem_cons_of_mem _ member, same⟩, isListed⟩
          · intro known
            rcases known with known | ⟨⟨other, member, same⟩, req, isListed, hashes⟩
            · exact Or.inl known
            · rcases List.mem_cons.mp member with rfl | member
              · exact absurd (hashes.trans same.symm) (unlisted req isListed)
              · exact Or.inr ⟨⟨other, member, same⟩, req, isListed, hashes⟩
      | some req =>
          have isListed : req ∈ txs := List.mem_of_find?_eq_some found
          have hashes : req.hash = tx.txHash := by
            simpa using List.find?_some found
          simp only [Finset.mem_insert]
          constructor
          · intro known
            rcases known with (rfl | known) | ⟨⟨other, member, same⟩, isListed⟩
            · exact Or.inr ⟨⟨tx, List.mem_cons_self, hashes.symm⟩, req, isListed, rfl⟩
            · exact Or.inl known
            · exact Or.inr ⟨⟨other, List.mem_cons_of_mem _ member, same⟩, isListed⟩
          · intro known
            rcases known with known | ⟨⟨other, member, same⟩, wanted⟩
            · exact Or.inl (Or.inr known)
            · rcases List.mem_cons.mp member with rfl | member
              · exact Or.inl (Or.inl (same.symm.trans hashes.symm))
              · exact Or.inr ⟨⟨other, member, same⟩, wanted⟩

theorem mem_includedHashes {block : RecoveredBlock} {txs : List InclusionListTxWithMetadata}
    {hash : B256} :
    hash ∈ ValidationApi.includedHashes block txs ↔
      Includes block hash ∧ ∃ req ∈ txs, req.hash = hash := by
  have members := mem_foldl_included txs block.block.transactions ∅ hash
  simp only [Finset.notMem_empty, false_or] at members
  exact members

theorem includes_of_count {block : RecoveredBlock} {txs : List InclusionListTxWithMetadata}
    (count : (ValidationApi.includedHashes block txs).card = txs.length) :
    ∀ req ∈ txs, req.hash ∈ ValidationApi.includedHashes block txs := by
  have within : ValidationApi.includedHashes block txs ⊆
      (txs.map InclusionListTxWithMetadata.hash).toFinset := by
    intro hash member
    obtain ⟨_, req, isListed, same⟩ := mem_includedHashes.mp member
    rw [List.mem_toFinset]
    exact List.mem_map.mpr ⟨req, isListed, same⟩
  have bound : (txs.map InclusionListTxWithMetadata.hash).toFinset.card ≤ txs.length := by
    simpa using List.toFinset_card_le (txs.map InclusionListTxWithMetadata.hash)
  have whole := Finset.eq_of_subset_of_card_le within (by omega)
  intro req isListed
  rw [whole, List.mem_toFinset]
  exact List.mem_map.mpr ⟨req, isListed, rfl⟩

/-! ## Trying the missing entries -/

section Verdict

variable {api : ValidationApi} {source : StateSource}

/-- One entry after another on one EVM: what was tried before leaves no trace. -/
theorem simulateMissing_ok_iff (doesNotCommit : DoesNotCommit api source)
    (included : Finset B256) (txs : List InclusionListTxWithMetadata)
    (evm : api.evmConfig.Evm) :
    (api.simulateMissing included txs evm).run source = .ok () ↔
      ∀ req ∈ txs, req.hash ∈ included ∨
        ∃ transaction, api.recoverRawTransaction req.bytes = .ok transaction ∧
          Rejects api source evm transaction := by
  induction txs generalizing evm with
  | nil => simp [ValidationApi.simulateMissing, Inquiry.run, pure]
  | cons req rest ih =>
      rw [ValidationApi.simulateMissing, List.forall_mem_cons]
      by_cases isIncluded : req.hash ∈ included
      · rw [if_pos isIncluded, ih]
        simp [isIncluded]
      · rw [if_neg isIncluded]
        cases recovered : api.recoverRawTransaction req.bytes with
        | error error => simp [isIncluded, Inquiry.run, pure]
        | ok transaction =>
            simp only [Inquiry.run_bind, isIncluded, false_or, Except.ok.injEq,
              exists_eq_left']
            cases outcome : ((api.evmConfig.transact evm transaction).run source).1 with
            | ok result =>
                have accepted : ¬ Rejects api source evm transaction := by
                  intro isRejected
                  obtain ⟨error, rejected⟩ := isRejected
                  rw [outcome] at rejected
                  cases rejected
                simp [accepted, Inquiry.run, pure]
            | error error =>
                have rejected : Rejects api source evm transaction := ⟨error, outcome⟩
                simp only [ih, doesNotCommit evm transaction, rejected, true_and]

theorem simulateMissing_error {included : Finset B256} {error : ValidationApiError}
    (txs : List InclusionListTxWithMetadata) (evm : api.evmConfig.Evm)
    (failed : (api.simulateMissing included txs evm).run source = .error error) :
    error = .inclusionList := by
  induction txs generalizing evm with
  | nil => cases failed
  | cons req rest ih =>
      rw [ValidationApi.simulateMissing] at failed
      split at failed
      · exact ih evm failed
      · split at failed
        · cases failed
          rfl
        · rename_i transaction _
          simp only [Inquiry.run_bind] at failed
          cases outcome : ((api.evmConfig.transact evm transaction).run source).1 with
          | ok result =>
              rw [outcome] at failed
              cases failed
              rfl
          | error _ =>
              rw [outcome] at failed
              exact ih _ failed

variable {block : RecoveredBlock} {postState : api.evmConfig.State} {evm : api.evmConfig.Evm}

/-- The early exit is the answer that the entries would give one by one. -/
theorem early_exit_agrees (doesNotCommit : DoesNotCommit api source)
    {txs : List InclusionListTxWithMetadata}
    (count : (ValidationApi.includedHashes block txs).card = txs.length) :
    (api.simulateMissing (ValidationApi.includedHashes block txs) txs evm).run source =
      .ok () := by
  rw [simulateMissing_ok_iff doesNotCommit]
  intro req isListed
  exact Or.inl (includes_of_count count req isListed)

theorem verdict_eq_simulateMissing (doesNotCommit : DoesNotCommit api source)
    (ready : api.evmConfig.evmForBlock postState block.block.header = .ok evm)
    (inclusionList : Option InclusionListWithMetadata) :
    (api.validateInclusionListConstraint block postState inclusionList).run source =
      (api.simulateMissing (ValidationApi.includedHashes block (listed inclusionList))
        (listed inclusionList) evm).run source := by
  cases inclusionList with
  | none => rfl
  | some inclusionList =>
      simp only [ValidationApi.validateInclusionListConstraint, listed]
      split
      · rename_i empty
        rw [List.isEmpty_iff.mp empty]
        rfl
      · split
        · rename_i count
          exact (early_exit_agrees doesNotCommit count).symm
        · rw [ready]

theorem verdict_ok_iff (doesNotCommit : DoesNotCommit api source)
    (ready : api.evmConfig.evmForBlock postState block.block.header = .ok evm)
    (inclusionList : Option InclusionListWithMetadata) :
    (api.validateInclusionListConstraint block postState inclusionList).run source = .ok () ↔
      ∀ req ∈ listed inclusionList, Satisfied api source block evm req := by
  rw [verdict_eq_simulateMissing doesNotCommit ready, simulateMissing_ok_iff doesNotCommit]
  apply forall_congr'
  intro req
  apply imp_congr_right
  intro isListed
  apply or_congr_left
  rw [mem_includedHashes]
  constructor
  · intro member
    exact member.1
  · intro includes
    exact ⟨includes, req, isListed, rfl⟩

/-- The constraint is the whole verdict: the list counts only as a set of entries. -/
theorem inclusion_list_verdict (doesNotCommit : DoesNotCommit api source)
    (ready : api.evmConfig.evmForBlock postState block.block.header = .ok evm)
    (inclusionList : Option InclusionListWithMetadata) :
    ((api.validateInclusionListConstraint block postState inclusionList).run source = .ok () ↔
      ∀ req ∈ listed inclusionList, Satisfied api source block evm req) ∧
    ((ValidationApi.includedHashes block (listed inclusionList)).card =
        (listed inclusionList).length →
      (api.simulateMissing (ValidationApi.includedHashes block (listed inclusionList))
        (listed inclusionList) evm).run source = .ok ()) ∧
    (∀ other, (∀ req, req ∈ listed other ↔ req ∈ listed inclusionList) →
      (api.validateInclusionListConstraint block postState other).run source =
        (api.validateInclusionListConstraint block postState inclusionList).run source) := by
  refine ⟨verdict_ok_iff doesNotCommit ready inclusionList, early_exit_agrees doesNotCommit, ?_⟩
  intro other same
  have agree : (api.validateInclusionListConstraint block postState other).run source = .ok () ↔
      (api.validateInclusionListConstraint block postState inclusionList).run source =
        .ok () := by
    rw [verdict_ok_iff doesNotCommit ready, verdict_ok_iff doesNotCommit ready]
    simp only [same]
  have onlyError (candidate : Option InclusionListWithMetadata) {error : ValidationApiError}
      (failed : (api.validateInclusionListConstraint block postState candidate).run source =
        .error error) : error = .inclusionList := by
    rw [verdict_eq_simulateMissing doesNotCommit ready] at failed
    exact simulateMissing_error _ _ failed
  cases one : (api.validateInclusionListConstraint block postState other).run source with
  | ok _ => exact (agree.mp one).symm
  | error error =>
      cases two : (api.validateInclusionListConstraint block postState inclusionList).run
          source with
      | ok _ =>
          rw [agree.mpr two] at one
          cases one
      | error second => rw [onlyError other one, onlyError inclusionList two]

end Verdict

/-! ## A nonce that fits and one that does not -/

namespace Nonces

def spent (signer : Address) (info : AccountInfo) : EvmState where
  accounts := Function.update (fun _ => none) signer (some {
    info := { info with nonce := info.nonce + 1 }
    storage := fun _ => none
    touched := true
    created := false
    selfdestructed := false })
  contracts := fun _ => none

def transact (evm : Unit) (transaction : Recovered) :
    StateReads (Except String ResultAndState × Unit) :=
  .ask (.basic transaction.signer) fun
    | .error error => pure (.error error, evm)
    | .ok found =>
        let info : AccountInfo := found.getD { balance := 0, nonce := 0, codeHash := keccakEmpty }
        if info.nonce = transaction.transaction.nonce then
          pure (.ok { success := true, state := spent transaction.signer info }, evm)
        else pure (.error "nonce", evm)

def plainTransaction (txHash : B256) (nonce : Nat) : TransactionSigned where
  txHash := txHash
  chainId := none
  nonce := nonce
  toAddress := none
  value := 0
  input := []
  maxFeePerGas := 0
  maxPriorityFeePerGas := none

def recoverRawTransaction : Bytes → Except String Recovered
  | [nonce] => .ok {
      transaction := plainTransaction (BitVec.ofNat 256 nonce.toNat) nonce.toNat
      signer := 7 }
  | _ => .error "failed to decode signed transaction"

def validator : ValidationApi :=
  { SharedCache.Withdrawals.validator with
    evmConfig := { SharedCache.Withdrawals.evmConfig with transact := transact }
    recoverRawTransaction := recoverRawTransaction }

def block : RecoveredBlock where
  block := {
    header := SharedCache.Withdrawals.header 2 1
    transactions := [plainTransaction 9 0]
    withdrawals := some [] }
  hash := 101
  senders := [8]

theorem doesNotCommit (source : StateSource) : DoesNotCommit validator source := by
  intro evm tried transaction
  exact Iff.rfl

/-- The hash of the first entry is in the block, though its bytes are not; the other entry,
listed twice, has the nonce after the next.  An entry with the next nonce is binding. -/
theorem inclusion_list_verdict_nonces :
    ((validator.validateInclusionListConstraint block ([], BundleState.empty)
        (some ⟨[⟨9, []⟩, ⟨1, [1]⟩, ⟨1, [1]⟩]⟩)).run
      (SharedCache.Withdrawals.stateAt 1).read = .ok ()) ∧
    ¬ (validator.validateInclusionListConstraint block ([], BundleState.empty)
        (some ⟨[⟨0, [0]⟩]⟩)).run (SharedCache.Withdrawals.stateAt 1).read = .ok () := by
  have verdict := @inclusion_list_verdict validator (SharedCache.Withdrawals.stateAt 1).read
    block ([], BundleState.empty) () (doesNotCommit _) rfl
  constructor
  · rw [(verdict _).1]
    intro req isListed
    have cases : req = ⟨9, []⟩ ∨ req = ⟨1, [1]⟩ := by
      simpa [listed] using isListed
    rcases cases with rfl | rfl
    · exact Or.inl ⟨plainTransaction 9 0, List.mem_cons_self, rfl⟩
    · exact Or.inr ⟨_, rfl, "nonce", rfl⟩
  · rw [(verdict _).1]
    intro satisfied
    rcases satisfied ⟨0, [0]⟩ List.mem_cons_self with ⟨tx, member, same⟩ | ⟨tx, recovered, rejected⟩
    · rw [List.mem_singleton.mp member] at same
      exact absurd same (by decide)
    · cases recovered
      obtain ⟨error, rejected⟩ := rejected
      cases rejected

end Nonces

end EthgasReth.Simulator.InclusionConstraint
