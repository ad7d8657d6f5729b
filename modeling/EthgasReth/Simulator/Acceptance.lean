import EthgasReth.Simulator.DisallowList
import EthgasReth.Simulator.InclusionConstraint
import EthgasReth.Simulator.ProposerPayment

/-!
# What a validation accepts

The checks of `validate_message_against_block` stand in an order, stop at the first failure
and share an execution.  A request is accepted exactly when each of them holds by itself: the
bid describes the header, reth's consensus checks pass, the parent is recent, nothing the
block names or its execution reads is disallowed, the inclusion list is satisfied, the
proposer is paid and the state root is the header's.
-/

set_option autoImplicit false

namespace EthgasReth.Simulator.Acceptance

open EthgasReth.Primitives
open EthgasReth.Lib
open EthgasReth.Execution
open EthgasReth.Simulator.BlockValidation
open EthgasReth.Simulator.SharedCache
open EthgasReth.Simulator.InclusionConstraint

/-! ## The conditions -/

section Conditions

variable (api : ValidationApi)

structure Describes (message : BidTrace) (header : SealedHeader) : Prop where
  blockHash : message.blockHash = header.hash
  parentHash : message.parentHash = header.header.parentHash
  gasLimit : message.gasLimit = header.header.gasLimit
  gasUsed : message.gasUsed = header.header.gasUsed

def RecentParent (parentHash : B256) (parent : SealedHeader) : Prop :=
  ∃ latest, api.provider.latestHeader = .ok (some latest) ∧
    (parentHash = latest.hash ∧ parent = latest ∨
      parentHash ≠ latest.hash ∧
        api.provider.sealedHeaderByHash parentHash = .ok (some parent) ∧
        latest.header.number ≤ parent.header.number + api.validationWindow)

def Clean (request : Request) (accessed : List Address) : Prop :=
  request.applyBlacklist = true →
    ∀ address ∈ (DisallowList.submissionOf request accessed).named ++ accessed,
      address ∉ api.disallow

/-- The constraint on each entry; without an EVM to try them on, the block has to have all of
them and none is listed twice. -/
structure ListMet (request : Request) (state : StateProvider api.provider.HashedPostState)
    (postState : api.evmConfig.State) : Prop where
  tried : ∀ evm, api.evmConfig.evmForBlock postState request.block.block.header = .ok evm →
    ∀ req ∈ listed request.inclusionList, Satisfied api state.read request.block evm req
  untried : ∀ error, api.evmConfig.evmForBlock postState request.block.block.header = .error error →
    ((listed request.inclusionList).map InclusionListTxWithMetadata.hash).Nodup ∧
      ∀ req ∈ listed request.inclusionList, Includes request.block req.hash

def Paid (request : Request) (output : BlockExecutionOutput) : Prop :=
  PaymentChecks.paidByBalance request.block.block output.payments request.message.toBidTrace =
      true ∨
    match request.basePaymentTxIndex with
    | none => ∃ receipt tx, ProposerPayment.LastPays api.payments request.block.block
        output.payments request.message.toBidTrace receipt tx
    | some ix => request.block.block.transactions.length ≠ 0 ∧
        request.message.value.toNat ≤
          (∑ position ∈ ProposerPayment.positions request.block.block ix,
            ProposerPayment.listed api.payments request.block.block output.payments
              request.message.proposerFeeRecipient position) % 2 ^ 256

/-- What the execution leaves: the rebuilt access list, the final state and the output. -/
def rebuilt (executor : api.evmConfig.Executor) : Option api.evmConfig.Bal :=
  (api.evmConfig.takeBal executor).1

def finalState (executor : api.evmConfig.Executor) : api.evmConfig.State :=
  api.evmConfig.intoState (api.evmConfig.takeBal executor).2

def outputOf (result : BlockExecutionResult) (executor : api.evmConfig.Executor) :
    BlockExecutionOutput where
  state := api.evmConfig.bundleState (finalState api executor)
  result := result

structure Accepted (request : Request) (parent : SealedHeader)
    (state : StateProvider api.provider.HashedPostState) (result : BlockExecutionResult)
    (executor : api.evmConfig.Executor) : Prop where
  message : Describes request.message request.block.sealedHeader
  header : api.consensus.validateHeader request.block.sealedHeader = .ok ()
  body : api.consensus.validateBlockPreExecution request.block = .ok ()
  clean : Clean api request (api.evmConfig.cacheAccounts (finalState api executor))
  recent : RecentParent api request.block.parentHash parent
  againstParent :
    api.consensus.validateHeaderAgainstParent request.block.sealedHeader parent = .ok ()
  opened : api.provider.stateByBlockHash request.block.parentHash = .ok state
  executed : (api.evmConfig.executeOne request.block).run state.read = .ok (result, executor)
  accessList : ∀ list ∈ rebuilt api executor,
    api.evmConfig.validateGasLimit list request.block.block.header.gasLimit = .ok ()
  inclusionList : ListMet api request state (finalState api executor)
  postExecution : api.consensus.validateBlockPostExecution request.block
    (outputOf api result executor) ((rebuilt api executor).map api.evmConfig.computeHash) = .ok ()
  paid : Paid api request (outputOf api result executor)
  stateRoot : ∃ hashed, state.hashedPostState (outputOf api result executor).state = .ok hashed ∧
    state.stateRoot hashed = .ok request.block.block.header.stateRoot

end Conditions

/-! ## One check after another -/

section Checks

variable {api : ValidationApi}

theorem validateMessageAgainstHeader_ok_iff {header : SealedHeader} {message : BidTrace} :
    ValidationApi.validateMessageAgainstHeader header message = .ok () ↔
      Describes message header := by
  unfold ValidationApi.validateMessageAgainstHeader
  simp only [reject_eq_ok, and_true, ne_eq, not_not]
  constructor
  · intro same
    obtain ⟨blockHash, parentHash, gasLimit, gasUsed⟩ := same
    exact ⟨blockHash.symm, parentHash.symm, gasLimit.symm, gasUsed.symm⟩
  · intro describes
    exact ⟨describes.blockHash.symm, describes.parentHash.symm, describes.gasLimit.symm,
      describes.gasUsed.symm⟩

theorem orMissing_ok_iff {missing : GetParentError}
    {found : Except RethProviderError (Option SealedHeader)} {header : SealedHeader} :
    ValidationApi.orMissing missing found = .ok header ↔ found = .ok (some header) := by
  constructor
  · exact orMissing_ok
  · intro isFound
    rw [isFound]
    rfl

theorem getParentHeader_ok_iff {parentHash : B256} {parent : SealedHeader} :
    api.getParentHeader parentHash = .ok parent ↔ RecentParent api parentHash parent := by
  unfold ValidationApi.getParentHeader RecentParent
  simp only [bind_eq_ok_iff, orMissing_ok_iff]
  apply exists_congr
  intro latest
  apply and_congr_right
  intro _
  by_cases isLatest : parentHash = latest.hash
  · simp [isLatest, eq_comm]
  · simp only [isLatest, if_false, bind_eq_ok_iff, orMissing_ok_iff, reject_eq_ok]
    constructor
    · intro found
      obtain ⟨header, isHeader, near, same⟩ := found
      cases same
      exact Or.inr ⟨isLatest, isHeader, by omega⟩
    · intro found
      rcases found with ⟨impossible, -⟩ | ⟨-, isHeader, near⟩
      · exact impossible.elim
      · exact ⟨parent, isHeader, by omega, rfl⟩

theorem screen_ok_iff {request : Request} (accessed : List Address) :
    api.screen request.block request.message request.applyBlacklist = .ok () ↔
      (request.applyBlacklist = true →
        ∀ address ∈ (DisallowList.submissionOf request accessed).named,
          address ∉ api.disallow) := by
  cases applies : request.applyBlacklist with
  | false => simp [ValidationApi.screen]
  | true =>
      rw [DisallowList.screen_find api request accessed]
      cases hit : (DisallowList.submissionOf request accessed).named.find?
          fun address => address ∈ api.disallow with
      | none => simpa using hit
      | some address =>
          have listed : address ∈ api.disallow := by simpa using List.find?_some hit
          simp only [reduceCtorEq, false_iff]
          intro clean
          exact clean trivial address (List.mem_of_find?_eq_some hit) listed

theorem accessedBlacklisted_none_iff {accounts : List Address} {applies : Bool} :
    api.accessedBlacklisted accounts applies = none ↔
      (applies = true → ∀ address ∈ accounts, address ∉ api.disallow) := by
  have scan : ∀ (accounts : List Address) (found : Option Address),
      accounts.foldl (fun found account =>
        if account ∈ api.disallow then some account else found) found = none ↔
      found = none ∧ ∀ address ∈ accounts, address ∉ api.disallow := by
    intro accounts
    induction accounts with
    | nil => simp
    | cons account rest ih =>
        intro found
        rw [List.foldl_cons, ih]
        by_cases isListed : account ∈ api.disallow <;> simp [isListed]
  unfold ValidationApi.accessedBlacklisted
  by_cases screening : api.disallow ≠ ∅ ∧ applies = true
  · rw [if_pos screening, scan]
    simp [screening.2]
  · rw [if_neg screening]
    simp only [true_iff]
    intro isApplied address _
    have noList : api.disallow = ∅ := by
      by_contra some_
      exact screening ⟨some_, isApplied⟩
    simp [noList]

theorem blockAccessListHash_ok_iff {block : RecoveredBlock} {bal : Option api.evmConfig.Bal}
    {hash : Option B256} :
    api.blockAccessListHash block bal = .ok hash ↔
      (∀ list ∈ bal, api.evmConfig.validateGasLimit list block.block.header.gasLimit = .ok ()) ∧
        hash = bal.map api.evmConfig.computeHash := by
  cases bal with
  | none => simp [ValidationApi.blockAccessListHash, eq_comm]
  | some list =>
      cases within : api.evmConfig.validateGasLimit list block.block.header.gasLimit with
      | error error => simp [ValidationApi.blockAccessListHash, within]
      | ok _ => simp [ValidationApi.blockAccessListHash, within, eq_comm]

theorem count_iff {block : RecoveredBlock} {txs : List InclusionListTxWithMetadata} :
    (ValidationApi.includedHashes block txs).card = txs.length ↔
      (txs.map InclusionListTxWithMetadata.hash).Nodup ∧ ∀ req ∈ txs, Includes block req.hash := by
  have within : ValidationApi.includedHashes block txs ⊆
      (txs.map InclusionListTxWithMetadata.hash).toFinset := by
    intro hash member
    obtain ⟨_, req, isListed, same⟩ := mem_includedHashes.mp member
    rw [List.mem_toFinset]
    exact List.mem_map.mpr ⟨req, isListed, same⟩
  constructor
  · intro count
    have whole := includes_of_count count
    have same : (txs.map InclusionListTxWithMetadata.hash).toFinset.card =
        (txs.map InclusionListTxWithMetadata.hash).length := by
      have bound := List.toFinset_card_le (txs.map InclusionListTxWithMetadata.hash)
      have larger := Finset.card_le_card within
      rw [List.length_map] at bound ⊢
      omega
    refine ⟨Multiset.toFinset_card_eq_card_iff_nodup.mp same, ?_⟩
    intro req isListed
    exact (mem_includedHashes.mp (whole req isListed)).1
  · intro met
    obtain ⟨distinct, includes⟩ := met
    have same : ValidationApi.includedHashes block txs =
        (txs.map InclusionListTxWithMetadata.hash).toFinset := by
      apply Finset.Subset.antisymm within
      intro hash member
      obtain ⟨req, isListed, rfl⟩ := List.mem_map.mp (List.mem_toFinset.mp member)
      exact mem_includedHashes.mpr ⟨includes req isListed, req, isListed, rfl⟩
    rw [same, List.toFinset_card_of_nodup distinct, List.length_map]

theorem validateInclusionListConstraint_ok_iff {request : Request}
    {state : StateProvider api.provider.HashedPostState} {postState : api.evmConfig.State}
    (doesNotCommit : DoesNotCommit api state.read) :
    (api.validateInclusionListConstraint request.block postState request.inclusionList).run
        state.read = .ok () ↔ ListMet api request state postState := by
  cases ready : api.evmConfig.evmForBlock postState request.block.block.header with
  | ok evm =>
      rw [verdict_ok_iff doesNotCommit ready]
      constructor
      · intro satisfied
        refine ⟨?_, ?_⟩
        · intro other isOther
          cases ready.symm.trans isOther
          exact satisfied
        · intro error failed
          cases ready.symm.trans failed
      · intro met
        exact met.tried evm ready
  | error error =>
      have stands : ListMet api request state postState ↔
          ((listed request.inclusionList).map InclusionListTxWithMetadata.hash).Nodup ∧
            ∀ req ∈ listed request.inclusionList, Includes request.block req.hash := by
        constructor
        · intro met
          exact met.untried error ready
        · intro includes
          refine ⟨?_, fun _ _ => includes⟩
          intro evm isReady
          cases ready.symm.trans isReady
      rw [stands]
      cases list : request.inclusionList with
      | none => simp [ValidationApi.validateInclusionListConstraint, listed, Inquiry.run, pure]
      | some inclusionList =>
          simp only [ValidationApi.validateInclusionListConstraint, listed, ready]
          by_cases empty : inclusionList.txs.isEmpty = true
          · rw [if_pos empty, List.isEmpty_iff.mp empty]
            simp [Inquiry.run, pure]
          · rw [if_neg empty, ← count_iff]
            by_cases count : (ValidationApi.includedHashes request.block inclusionList.txs).card =
                inclusionList.txs.length
            · rw [if_pos count]
              simp [Inquiry.run, pure, count]
            · rw [if_neg count]
              simp [Inquiry.run, pure, count]

theorem ensurePaid_ok_iff {request : Request} {output : BlockExecutionOutput} :
    api.ensurePaid request output = .ok () ↔ Paid api request output := by
  unfold ValidationApi.ensurePaid Paid
  cases request.basePaymentTxIndex with
  | none => rw [mapError_eq_ok_iff, ProposerPayment.ensurePayment_ok_iff]
  | some ix => rw [mapError_eq_ok_iff, ProposerPayment.ensureMergedPayment_ok_iff]

theorem checkStateRoot_ok_iff {block : RecoveredBlock} {output : BlockExecutionOutput}
    {state : StateProvider api.provider.HashedPostState} :
    api.checkStateRoot block output state = .ok () ↔
      ∃ hashed, state.hashedPostState output.state = .ok hashed ∧
        state.stateRoot hashed = .ok block.block.header.stateRoot := by
  unfold ValidationApi.checkStateRoot
  simp only [bind_eq_ok_iff, mapError_eq_ok_iff, reject_eq_ok, and_true, ne_eq, not_not]
  apply exists_congr
  intro hashed
  apply and_congr_right
  intro _
  constructor
  · intro found
    obtain ⟨stateRoot, isRoot, rfl⟩ := found
    exact isRoot
  · intro isRoot
    exact ⟨_, isRoot, rfl⟩

end Checks

/-! ## The whole validation -/

section Verdict

variable {api : ValidationApi}

theorem beforeExecution_ok_iff {request : Request} {parent : SealedHeader}
    (accessed : List Address) :
    api.beforeExecution request = .ok parent ↔
      Describes request.message request.block.sealedHeader ∧
      api.consensus.validateHeader request.block.sealedHeader = .ok () ∧
      api.consensus.validateBlockPreExecution request.block = .ok () ∧
      (request.applyBlacklist = true →
        ∀ address ∈ (DisallowList.submissionOf request accessed).named,
          address ∉ api.disallow) ∧
      RecentParent api request.block.parentHash parent ∧
      api.consensus.validateHeaderAgainstParent request.block.sealedHeader parent = .ok () := by
  unfold ValidationApi.beforeExecution
  simp only [check_eq_ok_iff, @bind_eq_ok_iff _ SealedHeader, mapError_eq_ok_iff,
    validateMessageAgainstHeader_ok_iff, screen_ok_iff accessed, getParentHeader_ok_iff,
    Except.ok.injEq]
  constructor
  · intro passed
    obtain ⟨message, header, body, clean, found, recent, againstParent, rfl⟩ := passed
    exact ⟨message, header, body, clean, recent, againstParent⟩
  · intro conditions
    obtain ⟨message, header, body, clean, recent, againstParent⟩ := conditions
    exact ⟨message, header, body, clean, parent, recent, againstParent, rfl⟩

/-- What the execution of a block comes to, with the checks on it. -/
structure Passes (api : ValidationApi) (request : Request)
    (state : StateProvider api.provider.HashedPostState) (result : BlockExecutionResult)
    (executor : api.evmConfig.Executor) : Prop where
  ran : (api.evmConfig.executeOne request.block).run state.read = .ok (result, executor)
  accessList : ∀ list ∈ rebuilt api executor,
    api.evmConfig.validateGasLimit list request.block.block.header.gasLimit = .ok ()
  clean : request.applyBlacklist = true →
    ∀ address ∈ api.evmConfig.cacheAccounts (finalState api executor), address ∉ api.disallow
  inclusionList : ListMet api request state (finalState api executor)

/-- The scan of the accounts that the execution read, as a check. -/
def scan (api : ValidationApi) (accounts : List Address) (applyBlacklist : Bool) :
    Except ValidationApiError Unit :=
  match api.accessedBlacklisted accounts applyBlacklist with
  | some account => .error (.blacklist account)
  | none => .ok ()

theorem scan_ok_iff {accounts : List Address} {applies : Bool} :
    scan api accounts applies = .ok () ↔
      (applies = true → ∀ address ∈ accounts, address ∉ api.disallow) := by
  rw [← accessedBlacklisted_none_iff, scan]
  cases api.accessedBlacklisted accounts applies <;> simp

theorem executeReading_ran {request : Request}
    {state : StateProvider api.provider.HashedPostState} {result : BlockExecutionResult}
    {executor : api.evmConfig.Executor}
    (ran : (api.evmConfig.executeOne request.block).run state.read = .ok (result, executor)) :
    (api.executeReading request.block request.applyBlacklist request.inclusionList).run state.read =
      (api.blockAccessListHash request.block (rebuilt api executor) >>= fun hash =>
        scan api (api.evmConfig.cacheAccounts (finalState api executor)) request.applyBlacklist >>=
          fun _ => (api.validateInclusionListConstraint request.block (finalState api executor)
              request.inclusionList).run state.read >>=
            fun _ => .ok (outputOf api result executor, hash)) := by
  unfold ValidationApi.executeReading scan rebuilt finalState
  rw [Inquiry.run_bind, ran]
  simp only
  cases api.blockAccessListHash request.block (api.evmConfig.takeBal executor).1 with
  | error error => rfl
  | ok hash =>
      simp only [ok_bind]
      cases api.accessedBlacklisted (api.evmConfig.cacheAccounts
          (api.evmConfig.intoState (api.evmConfig.takeBal executor).2)) request.applyBlacklist with
      | some address => rfl
      | none =>
          simp only [ok_bind]
          rw [Inquiry.run_bind]
          cases (api.validateInclusionListConstraint request.block
              (api.evmConfig.intoState (api.evmConfig.takeBal executor).2)
              request.inclusionList).run state.read with
          | error error => rfl
          | ok _ => rfl

theorem executeReading_ok_iff {request : Request}
    {state : StateProvider api.provider.HashedPostState} {outcome : BlockExecutionOutput × Option B256}
    (doesNotCommit : DoesNotCommit api state.read) :
    (api.executeReading request.block request.applyBlacklist request.inclusionList).run state.read =
        .ok outcome ↔
      ∃ result executor, Passes api request state result executor ∧
        outcome = (outputOf api result executor,
          (rebuilt api executor).map api.evmConfig.computeHash) := by
  have runs : ∀ result executor,
      (api.evmConfig.executeOne request.block).run state.read = .ok (result, executor) →
      ((api.executeReading request.block request.applyBlacklist request.inclusionList).run
          state.read = .ok outcome ↔
        Passes api request state result executor ∧ outcome = (outputOf api result executor,
          (rebuilt api executor).map api.evmConfig.computeHash)) := by
    intro result executor ran
    rw [executeReading_ran ran]
    simp only [@bind_eq_ok_iff _ (Option B256), check_eq_ok_iff, blockAccessListHash_ok_iff,
      scan_ok_iff, validateInclusionListConstraint_ok_iff doesNotCommit, Except.ok.injEq]
    constructor
    · intro passed
      obtain ⟨hash, ⟨accessList, rfl⟩, clean, inclusionList, isOutcome⟩ := passed
      exact ⟨⟨ran, accessList, clean, inclusionList⟩, isOutcome.symm⟩
    · intro passed
      obtain ⟨executes, isOutcome⟩ := passed
      exact ⟨_, ⟨executes.accessList, rfl⟩, executes.clean, executes.inclusionList,
        isOutcome.symm⟩
  constructor
  · intro success
    have whole := success
    unfold ValidationApi.executeReading at whole
    rw [Inquiry.run_bind] at whole
    cases ran : (api.evmConfig.executeOne request.block).run state.read with
    | error error =>
        rw [ran] at whole
        cases whole
    | ok executed => exact ⟨executed.1, executed.2, (runs _ _ ran).mp success⟩
  · intro executes
    obtain ⟨result, executor, executes, isOutcome⟩ := executes
    exact (runs result executor executes.ran).mpr ⟨executes, isOutcome⟩

theorem afterExecution_ok_iff {request : Request} {output : BlockExecutionOutput}
    {state : StateProvider api.provider.HashedPostState} {hash : Option B256} :
    api.afterExecution request output state hash = .ok () ↔
      api.consensus.validateBlockPostExecution request.block output hash = .ok () ∧
      Paid api request output ∧
      ∃ hashed, state.hashedPostState output.state = .ok hashed ∧
        state.stateRoot hashed = .ok request.block.block.header.stateRoot := by
  unfold ValidationApi.afterExecution
  simp only [check_eq_ok_iff, mapError_eq_ok_iff, ensurePaid_ok_iff, checkStateRoot_ok_iff]

theorem judge_passed {request : Request} {parent : SealedHeader}
    {state : StateProvider api.provider.HashedPostState}
    (passed : api.beforeExecution request = .ok parent)
    (opened : api.provider.stateByBlockHash request.block.parentHash = .ok state) :
    judge api request = .ok () ↔
      ∃ outcome, (api.executeReading request.block request.applyBlacklist
          request.inclusionList).run state.read = .ok outcome ∧
        api.afterExecution request outcome.1 state outcome.2 = .ok () := by
  unfold judge
  simp only [passed, opened]
  cases (api.executeReading request.block request.applyBlacklist request.inclusionList).run
      state.read with
  | error error => simp
  | ok outcome => simp

/-- The verdict on a request is the conjunction of the conditions. -/
theorem judge_ok_iff (doesNotCommit : ∀ source, DoesNotCommit api source) (request : Request) :
    judge api request = .ok () ↔
      ∃ parent state result executor, Accepted api request parent state result executor := by
  constructor
  · intro accepted
    cases passed : api.beforeExecution request with
    | error error =>
        rw [judge_rejected passed] at accepted
        cases accepted
    | ok parent =>
        cases opened : api.provider.stateByBlockHash request.block.parentHash with
        | error error => simp [judge, passed, opened] at accepted
        | ok state =>
            obtain ⟨outcome, ran, after⟩ := (judge_passed passed opened).mp accepted
            obtain ⟨result, executor, executes, rfl⟩ :=
              (executeReading_ok_iff (doesNotCommit state.read)).mp ran
            obtain ⟨postExecution, paid, stateRoot⟩ := afterExecution_ok_iff.mp after
            obtain ⟨message, header, body, named, recent, againstParent⟩ :=
              (beforeExecution_ok_iff (api.evmConfig.cacheAccounts (finalState api executor))).mp
                passed
            refine ⟨parent, state, result, executor, message, header, body, ?_, recent,
              againstParent, opened, executes.ran, executes.accessList, executes.inclusionList,
              postExecution, paid, stateRoot⟩
            intro applies address member
            rcases List.mem_append.mp member with inNames | inReads
            · exact named applies address inNames
            · exact executes.clean applies address inReads
  · intro conditions
    obtain ⟨parent, state, result, executor, accepted⟩ := conditions
    have passed : api.beforeExecution request = .ok parent := by
      refine (beforeExecution_ok_iff (api.evmConfig.cacheAccounts (finalState api executor))).mpr
        ⟨accepted.message, accepted.header, accepted.body, ?_, accepted.recent,
          accepted.againstParent⟩
      intro applies address member
      exact accepted.clean applies address (List.mem_append_left _ member)
    have executes : Passes api request state result executor := by
      refine ⟨accepted.executed, accepted.accessList, ?_, accepted.inclusionList⟩
      intro applies address member
      exact accepted.clean applies address (List.mem_append_right _ member)
    have ran := (executeReading_ok_iff (doesNotCommit state.read)).mpr
      ⟨result, executor, executes, rfl⟩
    exact (judge_passed passed accepted.opened).mpr ⟨_, ran, afterExecution_ok_iff.mpr
      ⟨accepted.postExecution, accepted.paid, accepted.stateRoot⟩⟩

end Verdict

end EthgasReth.Simulator.Acceptance
