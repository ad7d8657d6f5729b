import EthgasReth.Lib.ReadCache
import EthgasReth.Simulator.PaymentChecks

/-!
# Validation of a submitted block

`validate_message_against_block` of `validation/mod.rs` and what it calls: the checks
before the execution, the execution with its accessed accounts and the inclusion list,
and the checks after it.  The shared cache of state reads enters twice, when the
execution takes a copy of it and when the copy is written back.  reth's consensus
checks, provider and block executor are parameters; the executor reads the state of the
parent block and is an inquiry.
-/

set_option autoImplicit false

namespace EthgasReth.Simulator.BlockValidation

open EthgasReth.Primitives
open EthgasReth.Lib
open EthgasReth.Execution

/-! ## Requests and errors -/

structure RecoveredBlock where
  block : Block
  hash : B256
  senders : List Address

def RecoveredBlock.sealedHeader (recovered : RecoveredBlock) : SealedHeader where
  header := recovered.block.header
  hash := recovered.hash

def RecoveredBlock.parentHash (recovered : RecoveredBlock) : B256 :=
  recovered.block.header.parentHash

structure BidTrace extends PaymentChecks.BidTrace where
  blockHash : B256
  parentHash : B256
  gasLimit : Nat
  gasUsed : Nat

structure InclusionListTxWithMetadata where
  hash : B256
  bytes : Bytes

structure InclusionListWithMetadata where
  txs : List InclusionListTxWithMetadata

structure Request where
  block : RecoveredBlock
  message : BidTrace
  applyBlacklist : Bool
  inclusionList : Option InclusionListWithMetadata
  basePaymentTxIndex : Option Nat

structure GotExpected (α : Type) where
  got : α
  expected : α

abbrev RethProviderError := String

inductive ConsensusError where
  | bodyStateRootDiff (diff : GotExpected B256)
  | other (message : String)

inductive BlockExecutionError where
  | validation (message : String)
  | internal (message : String)

inductive GetParentError where
  | missingLatestBlock
  | missingParentBlock
  | blockTooOld
  | provider (error : RethProviderError)

inductive ValidationApiError where
  | gasLimitMismatch (diff : GotExpected Nat)
  | gasUsedMismatch (diff : GotExpected Nat)
  | parentHashMismatch (diff : GotExpected B256)
  | blockHashMismatch (diff : GotExpected B256)
  | getParent (error : GetParentError)
  | proposerPayment
  | blacklist (address : Address)
  | consensus (error : ConsensusError)
  | provider (error : RethProviderError)
  | execution (error : BlockExecutionError)
  | inclusionList

/-- How a validation ends that does not return Ok. -/
inductive Stop where
  | error (error : ValidationApiError)
  | panic

/-- The payment checks have one error of their own. -/
def Stop.ofPayment : Payment.Stop → Stop
  | .error .proposerPayment => .error .proposerPayment
  | .panic => .panic

/-! ## reth -/

inductive StateQuery where
  | basic (address : Address)
  | codeByHash (codeHash : B256)
  | storage (address : Address) (key : U256)
  | blockHash (number : Nat)
  deriving DecidableEq

def StateQuery.Answer : StateQuery → Type
  | .basic _ => Option AccountInfo
  | .codeByHash _ => Bytes
  | .storage _ _ => U256
  | .blockHash _ => B256

abbrev CachedReads := ReadCache StateQuery StateQuery.Answer

abbrev StateReads (Result : Type) := Inquiry StateQuery StateQuery.Answer RethProviderError Result

structure BlockExecutionResult where
  receipts : List Receipt
  requests : List Bytes
  gasUsed : Nat
  blobGasUsed : Nat

structure BlockExecutionOutput where
  state : BundleState
  result : BlockExecutionResult

def BlockExecutionOutput.payments (output : BlockExecutionOutput) :
    PaymentChecks.BlockExecutionOutput where
  state := output.state
  receipts := output.result.receipts

structure Recovered where
  transaction : TransactionSigned
  signer : Address

structure StateProvider (HashedPostState : Type) where
  read : Source StateQuery StateQuery.Answer RethProviderError
  hashedPostState : BundleState → Except RethProviderError HashedPostState
  stateRoot : HashedPostState → Except RethProviderError B256

structure Provider where
  HashedPostState : Type
  latestHeader : Except RethProviderError (Option SealedHeader)
  sealedHeaderByHash : B256 → Except RethProviderError (Option SealedHeader)
  stateByBlockHash : B256 → Except RethProviderError (StateProvider HashedPostState)

structure Consensus where
  validateHeader : SealedHeader → Except ConsensusError Unit
  validateBlockPreExecution : RecoveredBlock → Except ConsensusError Unit
  validateHeaderAgainstParent : SealedHeader → SealedHeader → Except ConsensusError Unit
  validateBlockPostExecution : RecoveredBlock → BlockExecutionOutput → Option B256 →
    Except ConsensusError Unit

/-- The block executor over a database, the `State` it leaves, and the EVM that is put on
top of it. -/
structure EvmConfig where
  Executor : Type
  Bal : Type
  State : Type
  Evm : Type
  executeOne : RecoveredBlock →
    StateReads (Except BlockExecutionError (BlockExecutionResult × Executor))
  takeBal : Executor → Option Bal × Executor
  validateGasLimit : Bal → Nat → Except ConsensusError Unit
  computeHash : Bal → B256
  intoState : Executor → State
  cacheAccounts : State → List Address
  bundleState : State → BundleState
  evmForBlock : State → Header → Except String Evm
  transact : Evm → Recovered → StateReads (Except String ResultAndState × Evm)

structure ValidationApi where
  provider : Provider
  consensus : Consensus
  evmConfig : EvmConfig
  recoverRawTransaction : Bytes → Except String Recovered
  payments : PaymentChecks.ValidationApi
  disallow : Finset Address
  validationWindow : Nat

/-! ## The shared cache -/

abbrev CachedState := B256 × CachedReads

def CachedState.default : CachedState := (0, ReadCache.empty)

def cachedReads (cache : CachedState) (head : B256) : CachedReads :=
  if cache.1 = head then cache.2 else ReadCache.empty

def updateCachedReads (cache : CachedState) (head : B256) (cachedState : CachedReads) :
    CachedState :=
  if cache.1 = head then (cache.1, cache.2.extend cachedState) else (head, cachedState)

namespace ValidationApi

variable (api : ValidationApi)

/-! ## Before the execution -/

def validateMessageAgainstHeader (header : SealedHeader) (message : BidTrace) :
    Except ValidationApiError Unit :=
  if header.hash ≠ message.blockHash then
    .error (.blockHashMismatch { got := message.blockHash, expected := header.hash })
  else if header.header.parentHash ≠ message.parentHash then
    .error (.parentHashMismatch { got := message.parentHash, expected := header.header.parentHash })
  else if header.header.gasLimit ≠ message.gasLimit then
    .error (.gasLimitMismatch { got := message.gasLimit, expected := header.header.gasLimit })
  else if header.header.gasUsed ≠ message.gasUsed then
    .error (.gasUsedMismatch { got := message.gasUsed, expected := header.header.gasUsed })
  else .ok ()

def screenTransfers : List (Address × TransactionSigned) → Except ValidationApiError Unit
  | [] => .ok ()
  | (sender, tx) :: rest =>
      if sender ∈ api.disallow then .error (.blacklist sender)
      else match tx.toAddress with
        | some recipient =>
            if recipient ∈ api.disallow then .error (.blacklist recipient)
            else screenTransfers rest
        | none => screenTransfers rest

def screen (block : RecoveredBlock) (message : BidTrace) (applyBlacklist : Bool) :
    Except ValidationApiError Unit :=
  if api.disallow ≠ ∅ ∧ applyBlacklist = true then
    if block.block.header.beneficiary ∈ api.disallow then
      .error (.blacklist block.block.header.beneficiary)
    else if message.proposerFeeRecipient ∈ api.disallow then
      .error (.blacklist message.proposerFeeRecipient)
    else api.screenTransfers (block.senders.zip block.block.transactions)
  else .ok ()

def orMissing (missing : GetParentError) :
    Except RethProviderError (Option SealedHeader) → Except GetParentError SealedHeader
  | .error error => .error (.provider error)
  | .ok none => .error missing
  | .ok (some header) => .ok header

def getParentHeader (parentHash : B256) : Except GetParentError SealedHeader := do
  let latestHeader ← orMissing .missingLatestBlock api.provider.latestHeader
  if parentHash = latestHeader.hash then .ok latestHeader
  else do
    let parentHeader ← orMissing .missingParentBlock (api.provider.sealedHeaderByHash parentHash)
    if latestHeader.header.number - parentHeader.header.number > api.validationWindow then
      .error .blockTooOld
    else .ok parentHeader

def beforeExecution (request : Request) : Except ValidationApiError SealedHeader := do
  validateMessageAgainstHeader request.block.sealedHeader request.message
  (api.consensus.validateHeader request.block.sealedHeader).mapError .consensus
  (api.consensus.validateBlockPreExecution request.block).mapError .consensus
  api.screen request.block request.message request.applyBlacklist
  let parentHeader ← (api.getParentHeader request.block.parentHash).mapError .getParent
  (api.consensus.validateHeaderAgainstParent request.block.sealedHeader parentHeader).mapError
    .consensus
  .ok parentHeader

/-! ## The execution -/

def includedHashes (block : RecoveredBlock) (txs : List InclusionListTxWithMetadata) :
    Finset B256 :=
  block.block.transactions.foldl (fun included tx =>
    match txs.find? fun req => req.hash = tx.txHash with
    | some req => insert req.hash included
    | none => included) ∅

def simulateMissing (included : Finset B256) :
    List InclusionListTxWithMetadata → api.evmConfig.Evm →
      StateReads (Except ValidationApiError Unit)
  | [], _ => pure (.ok ())
  | req :: rest, evm =>
      if req.hash ∈ included then simulateMissing included rest evm
      else match api.recoverRawTransaction req.bytes with
        | .error _ => pure (.error .inclusionList)
        | .ok transaction => do
            let (outcome, evm) ← api.evmConfig.transact evm transaction
            match outcome with
            | .ok _ => pure (.error .inclusionList)
            | .error _ => simulateMissing included rest evm

def validateInclusionListConstraint (block : RecoveredBlock) (postState : api.evmConfig.State)
    (inclusionList : Option InclusionListWithMetadata) :
    StateReads (Except ValidationApiError Unit) :=
  match inclusionList with
  | none => pure (.ok ())
  | some inclusionList =>
      if inclusionList.txs.isEmpty then pure (.ok ())
      else
        let included := includedHashes block inclusionList.txs
        if included.card = inclusionList.txs.length then pure (.ok ())
        else match api.evmConfig.evmForBlock postState block.block.header with
          | .error _ => pure (.error .inclusionList)
          | .ok evm => api.simulateMissing included inclusionList.txs evm

/-- The blacklisted account found last among those that the execution read. -/
def accessedBlacklisted (accounts : List Address) (applyBlacklist : Bool) : Option Address :=
  if api.disallow ≠ ∅ ∧ applyBlacklist = true then
    accounts.foldl (fun found account =>
      if account ∈ api.disallow then some account else found) none
  else none

def blockAccessListHash (block : RecoveredBlock) (bal : Option api.evmConfig.Bal) :
    Except ValidationApiError (Option B256) :=
  match bal with
  | none => .ok none
  | some list =>
      match api.evmConfig.validateGasLimit list block.block.header.gasLimit with
      | .error error => .error (.consensus error)
      | .ok () => .ok (some (api.evmConfig.computeHash list))

/-- The reads of `execute_block` and what it makes of them. -/
def executeReading (block : RecoveredBlock) (applyBlacklist : Bool)
    (inclusionList : Option InclusionListWithMetadata) :
    StateReads (Except ValidationApiError (BlockExecutionOutput × Option B256)) := do
  match ← api.evmConfig.executeOne block with
  | .error error => pure (.error (.execution error))
  | .ok (result, executor) =>
      let (bal, executor) := api.evmConfig.takeBal executor
      match api.blockAccessListHash block bal with
      | .error error => pure (.error error)
      | .ok blockAccessListHash =>
          let state := api.evmConfig.intoState executor
          match api.accessedBlacklisted (api.evmConfig.cacheAccounts state) applyBlacklist with
          | some account => pure (.error (.blacklist account))
          | none =>
              let output := { state := api.evmConfig.bundleState state, result := result }
              match ← api.validateInclusionListConstraint block state inclusionList with
              | .error error => pure (.error error)
              | .ok () => pure (.ok (output, blockAccessListHash))

structure ExecutedBlock where
  output : BlockExecutionOutput
  requestCache : CachedReads
  stateProvider : StateProvider api.provider.HashedPostState
  blockAccessListHash : Option B256

def executeBlock (block : RecoveredBlock) (applyBlacklist : Bool)
    (inclusionList : Option InclusionListWithMetadata) (requestCache : CachedReads) :
    Except ValidationApiError api.ExecutedBlock :=
  match api.provider.stateByBlockHash block.parentHash with
  | .error error => .error (.provider error)
  | .ok stateProvider =>
      match (api.executeReading block applyBlacklist inclusionList).runCached stateProvider.read
          requestCache with
      | (.error error, _) => .error error
      | (.ok (output, blockAccessListHash), requestCache) => .ok {
          output := output
          requestCache := requestCache
          stateProvider := stateProvider
          blockAccessListHash := blockAccessListHash }

/-! ## After the execution -/

def ensurePaid (request : Request) (output : BlockExecutionOutput) : Except Stop Unit :=
  match request.basePaymentTxIndex with
  | some ix => (api.payments.ensureMergedPayment request.block.block output.payments
      request.message.toBidTrace ix).mapError Stop.ofPayment
  | none => (api.payments.ensurePayment request.block.block output.payments
      request.message.toBidTrace).mapError Stop.ofPayment

def checkStateRoot (block : RecoveredBlock) (output : BlockExecutionOutput)
    (stateProvider : StateProvider api.provider.HashedPostState) :
    Except ValidationApiError Unit := do
  let hashed ← (stateProvider.hashedPostState output.state).mapError .provider
  let stateRoot ← (stateProvider.stateRoot hashed).mapError .provider
  if stateRoot ≠ block.block.header.stateRoot then
    .error (.consensus (.bodyStateRootDiff
      { got := stateRoot, expected := block.block.header.stateRoot }))
  else .ok ()

def afterExecution (request : Request) (output : BlockExecutionOutput)
    (stateProvider : StateProvider api.provider.HashedPostState)
    (blockAccessListHash : Option B256) : Except Stop Unit := do
  (api.consensus.validateBlockPostExecution request.block output blockAccessListHash).mapError
    fun error => Stop.error (.consensus error)
  api.ensurePaid request output
  (api.checkStateRoot request.block output stateProvider).mapError Stop.error

/-- The verdict, and the shared cache after it, when no other validation runs. -/
def validateMessageAgainstBlock (request : Request) (cache : CachedState) :
    Except Stop Unit × CachedState :=
  match api.beforeExecution request with
  | .error error => (.error (.error error), cache)
  | .ok parentHeader =>
      let requestCache := cachedReads cache parentHeader.hash
      match api.executeBlock request.block request.applyBlacklist request.inclusionList
          requestCache with
      | .error error => (.error (.error error), cache)
      | .ok executed =>
          (api.afterExecution request executed.output executed.stateProvider
            executed.blockAccessListHash,
          updateCachedReads cache parentHeader.hash executed.requestCache)

end ValidationApi

end EthgasReth.Simulator.BlockValidation
