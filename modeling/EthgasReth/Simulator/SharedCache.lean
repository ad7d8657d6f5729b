import EthgasReth.Lib.System
import EthgasReth.Simulator.BlockValidation

/-!
# Validations that share the read cache

Any number of validations, on any parents, take a copy of the shared cache, execute on
the copy and write it back, in any order.  The disallow set, the chain's headers and the
states of its blocks stay as they are meanwhile.  Whatever the shared cache holds is
then the value in the state of the block it is kept for, and no validation can tell the
cache from an empty one.
-/

set_option autoImplicit false

namespace EthgasReth.Simulator.SharedCache

open EthgasReth.Primitives
open EthgasReth.Lib
open EthgasReth.Execution
open EthgasReth.Simulator.BlockValidation

/-! ## The tasks -/

section Tasks

variable (api : ValidationApi)

/-- Where a validation stands.  `holding` has its copy of the cache, `executed` is about to
write it back. -/
inductive Task where
  | absent
  | received (request : Request)
  | holding (request : Request) (head : B256) (requestCache : CachedReads)
  | executed (request : Request) (head : B256) (executed : api.ExecutedBlock)
  | updated (request : Request) (executed : api.ExecutedBlock)
  | finished (request : Request) (verdict : Except Stop Unit)

structure Pool where
  cachedState : CachedState
  task : Nat → Task api

/-- A step of one task.  An execution works on its own copy and on a state that does not
change, so it is one step. -/
inductive Step : Pool api → Pool api → Prop
  | submit {pool : Pool api} {who : Nat} (request : Request) (absent : pool.task who = .absent) :
      Step pool { pool with task := Function.update pool.task who (.received request) }
  | reject {pool : Pool api} {who : Nat} {request : Request} {error : ValidationApiError}
      (received : pool.task who = .received request)
      (rejected : api.beforeExecution request = .error error) :
      Step pool { pool with
        task := Function.update pool.task who (.finished request (.error (.error error))) }
  | cachedReads {pool : Pool api} {who : Nat} {request : Request} {parentHeader : SealedHeader}
      (received : pool.task who = .received request)
      (passed : api.beforeExecution request = .ok parentHeader) :
      Step pool { pool with
        task := Function.update pool.task who (.holding request parentHeader.hash
          (cachedReads pool.cachedState parentHeader.hash)) }
  | fail {pool : Pool api} {who : Nat} {request : Request} {head : B256}
      {requestCache : CachedReads} {error : ValidationApiError}
      (holding : pool.task who = .holding request head requestCache)
      (failed : api.executeBlock request.block request.applyBlacklist request.inclusionList
        requestCache = .error error) :
      Step pool { pool with
        task := Function.update pool.task who (.finished request (.error (.error error))) }
  | execute {pool : Pool api} {who : Nat} {request : Request} {head : B256}
      {requestCache : CachedReads} {executed : api.ExecutedBlock}
      (holding : pool.task who = .holding request head requestCache)
      (success : api.executeBlock request.block request.applyBlacklist request.inclusionList
        requestCache = .ok executed) :
      Step pool { pool with
        task := Function.update pool.task who (.executed request head executed) }
  | updateCachedReads {pool : Pool api} {who : Nat} {request : Request} {head : B256}
      {executed : api.ExecutedBlock} (isExecuted : pool.task who = .executed request head executed) :
      Step pool {
        cachedState := updateCachedReads pool.cachedState head executed.requestCache
        task := Function.update pool.task who (.updated request executed) }
  | finish {pool : Pool api} {who : Nat} {request : Request} {executed : api.ExecutedBlock}
      (updated : pool.task who = .updated request executed) :
      Step pool { pool with
        task := Function.update pool.task who (.finished request
          (api.afterExecution request executed.output executed.stateProvider
            executed.blockAccessListHash)) }

def idle : Pool api where
  cachedState := CachedState.default
  task := fun _ => .absent

def validations : System (Pool api) where
  Init := fun pool => pool = idle api
  Step := Step api

abbrev Reached (pool : Pool api) : Prop := (validations api).Reachable pool

/-! ## What the cache is for -/

/-- Every value that is held is the value in the state of the block. -/
def HoldsStateOf (head : B256) (reads : CachedReads) : Prop :=
  ∀ query value, reads query = some value →
    ∃ state, api.provider.stateByBlockHash head = .ok state ∧ state.read query = .ok value

/-- The header that is found under a hash has that hash. -/
def SealedByHash : Prop :=
  ∀ hash header, api.provider.sealedHeaderByHash hash = .ok (some header) → header.hash = hash

def judge (request : Request) : Except Stop Unit :=
  match api.beforeExecution request with
  | .error error => .error (.error error)
  | .ok _ =>
      match api.provider.stateByBlockHash request.block.parentHash with
      | .error error => .error (.error (.provider error))
      | .ok stateProvider =>
          match (api.executeReading request.block request.applyBlacklist
              request.inclusionList).run stateProvider.read with
          | .error error => .error (.error error)
          | .ok (output, blockAccessListHash) =>
              api.afterExecution request output stateProvider blockAccessListHash

structure Executes (request : Request) (executed : api.ExecutedBlock) : Prop where
  state : api.provider.stateByBlockHash request.block.parentHash = .ok executed.stateProvider
  result : (api.executeReading request.block request.applyBlacklist request.inclusionList).run
    executed.stateProvider.read = .ok (executed.output, executed.blockAccessListHash)

end Tasks

variable {api : ValidationApi}

/-! ## One validation -/

def stateSource (api : ValidationApi) (head : B256) :
    Source StateQuery StateQuery.Answer RethProviderError :=
  match api.provider.stateByBlockHash head with
  | .ok state => state.read
  | .error error => fun _ => .error error

theorem stateSource_found {head : B256} {state : StateProvider api.provider.HashedPostState}
    (found : api.provider.stateByBlockHash head = .ok state) :
    stateSource api head = state.read := by
  simp [stateSource, found]

theorem holdsStateOf_iff {head : B256} {reads : CachedReads} :
    HoldsStateOf api head reads ↔ reads.Faithful (stateSource api head) := by
  constructor
  · intro holds query value held
    obtain ⟨state, found, isValue⟩ := holds query value held
    rw [stateSource_found found]
    exact isValue
  · intro faithful query value held
    have answered := faithful query value held
    cases found : api.provider.stateByBlockHash head with
    | ok state =>
        rw [stateSource_found found] at answered
        exact ⟨state, rfl, answered⟩
    | error error => simp [stateSource, found] at answered

theorem holdsStateOf_empty (head : B256) : HoldsStateOf api head ReadCache.empty :=
  holdsStateOf_iff.mpr ReadCache.faithful_empty

theorem orMissing_ok {missing : GetParentError}
    {found : Except RethProviderError (Option SealedHeader)} {header : SealedHeader}
    (success : ValidationApi.orMissing missing found = .ok header) : found = .ok (some header) := by
  unfold ValidationApi.orMissing at success
  split at success
  · cases success
  · cases success
  · cases success
    rfl

theorem getParentHeader_hash (sealedByHash : SealedByHash api) {parentHash : B256}
    {parentHeader : SealedHeader} (found : api.getParentHeader parentHash = .ok parentHeader) :
    parentHeader.hash = parentHash := by
  unfold ValidationApi.getParentHeader at found
  obtain ⟨latestHeader, -, found⟩ := bind_eq_ok found
  split at found
  · rename_i isLatest
    cases found
    exact isLatest.symm
  · obtain ⟨header, isHeader, found⟩ := bind_eq_ok found
    obtain ⟨-, found⟩ := reject_eq_ok.mp found
    cases found
    exact sealedByHash parentHash _ (orMissing_ok isHeader)

theorem beforeExecution_hash (sealedByHash : SealedByHash api) {request : Request}
    {parentHeader : SealedHeader} (passed : api.beforeExecution request = .ok parentHeader) :
    parentHeader.hash = request.block.parentHash := by
  unfold ValidationApi.beforeExecution at passed
  obtain ⟨-, -, passed⟩ := bind_eq_ok passed
  obtain ⟨-, -, passed⟩ := bind_eq_ok passed
  obtain ⟨-, -, passed⟩ := bind_eq_ok passed
  obtain ⟨-, -, passed⟩ := bind_eq_ok passed
  obtain ⟨parent, isParent, passed⟩ := bind_eq_ok passed
  obtain ⟨-, -, passed⟩ := bind_eq_ok passed
  cases passed
  exact getParentHeader_hash sealedByHash (mapError_eq_ok isParent)

/-- On a copy with the right values the reads come to the same as on none, and leave right
values behind. -/
theorem executeReading_agrees {request : Request} {requestCache : CachedReads}
    {state : StateProvider api.provider.HashedPostState}
    (found : api.provider.stateByBlockHash request.block.parentHash = .ok state)
    (holds : HoldsStateOf api request.block.parentHash requestCache)
    {result : Except ValidationApiError (BlockExecutionOutput × Option B256)} {left : CachedReads}
    (ran : (api.executeReading request.block request.applyBlacklist request.inclusionList).runCached
      state.read requestCache = (result, left)) :
    (api.executeReading request.block request.applyBlacklist request.inclusionList).run state.read =
        result ∧
      HoldsStateOf api request.block.parentHash left := by
  rw [holdsStateOf_iff, stateSource_found found] at holds ⊢
  have sameResult := (api.executeReading request.block request.applyBlacklist
    request.inclusionList).runCached_result holds
  have faithful := (api.executeReading request.block request.applyBlacklist
    request.inclusionList).runCached_faithful holds
  rw [ran] at sameResult faithful
  exact ⟨sameResult.symm, faithful⟩

theorem executeBlock_ok {request : Request} {requestCache : CachedReads}
    {executed : api.ExecutedBlock}
    (holds : HoldsStateOf api request.block.parentHash requestCache)
    (success : api.executeBlock request.block request.applyBlacklist request.inclusionList
      requestCache = .ok executed) :
    Executes api request executed ∧
      HoldsStateOf api request.block.parentHash executed.requestCache := by
  unfold ValidationApi.executeBlock at success
  split at success
  · cases success
  · rename_i state found
    split at success
    · cases success
    · rename_i ran
      cases success
      obtain ⟨result, left⟩ := executeReading_agrees found holds ran
      exact ⟨⟨found, result⟩, left⟩

theorem executeBlock_error {request : Request} {requestCache : CachedReads}
    {parentHeader : SealedHeader} {error : ValidationApiError}
    (passed : api.beforeExecution request = .ok parentHeader)
    (holds : HoldsStateOf api request.block.parentHash requestCache)
    (failed : api.executeBlock request.block request.applyBlacklist request.inclusionList
      requestCache = .error error) :
    judge api request = .error (.error error) := by
  unfold ValidationApi.executeBlock at failed
  split at failed
  · rename_i unavailable
    cases failed
    simp [judge, passed, unavailable]
  · rename_i state found
    split at failed
    · rename_i ran
      cases failed
      obtain ⟨result, -⟩ := executeReading_agrees found holds ran
      simp [judge, passed, found, result]
    · cases failed

theorem Executes.judged {request : Request} {executed : api.ExecutedBlock}
    {parentHeader : SealedHeader} (executes : Executes api request executed)
    (passed : api.beforeExecution request = .ok parentHeader) :
    judge api request = api.afterExecution request executed.output executed.stateProvider
      executed.blockAccessListHash := by
  simp [judge, passed, executes.state, executes.result]

theorem judge_rejected {request : Request} {error : ValidationApiError}
    (rejected : api.beforeExecution request = .error error) :
    judge api request = .error (.error error) := by
  simp [judge, rejected]

theorem cachedReads_holds {cache : CachedState} (holds : HoldsStateOf api cache.1 cache.2)
    (head : B256) : HoldsStateOf api head (cachedReads cache head) := by
  unfold cachedReads
  split
  · rename_i same
    rw [← same]
    exact holds
  · exact holdsStateOf_empty head

/-- A write-back extends the cache of its own head or replaces that of another. -/
theorem updateCachedReads_holds {cache : CachedState} {head : B256} {reads : CachedReads}
    (holds : HoldsStateOf api cache.1 cache.2) (readsHold : HoldsStateOf api head reads) :
    HoldsStateOf api (updateCachedReads cache head reads).1
      (updateCachedReads cache head reads).2 := by
  unfold updateCachedReads
  split
  · rename_i same
    rw [← same] at readsHold
    exact holdsStateOf_iff.mpr
      ((holdsStateOf_iff.mp holds).extend (holdsStateOf_iff.mp readsHold))
  · exact readsHold

theorem validateMessageAgainstBlock_verdict (sealedByHash : SealedByHash api) (request : Request)
    {cache : CachedState} (holds : HoldsStateOf api cache.1 cache.2) :
    (api.validateMessageAgainstBlock request cache).1 = judge api request := by
  unfold ValidationApi.validateMessageAgainstBlock
  cases passed : api.beforeExecution request with
  | error error => exact (judge_rejected passed).symm
  | ok parentHeader =>
      have copy := @cachedReads_holds api cache holds parentHeader.hash
      rw [beforeExecution_hash sealedByHash passed] at copy
      simp only [beforeExecution_hash sealedByHash passed]
      cases ran : api.executeBlock request.block request.applyBlacklist request.inclusionList
          (cachedReads cache request.block.parentHash) with
      | error error => exact (executeBlock_error passed copy ran).symm
      | ok executed => exact ((executeBlock_ok copy ran).1.judged passed).symm

/-! ## The invariant -/

def Task.Sound : Task api → Prop
  | .absent => True
  | .received _ => True
  | .holding request head requestCache =>
      (∃ parentHeader, api.beforeExecution request = .ok parentHeader) ∧
        head = request.block.parentHash ∧ HoldsStateOf api head requestCache
  | .executed request head outcome =>
      (∃ parentHeader, api.beforeExecution request = .ok parentHeader) ∧
        Executes api request outcome ∧ HoldsStateOf api head outcome.requestCache
  | .updated request outcome =>
      (∃ parentHeader, api.beforeExecution request = .ok parentHeader) ∧
        Executes api request outcome
  | .finished request verdict => verdict = judge api request

structure Agrees (pool : Pool api) : Prop where
  cache : HoldsStateOf api pool.cachedState.1 pool.cachedState.2
  tasks : ∀ who, (pool.task who).Sound

theorem Agrees.put {pool : Pool api} (agrees : Agrees pool) (who : Nat) {task : Task api}
    (sound : task.Sound) : ∀ other, (Function.update pool.task who task other).Sound := by
  intro other
  by_cases same : other = who
  · subst same
    rw [Function.update_self]
    exact sound
  · rw [Function.update_of_ne same]
    exact agrees.tasks other

theorem Agrees.at {pool : Pool api} (agrees : Agrees pool) {who : Nat} {task : Task api}
    (isTask : pool.task who = task) : task.Sound := by
  rw [← isTask]
  exact agrees.tasks who

theorem step_agrees (sealedByHash : SealedByHash api) {pool next : Pool api}
    (agrees : Agrees pool) (taken : Step api pool next) : Agrees next := by
  cases taken with
  | @submit who request absent => exact ⟨agrees.cache, agrees.put who trivial⟩
  | @reject who request error received rejected =>
      exact ⟨agrees.cache, agrees.put who (judge_rejected rejected).symm⟩
  | @cachedReads who request parentHeader received passed =>
      refine ⟨agrees.cache, agrees.put who ⟨⟨parentHeader, passed⟩, ?_, ?_⟩⟩
      · exact beforeExecution_hash sealedByHash passed
      · exact cachedReads_holds agrees.cache parentHeader.hash
  | @fail who request head requestCache error holding failed =>
      obtain ⟨⟨parentHeader, passed⟩, rfl, holds⟩ := agrees.at holding
      exact ⟨agrees.cache, agrees.put who (executeBlock_error passed holds failed).symm⟩
  | @execute who request head requestCache executed holding success =>
      obtain ⟨passed, rfl, holds⟩ := agrees.at holding
      exact ⟨agrees.cache, agrees.put who ⟨passed, executeBlock_ok holds success⟩⟩
  | @updateCachedReads who request head executed isExecuted =>
      obtain ⟨passed, executes, holds⟩ := agrees.at isExecuted
      exact ⟨updateCachedReads_holds agrees.cache holds, agrees.put who ⟨passed, executes⟩⟩
  | @finish who request executed updated =>
      obtain ⟨⟨parentHeader, passed⟩, executes⟩ := agrees.at updated
      exact ⟨agrees.cache, agrees.put who (executes.judged passed).symm⟩

theorem reached_agrees (sealedByHash : SealedByHash api) {pool : Pool api}
    (reached : Reached api pool) : Agrees pool := by
  refine System.Reachable.invariant ?_ ?_ reached
  · rintro pool rfl
    exact ⟨holdsStateOf_empty 0, fun _ => trivial⟩
  · intro pool next _ agrees taken
    exact step_agrees sealedByHash agrees taken

/-- In every run of any validations, the shared cache holds values of the state it is kept
for, and each verdict is the one that the request gets alone with an empty cache. -/
theorem verdicts_independent_of_cache (sealedByHash : SealedByHash api) {pool : Pool api}
    (reached : Reached api pool) :
    HoldsStateOf api pool.cachedState.1 pool.cachedState.2 ∧
      ∀ who request verdict, pool.task who = .finished request verdict →
        verdict = (api.validateMessageAgainstBlock request CachedState.default).1 := by
  have agrees := reached_agrees sealedByHash reached
  refine ⟨agrees.cache, ?_⟩
  intro who request verdict finished
  rw [validateMessageAgainstBlock_verdict sealedByHash request (holdsStateOf_empty 0)]
  exact agrees.at finished

/-! ## A validation that nothing interrupts -/

/-- Left alone, a request goes through the steps to the verdict and the cache of the
sequential model. -/
theorem uninterrupted {pool : Pool api} {who : Nat} {request : Request}
    (received : pool.task who = .received request) :
    ∃ next, Relation.ReflTransGen (Step api) pool next ∧
      next.cachedState = (api.validateMessageAgainstBlock request pool.cachedState).2 ∧
      next.task who =
        .finished request (api.validateMessageAgainstBlock request pool.cachedState).1 := by
  unfold ValidationApi.validateMessageAgainstBlock
  cases passed : api.beforeExecution request with
  | error error => exact ⟨_, .single (.reject received passed), rfl, by simp⟩
  | ok parentHeader =>
      have holding := Relation.ReflTransGen.single (Step.cachedReads received passed)
      dsimp only
      cases ran : api.executeBlock request.block request.applyBlacklist request.inclusionList
          (cachedReads pool.cachedState parentHeader.hash) with
      | error error =>
          exact ⟨_, holding.tail (.fail (Function.update_self ..) ran), rfl, by simp⟩
      | ok executed =>
          have isExecuted := holding.tail (.execute (Function.update_self ..) ran)
          have updated := isExecuted.tail (.updateCachedReads (Function.update_self ..))
          exact ⟨_, updated.tail (.finish (Function.update_self ..)), rfl, by simp⟩

/-! ## Two blocks with a withdrawal each -/

namespace Withdrawals

def credited (bundle : BundleState) (withdrawal : Withdrawal) (originalInfo info : Option AccountInfo) :
    BundleState :=
  let info := info.getD { balance := 0, nonce := 0, codeHash := keccakEmpty }
  { bundle with
    state := Function.update bundle.state withdrawal.address (some {
      info := some { info with balance := info.balance + PaymentChecks.amountWei withdrawal }
      originalInfo := originalInfo
      storage := fun _ => none
      wasDestroyed := false }) }

def credit : List Withdrawal → BundleState → StateReads (Except BlockExecutionError BundleState)
  | [], bundle => pure (.ok bundle)
  | withdrawal :: rest, bundle =>
      match bundle.state withdrawal.address with
      | some account => credit rest (credited bundle withdrawal account.originalInfo account.info)
      | none => .ask (.basic withdrawal.address) fun
          | .error error => pure (.error (.internal error))
          | .ok info => credit rest (credited bundle withdrawal info info)

def evmConfig : EvmConfig where
  Executor := List Address × BundleState
  Bal := Unit
  State := List Address × BundleState
  Evm := Unit
  executeOne := fun block => do
    let withdrawals := block.block.withdrawals.getD []
    match ← credit withdrawals BundleState.empty with
    | .error error => pure (.error error)
    | .ok bundle => pure (.ok ({ receipts := [], requests := [], gasUsed := 0, blobGasUsed := 0 },
        (withdrawals.map (·.address), bundle)))
  takeBal := fun executor => (none, executor)
  validateGasLimit := fun _ _ => .ok ()
  computeHash := fun _ => 0
  intoState := fun executor => executor
  cacheAccounts := fun state => state.1
  bundleState := fun state => state.2
  evmForBlock := fun _ _ => .ok ()
  transact := fun _ _ => pure (.error "not reached", ())

def header (number : Nat) (parentHash : B256) : Header where
  parentHash := parentHash
  beneficiary := 0
  stateRoot := 0
  transactionsRoot := 0
  receiptsRoot := 0
  logsBloom := 0
  number := number
  gasLimit := 0
  gasUsed := 0
  timestamp := 0
  extraData := []
  mixHash := 0
  baseFeePerGas := none
  withdrawalsRoot := none
  blobGasUsed := none
  excessBlobGas := none
  parentBeaconBlockRoot := none
  requestsHash := none
  slotNumber := none

def stateAt (number : Nat) : StateProvider Unit where
  read
    | .basic address =>
        .ok (if address = 7 then
          some { balance := BitVec.ofNat 256 (10 * number), nonce := 0, codeHash := keccakEmpty }
        else none)
    | .codeByHash _ => .error "no code"
    | .storage _ _ => .ok (0 : U256)
    | .blockHash known => .ok (BitVec.ofNat 256 known)
  hashedPostState := fun _ => .ok ()
  stateRoot := fun _ => .ok 0

def provider : Provider where
  HashedPostState := Unit
  latestHeader := .ok (some { header := header 2 1, hash := 2 })
  sealedHeaderByHash := fun hash =>
    .ok (if hash = 1 then some { header := header 1 0, hash := 1 }
      else if hash = 2 then some { header := header 2 1, hash := 2 }
      else none)
  stateByBlockHash := fun hash =>
    if hash = 1 then .ok (stateAt 1)
    else if hash = 2 then .ok (stateAt 2)
    else .error "unknown block"

def validator : ValidationApi where
  provider := provider
  consensus := {
    validateHeader := fun _ => .ok ()
    validateBlockPreExecution := fun _ => .ok ()
    validateHeaderAgainstParent := fun _ _ => .ok ()
    validateBlockPostExecution := fun _ _ _ => .ok () }
  evmConfig := evmConfig
  recoverRawTransaction := fun _ => .error "no transaction"
  payments := {
    chainId := 1
    latestAccount := fun _ => .ok none
    abi := { execTransaction := fun _ => none, multiSend := fun _ => none } }
  disallow := ∅
  validationWindow := 3

def request (parent : Nat) : Request where
  block := {
    block := {
      header := header (parent + 1) (BitVec.ofNat 256 parent)
      transactions := []
      withdrawals := some [{ index := 0, validatorIndex := 0, address := 7, amount := 1 }] }
    hash := BitVec.ofNat 256 (parent + 100)
    senders := [] }
  message := {
    proposerFeeRecipient := 7
    value := 0
    blockHash := BitVec.ofNat 256 (parent + 100)
    parentHash := BitVec.ofNat 256 parent
    gasLimit := 0
    gasUsed := 0 }
  applyBlacklist := true
  inclusionList := none
  basePaymentTxIndex := none

theorem sealedByHash : SealedByHash validator := by
  intro hash header found
  simp only [validator, provider, Except.ok.injEq] at found
  split at found
  · rename_i isFirst
    cases found
    exact isFirst.symm
  · split at found
    · rename_i isSecond
      cases found
      exact isSecond.symm
    · cases found

/-- Both take the empty cache; the one on block 2 writes back first, and the other replaces
its values with those of block 1. -/
theorem verdicts_independent_of_cache_two_heads :
    ∃ pool : Pool validator, pool.cachedState.1 = 1 ∧
      pool.cachedState.2 (.basic 7) =
        some (some { balance := 10, nonce := 0, codeHash := keccakEmpty }) ∧
      pool.task 0 = .finished (request 1) (.ok ()) ∧
      pool.task 1 = .finished (request 2) (.ok ()) ∧
      HoldsStateOf validator pool.cachedState.1 pool.cachedState.2 ∧
      ∀ who request verdict, pool.task who = .finished request verdict →
        verdict = (validator.validateMessageAgainstBlock request CachedState.default).1 := by
  have start : Reached validator (idle validator) := .init rfl
  have first := System.Reachable.step start (@Step.submit validator _ 0 (request 1) rfl)
  have second := System.Reachable.step first (@Step.submit validator _ 1 (request 2) rfl)
  have firstTakes := System.Reachable.step second (@Step.cachedReads validator _ 0 (request 1) _ rfl rfl)
  have secondTakes := System.Reachable.step firstTakes
    (@Step.cachedReads validator _ 1 (request 2) _ rfl rfl)
  have firstRuns := System.Reachable.step secondTakes
    (@Step.execute validator _ 0 (request 1) _ _ _ rfl rfl)
  have secondRuns := System.Reachable.step firstRuns
    (@Step.execute validator _ 1 (request 2) _ _ _ rfl rfl)
  have secondWrites := System.Reachable.step secondRuns
    (@Step.updateCachedReads validator _ 1 (request 2) _ _ rfl)
  have firstWrites := System.Reachable.step secondWrites
    (@Step.updateCachedReads validator _ 0 (request 1) _ _ rfl)
  have firstEnds := System.Reachable.step firstWrites (@Step.finish validator _ 0 (request 1) _ rfl)
  have secondEnds := System.Reachable.step firstEnds (@Step.finish validator _ 1 (request 2) _ rfl)
  exact ⟨_, rfl, rfl, rfl, rfl, verdicts_independent_of_cache sealedByHash secondEnds⟩

end Withdrawals

end EthgasReth.Simulator.SharedCache
