import EthgasReth.Simulator.Acceptance

/-!
# Builder submissions

The methods of `relay_validateBuilderSubmission*`: a submission's blobs and payload are made
into a block, the block goes to `validate_message_against_block` with the bid, and the outcome
becomes the response.  The methods of one version differ from those of another in the blobs
bundle, the payload and whether the block's size is checked; a merged block differs in the
index of its base payment.  Any number of submissions are in progress at once and share the
read cache.  A run is of one server: its disallow set, the chain it reads (the head and its
headers among them) and its payment forwarder stay as they are while it goes on.
-/

set_option autoImplicit false

namespace EthgasReth.Simulator.Submissions

open EthgasReth.Primitives
open EthgasReth.Lib
open EthgasReth.Simulator.BlockValidation
open EthgasReth.Simulator.SharedCache
open EthgasReth.Simulator.InclusionConstraint
open EthgasReth.Simulator.Acceptance

/-! ## Payloads and blobs -/

structure BlobsBundleV1 where
  commitments : List Bytes
  proofs : List Bytes
  blobs : List Bytes

structure BlobsBundleV2 where
  commitments : List Bytes
  proofs : List Bytes
  blobs : List Bytes

structure BlobTransactionSidecar where
  blobs : List Bytes
  commitments : List Bytes
  proofs : List Bytes

structure BlobTransactionSidecarEip7594 where
  blobs : List Bytes
  commitments : List Bytes
  cellProofs : List Bytes

inductive ExecutionPayload (V3 V4 : Type) where
  | v3 (payload : V3)
  | v4 (payload : V4)

structure CancunPayloadFields where
  parentBeaconBlockRoot : B256
  versionedHashes : List B256

structure PraguePayloadFields where
  requests : List Bytes

structure ExecutionPayloadSidecar where
  cancun : CancunPayloadFields
  prague : PraguePayloadFields

structure ExecutionData (V3 V4 : Type) where
  payload : ExecutionPayload V3 V4
  sidecar : ExecutionPayloadSidecar

inductive NewPayloadError where
  | eth (message : String)
  | other (message : String)

structure PayloadValidator where
  ExecutionPayloadV3 : Type
  ExecutionPayloadV4 : Type
  ExecutionRequests : Type
  toRequests : ExecutionRequests → List Bytes
  ensureWellFormedPayload : ExecutionData ExecutionPayloadV3 ExecutionPayloadV4 →
    Except NewPayloadError RecoveredBlock
  kzgToVersionedHash : Bytes → B256
  popSidecar : BlobsBundleV1 → Nat → BlobTransactionSidecar
  validate : BlobTransactionSidecar → List B256 → Except String Unit
  tryIntoSidecar : BlobsBundleV2 → Except String BlobTransactionSidecarEip7594
  validateEip7594 : BlobTransactionSidecarEip7594 → List B256 → Except String Unit
  isOsakaActiveAtTimestamp : Nat → Bool
  rlpLength : RecoveredBlock → Nat

def maxRlpBlockSize : Nat := 8388608

/-! ## Requests and responses -/

/-- A builder's submission of any version, in the relay's request for it. -/
structure BuilderBlockValidationRequest (Payload Blobs Requests : Type) where
  message : BidTrace
  executionPayload : Payload
  blobsBundle : Blobs
  executionRequests : Requests
  registeredGasLimit : Nat
  parentBeaconBlockRoot : B256

structure ExtendedValidationRequest (Payload Blobs Requests : Type) where
  base : BuilderBlockValidationRequest Payload Blobs Requests
  inclusionList : Option InclusionListWithMetadata
  applyBlacklist : Bool

/-- The errors of a validation, and those that come before there is a block. -/
inductive SubmissionError where
  | invalidBlobsBundle
  | blob (message : String)
  | payload (error : NewPayloadError)
  | blockTooLarge (rlpLength maxRlpLength : Nat)
  | validation (error : ValidationApiError)

inductive ErrorText where
  | ofError (error : SubmissionError)
  | blockingTask
  | unimplemented

structure ErrorObject where
  code : Int
  message : ErrorText

def invalidParamsRpcErr (message : ErrorText) : ErrorObject where
  code := -32602
  message := message

def internalRpcErr (message : ErrorText) : ErrorObject where
  code := -32603
  message := message

def ErrorObject.ofError (error : SubmissionError) : ErrorObject :=
  match error with
  | .validation (.getParent _) | .validation (.consensus _) | .validation (.provider _)
  | .validation (.execution (.internal _)) | .blockTooLarge _ _ | .payload (.other _) =>
      internalRpcErr (.ofError error)
  | .validation (.gasLimitMismatch _) | .validation (.gasUsedMismatch _)
  | .validation (.parentHashMismatch _) | .validation (.blockHashMismatch _)
  | .validation (.blacklist _) | .validation .proposerPayment | .validation .inclusionList
  | .validation (.execution (.validation _)) | .invalidBlobsBundle | .blob _ | .payload (.eth _) =>
      invalidParamsRpcErr (.ofError error)

abbrev Response := Except ErrorObject Unit

/-- `spawn_validation` on a validation's end.  A task that panics drops its sender. -/
def respond : Except Stop Unit → Response
  | .ok () => .ok ()
  | .error (.error error) => .error (.ofError (.validation error))
  | .error .panic => .error (internalRpcErr .blockingTask)

/-! ## From a submission to a request -/

section Requests

variable (validator : PayloadValidator)

abbrev ExtendedValidationRequestV4 : Type :=
  ExtendedValidationRequest validator.ExecutionPayloadV3 BlobsBundleV1 validator.ExecutionRequests

abbrev ExtendedValidationRequestV5 : Type :=
  ExtendedValidationRequest validator.ExecutionPayloadV3 BlobsBundleV2 validator.ExecutionRequests

abbrev ExtendedValidationRequestV6 : Type :=
  ExtendedValidationRequest validator.ExecutionPayloadV4 BlobsBundleV2 validator.ExecutionRequests

def validateBlobsBundle (blobsBundle : BlobsBundleV1) : Except SubmissionError (List B256) :=
  if blobsBundle.commitments.length ≠ blobsBundle.proofs.length ∨
      blobsBundle.commitments.length ≠ blobsBundle.blobs.length then
    .error .invalidBlobsBundle
  else do
    let versionedHashes := blobsBundle.commitments.map validator.kzgToVersionedHash
    let sidecar := validator.popSidecar blobsBundle blobsBundle.blobs.length
    (validator.validate sidecar versionedHashes).mapError .blob
    .ok versionedHashes

def validateBlobsBundleV2 (blobsBundle : BlobsBundleV2) :
    Except SubmissionError (List B256) := do
  let versionedHashes := blobsBundle.commitments.map validator.kzgToVersionedHash
  let sidecar ← (validator.tryIntoSidecar blobsBundle).mapError fun _ => .invalidBlobsBundle
  (validator.validateEip7594 sidecar versionedHashes).mapError .blob
  .ok versionedHashes

def executionData
    (payload : ExecutionPayload validator.ExecutionPayloadV3 validator.ExecutionPayloadV4)
    (parentBeaconBlockRoot : B256) (versionedHashes : List B256) (requests : List Bytes) :
    ExecutionData validator.ExecutionPayloadV3 validator.ExecutionPayloadV4 where
  payload := payload
  sidecar := {
    cancun := {
      parentBeaconBlockRoot := parentBeaconBlockRoot
      versionedHashes := versionedHashes }
    prague := { requests := requests } }

def payloadIntoBlock
    (payload : ExecutionPayload validator.ExecutionPayloadV3 validator.ExecutionPayloadV4)
    (parentBeaconBlockRoot : B256) (blobsBundle : BlobsBundleV2) (requests : List Bytes) :
    Except SubmissionError RecoveredBlock := do
  let versionedHashes ← validateBlobsBundleV2 validator blobsBundle
  let block ← (validator.ensureWellFormedPayload
    (executionData validator payload parentBeaconBlockRoot versionedHashes requests)).mapError
      .payload
  if validator.isOsakaActiveAtTimestamp block.block.header.timestamp = true ∧
      validator.rlpLength block > maxRlpBlockSize then
    .error (.blockTooLarge (validator.rlpLength block) maxRlpBlockSize)
  else .ok block

def ExtendedValidationRequest.against {Payload Blobs Requests : Type}
    (request : ExtendedValidationRequest Payload Blobs Requests) (block : RecoveredBlock)
    (basePaymentTxIndex : Option Nat) : Request where
  block := block
  message := request.base.message
  applyBlacklist := request.applyBlacklist
  inclusionList := request.inclusionList
  basePaymentTxIndex := basePaymentTxIndex

/-- `_validate_builder_submission_v4` up to the validation of the block. -/
def validateBuilderSubmissionV4 (request : ExtendedValidationRequestV4 validator) :
    Except SubmissionError Request := do
  let versionedHashes ← validateBlobsBundle validator request.base.blobsBundle
  let block ← (validator.ensureWellFormedPayload (executionData validator
    (.v3 request.base.executionPayload) request.base.parentBeaconBlockRoot versionedHashes
    (validator.toRequests request.base.executionRequests))).mapError .payload
  .ok (request.against block none)

def validateBuilderSubmissionV5 (request : ExtendedValidationRequestV5 validator)
    (basePaymentTxIndex : Option Nat) : Except SubmissionError Request := do
  let block ← payloadIntoBlock validator (.v3 request.base.executionPayload)
    request.base.parentBeaconBlockRoot request.base.blobsBundle
    (validator.toRequests request.base.executionRequests)
  .ok (request.against block basePaymentTxIndex)

def validateBuilderSubmissionV6 (request : ExtendedValidationRequestV6 validator)
    (basePaymentTxIndex : Option Nat) : Except SubmissionError Request := do
  let block ← payloadIntoBlock validator (.v4 request.base.executionPayload)
    request.base.parentBeaconBlockRoot request.base.blobsBundle
    (validator.toRequests request.base.executionRequests)
  .ok (request.against block basePaymentTxIndex)

/-- A call of one of the methods.  Versions 1 to 3 are not supported. -/
inductive Submission where
  | unsupported
  | v4 (request : ExtendedValidationRequestV4 validator)
  | v5 (request : ExtendedValidationRequestV5 validator)
  | mergedV5 (request : ExtendedValidationRequestV5 validator) (basePaymentTxIndex : Nat)
  | v6 (request : ExtendedValidationRequestV6 validator)
  | mergedV6 (request : ExtendedValidationRequestV6 validator) (basePaymentTxIndex : Nat)

def Submission.prepare : Submission validator → Except ErrorObject Request
  | .unsupported => .error (internalRpcErr .unimplemented)
  | .v4 request => (validateBuilderSubmissionV4 validator request).mapError .ofError
  | .v5 request => (validateBuilderSubmissionV5 validator request none).mapError .ofError
  | .mergedV5 request ix =>
      (validateBuilderSubmissionV5 validator request (some ix)).mapError .ofError
  | .v6 request => (validateBuilderSubmissionV6 validator request none).mapError .ofError
  | .mergedV6 request ix =>
      (validateBuilderSubmissionV6 validator request (some ix)).mapError .ofError

end Requests

/-! ## Well-formed submissions -/

section WellFormed

variable (validator : PayloadValidator)

structure ProvenV1 (bundle : BlobsBundleV1) : Prop where
  proofs : bundle.proofs.length = bundle.commitments.length
  blobs : bundle.blobs.length = bundle.commitments.length
  valid : validator.validate (validator.popSidecar bundle bundle.blobs.length)
    (bundle.commitments.map validator.kzgToVersionedHash) = .ok ()

def ProvenV2 (bundle : BlobsBundleV2) : Prop :=
  ∃ sidecar, validator.tryIntoSidecar bundle = .ok sidecar ∧
    validator.validateEip7594 sidecar (bundle.commitments.map validator.kzgToVersionedHash) = .ok ()

/-- The block of the payload, whose blob transactions are checked against the commitments. -/
def BlockOf (payload : ExecutionPayload validator.ExecutionPayloadV3 validator.ExecutionPayloadV4)
    (parentBeaconBlockRoot : B256) (commitments : List Bytes) (requests : List Bytes)
    (block : RecoveredBlock) : Prop :=
  validator.ensureWellFormedPayload (executionData validator payload parentBeaconBlockRoot
    (commitments.map validator.kzgToVersionedHash) requests) = .ok block

def WithinSize (block : RecoveredBlock) : Prop :=
  validator.isOsakaActiveAtTimestamp block.block.header.timestamp = true →
    validator.rlpLength block ≤ maxRlpBlockSize

/-- The submission is well-formed, and this is what is validated of it. -/
def Submission.WellFormed : Submission validator → Request → Prop
  | .unsupported, _ => False
  | .v4 submitted, request => ProvenV1 validator submitted.base.blobsBundle ∧
      BlockOf validator (.v3 submitted.base.executionPayload) submitted.base.parentBeaconBlockRoot
        submitted.base.blobsBundle.commitments
        (validator.toRequests submitted.base.executionRequests) request.block ∧
      request = submitted.against request.block none
  | .v5 submitted, request => Sized submitted none (.v3 submitted.base.executionPayload) request
  | .mergedV5 submitted ix, request =>
      Sized submitted (some ix) (.v3 submitted.base.executionPayload) request
  | .v6 submitted, request => Sized submitted none (.v4 submitted.base.executionPayload) request
  | .mergedV6 submitted ix, request =>
      Sized submitted (some ix) (.v4 submitted.base.executionPayload) request
where
  Sized {Payload : Type}
      (submitted : ExtendedValidationRequest Payload BlobsBundleV2 validator.ExecutionRequests)
      (basePaymentTxIndex : Option Nat)
      (payload : ExecutionPayload validator.ExecutionPayloadV3 validator.ExecutionPayloadV4)
      (request : Request) : Prop :=
    ProvenV2 validator submitted.base.blobsBundle ∧
      BlockOf validator payload submitted.base.parentBeaconBlockRoot
        submitted.base.blobsBundle.commitments
        (validator.toRequests submitted.base.executionRequests) request.block ∧
      WithinSize validator request.block ∧
      request = submitted.against request.block basePaymentTxIndex

variable {validator}

theorem validateBlobsBundle_ok_iff {bundle : BlobsBundleV1} {hashes : List B256} :
    validateBlobsBundle validator bundle = .ok hashes ↔
      ProvenV1 validator bundle ∧ hashes = bundle.commitments.map validator.kzgToVersionedHash := by
  unfold validateBlobsBundle
  simp only [reject_eq_ok, check_eq_ok_iff, mapError_eq_ok_iff, not_or, ne_eq, not_not,
    Except.ok.injEq]
  constructor
  · intro passed
    obtain ⟨lengths, valid, same⟩ := passed
    exact ⟨⟨lengths.1.symm, lengths.2.symm, valid⟩, same.symm⟩
  · intro passed
    obtain ⟨proven, same⟩ := passed
    exact ⟨⟨proven.proofs.symm, proven.blobs.symm⟩, proven.valid, same.symm⟩

theorem validateBlobsBundleV2_ok_iff {bundle : BlobsBundleV2} {hashes : List B256} :
    validateBlobsBundleV2 validator bundle = .ok hashes ↔
      ProvenV2 validator bundle ∧ hashes = bundle.commitments.map validator.kzgToVersionedHash := by
  unfold validateBlobsBundleV2 ProvenV2
  simp only [@bind_eq_ok_iff _ BlobTransactionSidecarEip7594, check_eq_ok_iff, mapError_eq_ok_iff,
    Except.ok.injEq]
  constructor
  · intro passed
    obtain ⟨sidecar, isSidecar, valid, same⟩ := passed
    exact ⟨⟨sidecar, isSidecar, valid⟩, same.symm⟩
  · intro passed
    obtain ⟨⟨sidecar, isSidecar, valid⟩, same⟩ := passed
    exact ⟨sidecar, isSidecar, valid, same.symm⟩

theorem payloadIntoBlock_ok_iff
    {payload : ExecutionPayload validator.ExecutionPayloadV3 validator.ExecutionPayloadV4}
    {parentBeaconBlockRoot : B256} {bundle : BlobsBundleV2} {requests : List Bytes}
    {block : RecoveredBlock} :
    payloadIntoBlock validator payload parentBeaconBlockRoot bundle requests = .ok block ↔
      ProvenV2 validator bundle ∧
      BlockOf validator payload parentBeaconBlockRoot bundle.commitments requests block ∧
      WithinSize validator block := by
  unfold payloadIntoBlock BlockOf WithinSize
  simp only [bind_eq_ok_iff, validateBlobsBundleV2_ok_iff, mapError_eq_ok_iff, reject_eq_ok,
    Except.ok.injEq, not_and, Nat.not_lt, gt_iff_lt]
  constructor
  · intro passed
    obtain ⟨hashes, ⟨proven, rfl⟩, other, wellFormed, sized, rfl⟩ := passed
    exact ⟨proven, wellFormed, sized⟩
  · intro passed
    obtain ⟨proven, wellFormed, sized⟩ := passed
    exact ⟨_, ⟨proven, rfl⟩, block, wellFormed, sized, rfl⟩

theorem validateBuilderSubmissionV4_ok_iff {submitted : ExtendedValidationRequestV4 validator}
    {request : Request} :
    validateBuilderSubmissionV4 validator submitted = .ok request ↔
      (Submission.v4 submitted).WellFormed validator request := by
  unfold validateBuilderSubmissionV4
  simp only [bind_eq_ok_iff, validateBlobsBundle_ok_iff, mapError_eq_ok_iff, Except.ok.injEq,
    Submission.WellFormed, BlockOf]
  constructor
  · intro passed
    obtain ⟨hashes, ⟨proven, rfl⟩, block, wellFormed, rfl⟩ := passed
    exact ⟨proven, wellFormed, rfl⟩
  · intro passed
    obtain ⟨proven, wellFormed, same⟩ := passed
    exact ⟨_, ⟨proven, rfl⟩, request.block, wellFormed, same.symm⟩

theorem sized_ok_iff {Payload : Type}
    {submitted : ExtendedValidationRequest Payload BlobsBundleV2 validator.ExecutionRequests}
    {index : Option Nat}
    {payload : ExecutionPayload validator.ExecutionPayloadV3 validator.ExecutionPayloadV4}
    {request : Request} :
    (payloadIntoBlock validator payload submitted.base.parentBeaconBlockRoot
        submitted.base.blobsBundle (validator.toRequests submitted.base.executionRequests) >>=
      fun block => .ok (submitted.against block index)) = .ok request ↔
      Submission.WellFormed.Sized validator submitted index payload request := by
  unfold Submission.WellFormed.Sized
  simp only [bind_eq_ok_iff, payloadIntoBlock_ok_iff, Except.ok.injEq]
  constructor
  · intro passed
    obtain ⟨block, ⟨proven, wellFormed, sized⟩, rfl⟩ := passed
    exact ⟨proven, wellFormed, sized, rfl⟩
  · intro passed
    obtain ⟨proven, wellFormed, sized, same⟩ := passed
    exact ⟨request.block, ⟨proven, wellFormed, sized⟩, same.symm⟩

theorem prepare_ok_iff {submission : Submission validator} {request : Request} :
    submission.prepare = .ok request ↔ submission.WellFormed validator request := by
  cases submission with
  | unsupported => simp [Submission.prepare, Submission.WellFormed]
  | v4 submitted =>
      rw [Submission.prepare, mapError_eq_ok_iff]
      exact validateBuilderSubmissionV4_ok_iff
  | v5 submitted | mergedV5 submitted ix | v6 submitted | mergedV6 submitted ix =>
      rw [Submission.prepare, mapError_eq_ok_iff]
      exact sized_ok_iff

end WellFormed

/-! ## The server -/

section Server

variable (validator : PayloadValidator) (api : ValidationApi)

structure Server where
  pool : Pool api
  received : Nat → Option (Submission validator)
  sent : Nat → Option Response

/-- `validator` and `api` are the same in every step, the disallow set and the chain with them. -/
inductive Step : Server validator api → Server validator api → Prop
  | receive {server : Server validator api} {who : Nat} (submission : Submission validator)
      (unused : server.received who = none) :
      Step server { server with received := Function.update server.received who (some submission) }
  | refuse {server : Server validator api} {who : Nat} {submission : Submission validator}
      {error : ErrorObject} (received : server.received who = some submission)
      (unsent : server.sent who = none) (refused : submission.prepare = .error error) :
      Step server { server with sent := Function.update server.sent who (some (.error error)) }
  | start {server : Server validator api} {who : Nat} {submission : Submission validator}
      {request : Request} (received : server.received who = some submission)
      (absent : server.pool.task who = .absent) (prepared : submission.prepare = .ok request) :
      Step server { server with pool := { server.pool with
        task := Function.update server.pool.task who (.received request) } }
  | validate {server : Server validator api} {pool : Pool api}
      (taken : SharedCache.Step api server.pool pool)
      (noneNew : ∀ who, server.pool.task who = .absent → pool.task who = .absent) :
      Step server { server with pool := pool }
  | respond {server : Server validator api} {who : Nat} {request : Request}
      {verdict : Except Stop Unit} (finished : server.pool.task who = .finished request verdict)
      (unsent : server.sent who = none) :
      Step server { server with
        sent := Function.update server.sent who (some (respond verdict)) }

def serving : System (Server validator api) where
  Init := fun server => server =
    { pool := idle api, received := fun _ => none, sent := fun _ => none }
  Step := Step validator api

def answer (submission : Submission validator) : Response :=
  submission.prepare >>= fun request => respond (judge api request)

def requestOf : Task api → Option Request
  | .absent => none
  | .received request | .holding request _ _ | .executed request _ _ | .updated request _
  | .finished request _ => some request

/-- Every task is of a call that was received, and every response is that call's own. -/
structure Answers (server : Server validator api) : Prop where
  reached : Reached api server.pool
  started : ∀ who request, requestOf api (server.pool.task who) = some request →
    ∃ submission, server.received who = some submission ∧ submission.prepare = .ok request
  sent : ∀ who response, server.sent who = some response →
    ∃ submission, server.received who = some submission ∧
      response = answer validator api submission

end Server

section Served

variable {validator : PayloadValidator} {api : ValidationApi}

theorem update_some {α : Type} {entries : Nat → Option α} {who other : Nat} {entry : α}
    (unused : entries who = none) {known : α} (found : entries other = some known) :
    Function.update entries who (some entry) other = some known := by
  have different : other ≠ who := by
    intro same
    subst same
    cases unused.symm.trans found
  rw [Function.update_of_ne different]
  exact found

theorem pool_requests {pool next : Pool api} (taken : SharedCache.Step api pool next) (who : Nat) :
    pool.task who = .absent ∨ requestOf api (next.task who) = requestOf api (pool.task who) := by
  have put : ∀ {at_ : Nat} {task : Task api} {request : Request},
      requestOf api (pool.task at_) = some request → requestOf api task = some request →
      requestOf api (Function.update pool.task at_ task who) = requestOf api (pool.task who) := by
    intro at_ task request before after
    by_cases same : who = at_
    · subst same
      rw [Function.update_self, before, after]
    · rw [Function.update_of_ne same]
  cases taken with
  | @submit at_ request absent =>
      by_cases same : who = at_
      · subst same
        exact Or.inl absent
      · right
        simp only [Function.update_of_ne same]
  | reject found | cachedReads found | fail found | execute found | updateCachedReads found
  | finish found => exact Or.inr (put (by rw [found]; rfl) rfl)

theorem Answers.received {server : Server validator api} (answers : Answers validator api server)
    {who : Nat} {submission : Submission validator} (unused : server.received who = none) :
    Answers validator api
      { server with received := Function.update server.received who (some submission) } := by
  refine ⟨answers.reached, ?_, ?_⟩
  · intro other request isRequest
    obtain ⟨known, isKnown, prepared⟩ := answers.started other request isRequest
    exact ⟨known, update_some unused isKnown, prepared⟩
  · intro other response isSent
    obtain ⟨known, isKnown, same⟩ := answers.sent other response isSent
    exact ⟨known, update_some unused isKnown, same⟩

theorem Answers.send {server : Server validator api} (answers : Answers validator api server)
    {who : Nat} {submission : Submission validator} {response : Response}
    (received : server.received who = some submission)
    (same : response = answer validator api submission) :
    Answers validator api
      { server with sent := Function.update server.sent who (some response) } := by
  refine ⟨answers.reached, answers.started, ?_⟩
  intro other otherResponse isSent
  by_cases isWho : other = who
  · subst isWho
    simp only [Function.update_self] at isSent
    cases isSent
    exact ⟨submission, received, same⟩
  · simp only [Function.update_of_ne isWho] at isSent
    exact answers.sent other otherResponse isSent

theorem reachable_answers (sealedByHash : SealedByHash api) {server : Server validator api}
    (reached : (serving validator api).Reachable server) : Answers validator api server := by
  apply reached.invariant
  · intro server initial
    cases initial
    exact ⟨.init rfl, by simp [idle, requestOf], by simp⟩
  · intro server next _ answers taken
    cases taken with
    | receive submission unused => exact answers.received unused
    | refuse received unsent refused =>
        refine answers.send received ?_
        rw [answer, refused]
        rfl
    | @start who submission request received absent prepared =>
        refine ⟨.step answers.reached (.submit request absent), ?_, answers.sent⟩
        intro other isRequest found
        by_cases same : other = who
        · subst same
          simp only [Function.update_self, requestOf] at found
          cases found
          exact ⟨submission, received, prepared⟩
        · simp only [Function.update_of_ne same] at found
          exact answers.started other isRequest found
    | @validate pool taken noneNew =>
        refine ⟨.step answers.reached taken, ?_, answers.sent⟩
        intro who request found
        rcases pool_requests taken who with absent | kept
        · rw [noneNew who absent] at found
          cases found
        · exact answers.started who request (kept.symm.trans found)
    | @respond who request verdict finished unsent =>
        obtain ⟨submission, received, prepared⟩ :=
          answers.started who request (by rw [finished]; rfl)
        refine answers.send received ?_
        have isVerdict := (reached_agrees sealedByHash answers.reached).at finished
        rw [answer, prepared, isVerdict]
        rfl

theorem respond_ok_iff {verdict : Except Stop Unit} :
    respond verdict = .ok () ↔ verdict = .ok () := by
  cases verdict with
  | ok _ => simp [respond]
  | error stop => cases stop <;> simp [respond]

/-- Whatever else is in progress and in whatever order, while the disallow set and the chain
stay as they are: a submission is answered with Ok exactly when it is well-formed and its block
meets every condition, and two calls with the same submission get the same answer. -/
theorem submissions_answered (sealedByHash : SealedByHash api)
    (doesNotCommit : ∀ source, DoesNotCommit api source) {server : Server validator api}
    (reached : (serving validator api).Reachable server) {who : Nat} {response : Response}
    (isSent : server.sent who = some response) :
    ∃ submission, server.received who = some submission ∧
      (response = .ok () ↔ ∃ request, submission.WellFormed validator request ∧
        ∃ parent state result executor, Accepted api request parent state result executor) ∧
      ∀ other otherResponse, server.received other = some submission →
        server.sent other = some otherResponse → otherResponse = response := by
  have answers := reachable_answers sealedByHash reached
  obtain ⟨submission, received, isAnswer⟩ := answers.sent who response isSent
  refine ⟨submission, received, ?_, ?_⟩
  · rw [isAnswer, answer, bind_eq_ok_iff]
    simp only [prepare_ok_iff, respond_ok_iff, judge_ok_iff doesNotCommit]
  · intro other otherResponse otherReceived otherSent
    obtain ⟨otherSubmission, isOther, otherAnswer⟩ := answers.sent other otherResponse otherSent
    cases otherReceived.symm.trans isOther
    rw [isAnswer, otherAnswer]

end Served

/-! ## Two submissions -/

namespace Sample

open EthgasReth.Simulator.SharedCache.Withdrawals

def payloads : PayloadValidator where
  ExecutionPayloadV3 := RecoveredBlock
  ExecutionPayloadV4 := RecoveredBlock
  ExecutionRequests := Unit
  toRequests := fun _ => []
  ensureWellFormedPayload := fun data =>
    if data.sidecar.cancun.versionedHashes ≠ [] then
      .error (.eth "blob versioned hashes do not match")
    else match data.payload with
      | .v3 block | .v4 block => .ok block
  kzgToVersionedHash := fun commitment => BitVec.ofNat 256 commitment.length
  popSidecar := fun bundle len => {
    blobs := bundle.blobs.take len
    commitments := bundle.commitments.take len
    proofs := bundle.proofs.take len }
  validate := fun _ _ => .ok ()
  tryIntoSidecar := fun bundle => .ok {
    blobs := bundle.blobs
    commitments := bundle.commitments
    cellProofs := bundle.proofs }
  validateEip7594 := fun _ _ => .ok ()
  isOsakaActiveAtTimestamp := fun _ => true
  rlpLength := fun _ => 600

def submitted {Blobs : Type} (blobs : Blobs) :
    ExtendedValidationRequest RecoveredBlock Blobs Unit where
  base := {
    message := (request 1).message
    executionPayload := (request 1).block
    blobsBundle := blobs
    executionRequests := ()
    registeredGasLimit := 0
    parentBeaconBlockRoot := 0 }
  inclusionList := none
  applyBlacklist := true

def accepted : Submission payloads := .v5 (submitted ⟨[], [], []⟩)

def unproven : Submission payloads := .v4 (submitted ⟨[[0]], [], []⟩)

theorem doesNotCommit (source : StateSource) : DoesNotCommit validator source := by
  intro evm tried transaction
  exact Iff.rfl

theorem absent_kept {pool : Pool validator} {at_ : Nat} {task : Task validator}
    (busy : pool.task at_ ≠ .absent) (who : Nat) (absent : pool.task who = .absent) :
    Function.update pool.task at_ task who = .absent := by
  have different : who ≠ at_ := by
    intro same
    subst same
    exact busy absent
  rw [Function.update_of_ne different]
  exact absent

/-- The second is refused while the first is on its way. -/
theorem submissions_answered_two :
    ∃ server : Server payloads validator,
      server.sent 0 = some (.ok ()) ∧
      server.sent 1 = some (.error (invalidParamsRpcErr (.ofError .invalidBlobsBundle))) ∧
      ∃ submission, server.received 0 = some submission ∧
        ((.ok () : Response) = .ok () ↔ ∃ request, submission.WellFormed payloads request ∧
          ∃ parent state result executor,
            Accepted validator request parent state result executor) ∧
        ∀ other otherResponse, server.received other = some submission →
          server.sent other = some otherResponse → otherResponse = .ok () := by
  have begin_ : (serving payloads validator).Reachable
      { pool := idle validator, received := fun _ => none, sent := fun _ => none } := .init rfl
  have first := begin_.step (@Step.receive payloads validator _ 0 accepted rfl)
  have second := first.step (@Step.receive payloads validator _ 1 unproven rfl)
  have started := second.step (@Step.start payloads validator _ 0 accepted (request 1) rfl rfl rfl)
  have refused := started.step (@Step.refuse payloads validator _ 1 unproven _ rfl rfl rfl)
  have holding := refused.step (.validate
    (@SharedCache.Step.cachedReads validator _ 0 (request 1) _ rfl rfl)
    (absent_kept (by simp)))
  have executed := holding.step (.validate
    (@SharedCache.Step.execute validator _ 0 (request 1) _ _ _ rfl rfl) (absent_kept (by simp)))
  have updated := executed.step (.validate
    (@SharedCache.Step.updateCachedReads validator _ 0 (request 1) _ _ rfl)
    (absent_kept (by simp)))
  have finished := updated.step (.validate
    (@SharedCache.Step.finish validator _ 0 (request 1) _ rfl) (absent_kept (by simp)))
  have served := finished.step (@Step.respond payloads validator _ 0 (request 1) _ rfl rfl)
  exact ⟨_, rfl, rfl, submissions_answered sealedByHash doesNotCommit served rfl⟩

end Sample

end EthgasReth.Simulator.Submissions
