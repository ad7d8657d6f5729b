import EthgasReth.Run

/-!
# A reference execution layer

The assumptions on revm and on the two system contracts hold of a small machine
that keeps its changes in a bundle over the database, as revm's `State` does.
Its transactions are plain transfers without a fee, and its system calls write
the ring buffers of EIP-2935 and EIP-4788.  With stand-ins for the codecs and
hashes of alloy it makes a processor that can be run on small inputs.
-/

set_option autoImplicit false

namespace EthgasReth.Reference

open EthgasReth.Primitives
open EthgasReth.Lib
open EthgasReth.Execution
open EthgasReth.Build
open EthgasReth.Processor
open EthgasReth.Run

/-! ## The database -/

structure Db where
  base : View
  bundle : BundleState
  blockHashes : Nat → Option B256

def Db.view (db : Db) : View where
  world := (PendingStateProvider.mk db.base db.bundle).world
  blockHash := fun number => (db.blockHashes number).or (db.base.blockHash number)

def Db.build (view : View) (prestate : Option BundleState) : Db where
  base := view
  bundle := prestate.getD BundleState.empty
  blockHashes := fun _ => none

def Db.insertBlockHash (db : Db) (number : Nat) (hash : B256) : Db :=
  { db with blockHashes := Function.update db.blockHashes number (some hash) }

/-- An account's entry after a commit.  A removed or newly created account no
longer reads its slots from the database. -/
def Db.commitAccount (db : Db) (address : Address) (account : EvmAccount) : BundleAccount where
  info := if account.removed then none else some account.info
  originalInfo :=
    match db.bundle.state address with
    | some entry => entry.originalInfo
    | none => db.base.world.basic address
  storage := fun key =>
    if account.removed then none
    else if account.created then account.storage key
    else (account.storage key).or ((db.bundle.state address).bind fun entry => entry.storage key)
  wasDestroyed := account.removed || account.created ||
    ((db.bundle.state address).any fun entry => entry.wasDestroyed)

def Db.commit (db : Db) (changes : EvmState) : Db :=
  { db with bundle := {
      state := fun address =>
        match changes.accounts address with
        | some account =>
            if account.touched then some (db.commitAccount address account)
            else db.bundle.state address
        | none => db.bundle.state address
      contracts := fun hash => (changes.contracts hash).or (db.bundle.contracts hash) } }

theorem view_build (view : View) : (Db.build view none).view = view := by
  apply View.ext
  · apply World.ext <;> rfl
  · funext number
    simp [Db.view, Db.build]

theorem view_insertBlockHash (db : Db) (number : Nat) (hash : B256) :
    (db.insertBlockHash number hash).view = db.view.insertBlockHash number hash := by
  apply View.ext
  · rfl
  · funext other
    by_cases same : other = number
    · subst same
      simp [Db.view, Db.insertBlockHash, View.insertBlockHash]
    · simp [Db.view, Db.insertBlockHash, View.insertBlockHash, Function.update_of_ne same]

theorem view_commit (db : Db) (changes : EvmState) :
    (db.commit changes).view = db.view.commit changes := by
  apply View.ext
  · apply World.ext
    · funext address
      simp only [Db.view, Db.commit, View.commit, PendingStateProvider.world, World.commit,
        PendingStateProvider.basicAccount]
      cases changed : changes.accounts address with
      | none => rfl
      | some account =>
          cases touched : account.touched with
          | false => simp [touched]
          | true => simp [touched, Db.commitAccount]
    · funext slot
      obtain ⟨address, key⟩ := slot
      simp only [Db.view, Db.commit, View.commit, PendingStateProvider.world, World.commit,
        PendingStateProvider.storage]
      cases changed : changes.accounts address with
      | none => rfl
      | some account =>
          cases touched : account.touched with
          | false => simp [touched]
          | true =>
              cases removed : account.removed with
              | true => simp [touched, Db.commitAccount, removed]
              | false =>
                  cases created : account.created with
                  | true =>
                      cases listed : account.storage key <;>
                        simp [touched, Db.commitAccount, removed, created, listed]
                  | false =>
                      cases listed : account.storage key with
                      | some value => simp [touched, Db.commitAccount, removed, created, listed]
                      | none =>
                          cases before : db.bundle.state address with
                          | none => simp [touched, Db.commitAccount, removed, created, listed, before]
                          | some entry =>
                              cases known : entry.storage key <;>
                                simp [touched, Db.commitAccount, removed, created, listed, before, known]
    · funext hash
      simp only [Db.view, Db.commit, View.commit, PendingStateProvider.world, World.commit,
        PendingStateProvider.bytecodeByHash]
      cases changes.contracts hash <;> simp
  · rfl

theorem bundle_reflects (db : Db) : db.bundle.Reflects db.base.world db.view.world where
  info := by
    intro address account entry
    simp [Db.view, PendingStateProvider.world, PendingStateProvider.basicAccount, entry]
  slot := by
    intro address key account entry
    simp only [Db.view, PendingStateProvider.world, PendingStateProvider.storage, entry]
    cases listed : account.storage key <;> simp
  absent := by
    intro address entry
    simp [Db.view, PendingStateProvider.world, PendingStateProvider.basicAccount,
      PendingStateProvider.storage, entry]
  code := by
    intro hash
    simp only [Db.view, PendingStateProvider.world, PendingStateProvider.bytecodeByHash]
    cases db.bundle.contracts hash <;> simp

/-! ## Transactions and system calls -/

structure Env where
  number : Nat
  timestamp : Nat

def historyStorageAddress : Address := 0x0000F90827F1C53a10cb7A02335B175320002935
def beaconRootsAddress : Address := 0x000F3df6D732807Ef1319fB7bB8522d0Beac02
def historyBufferLength : Nat := 8191

def systemStores (env : Env) : SystemCall → List (Slot × U256)
  | .blockhashes parentHash =>
      [((historyStorageAddress, BitVec.ofNat 256 ((env.number - 1) % historyBufferLength)),
        parentHash)]
  | .beaconRoot none => []
  | .beaconRoot (some root) =>
      [((beaconRootsAddress, BitVec.ofNat 256 (env.timestamp % historyBufferLength)),
          BitVec.ofNat 256 env.timestamp),
        ((beaconRootsAddress, BitVec.ofNat 256
            (env.timestamp % historyBufferLength + historyBufferLength)), root)]

def systemWrites (env : Env) (call : SystemCall) : CellWrites Slot U256 :=
  fun slot => (systemStores env call).lookup slot

def systemAddress : SystemCall → Address
  | .blockhashes _ => historyStorageAddress
  | .beaconRoot _ => beaconRootsAddress

def storing (info : AccountInfo) (storage : U256 → Option U256) : EvmAccount where
  info := info
  storage := storage
  touched := true
  created := false
  selfdestructed := false

def systemCall (env : Env) (call : SystemCall) (view : View) : Except String EvmState :=
  match view.world.basic (systemAddress call) with
  | none => .ok { accounts := fun _ => none, contracts := fun _ => none }
  | some info => .ok {
      accounts := fun address =>
        if address = systemAddress call then
          some (storing info fun key => systemWrites env call (systemAddress call, key))
        else none
      contracts := fun _ => none }

def emptyAccount : AccountInfo := { balance := 0, nonce := 0, codeHash := keccakEmpty }

def accountOf (view : View) (address : Address) : AccountInfo :=
  (view.world.basic address).getD emptyAccount

def debited (tx : TransactionSigned) (sender : Address) (info : AccountInfo) : AccountInfo where
  balance := if tx.toAddress = some sender then info.balance else info.balance - tx.value
  nonce := info.nonce + 1
  codeHash := info.codeHash

def credited (tx : TransactionSigned) (info : AccountInfo) : AccountInfo :=
  { info with balance := info.balance + tx.value }

def transferChanges (view : View) (tx : TransactionSigned) (sender : Address) : EvmState where
  accounts := fun address =>
    if address = sender then
      some (storing (debited tx sender (accountOf view address)) fun _ => none)
    else if tx.toAddress = some address then
      some (storing (credited tx (accountOf view address)) fun _ => none)
    else none
  contracts := fun _ => none

def transact (view : View) (tx : TransactionSigned) (sender : Address) :
    Except String ResultAndState :=
  if tx.nonce ≠ (accountOf view sender).nonce then .error "nonce mismatch"
  else if (accountOf view sender).balance.toNat < tx.value.toNat then .error "lack of funds"
  else .ok { success := true, state := transferChanges view tx sender }

def evm : Evm where
  Env := Env
  Db := Db
  nextEvmEnv := fun parent attributes =>
    .ok { number := parent.number + 1, timestamp := attributes.timestamp }
  build := Db.build
  base := Db.base
  view := Db.view
  insertBlockHash := Db.insertBlockHash
  commit := Db.commit
  takeBundle := Db.bundle
  systemCall := systemCall
  transact := fun _ view tx sender => transact view tx sender

theorem evm_lawful : evm.Lawful where
  base_build := fun _ _ => rfl
  base_insertBlockHash := fun _ _ _ => rfl
  base_commit := fun _ _ => rfl
  view_build := view_build
  view_insertBlockHash := view_insertBlockHash
  view_commit := view_commit
  bundle := bundle_reflects
  resume := fun db => by
    apply View.ext
    · rfl
    · funext number
      simp [evm, Db.view, Db.build]

/-! ## The system contracts -/

def Live (world : World) : Prop :=
  ∀ address, address = historyStorageAddress ∨ address = beaconRootsAddress →
    ∃ info, world.basic address = some info ∧ info.codeHash ≠ keccakEmpty

def Owned (slot : Slot) : Prop :=
  slot.1 = historyStorageAddress ∨ slot.1 = beaconRootsAddress

theorem commit_storing {world : World} {changes : EvmState} {address : Address}
    {info : AccountInfo} {storage : U256 → Option U256}
    (listed : changes.accounts address = some (storing info storage))
    (deployed : info.codeHash ≠ keccakEmpty) :
    (world.commit changes).basic address = some info ∧
      ∀ key, (world.commit changes).storage (address, key) =
        (storage key).getD (world.storage (address, key)) := by
  have kept : (storing info storage).removed = false := by
    simp [EvmAccount.removed, storing, AccountInfo.isEmpty, deployed]
  refine ⟨?_, ?_⟩
  · simp only [World.commit, listed, kept]
    simp [storing]
  · intro key
    simp only [World.commit, listed, kept]
    simp [storing]

theorem commit_unlisted {world : World} {changes : EvmState} {address : Address}
    (unlisted : changes.accounts address = none) :
    (world.commit changes).basic address = world.basic address ∧
      ∀ key, (world.commit changes).storage (address, key) = world.storage (address, key) := by
  refine ⟨?_, ?_⟩
  · simp only [World.commit, unlisted]
  · intro key
    simp only [World.commit, unlisted]

theorem systemStores_address (env : Env) (call : SystemCall) :
    ∀ entry ∈ systemStores env call, entry.1.1 = systemAddress call := by
  cases call with
  | blockhashes parentHash => simp [systemStores, systemAddress]
  | beaconRoot root => cases root <;> simp [systemStores, systemAddress]

theorem systemWrites_address {env : Env} {call : SystemCall} {slot : Slot}
    (written : systemWrites env call slot ≠ none) : slot.1 = systemAddress call := by
  obtain ⟨value, found⟩ := Option.ne_none_iff_exists'.mp written
  have member := List.lookup_eq_some_iff.mp found
  obtain ⟨before, after, shape, -⟩ := member
  exact systemStores_address env call (slot, value) (by simp [shape])

theorem systemAddress_system (call : SystemCall) :
    systemAddress call = historyStorageAddress ∨ systemAddress call = beaconRootsAddress := by
  cases call with
  | blockhashes parentHash => exact Or.inl rfl
  | beaconRoot root => exact Or.inr rfl

theorem systemCall_writes {env : Env} {call : SystemCall} {view : View} {changes : EvmState}
    (live : Live view.world) (success : systemCall env call view = .ok changes) :
    view.world.commit changes = view.world.writeSlots (systemWrites env call) := by
  obtain ⟨info, present, deployed⟩ := live (systemAddress call) (systemAddress_system call)
  rw [systemCall, present] at success
  have listed : changes.accounts (systemAddress call) =
      some (storing info fun key => systemWrites env call (systemAddress call, key)) := by
    cases success
    exact if_pos rfl
  have kept := @commit_storing view.world _ _ _ _ listed deployed
  cases success
  apply World.ext
  · funext address
    by_cases same : address = systemAddress call
    · subst same
      exact kept.1.trans present.symm
    · exact (commit_unlisted (if_neg same)).1
  · funext slot
    obtain ⟨address, key⟩ := slot
    by_cases same : address = systemAddress call
    · subst same
      exact kept.2 key
    · have untouched : systemWrites env call (address, key) = none := by
        by_contra written
        exact same (systemWrites_address written)
      rw [(commit_unlisted (if_neg same)).2 key]
      simp [World.writeSlots, write, untouched]
  · funext hash
    simp [World.commit, World.writeSlots]

theorem transact_deployed {view : View} {tx : TransactionSigned} {sender address : Address}
    {result : ResultAndState} {info : AccountInfo} (success : transact view tx sender = .ok result)
    (present : view.world.basic address = some info) (deployed : info.codeHash ≠ keccakEmpty) :
    (∃ after, (view.world.commit result.state).basic address = some after ∧
        after.codeHash = info.codeHash) ∧
      ∀ key, (view.world.commit result.state).storage (address, key) =
        view.world.storage (address, key) := by
  have isAccount : accountOf view address = info := by simp [accountOf, present]
  have changes : result.state = transferChanges view tx sender := by
    unfold transact at success
    split at success
    · cases success
    · split at success
      · cases success
      · cases success
        rfl
  rw [changes]
  by_cases isSender : address = sender
  · have listed : (transferChanges view tx sender).accounts address =
        some (storing (debited tx sender (accountOf view address)) fun _ => none) := if_pos isSender
    have kept := @commit_storing view.world _ _ _ _ listed (by rw [isAccount]; exact deployed)
    exact ⟨⟨_, kept.1, by rw [isAccount]; rfl⟩, kept.2⟩
  · by_cases isRecipient : tx.toAddress = some address
    · have listed : (transferChanges view tx sender).accounts address =
          some (storing (credited tx (accountOf view address)) fun _ => none) := by
        simp [transferChanges, isSender, isRecipient]
      have kept := @commit_storing view.world _ _ _ _ listed (by rw [isAccount]; exact deployed)
      exact ⟨⟨_, kept.1, by rw [isAccount]; rfl⟩, kept.2⟩
    · have unlisted : (transferChanges view tx sender).accounts address = none := by
        simp [transferChanges, isSender, isRecipient]
      have kept := @commit_unlisted view.world _ _ unlisted
      exact ⟨⟨info, kept.1.trans present, rfl⟩, kept.2⟩

def systemContracts : SystemContracts evm where
  Live := Live
  Owned := Owned
  writes := systemWrites
  writes_owned := by
    intro env call slot written
    rw [Owned, systemWrites_address written]
    exact systemAddress_system call
  call_writes := fun _ _ _ _ live success => systemCall_writes live success
  live_writes := fun _ _ _ live => live
  transact_owned := by
    intro env view tx sender result live success slot owned
    obtain ⟨info, present, deployed⟩ := live slot.1 owned
    exact (transact_deployed success present deployed).2 slot.2
  live_transact := by
    intro env view tx sender result live success address isSystem
    obtain ⟨info, present, deployed⟩ := live address isSystem
    obtain ⟨after, isAfter, sameCode⟩ := (transact_deployed success present deployed).1
    exact ⟨after, isAfter, by rw [sameCode]; exact deployed⟩

/-! ## A processor and its inputs -/

def alice : Address := 0xa11ce
def bob : Address := 0xb0b

/-- Stand-ins for alloy: two bytes, a hash and a nonce, encode a transfer of
nothing from Alice to Bob, and a header is told apart by its state root. -/
def alloy : Alloy where
  checkPayload := fun _ => .ok ()
  decode2718 := fun
    | [hash, nonce] => .ok {
        txHash := BitVec.ofNat 256 hash.toNat
        chainId := some 1
        nonce := nonce.toNat
        toAddress := some bob
        value := 0
        input := []
        maxFeePerGas := 0
        maxPriorityFeePerGas := some 0 }
    | _ => .error "unexpected length"
  recoverSigner := fun _ => .ok alice
  hashSlow := fun header => header.stateRoot
  transactionsRoot := fun _ => 0
  withdrawalsRoot := fun _ => 0
  requestsHash := fun _ => 0
  parseDepositsFromReceipts := fun _ _ => .ok []
  logsBloom := fun _ => 0
  createAddress := fun sender _ => sender
  receiptFees := fun _ _ _ => { effectiveGasPrice := 0, blobGasUsed := none, blobGasPrice := none }

def processor : StateProcessor where
  maxDepth := 3
  chainSpec := {
    chainId := 1
    isPragueActiveAtTimestamp := fun _ => true
    isAmsterdamActiveAtTimestamp := fun _ => false }
  alloy := alloy
  evm := evm

def header (number : Nat) (stateRoot : B256) : Header where
  parentHash := 0
  beneficiary := 0
  stateRoot := stateRoot
  transactionsRoot := 0
  receiptsRoot := 0
  logsBloom := 0
  number := number
  gasLimit := 0
  gasUsed := 0
  timestamp := number
  extraData := []
  mixHash := 0
  baseFeePerGas := some 0
  withdrawalsRoot := none
  blobGasUsed := none
  excessBlobGas := none
  parentBeaconBlockRoot := none
  requestsHash := none
  slotNumber := none

def stateAt (nonce : Nat) : View where
  world := {
    basic := fun address =>
      if address = historyStorageAddress ∨ address = beaconRootsAddress then
        some { balance := 0, nonce := 1, codeHash := 1 }
      else if address = alice then some { balance := 1, nonce := nonce, codeHash := keccakEmpty }
      else none
    storage := fun _ => 0
    code := fun _ => none }
  blockHash := fun _ => none

theorem stateAt_live (nonce : Nat) : Live (stateAt nonce).world := by
  intro address isSystem
  refine ⟨{ balance := 0, nonce := 1, codeHash := 1 }, if_pos isSystem, by decide⟩

/-- A node at a height; `nonce` tells for every block how many transactions
Alice has sent up to it, and the state root of a block is that number. -/
def nodeAt (best : Nat) (nonce : Nat → Nat) : Node where
  client := {
    bestBlockNumber := .ok best
    headerByNumber := fun number => .ok
      (if number ≤ best then some (header number (BitVec.ofNat 256 (nonce number))) else none)
    stateByBlockNumber := fun number => .ok (stateAt (nonce number)) }
  lastCanonicalBlock := best

def payloadBase (number : Nat) : ExecutionPayloadBaseV1 where
  parentBeaconBlockRoot := 0
  parentHash := 0
  feeRecipient := 0
  prevRandao := 0
  blockNumber := number
  gasLimit := 0
  timestamp := number
  extraData := []
  baseFeePerGas := 0
  slotNumber := none

/-- A flashblock with one transaction for each hash and nonce, a base payload at
index zero, and a receipt for each hash and outcome. -/
def flashblock (payloadId number index : Nat) (transactions : List (UInt8 × UInt8))
    (receipts : List (B256 × Bool)) : FlashBlock where
  payloadId := BitVec.ofNat 64 payloadId
  index := index
  base := if index = 0 then some (payloadBase number) else none
  diff := {
    stateRoot := 0
    receiptsRoot := 0
    logsBloom := 0
    gasUsed := 0
    blockHash := 0
    transactions := transactions.map fun (hash, nonce) => [hash, nonce]
    withdrawals := []
    blobGasUsed := 0
    excessBlobGas := 0
    requests := none }
  metadata := {
    blockNumber := number
    newAccountBalances := ∅
    receipts := receipts.foldl (fun map (hash, success) => map.insert hash
      { success := success, cumulativeGasUsed := 0, logs := [] }) ∅ }

theorem flashblock_agrees (payloadId number index : Nat) (transactions : List (UInt8 × UInt8))
    (receipts : List (B256 × Bool)) :
    (flashblock payloadId number index transactions receipts).NumbersAgree := by
  intro base isBase
  simp only [flashblock] at isBase
  split at isBase
  · cases isBase
    rfl
  · cases isBase

def canonicalBlock (number : Nat) (hashes : List (UInt8 × UInt8)) : Block where
  header := header number 0
  transactions := (hashes.map fun (hash, nonce) => alloy.decode2718 [hash, nonce]).filterMap
    fun decoded => decoded.toOption
  withdrawals := none

/-- The state after a list of flashblocks, all processed while the node shows the
same chain. -/
def afterFlashblocks (node : Node) (flashblocks : List FlashBlock) : ProcessorState :=
  flashblocks.foldl
    (fun state flashblock => processor.processUpdate (fun _ => node) (.flashblock flashblock) state)
    (StateProcessor.initial node.client)

theorem afterFlashblocks_concat (node : Node) (flashblocks : List FlashBlock)
    (flashblock : FlashBlock) :
    afterFlashblocks node (flashblocks ++ [flashblock]) =
      processor.processUpdate (fun _ => node) (.flashblock flashblock)
        (afterFlashblocks node flashblocks) := by
  rw [afterFlashblocks, List.foldl_concat]
  rfl

theorem afterFlashblocks_reachable (node : Node) {wire : FlashBlock → Prop}
    {flashblocks : List FlashBlock} (wires : ∀ flashblock ∈ flashblocks, wire flashblock) :
    Reachable processor (Guard.onWire wire) (afterFlashblocks node flashblocks) := by
  induction flashblocks using List.reverseRecOn with
  | nil => exact .init ⟨node.client, rfl⟩
  | append_singleton flashblocks flashblock ih =>
      have earlier := ih fun other member => wires other (by simp [member])
      rw [afterFlashblocks_concat]
      exact .step earlier (.update _ _ ⟨wires flashblock (by simp), trivial⟩)

end EthgasReth.Reference
