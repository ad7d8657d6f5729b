import EthgasReth.Lib.CellWrites
import EthgasReth.Primitives

/-!
# State, bundles and the execution layer

Chain state as the EVM's database reads it, the changes one execution returns,
the bundle a build takes out of revm's `State`, and `PendingStateProvider`,
which answers reads from a bundle over the anchor's state.  revm itself is a
parameter: `Evm` lists the operations the build calls, `Evm.Lawful` what revm's
`State` guarantees of them, and `SystemContracts` what the EIP-2935 and EIP-4788
calls do.
-/

set_option autoImplicit false

namespace EthgasReth.Execution

open EthgasReth.Primitives
open EthgasReth.Lib

/-! ## State -/

structure AccountInfo where
  balance : U256
  nonce : Nat
  codeHash : B256
  deriving DecidableEq

def keccakEmpty : B256 := 0xc5d2460186f7233c927e7db2dcc703c0e500b653ca82273b7bfad8045d85a470

def AccountInfo.isEmpty (info : AccountInfo) : Bool :=
  info.balance = 0 && info.nonce = 0 && info.codeHash = keccakEmpty

abbrev Slot := Address × U256

@[ext] structure World where
  basic : Address → Option AccountInfo
  storage : Slot → U256
  code : B256 → Option Bytes

@[ext] structure View where
  world : World
  blockHash : Nat → Option B256

/-- An account as an execution returns it, with the slots it changed. -/
structure EvmAccount where
  info : AccountInfo
  storage : U256 → Option U256
  touched : Bool
  created : Bool
  selfdestructed : Bool

structure EvmState where
  accounts : Address → Option EvmAccount
  contracts : B256 → Option Bytes

/-- A touched account that a commit removes: destroyed, or left empty. -/
def EvmAccount.removed (account : EvmAccount) : Bool :=
  account.selfdestructed || (!account.created && account.info.isEmpty)

def World.commit (world : World) (changes : EvmState) : World where
  basic := fun address =>
    match changes.accounts address with
    | none => world.basic address
    | some account =>
        if !account.touched then world.basic address
        else if account.removed then none
        else some account.info
  storage := fun slot =>
    match changes.accounts slot.1 with
    | none => world.storage slot
    | some account =>
        if !account.touched then world.storage slot
        else if account.removed then 0
        else if account.created then (account.storage slot.2).getD 0
        else (account.storage slot.2).getD (world.storage slot)
  code := fun hash => (changes.contracts hash).or (world.code hash)

def World.writeSlots (world : World) (slots : CellWrites Slot U256) : World :=
  { world with storage := write slots world.storage }

/-! ## Bundles and the pending state provider -/

structure BundleAccount where
  info : Option AccountInfo
  originalInfo : Option AccountInfo
  storage : U256 → Option U256
  wasDestroyed : Bool

structure BundleState where
  state : Address → Option BundleAccount
  contracts : B256 → Option Bytes

def BundleState.empty : BundleState := { state := fun _ => none, contracts := fun _ => none }

/-- The bundle read in place over the state of the block it was executed on. -/
structure PendingStateProvider where
  anchor : View
  bundle : BundleState

namespace PendingStateProvider

def basicAccount (provider : PendingStateProvider) (address : Address) : Option AccountInfo :=
  match provider.bundle.state address with
  | some account => account.info
  | none => provider.anchor.world.basic address

def bytecodeByHash (provider : PendingStateProvider) (codeHash : B256) : Option Bytes :=
  match provider.bundle.contracts codeHash with
  | some bytecode => some bytecode
  | none => provider.anchor.world.code codeHash

def storage (provider : PendingStateProvider) (slot : Slot) : U256 :=
  match provider.bundle.state slot.1 with
  | some account =>
      match account.storage slot.2 with
      | some value => value
      | none => if account.wasDestroyed then 0 else provider.anchor.world.storage slot
  | none => provider.anchor.world.storage slot

def world (provider : PendingStateProvider) : World where
  basic := provider.basicAccount
  storage := provider.storage
  code := provider.bytecodeByHash

end PendingStateProvider

/-- A bundle holds the changes that lead from one world to another: the final
account behind every entry, the final value of every slot it lists, and nothing
about what did not change. -/
structure BundleState.Reflects (bundle : BundleState) (base world : World) : Prop where
  info : ∀ address account, bundle.state address = some account →
    world.basic address = account.info
  slot : ∀ address key account, bundle.state address = some account →
    world.storage (address, key) =
      (account.storage key).getD (if account.wasDestroyed then 0 else base.storage (address, key))
  absent : ∀ address, bundle.state address = none →
    world.basic address = base.basic address ∧
      ∀ key, world.storage (address, key) = base.storage (address, key)
  code : ∀ hash, world.code hash = (bundle.contracts hash).or (base.code hash)

/-- Reading such a bundle over the world it started from gives the world it
leads to. -/
theorem PendingStateProvider.world_eq {provider : PendingStateProvider} {world : World}
    (reflects : provider.bundle.Reflects provider.anchor.world world) :
    provider.world = world := by
  apply World.ext
  · funext address
    simp only [PendingStateProvider.world, PendingStateProvider.basicAccount]
    cases entry : provider.bundle.state address with
    | none => exact (reflects.absent address entry).1.symm
    | some account => exact (reflects.info address account entry).symm
  · funext slot
    obtain ⟨address, key⟩ := slot
    simp only [PendingStateProvider.world, PendingStateProvider.storage]
    cases entry : provider.bundle.state address with
    | none => exact ((reflects.absent address entry).2 key).symm
    | some account =>
        rw [reflects.slot address key account entry]
        cases listed : account.storage key <;> simp [listed]
  · funext hash
    simp only [PendingStateProvider.world, PendingStateProvider.bytecodeByHash]
    rw [reflects.code hash]
    cases listed : provider.bundle.contracts hash <;> simp

/-! ## The execution layer -/

structure NextBlockEnvAttributes where
  timestamp : Nat
  suggestedFeeRecipient : Address
  prevRandao : B256
  gasLimit : Nat
  parentBeaconBlockRoot : Option B256
  withdrawals : Option (List Withdrawal)
  extraData : Bytes
  slotNumber : Option Nat

inductive SystemCall where
  | blockhashes (parentHash : B256)
  | beaconRoot (parentBeaconBlockRoot : Option B256)

structure ResultAndState where
  success : Bool
  state : EvmState

/-- revm and reth's EVM configuration.  `Db` is revm's `State`; `build` is its
builder with the database and, when given, the bundle prestate; `base` names the
database a `Db` was built over.  `takeBundle` stands for `merge_transitions`
followed by `take_bundle`. -/
structure Evm where
  Env : Type
  Db : Type
  nextEvmEnv : Header → NextBlockEnvAttributes → Except String Env
  build : View → Option BundleState → Db
  base : Db → View
  view : Db → View
  insertBlockHash : Db → Nat → B256 → Db
  commit : Db → EvmState → Db
  takeBundle : Db → BundleState
  systemCall : Env → SystemCall → View → Except String EvmState
  transact : Env → View → TransactionSigned → Address → Except String ResultAndState

/-- A block hash entered into a view shadows what the database knew. -/
def View.insertBlockHash (view : View) (number : Nat) (hash : B256) : View :=
  { view with blockHash := Function.update view.blockHash number (some hash) }

def View.commit (view : View) (changes : EvmState) : View :=
  { view with world := view.world.commit changes }

/-- What revm's `State` guarantees.  `bundle`: the bundle taken out holds the
changes over the database the `State` was built on.  `resume`: a `State` over the
same database that starts from that bundle reads the same world, and has
forgotten the block hashes entered into the first one. -/
structure Evm.Lawful (evm : Evm) : Prop where
  base_build : ∀ view bundle, evm.base (evm.build view bundle) = view
  base_insertBlockHash : ∀ db number hash, evm.base (evm.insertBlockHash db number hash) = evm.base db
  base_commit : ∀ db changes, evm.base (evm.commit db changes) = evm.base db
  view_build : ∀ view, evm.view (evm.build view none) = view
  view_insertBlockHash : ∀ db number hash,
    evm.view (evm.insertBlockHash db number hash) = (evm.view db).insertBlockHash number hash
  view_commit : ∀ db changes, evm.view (evm.commit db changes) = (evm.view db).commit changes
  bundle : ∀ db, (evm.takeBundle db).Reflects (evm.base db).world (evm.view db).world
  resume : ∀ db, evm.view (evm.build (evm.base db) (some (evm.takeBundle db))) =
    { world := (evm.view db).world, blockHash := (evm.base db).blockHash }

/-- The EIP-2935 and EIP-4788 contracts.  In a live world, one in which they are
deployed, a system call writes slots of its own, chosen by the block's
environment and the call's argument, and nothing else.  Transactions leave those
slots alone and keep the contracts deployed. -/
structure SystemContracts (evm : Evm) where
  Live : World → Prop
  Owned : Slot → Prop
  writes : evm.Env → SystemCall → CellWrites Slot U256
  writes_owned : ∀ env call slot, writes env call slot ≠ none → Owned slot
  call_writes : ∀ env call view changes, Live view.world →
    evm.systemCall env call view = .ok changes →
    view.world.commit changes = view.world.writeSlots (writes env call)
  live_writes : ∀ env call world, Live world → Live (world.writeSlots (writes env call))
  transact_owned : ∀ env view tx sender result, Live view.world →
    evm.transact env view tx sender = .ok result →
    ∀ slot, Owned slot → (view.world.commit result.state).storage slot = view.world.storage slot
  live_transact : ∀ env view tx sender result, Live view.world →
    evm.transact env view tx sender = .ok result → Live (view.world.commit result.state)

end EthgasReth.Execution
