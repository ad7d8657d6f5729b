import EthgasReth.Lib.KeyedSet
import EthgasReth.Lib.System
import EthgasReth.Primitives

/-!
# The inclusion list producer

`inclusion_producer.rs`.  The producer keeps the pool's pending transactions twice:
in a map by hash, and in a set of scored entries ordered by the score alone.  Pool
events change the two independently, and every canonical commit selects a list from
them.  Scores are `f64` values; their arithmetic is a parameter and their order is
`total_cmp` on the bits.
-/

set_option autoImplicit false

namespace EthgasReth.Simulator.InclusionProducer

open EthgasReth.Primitives
open EthgasReth.Lib

/-! ## Scores -/

structure F64 where
  bits : BitVec 64
  deriving DecidableEq

/-- The bits that `total_cmp` compares as a signed integer: those below the sign
are flipped when it is set. -/
def F64.orderedBits (x : F64) : BitVec 64 := x.bits ^^^ (x.bits.sshiftRight 63 >>> 1)

theorem F64.orderedBits_bit (x : F64) {i : Nat} (inside : i < 64) :
    x.orderedBits.getLsbD i = (x.bits.getLsbD i ^^ (decide (i < 63) && x.bits.getLsbD 63)) := by
  have sign : x.bits.msb = x.bits.getLsbD 63 := by simp [BitVec.msb_eq_getLsbD_last]
  by_cases low : i < 63
  · have shifted : ¬ 64 ≤ 1 + i := by omega
    have pastEnd : ¬ 63 + (1 + i) < 64 := by omega
    simp [orderedBits, BitVec.getLsbD_sshiftRight, low, sign, shifted, pastEnd]
  · have top : i = 63 := by omega
    subst top
    simp [orderedBits]

theorem F64.orderedBits_injective : Function.Injective F64.orderedBits := by
  intro x y same
  have bitOf : ∀ {i : Nat}, i < 64 → x.orderedBits.getLsbD i = y.orderedBits.getLsbD i := by
    intro i _
    rw [same]
  have sign : x.bits.getLsbD 63 = y.bits.getLsbD 63 := by
    have top := bitOf (i := 63) (by omega)
    rw [orderedBits_bit x (by omega), orderedBits_bit y (by omega)] at top
    simpa using top
  have bits : x.bits = y.bits := by
    apply BitVec.eq_of_getLsbD_eq
    intro i inside
    have here := bitOf inside
    rw [orderedBits_bit x inside, orderedBits_bit y inside, sign] at here
    simpa using here
  cases x
  cases y
  exact congrArg F64.mk bits

/-- `f64::total_cmp`. -/
instance : LinearOrder F64 :=
  LinearOrder.lift' (fun x : F64 => x.orderedBits.toInt)
    (fun _ _ same => F64.orderedBits_injective (BitVec.eq_of_toInt_eq same))

/-- What the producer takes from elsewhere: `f64` arithmetic, and the hash of a
transaction's EIP-2718 bytes. -/
structure Externals where
  ofNat : Nat → F64
  mul : F64 → F64 → F64
  div : F64 → F64 → F64
  keccak256 : Bytes → B256

/-! ## Transactions and pool events -/

/-- A pool transaction; `timestamp` is in microseconds and `encoded` are the EIP-2718
bytes of its consensus form. -/
structure ValidPoolTransaction where
  timestamp : Nat
  blobCount : Option Nat
  gasLimit : Nat
  priorityFeeOrPrice : Nat
  encodedLength : Nat
  encoded : Bytes

inductive FullTransactionEvent where
  | pending (txHash : B256)
  | queued (txHash : B256)
  | mined (txHash blockHash : B256)
  | replaced (transaction : ValidPoolTransaction) (replacedBy : B256)
  | discarded (txHash : B256)
  | invalid (txHash : B256)
  | propagated

structure OrderedTx where
  score : F64
  txHash : B256
  deriving DecidableEq

/-- Highest scores come first; the hash is not looked at. -/
def OrderedTx.rank (tx : OrderedTx) : F64ᵒᵈ := OrderDual.toDual tx.score

abbrev OrderedTxs := KeyedSet OrderedTx.rank

abbrev PendingTxs := HashMap B256 ValidPoolTransaction

namespace Externals

variable (externals : Externals)

def hash (tx : ValidPoolTransaction) : B256 := externals.keccak256 tx.encoded

def scoreTx (now : Nat) (tx : ValidPoolTransaction) : F64 :=
  externals.div
    (externals.mul (externals.ofNat (now - tx.timestamp)) (externals.ofNat tx.priorityFeeOrPrice))
    (externals.ofNat tx.gasLimit)

def orderedTx (now : Nat) (tx : ValidPoolTransaction) : OrderedTx where
  score := externals.scoreTx now tx
  txHash := externals.hash tx

end Externals

def accepted (pool : B256 → Option ValidPoolTransaction) (txHash : B256) :
    Option ValidPoolTransaction :=
  (pool txHash).filter fun tx => tx.blobCount = some 0 ∨ tx.blobCount = none

def handleTxEvent (externals : Externals) (pool : B256 → Option ValidPoolTransaction) (now : Nat)
    (event : FullTransactionEvent) (orderedTxs : OrderedTxs) (pendingTxs : PendingTxs) :
    OrderedTxs × PendingTxs :=
  match event with
  | .pending txHash =>
      match accepted pool txHash with
      | some pendingTx =>
          (orderedTxs.insert (externals.orderedTx now pendingTx),
            pendingTxs.insert (externals.hash pendingTx) pendingTx)
      | none => (orderedTxs, pendingTxs)
  | .queued txHash | .mined txHash _ | .discarded txHash | .invalid txHash =>
      (orderedTxs, pendingTxs.erase txHash)
  | .replaced transaction _ => (orderedTxs, pendingTxs.erase (externals.hash transaction))
  | .propagated => (orderedTxs, pendingTxs)

/-! ## Building the list -/

def maxListBytes : Nat := 8 * 1024

structure Selection where
  inclusionList : List Bytes
  toAdd : List OrderedTx
  totalEncodedSize : Nat

def Selection.empty : Selection := ⟨[], [], 0⟩

def considerTx (pendingTxs : PendingTxs) (selection : Selection) (orderedTx : OrderedTx) :
    Selection :=
  match pendingTxs.lookup orderedTx.txHash with
  | none => selection
  | some transaction =>
      let toAdd := selection.toAdd ++ [orderedTx]
      if maxListBytes < selection.totalEncodedSize + transaction.encodedLength then
        { selection with toAdd := toAdd }
      else
        { inclusionList := selection.inclusionList ++ [transaction.encoded]
          toAdd := toAdd
          totalEncodedSize := selection.totalEncodedSize + transaction.encodedLength }

/-- Popping the first entry until none is left visits the entries in order. -/
def selectTxs (orderedTxs : OrderedTxs) (pendingTxs : PendingTxs) : Selection :=
  orderedTxs.entries.foldl (considerTx pendingTxs) Selection.empty

def buildInclusionList (orderedTxs : OrderedTxs) (pendingTxs : PendingTxs) :
    List Bytes × OrderedTxs :=
  let selection := selectTxs orderedTxs pendingTxs
  (selection.inclusionList, KeyedSet.empty.extend selection.toAdd)

/-! ## The producer's loop -/

structure ProducerState where
  orderedTxs : OrderedTxs
  pendingTxs : PendingTxs
  published : List (List Bytes)

/-- What one turn of the loop receives.  A pool event comes with what the pool holds
and the time at which it is handled. -/
inductive Input where
  | txEvent (pool : B256 → Option ValidPoolTransaction) (now : Nat) (event : FullTransactionEvent)
  | commit
  | reorg

def ProducerState.initial : ProducerState := ⟨KeyedSet.empty, ∅, []⟩

def ProducerState.step (externals : Externals) (state : ProducerState) : Input → ProducerState
  | .txEvent pool now event =>
      let (orderedTxs, pendingTxs) :=
        handleTxEvent externals pool now event state.orderedTxs state.pendingTxs
      { state with orderedTxs := orderedTxs, pendingTxs := pendingTxs }
  | .commit =>
      let (inclusionList, orderedTxs) := buildInclusionList state.orderedTxs state.pendingTxs
      { state with orderedTxs := orderedTxs, published := state.published ++ [inclusionList] }
  | .reorg => state

/-- The producer's runs in which every input meets the condition. -/
def producer (externals : Externals) (meets : ProducerState → Input → Prop) :
    System ProducerState where
  Init := fun state => state = ProducerState.initial
  Step := fun state next => ∃ input, meets state input ∧ next = state.step externals input

end EthgasReth.Simulator.InclusionProducer
