import EthgasReth.Execution
import EthgasReth.Simulator.Payment

/-!
# The payment checks of the validation API

`ensure_payment` for regular submissions and `ensure_merged_payment` for merged
blocks, from `validation/mod.rs`.  Both first compare the fee recipient's balances
and then fall back to transactions of the block: the last one, or the two
positions of a merged block.  `U256` addition wraps.
-/

set_option autoImplicit false

namespace EthgasReth.Simulator.PaymentChecks

open EthgasReth.Primitives
open EthgasReth.Lib
open EthgasReth.Execution
open EthgasReth.Simulator.Payment

structure BidTrace where
  proposerFeeRecipient : Address
  value : U256

structure BlockExecutionOutput where
  state : BundleState
  receipts : List Receipt

structure Account where
  bytecodeHash : Option B256

/-- What the checks read of the node: the chain's id, accounts of the provider's
latest state, and the ABI decoders. -/
structure ValidationApi where
  chainId : Nat
  latestAccount : Address → Except String (Option Account)
  abi : Abi

def gweiToWei : Nat := 1000000000

def amountWei (withdrawal : Withdrawal) : U256 :=
  BitVec.ofNat 256 withdrawal.amount * BitVec.ofNat 256 gweiToWei

/-- The recipient's balance before and after the block.  An account that the output
does not hold is taken as empty: its balance has not changed. -/
def balances (output : BlockExecutionOutput) (recipient : Address) : U256 × U256 :=
  match output.state.state recipient with
  | some account =>
      ((account.originalInfo.map (·.balance)).getD 0, (account.info.map (·.balance)).getD 0)
  | none => (0, 0)

def addWithdrawals (block : Block) (recipient : Address) (balanceBefore : U256) : U256 :=
  match block.withdrawals with
  | none => balanceBefore
  | some withdrawals =>
      withdrawals.foldl (fun balanceBefore withdrawal =>
        if withdrawal.address = recipient then balanceBefore + amountWei withdrawal
        else balanceBefore) balanceBefore

def paidByBalance (block : Block) (output : BlockExecutionOutput) (message : BidTrace) : Bool :=
  let (balanceBefore, balanceAfter) := balances output message.proposerFeeRecipient
  let balanceBefore := addWithdrawals block message.proposerFeeRecipient balanceBefore
  balanceBefore + message.value ≤ balanceAfter

def paidDirectly (tx : TransactionSigned) (recipient : Address) : Bool :=
  tx.toAddress = some recipient && tx.input.isEmpty

def tips (block : Block) (tx : TransactionSigned) : Bool :=
  match block.header.baseFeePerGas with
  | none => false
  | some blockBaseFee => (tx.effectiveTipPerGas blockBaseFee).getD 0 ≠ 0

namespace ValidationApi

def forwarderDeployed (api : ValidationApi) : Bool :=
  match api.latestAccount paymentForwarder with
  | .ok (some account) => account.bytecodeHash = some paymentForwarderCodeHash
  | _ => false

def paidViaForwarder (api : ValidationApi) (tx : TransactionSigned) (recipient : Address) :
    Except Stop Bool :=
  if tx.toAddress = some paymentForwarder then do
    let called ← paymentForwarderRecipient tx.input
    .ok (called = some recipient && api.forwarderDeployed)
  else .ok false

def ensurePayment (api : ValidationApi) (block : Block) (output : BlockExecutionOutput)
    (message : BidTrace) : Except Stop Unit :=
  if paidByBalance block output message then .ok ()
  else match output.receipts.getLast?, block.transactions.getLast? with
    | some receipt, some tx =>
        if !receipt.success then .error (.error .proposerPayment)
        else if tx.chainId ≠ some api.chainId then .error (.error .proposerPayment)
        else do
          let forwarded ← api.paidViaForwarder tx message.proposerFeeRecipient
          if !paidDirectly tx message.proposerFeeRecipient && !forwarded then
            .error (.error .proposerPayment)
          else if tx.value ≠ message.value then .error (.error .proposerPayment)
          else if tips block tx then .error (.error .proposerPayment)
          else .ok ()
    | _, _ => .error (.error .proposerPayment)

/-- What a successful transaction contributes before its chain and tip are checked. -/
def contributed (api : ValidationApi) (tx : TransactionSigned) (recipient : Address) :
    Except Stop U256 := do
  let forwarded ← api.paidViaForwarder tx recipient
  if paidDirectly tx recipient || forwarded then .ok tx.value
  else multisendPaidAmount api.abi tx.input recipient

def recognizedPaymentAt (api : ValidationApi) (block : Block) (output : BlockExecutionOutput)
    (recipient : Address) (ix : Nat) : Except Stop U256 :=
  match output.receipts[ix]?, block.transactions[ix]? with
  | some receipt, some tx =>
      if !receipt.success then .ok 0
      else do
        let contributed ← api.contributed tx recipient
        if contributed = 0 then .ok 0
        else if tx.chainId ≠ some api.chainId then .ok 0
        else if tips block tx then .ok 0
        else .ok contributed
  | _, _ => .ok 0

def ensureMergedPayment (api : ValidationApi) (block : Block) (output : BlockExecutionOutput)
    (message : BidTrace) (basePaymentTxIndex : Nat) : Except Stop Unit :=
  if paidByBalance block output message then .ok ()
  else if block.transactions.length = 0 then .error (.error .proposerPayment)
  else do
    let lastIx := block.transactions.length - 1
    let total ← api.recognizedPaymentAt block output message.proposerFeeRecipient lastIx
    let total ←
      if basePaymentTxIndex ≠ lastIx then do
        let base ← api.recognizedPaymentAt block output message.proposerFeeRecipient
          basePaymentTxIndex
        .ok (total + base)
      else .ok total
    if message.value ≤ total then .ok () else .error (.error .proposerPayment)

end ValidationApi

/-! ## The balance check in exact integers -/

section Balances

variable (block : Block) (output : BlockExecutionOutput) (message : BidTrace)

def withdrawn (recipient : Address) : Nat :=
  (((block.withdrawals.getD []).filter fun withdrawal => withdrawal.address = recipient).map
    fun withdrawal => withdrawal.amount * gweiToWei).sum

/-- The balance that the recipient has when it is paid by balance. -/
def required : Nat :=
  (balances output message.proposerFeeRecipient).1.toNat +
    withdrawn block message.proposerFeeRecipient + message.value.toNat

def balanceAfter : Nat := (balances output message.proposerFeeRecipient).2.toNat

theorem amountWei_eq (withdrawal : Withdrawal) :
    amountWei withdrawal = BitVec.ofNat 256 (withdrawal.amount * gweiToWei) :=
  (BitVec.ofNat_mul ..).symm

theorem addWithdrawals_eq (recipient : Address) (balanceBefore : U256) :
    addWithdrawals block recipient balanceBefore =
      BitVec.ofNat 256 (balanceBefore.toNat + withdrawn block recipient) := by
  unfold addWithdrawals withdrawn
  cases block.withdrawals with
  | none => exact ofNat_toNat_self balanceBefore
  | some withdrawals =>
      have total := foldl_add_eq amountWei_eq
        (withdrawals.filter fun withdrawal => withdrawal.address = recipient) balanceBefore.toNat
      rw [List.foldl_filter, ← ofNat_toNat_self] at total
      simpa using total

theorem paidByBalance_iff :
    paidByBalance block output message = true ↔
      required block output message % 2 ^ 256 ≤ balanceAfter output message := by
  unfold paidByBalance
  simp only [decide_eq_true_eq, addWithdrawals_eq, BitVec.le_def]
  rw [ofNat_toNat_self message.value, ← BitVec.ofNat_add, BitVec.toNat_ofNat]
  simp [required, balanceAfter]

end Balances

end EthgasReth.Simulator.PaymentChecks
