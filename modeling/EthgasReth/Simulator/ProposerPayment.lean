import Mathlib
import EthgasReth.Reference
import EthgasReth.Simulator.PaymentChecks

/-!
# Proposers are paid

What the payment checks accept, in exact integers.  A regular submission is paid
by balance or by its last transaction, unless the required balance reaches 2^256
and wraps below the balance the recipient has.  A merged block is paid by what the
transactions at two positions moved to the recipient; the check reads that from a
batch's calldata, whatever the called account does with it.
-/

set_option autoImplicit false

namespace EthgasReth.Simulator.ProposerPayment

open EthgasReth.Primitives
open EthgasReth.Lib
open EthgasReth.Execution
open EthgasReth.Simulator.Payment
open EthgasReth.Simulator.PaymentChecks

variable (api : ValidationApi) (block : Block) (output : BlockExecutionOutput) (message : BidTrace)

/-! ## Paid by balance -/

section Balance

/-- The recipient's balances around the block, where `parent` gives those that the
block did not change. -/
def preBalance (parent : Address → U256) (account : Address) : Nat :=
  match output.state.state account with
  | some changed => ((changed.originalInfo.map AccountInfo.balance).getD 0).toNat
  | none => (parent account).toNat

def postBalance (parent : Address → U256) (account : Address) : Nat :=
  match output.state.state account with
  | some changed => ((changed.info.map AccountInfo.balance).getD 0).toNat
  | none => (parent account).toNat

def BalancePays (parent : Address → U256) : Prop :=
  preBalance output parent message.proposerFeeRecipient +
      withdrawn block message.proposerFeeRecipient + message.value.toNat ≤
    postBalance output parent message.proposerFeeRecipient

theorem balancePays_iff (parent : Address → U256) :
    BalancePays block output message parent ↔
      required block output message ≤ balanceAfter output message := by
  unfold BalancePays required balanceAfter preBalance postBalance balances
  cases output.state.state message.proposerFeeRecipient with
  | some changed => exact Iff.rfl
  | none =>
      change (parent _).toNat + _ + _ ≤ (parent _).toNat ↔ 0 + _ + _ ≤ 0
      omega

def Fits : Prop :=
  required block output message < 2 ^ 256 ∨
    balanceAfter output message < required block output message % 2 ^ 256

theorem balanceAfter_lt : balanceAfter output message < 2 ^ 256 := BitVec.isLt _

theorem fits_iff :
    Fits block output message ↔
      (paidByBalance block output message = true →
        required block output message ≤ balanceAfter output message) := by
  have bound := balanceAfter_lt output message
  rw [paidByBalance_iff, Fits]
  constructor
  · rintro (small | above) paid
    · rwa [Nat.mod_eq_of_lt small] at paid
    · omega
  · intro exact
    by_cases above : balanceAfter output message < required block output message % 2 ^ 256
    · exact Or.inr above
    · have covered := exact (Nat.le_of_not_lt above)
      exact Or.inl (by omega)

end Balance

/-! ## Paid by the last transaction -/

structure Forwards (tx : TransactionSigned) (recipient : Address) : Prop where
  target : tx.toAddress = some paymentForwarder
  calldata : calldataRecipient tx.input = some recipient
  deployed : ∃ account, api.latestAccount paymentForwarder = .ok (some account) ∧
    account.bytecodeHash = some paymentForwarderCodeHash

structure LastPays (receipt : Receipt) (tx : TransactionSigned) : Prop where
  isReceipt : output.receipts.getLast? = some receipt
  isLast : block.transactions.getLast? = some tx
  succeeded : receipt.success = true
  chain : tx.chainId = some api.chainId
  tip : ∀ baseFee ∈ block.header.baseFeePerGas, ∀ tip ∈ tx.effectiveTipPerGas baseFee, tip = 0
  value : tx.value = message.value
  shape : (tx.toAddress = some message.proposerFeeRecipient ∧ tx.input = []) ∨
    Forwards api tx message.proposerFeeRecipient

theorem tips_eq_false {tx : TransactionSigned} :
    tips block tx = false ↔
      ∀ baseFee ∈ block.header.baseFeePerGas, ∀ tip ∈ tx.effectiveTipPerGas baseFee, tip = 0 := by
  unfold tips
  cases block.header.baseFeePerGas with
  | none => simp
  | some baseFee =>
      cases isTip : tx.effectiveTipPerGas baseFee with
      | none => simp [isTip]
      | some tip => simp [isTip]

theorem forwarderDeployed_iff :
    api.forwarderDeployed = true ↔ ∃ account, api.latestAccount paymentForwarder =
      .ok (some account) ∧ account.bytecodeHash = some paymentForwarderCodeHash := by
  unfold ValidationApi.forwarderDeployed
  split
  next account found => simp [found]
  next absent =>
    constructor
    · intro impossible
      cases impossible
    · rintro ⟨account, found, -⟩
      exact absurd found (absent account)

theorem forwards_iff {tx : TransactionSigned} {recipient : Address} :
    (tx.toAddress = some paymentForwarder ∧ calldataRecipient tx.input = some recipient ∧
      api.forwarderDeployed = true) ↔ Forwards api tx recipient := by
  rw [forwarderDeployed_iff]
  exact ⟨fun ⟨target, calldata, deployed⟩ => ⟨target, calldata, deployed⟩,
    fun forwards => ⟨forwards.target, forwards.calldata, forwards.deployed⟩⟩

instance (tx : TransactionSigned) (recipient : Address) : Decidable (Forwards api tx recipient) :=
  decidable_of_iff _ (forwards_iff api)

theorem paidViaForwarder_eq (tx : TransactionSigned) (recipient : Address) :
    api.paidViaForwarder tx recipient = .ok (decide (Forwards api tx recipient)) := by
  unfold ValidationApi.paidViaForwarder
  split
  next target =>
    rw [paymentForwarderRecipient_eq, ok_bind]
    simp [← forwards_iff, target]
  next other =>
    simp [← forwards_iff, other]

theorem paidDirectly_iff (tx : TransactionSigned) (recipient : Address) :
    paidDirectly tx recipient = true ↔ tx.toAddress = some recipient ∧ tx.input = [] := by
  simp [paidDirectly]

/-- What the check accepts. -/
theorem ensurePayment_ok_iff :
    api.ensurePayment block output message = .ok () ↔
      paidByBalance block output message = true ∨
        ∃ receipt tx, LastPays api block output message receipt tx := by
  unfold ValidationApi.ensurePayment
  split
  next paid => simp [paid]
  next unpaid =>
    split
    next receipt tx isReceipt isLast =>
      simp only [paidViaForwarder_eq, ok_bind, reject_eq_ok, and_true]
      constructor
      · rintro ⟨succeeded, chain, shape, value, untipped⟩
        refine Or.inr ⟨receipt, tx, isReceipt, isLast, ?_, not_not.mp chain, ?_, not_not.mp value, ?_⟩
        · simpa using succeeded
        · exact (tips_eq_false block).mp (Bool.eq_false_iff.mpr untipped)
        · rw [← paidDirectly_iff]
          grind
      · rintro (paid | ⟨other, last, pays⟩)
        · exact absurd paid unpaid
        · cases isReceipt.symm.trans pays.isReceipt
          cases isLast.symm.trans pays.isLast
          have shape := pays.shape
          rw [← paidDirectly_iff] at shape
          refine ⟨by simp [pays.succeeded], not_not.mpr pays.chain, by grind,
            not_not.mpr pays.value, ?_⟩
          exact Bool.eq_false_iff.mp ((tips_eq_false block).mpr pays.tip)
    next absent =>
      constructor
      · intro impossible
        cases impossible
      · rintro (paid | ⟨receipt, tx, pays⟩)
        · exact absurd paid unpaid
        · exact absurd pays.isLast (absent receipt tx pays.isReceipt)

/-- When the check returns Ok, the proposer is paid in exact integers: unless the
sum wraps, or the last transaction pays all the same. -/
theorem ensurePayment_pays_iff :
    (∀ parent : Address → U256, api.ensurePayment block output message = .ok () →
      BalancePays block output message parent ∨
        ∃ receipt tx, LastPays api block output message receipt tx) ↔
      Fits block output message ∨ ∃ receipt tx, LastPays api block output message receipt tx := by
  simp only [ensurePayment_ok_iff, balancePays_iff, fits_iff]
  constructor
  · intro claim
    by_cases last : ∃ receipt tx, LastPays api block output message receipt tx
    · exact Or.inr last
    · refine Or.inl fun paid => ?_
      exact (claim (fun _ => 0) (Or.inl paid)).resolve_right last
  · rintro (exact | last) parent (paid | otherwise)
    · exact Or.inl (exact paid)
    · exact Or.inr otherwise
    · exact Or.inr last
    · exact Or.inr last

/-! ### A submission with one transaction -/

def proposer : Address := 0x2222222222222222222222222222222222222222

def call (target : Address) (value : U256) (input : Bytes) : TransactionSigned where
  txHash := 1
  chainId := some 1
  nonce := 0
  toAddress := some target
  value := value
  input := input
  maxFeePerGas := 0
  maxPriorityFeePerGas := some 0

def blockOf (tx : TransactionSigned) : Block where
  header := Reference.header 1 0
  transactions := [tx]
  withdrawals := some []

def outputOf (before after : U256) : BlockExecutionOutput where
  state := {
    state := fun address =>
      if address = proposer then
        some {
          info := some { balance := after, nonce := 0, codeHash := keccakEmpty }
          originalInfo := some { balance := before, nonce := 0, codeHash := keccakEmpty }
          storage := fun _ => none
          wasDestroyed := false }
      else none
    contracts := fun _ => none }
  receipts := [{ success := true, cumulativeGasUsed := 21000, logs := [] }]

def bid (value : U256) : BidTrace where
  proposerFeeRecipient := proposer
  value := value

def nodeWith (abi : Abi) : ValidationApi where
  chainId := 1
  latestAccount := fun _ => .ok none
  abi := abi

/-- One wei is sent to a proposer that holds one.  A bid of 2^256 - 1 brings the
required balance to 2^256, which wraps to zero. -/
theorem wrapped_bid_accepted :
    ¬ ∀ (api : ValidationApi) (block : Block) (output : BlockExecutionOutput)
      (message : BidTrace) (parent : Address → U256),
      api.ensurePayment block output message = .ok () →
        BalancePays block output message parent ∨
          ∃ receipt tx, LastPays api block output message receipt tx := by
  intro claim
  have accepted : (nodeWith ⟨fun _ => none, fun _ => none⟩).ensurePayment (blockOf (call proposer 1 []))
      (outputOf 1 2) (bid (BitVec.allOnes 256)) = .ok () := rfl
  rcases claim _ _ _ _ (fun _ => 0) accepted with paid | ⟨receipt, tx, pays⟩
  · have impossible : 1 + 0 + (2 ^ 256 - 1) ≤ 2 := paid
    exact absurd impossible (by decide)
  · cases pays.isLast
    exact absurd pays.value (by decide)

/-! ## Merged blocks -/

def Succeeds (ix : Nat) (tx : TransactionSigned) : Prop :=
  block.transactions[ix]? = some tx ∧
    ∃ receipt, output.receipts[ix]? = some receipt ∧ receipt.success = true

def positions (basePaymentTxIndex : Nat) : Finset Nat :=
  ({block.transactions.length - 1, basePaymentTxIndex} : Finset Nat).filter
    (· < block.transactions.length)

/-- What the transaction states to pay, as an exact integer: its value, or the
entries of its batch. -/
def stated (tx : TransactionSigned) (recipient : Address) : Nat :=
  if paidDirectly tx recipient = true ∨ Forwards api tx recipient then tx.value.toNat
  else batchTotal api.abi tx.input recipient

def listed (recipient : Address) (ix : Nat) : Nat :=
  match output.receipts[ix]?, block.transactions[ix]? with
  | some receipt, some tx =>
      if receipt.success = true ∧ tx.chainId = some api.chainId ∧ tips block tx = false then
        stated api tx recipient
      else 0
  | _, _ => 0

theorem contributed_eq (tx : TransactionSigned) (recipient : Address) :
    api.contributed tx recipient = .ok (BitVec.ofNat 256 (stated api tx recipient)) := by
  unfold ValidationApi.contributed stated
  rw [paidViaForwarder_eq, ok_bind]
  simp only [Bool.or_eq_true, decide_eq_true_eq]
  split
  next => rw [← ofNat_toNat_self]
  next => exact multisendPaidAmount_eq ..

theorem recognizedPaymentAt_eq (recipient : Address) (ix : Nat) :
    api.recognizedPaymentAt block output recipient ix =
      .ok (BitVec.ofNat 256 (listed api block output recipient ix)) := by
  unfold ValidationApi.recognizedPaymentAt listed
  cases output.receipts[ix]? with
  | none => rfl
  | some receipt =>
      cases block.transactions[ix]? with
      | none => rfl
      | some tx =>
          simp only [contributed_eq, ok_bind]
          by_cases succeeded : receipt.success = true
          · by_cases eligible : tx.chainId = some api.chainId ∧ tips block tx = false
            · simp only [succeeded, eligible, and_self, if_true]
              -- A contribution of zero is returned as zero.
              split <;> simp_all
            · simp only [succeeded, eligible, true_and, if_false]
              split <;> simp_all
          · simp [succeeded]

theorem listed_outside {recipient : Address} {ix : Nat} (outside : block.transactions.length ≤ ix) :
    listed api block output recipient ix = 0 := by
  unfold listed
  rw [List.getElem?_eq_none outside]
  cases output.receipts[ix]? <;> rfl

theorem sum_positions {amount : Nat → Nat} (basePaymentTxIndex : Nat)
    (outside : ∀ ix, block.transactions.length ≤ ix → amount ix = 0) :
    ∑ ix ∈ positions block basePaymentTxIndex, amount ix =
      amount (block.transactions.length - 1) +
        if basePaymentTxIndex ≠ block.transactions.length - 1 then amount basePaymentTxIndex
        else 0 := by
  have whole : ∑ ix ∈ positions block basePaymentTxIndex, amount ix =
      ∑ ix ∈ ({block.transactions.length - 1, basePaymentTxIndex} : Finset Nat), amount ix := by
    apply Finset.sum_filter_of_ne
    intro ix _ counted
    by_contra beyond
    exact counted (outside ix (Nat.le_of_not_lt beyond))
  rw [whole]
  by_cases same : basePaymentTxIndex = block.transactions.length - 1
  · simp [same]
  · rw [if_pos same, Finset.sum_pair (Ne.symm same)]

theorem total_covers_iff {value : U256} {total : Nat} {failure : Stop} :
    (if value ≤ BitVec.ofNat 256 total then Except.ok () else .error failure) = .ok () ↔
      value.toNat ≤ total % 2 ^ 256 := by
  rw [← BitVec.toNat_ofNat, ← BitVec.le_def]
  split
  next covered => simp [covered]
  next short => simp [short]

theorem ensureMergedPayment_ok_iff (basePaymentTxIndex : Nat) :
    api.ensureMergedPayment block output message basePaymentTxIndex = .ok () ↔
      paidByBalance block output message = true ∨
        (block.transactions.length ≠ 0 ∧ message.value.toNat ≤
          (∑ ix ∈ positions block basePaymentTxIndex,
            listed api block output message.proposerFeeRecipient ix) % 2 ^ 256) := by
  unfold ValidationApi.ensureMergedPayment
  split
  next paid => simp [paid]
  next unpaid =>
    have total := sum_positions block basePaymentTxIndex fun ix =>
      @listed_outside api block output message.proposerFeeRecipient ix
    rw [reject_eq_ok, total, or_iff_right unpaid]
    simp only [recognizedPaymentAt_eq, ok_bind]
    apply and_congr_right
    intro nonempty
    split
    next other => rw [← BitVec.ofNat_add, total_covers_iff]
    next same => rw [total_covers_iff, Nat.add_zero]

/-! ## What execution moves -/

section Moved

variable (code : Nat → Address → Option B256) (recipient : Address)

def RunsForwarder (ix : Nat) (tx : TransactionSigned) : Prop :=
  tx.toAddress = some paymentForwarder ∧ calldataRecipient tx.input = some recipient ∧
    code ix paymentForwarder = some paymentForwarderCodeHash

instance (ix : Nat) (tx : TransactionSigned) : Decidable (RunsForwarder code recipient ix tx) :=
  inferInstanceAs (Decidable (_ ∧ _ ∧ _))

/-- Amounts that executing the transactions may move to the recipient.  `code` is
the code hash of an account when the transaction at a position is executed, none
for an account without code. -/
structure Moves (moved : Nat → Nat) : Prop where
  /-- A call of an account without code moves its value there and nothing else. -/
  plain : ∀ ix tx target, Succeeds block output ix tx → tx.toAddress = some target →
    code ix target = none → moved ix = if target = recipient then tx.value.toNat else 0
  /-- A call moves its value to the account before the account's code runs. -/
  credits : ∀ ix tx, Succeeds block output ix tx → tx.toAddress = some recipient →
    tx.value.toNat ≤ moved ix
  /-- The forwarder sends the value on to the recipient in its calldata. -/
  forwards : ∀ ix tx, Succeeds block output ix tx → RunsForwarder code recipient ix tx →
    tx.value.toNat ≤ moved ix

/-- What the transaction at the position moves to the recipient whatever other code
does. -/
def secured (ix : Nat) : Nat :=
  match output.receipts[ix]?, block.transactions[ix]? with
  | some receipt, some tx =>
      if receipt.success = true ∧
          (tx.toAddress = some recipient ∨ RunsForwarder code recipient ix tx) then tx.value.toNat
      else 0
  | _, _ => 0

variable {block output code recipient}

theorem secured_of_succeeds {ix : Nat} {tx : TransactionSigned}
    (succeeds : Succeeds block output ix tx) :
    secured block output code recipient ix =
      if tx.toAddress = some recipient ∨ RunsForwarder code recipient ix tx then tx.value.toNat
      else 0 := by
  obtain ⟨isTx, receipt, isReceipt, succeeded⟩ := succeeds
  simp only [secured, isTx, isReceipt, succeeded, true_and]

theorem Moves.secured_le {moved : Nat → Nat} (moves : Moves block output code recipient moved)
    (ix : Nat) : secured block output code recipient ix ≤ moved ix := by
  unfold secured
  split
  next receipt tx isReceipt isTx =>
    split
    next paid =>
      have succeeds : Succeeds block output ix tx := ⟨isTx, receipt, isReceipt, paid.1⟩
      rcases paid.2 with direct | forwarded
      · exact moves.credits ix tx succeeds direct
      · exact moves.forwards ix tx succeeds forwarded
    next => exact Nat.zero_le _
  next => exact Nat.zero_le _

/-- An execution may move no more than that. -/
theorem secured_moves : Moves block output code recipient (secured block output code recipient) where
  plain := by
    intro ix tx target succeeds isTarget plain
    rw [secured_of_succeeds succeeds, isTarget]
    have idle : ¬ RunsForwarder code recipient ix tx := by
      rintro ⟨isForwarder, -, running⟩
      cases isTarget.symm.trans isForwarder
      rw [plain] at running
      cases running
    simp [idle]
  credits := by
    intro ix tx succeeds direct
    rw [secured_of_succeeds succeeds, if_pos (Or.inl direct)]
  forwards := by
    intro ix tx succeeds forwarded
    rw [secured_of_succeeds succeeds, if_pos (Or.inr forwarded)]

end Moved

/-! ## The check of merged blocks -/

section Merged

variable (code : Nat → Address → Option B256) (basePaymentTxIndex : Nat)

def Secured : Prop :=
  message.value.toNat ≤ ∑ ix ∈ positions block basePaymentTxIndex,
    secured block output code message.proposerFeeRecipient ix

/-- When the check returns Ok, the recipient has received the bid, whatever the code
that the transactions run: unless the balance wraps, or the listed amounts reach
the bid and the secured ones do not. -/
theorem ensureMergedPayment_pays_iff :
    (∀ (parent : Address → U256) (moved : Nat → Nat),
      Moves block output code message.proposerFeeRecipient moved →
      api.ensureMergedPayment block output message basePaymentTxIndex = .ok () →
        BalancePays block output message parent ∨
          message.value.toNat ≤ ∑ ix ∈ positions block basePaymentTxIndex, moved ix) ↔
      (¬ Fits block output message → Secured block output message code basePaymentTxIndex) ∧
      (balanceAfter output message < required block output message →
        message.value.toNat ≤ (∑ ix ∈ positions block basePaymentTxIndex,
          listed api block output message.proposerFeeRecipient ix) % 2 ^ 256 →
        Secured block output message code basePaymentTxIndex) := by
  simp only [ensureMergedPayment_ok_iff, balancePays_iff, fits_iff]
  constructor
  · intro claim
    have least := claim (fun _ => 0) _ secured_moves
    refine ⟨?_, ?_⟩
    · intro wrapped
      obtain ⟨paid, short⟩ := Classical.not_imp.mp wrapped
      exact (least (Or.inl paid)).resolve_left short
    · intro short covered
      by_cases empty : block.transactions.length = 0
      · have nothing : ∑ ix ∈ positions block basePaymentTxIndex,
            listed api block output message.proposerFeeRecipient ix = 0 :=
          Finset.sum_eq_zero fun ix _ => listed_outside api block output (by omega)
        rw [nothing] at covered
        exact covered.trans (Nat.zero_le _)
      · exact (least (Or.inr ⟨empty, covered⟩)).resolve_left (Nat.not_le_of_lt short)
  · rintro ⟨wraps, lists⟩ parent moved moves accepted
    have enough : Secured block output message code basePaymentTxIndex →
        message.value.toNat ≤ ∑ ix ∈ positions block basePaymentTxIndex, moved ix := by
      intro secured
      exact secured.trans (Finset.sum_le_sum fun ix _ => moves.secured_le ix)
    by_cases covers : required block output message ≤ balanceAfter output message
    · exact Or.inl covers
    · refine Or.inr (enough ?_)
      rcases accepted with paid | ⟨-, covered⟩
      · exact wraps fun exact => covers (exact paid)
      · exact lists (Nat.lt_of_not_le covers) covered

end Merged

/-! ### A forged batch -/

def wordAt (arguments : Bytes) (i : Nat) : Option Nat :=
  (slice arguments (32 * i) (32 * i + 32)).map beValue

/-- The bytes that the `i`-th word points to: a length and the data. -/
def bytesAt (arguments : Bytes) (i : Nat) : Option Bytes := do
  let start ← wordAt arguments i
  let length ← (slice arguments start (start + 32)).map beValue
  slice arguments (start + 32) (start + 32 + length)

def argumentsOf (selector input : Bytes) : Option Bytes :=
  if input.take 4 = selector then some (input.drop 4) else none

def execTransactionSelector : Bytes := [0x6a, 0x76, 0x12, 0x02]

def multiSendSelector : Bytes := [0x8d, 0x80, 0xff, 0x0a]

/-- The decoders on well-formed calldata. -/
def solidityAbi : Abi where
  execTransaction := fun input => do
    let arguments ← argumentsOf execTransactionSelector input
    let data ← bytesAt arguments 2
    let operation ← wordAt arguments 3
    let _ ← bytesAt arguments 9
    some { data := data, operation := UInt8.ofNat operation }
  multiSend := fun input => do
    let arguments ← argumentsOf multiSendSelector input
    bytesAt arguments 0

def wordBytes (value : Nat) : Bytes :=
  (List.range 32).reverse.map fun i => UInt8.ofNat (value / 256 ^ i)

def forgedEntry : Bytes :=
  [0] ++ List.replicate 20 0x22 ++ wordBytes 42 ++ wordBytes 0

def forgedMultiSend : Bytes :=
  multiSendSelector ++ wordBytes 32 ++ wordBytes 85 ++ forgedEntry ++ List.replicate 11 0

def forgedCalldata : Bytes :=
  execTransactionSelector ++ wordBytes 0 ++ wordBytes 0 ++ wordBytes 320 ++ wordBytes 1 ++
    wordBytes 0 ++ wordBytes 0 ++ wordBytes 0 ++ wordBytes 0 ++ wordBytes 0 ++ wordBytes 544 ++
    wordBytes 164 ++ forgedMultiSend ++ List.replicate 28 0 ++ wordBytes 0

theorem forgedEntry_entries : packedEntries forgedEntry = [(proposer, 42)] := by
  have first : nextEntry forgedEntry 0 = .ok (some (proposer, 42), 85) := by decide +kernel
  have last : nextEntry forgedEntry 85 = .ok (none, 85) := by decide +kernel
  rw [packedEntries, multisendEntries, entriesFrom_entry first, entriesFrom_end last]
  rfl

theorem forgedCalldata_total : batchTotal solidityAbi forgedCalldata proposer = 42 := by
  have decoded : solidityAbi.execTransaction forgedCalldata = some ⟨forgedMultiSend, 1⟩ := by
    decide +kernel
  have unpacked : solidityAbi.multiSend forgedMultiSend = some forgedEntry := by
    decide +kernel
  unfold batchTotal batchEntries
  simp [decoded, unpacked, forgedEntry_entries, safeDelegatecall]

def forged : TransactionSigned := call 0xdead 0 forgedCalldata

theorem forged_listed :
    listed (nodeWith solidityAbi) (blockOf forged) (outputOf 1 1) (bid 42).proposerFeeRecipient 0 =
      42 := by
  have eligible : True ∧ forged.chainId = some (nodeWith solidityAbi).chainId ∧
      tips (blockOf forged) forged = false := ⟨trivial, rfl, rfl⟩
  have unpaid : ¬ (paidDirectly forged (bid 42).proposerFeeRecipient = true ∨
      Forwards (nodeWith solidityAbi) forged (bid 42).proposerFeeRecipient) := by
    rw [← forwards_iff]
    decide
  have isReceipt : (outputOf 1 1).receipts[0]? = some ⟨true, 21000, []⟩ := rfl
  have isTx : (blockOf forged).transactions[0]? = some forged := rfl
  simp only [listed, isReceipt, isTx]
  rw [if_pos eligible, stated, if_neg unpaid]
  exact forgedCalldata_total

theorem forged_moves :
    Moves (blockOf forged) (outputOf 1 1) (fun _ _ => none) proposer fun _ => 0 := by
  have target : ∀ ix tx, Succeeds (blockOf forged) (outputOf 1 1) ix tx →
      tx.toAddress = some 0xdead := by
    intro ix tx succeeds
    rw [List.mem_singleton.mp (List.mem_of_getElem? succeeds.1)]
    rfl
  constructor
  case plain =>
    intro ix tx account succeeds isTarget _
    cases isTarget.symm.trans (target ix tx succeeds)
    rfl
  case credits =>
    intro ix tx succeeds direct
    cases direct.symm.trans (target ix tx succeeds)
  case forwards =>
    intro ix tx succeeds running
    cases running.2.2

/-- The account has no code: nothing moves, and a bid of 42 wei is accepted. -/
theorem forged_batch_accepted :
    ¬ ∀ (api : ValidationApi) (block : Block) (output : BlockExecutionOutput)
      (message : BidTrace) (basePaymentTxIndex : Nat) (code : Nat → Address → Option B256)
      (parent : Address → U256) (moved : Nat → Nat),
      Moves block output code message.proposerFeeRecipient moved →
      api.ensureMergedPayment block output message basePaymentTxIndex = .ok () →
        BalancePays block output message parent ∨
          message.value.toNat ≤ ∑ ix ∈ positions block basePaymentTxIndex, moved ix := by
  intro claim
  have accepted : (nodeWith solidityAbi).ensureMergedPayment (blockOf forged) (outputOf 1 1)
      (bid 42) 0 = .ok () := by
    rw [ensureMergedPayment_ok_iff]
    refine Or.inr ⟨by decide, ?_⟩
    have once : positions (blockOf forged) 0 = {0} := rfl
    rw [once, Finset.sum_singleton, forged_listed]
    decide
  rcases claim _ _ _ _ 0 _ (fun _ => 0) _ forged_moves accepted with paid | received
  · have impossible : 1 + 0 + 42 ≤ 1 := paid
    exact absurd impossible (by decide)
  · rw [Finset.sum_const_zero] at received
    exact absurd received (by decide)

end EthgasReth.Simulator.ProposerPayment
