import EthgasReth.Lib.Words
import EthgasReth.Lib.Result
import EthgasReth.Primitives

/-!
# Recognised payments

The payment shapes of `payment.rs`: a call of the `PaymentForwarder`, and a Safe
`execTransaction` that runs `multiSend`.  Slices are checked as Rust checks them:
one that is out of bounds panics.  The ABI decoders come out of alloy's `sol!` and
are a parameter.
-/

set_option autoImplicit false

namespace EthgasReth.Simulator.Payment

open EthgasReth.Primitives
open EthgasReth.Lib

inductive ValidationApiError where
  | proposerPayment
  deriving DecidableEq

inductive Stop where
  | error (error : ValidationApiError)
  | panic
  deriving DecidableEq

def orPanic {α : Type} : Option α → Except Stop α
  | some value => .ok value
  | none => .error .panic

/-! ## Numbers in byte strings -/

def addressFromSlice (bytes : Bytes) : Except Stop Address :=
  if bytes.length = 20 then .ok (BitVec.ofNat 160 (beValue bytes)) else .error .panic

def u256FromBeSlice (bytes : Bytes) : Except Stop U256 :=
  if beValue bytes < 2 ^ 256 then .ok (BitVec.ofNat 256 (beValue bytes)) else .error .panic

def toUsize (value : U256) : Option Nat :=
  if value.toNat < 2 ^ 64 then some value.toNat else none

def addressAt (bytes : Bytes) (start : Nat) : Address :=
  BitVec.ofNat 160 (beValue (field bytes start 20))

def u256At (bytes : Bytes) (start : Nat) : U256 :=
  BitVec.ofNat 256 (beValue (field bytes start 32))

section Slices

variable {bytes : Bytes} {start : Nat}

theorem addressFromSlice_at (within : start + 20 ≤ bytes.length) :
    (do addressFromSlice (← orPanic (slice bytes start (start + 20)))) =
      .ok (addressAt bytes start) := by
  rw [slice_field within]
  exact if_pos (field_length within)

theorem u256FromBeSlice_at (within : start + 32 ≤ bytes.length) :
    (do u256FromBeSlice (← orPanic (slice bytes start (start + 32)))) =
      .ok (u256At bytes start) := by
  have bound := beValue_lt (field bytes start 32)
  rw [field_length within] at bound
  rw [slice_field within]
  exact if_pos bound

end Slices

/-! ## The payment forwarder -/

def paymentForwarder : Address := 0xFEEEEEE44046c3f61a8CC081E0918eF0de0a7ffC

def paymentForwarderCodeHash : B256 :=
  0xd9f5db49d3c0a174c39701485406cd78d01dd27f73b7ef7b883e5f69d8103220

def paymentForwarderRecipient (input : Bytes) : Except Stop (Option Address) :=
  if 24 ≤ input.length then do
    let recipient ← addressFromSlice (← orPanic (slice input 4 24))
    .ok (some recipient)
  else .ok none

def calldataRecipient (input : Bytes) : Option Address :=
  if 24 ≤ input.length then some (addressAt input 4) else none

theorem paymentForwarderRecipient_eq (input : Bytes) :
    paymentForwarderRecipient input = .ok (calldataRecipient input) := by
  unfold paymentForwarderRecipient calldataRecipient
  split
  next long =>
    have read : (do addressFromSlice (← orPanic (slice input 4 24))) =
        .ok (addressAt input 4) := addressFromSlice_at long
    rw [← bind_assoc, read]
    rfl
  next => rfl

/-! ## Safe batches -/

structure ExecTransactionCall where
  data : Bytes
  operation : UInt8
  deriving DecidableEq

/-- The decoders that `sol!` generates for the two calls; that of `multiSend` gives
its packed transactions. -/
structure Abi where
  execTransaction : Bytes → Option ExecTransactionCall
  multiSend : Bytes → Option Bytes

def safeDelegatecall : UInt8 := 1

def entryHeaderLen : Nat := 1 + 20 + 32 + 32

/-- One call of the iterator: what it yields, and the offset it leaves. -/
def nextEntry (transactions : Bytes) (offset : Nat) :
    Except Stop (Option (Address × U256) × Nat) :=
  if transactions.length - offset < entryHeaderLen then .ok (none, offset)
  else do
    -- The operation byte is skipped.
    let offset := offset + 1
    let recipient ← addressFromSlice (← orPanic (slice transactions offset (offset + 20)))
    let offset := offset + 20
    let value ← u256FromBeSlice (← orPanic (slice transactions offset (offset + 32)))
    let offset := offset + 32
    let dataWord ← u256FromBeSlice (← orPanic (slice transactions offset (offset + 32)))
    match toUsize dataWord with
    | none => .ok (none, offset)
    | some dataLen =>
        let offset := offset + 32
        if transactions.length - offset < dataLen then .ok (none, offset)
        else .ok (some (recipient, value), offset + dataLen)

theorem nextEntry_short {transactions : Bytes} {offset : Nat}
    (short : transactions.length < offset + entryHeaderLen) :
    nextEntry transactions offset = .ok (none, offset) := by
  have less : transactions.length - offset < 85 := by
    change transactions.length < offset + 85 at short
    omega
  exact if_pos less

theorem nextEntry_long {transactions : Bytes} {offset : Nat}
    (long : offset + entryHeaderLen ≤ transactions.length) :
    nextEntry transactions offset =
      match toUsize (u256At transactions (offset + 53)) with
      | none => .ok (none, offset + 53)
      | some dataLen =>
          if transactions.length - (offset + entryHeaderLen) < dataLen then
            .ok (none, offset + entryHeaderLen)
          else .ok (some (addressAt transactions (offset + 1), u256At transactions (offset + 21)),
            offset + entryHeaderLen + dataLen) := by
  change offset + 85 ≤ transactions.length at long
  have enough : ¬ transactions.length - offset < entryHeaderLen := by
    change ¬ transactions.length - offset < 85
    omega
  have recipient := @addressFromSlice_at transactions (offset + 1) (by omega)
  have value := @u256FromBeSlice_at transactions (offset + 21) (by omega)
  have dataWord := @u256FromBeSlice_at transactions (offset + 53) (by omega)
  rw [nextEntry, if_neg enough]
  simp only [Nat.add_assoc, Nat.reduceAdd] at recipient value dataWord ⊢
  rw [← bind_assoc, recipient, ok_bind, ← bind_assoc, value, ok_bind, ← bind_assoc, dataWord,
    ok_bind]
  rfl

theorem nextEntry_advances {transactions : Bytes} {offset after : Nat} {entry : Address × U256}
    (yields : nextEntry transactions offset = .ok (some entry, after)) :
    offset + entryHeaderLen ≤ after ∧ after ≤ transactions.length := by
  by_cases long : offset + entryHeaderLen ≤ transactions.length
  · rw [nextEntry_long long] at yields
    split at yields
    · cases yields
    · split at yields
      next => cases yields
      next fits =>
        cases yields
        omega
  · rw [nextEntry_short (by omega)] at yields
    cases yields

/-- What the iterator yields from the offset on, up to its first end. -/
def entriesFrom (transactions : Bytes) (offset : Nat) : Except Stop (List (Address × U256)) :=
  match _step : nextEntry transactions offset with
  | .error stop => .error stop
  | .ok (none, _) => .ok []
  | .ok (some entry, after) => do
      let rest ← entriesFrom transactions after
      .ok (entry :: rest)
termination_by transactions.length - offset
decreasing_by
  obtain ⟨advanced, within⟩ := nextEntry_advances _step
  change offset + 85 ≤ after at advanced
  omega

def multisendEntries (transactions : Bytes) : Except Stop (List (Address × U256)) :=
  entriesFrom transactions 0

def multisendPaidAmount (abi : Abi) (input : Bytes) (recipient : Address) : Except Stop U256 :=
  match abi.execTransaction input with
  | none => .ok 0
  | some exec =>
      if exec.operation ≠ safeDelegatecall then .ok 0
      else match abi.multiSend exec.data with
        | none => .ok 0
        | some transactions => do
            let entries ← multisendEntries transactions
            .ok ((entries.filter fun entry => entry.1 = recipient).foldl
              (fun total entry => total + entry.2) 0)

theorem nextEntry_returns (transactions : Bytes) (offset : Nat) :
    ∃ result, nextEntry transactions offset = .ok result := by
  by_cases long : offset + entryHeaderLen ≤ transactions.length
  · rw [nextEntry_long long]
    split
    · exact ⟨_, rfl⟩
    · split <;> exact ⟨_, rfl⟩
  · exact ⟨_, nextEntry_short (by omega)⟩

theorem entriesFrom_end {transactions : Bytes} {offset after : Nat}
    (step : nextEntry transactions offset = .ok (none, after)) :
    entriesFrom transactions offset = .ok [] := by
  rw [entriesFrom]
  split <;> simp_all

theorem entriesFrom_entry {transactions : Bytes} {offset after : Nat} {entry : Address × U256}
    (step : nextEntry transactions offset = .ok (some entry, after)) :
    entriesFrom transactions offset =
      entriesFrom transactions after >>= fun rest => .ok (entry :: rest) := by
  rw [entriesFrom]
  split <;> simp_all

/-- The iteration never panics. -/
theorem entriesFrom_returns (transactions : Bytes) (offset : Nat) :
    ∃ entries, entriesFrom transactions offset = .ok entries := by
  induction offset using entriesFrom.induct transactions with
  | case1 offset stop step =>
      obtain ⟨result, returns⟩ := nextEntry_returns transactions offset
      rw [returns] at step
      cases step
  | case2 offset after step => exact ⟨[], entriesFrom_end step⟩
  | case3 offset entry after step ih =>
      obtain ⟨rest, returns⟩ := ih
      refine ⟨entry :: rest, ?_⟩
      rw [entriesFrom_entry step, returns]
      rfl

def packedEntries (transactions : Bytes) : List (Address × U256) :=
  (multisendEntries transactions).toOption.getD []

theorem multisendEntries_eq (transactions : Bytes) :
    multisendEntries transactions = .ok (packedEntries transactions) := by
  obtain ⟨entries, returns⟩ := entriesFrom_returns transactions 0
  have whole : multisendEntries transactions = .ok entries := returns
  rw [packedEntries, whole]
  rfl

/-- The entries to the recipient that the calldata of a delegatecall batch lists. -/
def batchEntries (abi : Abi) (input : Bytes) (recipient : Address) : List (Address × U256) :=
  match abi.execTransaction input with
  | none => []
  | some exec =>
      if exec.operation ≠ safeDelegatecall then []
      else match abi.multiSend exec.data with
        | none => []
        | some transactions =>
            (packedEntries transactions).filter fun entry => entry.1 = recipient

def batchTotal (abi : Abi) (input : Bytes) (recipient : Address) : Nat :=
  ((batchEntries abi input recipient).map fun entry => entry.2.toNat).sum

theorem multisendPaidAmount_eq (abi : Abi) (input : Bytes) (recipient : Address) :
    multisendPaidAmount abi input recipient =
      .ok (BitVec.ofNat 256 (batchTotal abi input recipient)) := by
  unfold multisendPaidAmount batchTotal batchEntries
  split
  next => rfl
  next exec decoded =>
    split
    next => rfl
    next =>
      split
      next => rfl
      next transactions unpacked =>
        rw [multisendEntries_eq, ok_bind]
        have total := foldl_add_eq (fun entry : Address × U256 => ofNat_toNat_self entry.2)
          ((packedEntries transactions).filter fun entry => entry.1 = recipient) 0
        rw [Nat.zero_add] at total
        exact congrArg Except.ok total

end EthgasReth.Simulator.Payment
