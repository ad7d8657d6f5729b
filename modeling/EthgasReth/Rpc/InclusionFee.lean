import EthgasReth.Ingress

/-!
# The builder's inclusion fee

`fee.rs`, and `ethgas.rs` with the four methods that serve the fee.  A fee travels in a
flashblock's metadata, is held in a cell until the next accepted flashblock, and is served
while it is fresh, below the ceiling and for a block that is not sealed yet.
-/

set_option autoImplicit false

namespace EthgasReth.Rpc.InclusionFee

open EthgasReth.Primitives
open EthgasReth.Lib
open EthgasReth.Build
open EthgasReth.Processor
open EthgasReth.Ingress
open EthgasReth.Wire

/-! ## The fee cell -/

def Stores (flashblock : WireFlashBlock) (state next : FlashblocksState) : Prop :=
  state.subscriber = .fresh flashblock ∧ next.subscriber = .priced flashblock

variable (processor : StateProcessor)

/-- The last flashblock whose fee a run has stored, and when. -/
inductive LastStored : Option (WireFlashBlock × Nat) → FlashblocksState → Prop
  | never {state : FlashblocksState} (initial : (tasks processor).Init state) :
      LastStored none state
  | stored {last : Option (WireFlashBlock × Nat)} {state next : FlashblocksState}
      {flashblock : WireFlashBlock} (before : LastStored last state)
      (taken : Step processor state next) (stores : Stores flashblock state next) :
      LastStored (some (flashblock, state.now)) next
  | other {last : Option (WireFlashBlock × Nat)} {state next : FlashblocksState}
      (before : LastStored last state) (taken : Step processor state next)
      (quiet : ∀ flashblock, ¬ Stores flashblock state next) : LastStored last next

def feeAt (stored : WireFlashBlock × Nat) : Option ReceivedInclusionFee :=
  stored.1.inclusionFee.map fun inclusionFee => {
    inclusionFee := inclusionFee
    blockNumber := stored.1.metadata.blockNumber
    flashblockIndex := stored.1.index
    receivedAt := stored.2 }

section Fee

variable {processor} {state next : FlashblocksState}

theorem not_stores (same : next.subscriber = state.subscriber) (flashblock : WireFlashBlock) :
    ¬ Stores flashblock state next := by
  intro stores
  have impossible := stores.1.symm.trans (same.symm.trans stores.2)
  cases impossible

theorem step_fee (taken : Step processor state next) :
    (∃ flashblock, Stores flashblock state next ∧
        next.inclusionFee = state.receivedFee flashblock) ∨
      (∀ flashblock, ¬ Stores flashblock state next) ∧
        next.inclusionFee = state.inclusionFee := by
  cases taken with
  | subscriber taken =>
      cases taken with
      | @store flashblock fresh => exact Or.inl ⟨flashblock, ⟨fresh, rfl⟩, rfl⟩
      | receive | syncing | synced | superseded | fresh | send =>
          exact Or.inr ⟨fun other stores => by simp [Stores] at stores, rfl⟩
  | stream taken =>
      have same : next.subscriber = state.subscriber ∧ next.inclusionFee = state.inclusionFee := by
        cases taken <;> exact ⟨rfl, rfl⟩
      exact Or.inr ⟨not_stores same.1, same.2⟩
  | loop taken =>
      have same : next.subscriber = state.subscriber ∧ next.inclusionFee = state.inclusionFee := by
        cases taken <;> exact ⟨rfl, rfl⟩
      exact Or.inr ⟨not_stores same.1, same.2⟩
  | world taken =>
      have same : next.subscriber = state.subscriber ∧ next.inclusionFee = state.inclusionFee := by
        cases taken <;> exact ⟨rfl, rfl⟩
      exact Or.inr ⟨not_stores same.1, same.2⟩

theorem step_now (taken : Step processor state next) : state.now ≤ next.now := by
  cases taken with
  | subscriber taken => cases taken <;> exact le_rfl
  | stream taken => cases taken <;> exact le_rfl
  | loop taken => cases taken <;> exact le_rfl
  | world taken =>
      cases taken with
      | tick later => exact later
      | bind | sync | chain => exact le_rfl

theorem LastStored.reachable {last : Option (WireFlashBlock × Nat)}
    (stored : LastStored processor last state) : (tasks processor).Reachable state := by
  induction stored with
  | never initial => exact .init initial
  | stored before taken stores ih => exact .step ih taken
  | other before taken quiet ih => exact .step ih taken

/-- In every run the cell holds what the last accepted flashblock said: its fee, or none when
it carried none. -/
theorem fee_of_last {last : Option (WireFlashBlock × Nat)}
    (stored : LastStored processor last state) :
    state.inclusionFee = last.bind feeAt ∧
      ∀ flashblock received, last = some (flashblock, received) →
        Accepted processor flashblock.toFlashBlock state ∧ received ≤ state.now := by
  induction stored with
  | never initial =>
      obtain ⟨client, now, rfl⟩ := initial
      exact ⟨rfl, by simp⟩
  | @stored last state next flashblock before taken stores ih =>
      have accepted : Accepted processor flashblock.toFlashBlock state :=
        (reachable_carries before.reachable).fresh flashblock (Or.inl stores.1)
      constructor
      · rcases step_fee taken with ⟨other, sameStores, held⟩ | ⟨quiet, -⟩
        · have same : flashblock = other := by
            have subscribers := stores.1.symm.trans sameStores.1
            cases subscribers
            rfl
          rw [held, same]
          rfl
        · exact absurd stores (quiet flashblock)
      · rintro other received ⟨⟩
        exact ⟨accepted.step taken, step_now taken⟩
  | @other last state next before taken quiet ih =>
      obtain ⟨held, accepted⟩ := ih
      constructor
      · rcases step_fee taken with ⟨flashblock, stores, -⟩ | ⟨-, same⟩
        · exact absurd stores (quiet flashblock)
        · rw [same, held]
      · intro flashblock received isLast
        obtain ⟨before, earlier⟩ := accepted flashblock received isLast
        exact ⟨before.step taken, earlier.trans (step_now taken)⟩

end Fee

/-! ## Serving it -/

inductive FeeSource where
  | builder
  | fallback
  deriving DecidableEq

structure InclusionPriorityFee where
  maxPriorityFeePerGas : U256
  source : FeeSource
  ageMs : Option Nat
  blockNumber : Option Nat
  flashblockIndex : Option Nat
  deriving DecidableEq

def age (received : ReceivedInclusionFee) (now : Nat) : Nat := now - received.receivedAt

def durationMs (duration : Nat) : Nat := min (duration / 1000000) (2 ^ 64 - 1)

def builderInclusionFee (latest : Option ReceivedInclusionFee) (now maxAge : Nat)
    (ceiling : U256) : Option InclusionPriorityFee := do
  let latest ← latest
  if maxAge < age latest now ∨ ceiling < latest.inclusionFee.priorityFee then none
  else some {
    maxPriorityFeePerGas := latest.inclusionFee.priorityFee
    source := .builder
    ageMs := some (durationMs (age latest now))
    blockNumber := some latest.blockNumber
    flashblockIndex := some latest.flashblockIndex }

def fallbackInclusionFee (maxPriorityFeePerGas : U256) : InclusionPriorityFee where
  maxPriorityFeePerGas := maxPriorityFeePerGas
  source := .fallback
  ageMs := none
  blockNumber := none
  flashblockIndex := none

def U256.saturatingAdd (a b : U256) : U256 :=
  if a.toNat + b.toNat < 2 ^ 256 then a + b else BitVec.allOnes 256

def U256.saturatingTo (bits : Nat) (a : U256) : Nat := min a.toNat (2 ^ bits - 1)

/-- A request's sender, its nonce and its three fee fields; `rest` is passed through. -/
structure TransactionRequest (Rest : Type) where
  fromAddress : Option Address
  nonce : Option Nat
  gasPrice : Option Nat
  maxFeePerGas : Option Nat
  maxPriorityFeePerGas : Option Nat
  rest : Rest

/-- The node's own `eth` API at the moment of a call.  `pendingTransactionCount` is its
transaction count at `pending`. -/
structure EthApi (Rest Filled Error : Type) where
  suggestedPriorityFee : Except Error U256
  baseFee : Except Error (Option U256)
  gasPrice : Except Error U256
  pendingTransactionCount : Address → Except Error U256
  fillTransaction : TransactionRequest Rest → Except Error Filled

structure EthgasApiExt (Rest Filled Error : Type) where
  ethApi : EthApi Rest Filled Error
  maxAge : Nat
  ceiling : U256

/-- The fee prices the block of its flashblock; an unreadable tip seals nothing. -/
def isSealed (state : FlashblocksState) (blockNumber : Nat) : Bool :=
  match state.client.bestBlockNumber with
  | .ok best => blockNumber ≤ best
  | .error _ => false

namespace EthgasApiExt

variable {Rest Filled Error : Type} (api : EthgasApiExt Rest Filled Error)

def builderFee (state : FlashblocksState) : Option InclusionPriorityFee := do
  let latest ← state.inclusionFee
  if isSealed state latest.blockNumber then none
  else builderInclusionFee (some latest) state.now api.maxAge api.ceiling

def inclusionFee (state : FlashblocksState) : Except Error InclusionPriorityFee :=
  match api.builderFee state with
  | some served => .ok served
  | none => do
      let suggested ← api.ethApi.suggestedPriorityFee
      return fallbackInclusionFee suggested

def inclusionPriorityFee (state : FlashblocksState) : Except Error InclusionPriorityFee :=
  api.inclusionFee state

def maxPriorityFeePerGas (state : FlashblocksState) : Except Error U256 := do
  let fee ← api.inclusionFee state
  return fee.maxPriorityFeePerGas

def gasPrice (state : FlashblocksState) : Except Error U256 :=
  match api.builderFee state with
  | some served => do
      let baseFee ← api.ethApi.baseFee
      return U256.saturatingAdd (baseFee.getD 0) served.maxPriorityFeePerGas
  | none => api.ethApi.gasPrice

/-- The request with the nonce that `fill_transaction` sets when it has none. -/
def withNonce (request : TransactionRequest Rest) : Except Error (TransactionRequest Rest) :=
  match request.nonce, request.fromAddress with
  | none, some fromAddress => do
      let next ← api.ethApi.pendingTransactionCount fromAddress
      return { request with nonce := some (U256.saturatingTo 64 next) }
  | _, _ => .ok request

def setsNoFee (request : TransactionRequest Rest) : Bool :=
  request.gasPrice.isNone && request.maxFeePerGas.isNone && request.maxPriorityFeePerGas.isNone

def fillTransaction (state : FlashblocksState) (request : TransactionRequest Rest) :
    Except Error Filled := do
  let request ← api.withNonce request
  match setsNoFee request, api.builderFee state with
  | true, some served => api.ethApi.fillTransaction { request with
      maxPriorityFeePerGas := some (U256.saturatingTo 128 served.maxPriorityFeePerGas) }
  | _, _ => api.ethApi.fillTransaction request

end EthgasApiExt

/-! ## What every method serves -/

section Served

variable {Rest Filled Error : Type} (api : EthgasApiExt Rest Filled Error)

/-- A stored fee that may be served: its flashblock carried it and was accepted, its block is
not sealed, and it is young and belowCeiling. -/
structure Current (state : FlashblocksState) (flashblock : WireFlashBlock) (received : Nat)
    (fee : InclusionFee) : Prop where
  carried : flashblock.inclusionFee = some fee
  accepted : Accepted processor flashblock.toFlashBlock state
  unsealed : ∀ best, state.client.bestBlockNumber = .ok best →
    best < flashblock.metadata.blockNumber
  arrived : received ≤ state.now
  young : state.now ≤ received + api.maxAge
  belowCeiling : fee.priorityFee ≤ api.ceiling

def builderFeeOf (state : FlashblocksState) (flashblock : WireFlashBlock) (received : Nat)
    (fee : InclusionFee) : InclusionPriorityFee where
  maxPriorityFeePerGas := fee.priorityFee
  source := .builder
  ageMs := some (durationMs (state.now - received))
  blockNumber := some flashblock.metadata.blockNumber
  flashblockIndex := some flashblock.index

variable {processor} {state : FlashblocksState} {last : Option (WireFlashBlock × Nat)}

theorem builderInclusionFee_some {latest : ReceivedInclusionFee} {now maxAge : Nat}
    {ceiling : U256} {served : InclusionPriorityFee} :
    builderInclusionFee (some latest) now maxAge ceiling = some served ↔
      now ≤ latest.receivedAt + maxAge ∧ latest.inclusionFee.priorityFee ≤ ceiling ∧
        served = {
          maxPriorityFeePerGas := latest.inclusionFee.priorityFee
          source := .builder
          ageMs := some (durationMs (now - latest.receivedAt))
          blockNumber := some latest.blockNumber
          flashblockIndex := some latest.flashblockIndex } := by
  simp only [builderInclusionFee, Option.bind_eq_bind, Option.bind_some]
  split
  · rename_i stale
    constructor
    · intro impossible
      cases impossible
    · intro fresh
      obtain ⟨young, belowCeiling, -⟩ := fresh
      rcases stale with old | high
      · unfold age at old
        omega
      · exact absurd high (BitVec.not_lt.mpr belowCeiling)
  · rename_i fresh
    have young : age latest now ≤ maxAge := not_lt.mp fun old => fresh (Or.inl old)
    have belowCeiling := BitVec.not_lt.mp fun high => fresh (Or.inr high)
    unfold age at young
    constructor
    · intro isServed
      cases isServed
      exact ⟨by omega, belowCeiling, rfl⟩
    · intro isServed
      rw [isServed.2.2]
      rfl

theorem isSealed_eq_false {blockNumber : Nat} :
    isSealed state blockNumber = false ↔
      ∀ best, state.client.bestBlockNumber = .ok best → best < blockNumber := by
  unfold isSealed
  cases state.client.bestBlockNumber with
  | error message => simp
  | ok best => simp

theorem builderFee_iff (stored : LastStored processor last state)
    (served : InclusionPriorityFee) :
    api.builderFee state = some served ↔
      ∃ flashblock received fee, last = some (flashblock, received) ∧
        Current processor api state flashblock received fee ∧
        served = builderFeeOf state flashblock received fee := by
  obtain ⟨held, accepted⟩ := fee_of_last stored
  unfold EthgasApiExt.builderFee
  rw [held]
  cases last with
  | none => simp
  | some pair =>
      obtain ⟨flashblock, received⟩ := pair
      obtain ⟨isAccepted, arrived⟩ := accepted flashblock received rfl
      cases carried : flashblock.inclusionFee with
      | none =>
          simp only [Option.bind_some, feeAt, carried, Option.map_none]
          constructor
          · intro impossible
            cases impossible
          · intro current
            obtain ⟨other, time, fee, isLast, current, -⟩ := current
            cases isLast
            cases carried.symm.trans current.carried
      | some fee =>
          simp only [Option.bind_some, feeAt, carried, Option.map_some, Option.bind_eq_bind]
          constructor
          · intro isServed
            split at isServed
            · cases isServed
            · rename_i notSealed
              obtain ⟨young, belowCeiling, isFee⟩ := builderInclusionFee_some.mp isServed
              have unsealed := isSealed_eq_false.mp (by simpa using notSealed)
              exact ⟨flashblock, received, fee, rfl,
                ⟨carried, isAccepted, unsealed, arrived, young, belowCeiling⟩, isFee⟩
          · intro current
            obtain ⟨other, time, same, isLast, current, isFee⟩ := current
            cases isLast
            cases carried.symm.trans current.carried
            rw [isSealed_eq_false.mpr current.unsealed]
            exact builderInclusionFee_some.mpr ⟨current.young, current.belowCeiling, isFee⟩

structure ServesBuilder (state : FlashblocksState) (served : InclusionPriorityFee) : Prop where
  inclusionPriorityFee : api.inclusionPriorityFee state = .ok served
  maxPriorityFeePerGas : api.maxPriorityFeePerGas state = .ok served.maxPriorityFeePerGas
  gasPrice : api.gasPrice state = api.ethApi.baseFee.map fun baseFee =>
    U256.saturatingAdd (baseFee.getD 0) served.maxPriorityFeePerGas
  fillTransaction : ∀ request, EthgasApiExt.setsNoFee request = true →
    api.fillTransaction state request = do
      let request ← api.withNonce request
      api.ethApi.fillTransaction { request with
        maxPriorityFeePerGas := some served.maxPriorityFeePerGas.toNat }

structure ServesNode (state : FlashblocksState) : Prop where
  inclusionPriorityFee : api.inclusionPriorityFee state =
    api.ethApi.suggestedPriorityFee.map fallbackInclusionFee
  maxPriorityFeePerGas : api.maxPriorityFeePerGas state = api.ethApi.suggestedPriorityFee
  gasPrice : api.gasPrice state = api.ethApi.gasPrice
  fillTransaction : ∀ request, api.fillTransaction state request = do
    let request ← api.withNonce request
    api.ethApi.fillTransaction request

theorem withNonce_fees {request filled : TransactionRequest Rest}
    (success : api.withNonce request = .ok filled) :
    EthgasApiExt.setsNoFee filled = EthgasApiExt.setsNoFee request := by
  unfold EthgasApiExt.withNonce at success
  split at success
  · obtain ⟨next, -, isFilled⟩ := bind_eq_ok success
    cases isFilled
    rfl
  · cases success
    rfl

theorem servesBuilder {served : InclusionPriorityFee}
    (isServed : api.builderFee state = some served)
    (small : served.maxPriorityFeePerGas.toNat < 2 ^ 128) : ServesBuilder api state served := by
  have whole : U256.saturatingTo 128 served.maxPriorityFeePerGas =
      served.maxPriorityFeePerGas.toNat := by
    unfold U256.saturatingTo
    omega
  constructor
  · simp [EthgasApiExt.inclusionPriorityFee, EthgasApiExt.inclusionFee, isServed]
  · simp only [EthgasApiExt.maxPriorityFeePerGas, EthgasApiExt.inclusionFee, isServed]
    rfl
  · simp only [EthgasApiExt.gasPrice, isServed]
    cases api.ethApi.baseFee <;> rfl
  · intro request noFee
    unfold EthgasApiExt.fillTransaction
    cases nonce : api.withNonce request with
    | error failure => rfl
    | ok filled =>
        have stillNoFee := (withNonce_fees api nonce).trans noFee
        simp [isServed, stillNoFee, whole]

theorem servesNode (notServed : api.builderFee state = none) : ServesNode api state := by
  constructor
  · simp only [EthgasApiExt.inclusionPriorityFee, EthgasApiExt.inclusionFee, notServed]
    cases api.ethApi.suggestedPriorityFee <;> rfl
  · simp only [EthgasApiExt.maxPriorityFeePerGas, EthgasApiExt.inclusionFee, notServed]
    cases api.ethApi.suggestedPriorityFee <;> rfl
  · simp [EthgasApiExt.gasPrice, notServed]
  · intro request
    unfold EthgasApiExt.fillTransaction
    cases api.withNonce request with
    | error failure => rfl
    | ok filled => cases EthgasApiExt.setsNoFee filled <;> simp [notServed]

/-- In every run all four methods serve the fee of the last accepted flashblock while it is
current, and the node's own values otherwise. -/
theorem fee_served_everywhere (stored : LastStored processor last state)
    (small : api.ceiling.toNat < 2 ^ 128) :
    (∃ flashblock received fee, last = some (flashblock, received) ∧
        Current processor api state flashblock received fee ∧
        ServesBuilder api state (builderFeeOf state flashblock received fee)) ∨
      (∀ flashblock received fee, last = some (flashblock, received) →
        ¬ Current processor api state flashblock received fee) ∧ ServesNode api state := by
  cases isServed : api.builderFee state with
  | none =>
      refine Or.inr ⟨?_, servesNode api isServed⟩
      intro flashblock received fee isLast current
      have served := (builderFee_iff api stored _).mpr
        ⟨flashblock, received, fee, isLast, current, rfl⟩
      cases isServed.symm.trans served
  | some served =>
      obtain ⟨flashblock, received, fee, isLast, current, rfl⟩ :=
        (builderFee_iff api stored served).mp isServed
      refine Or.inl ⟨flashblock, received, fee, isLast, current, servesBuilder api isServed ?_⟩
      have belowCeiling : fee.priorityFee.toNat ≤ api.ceiling.toNat := current.belowCeiling
      exact lt_of_le_of_lt belowCeiling small

def pricedFlashblock : WireFlashBlock where
  toFlashBlock := Reference.flashblock 7 1 0 [(1, 0)] [(1, true)]
  inclusionFee := some { priorityFee := 11 }

def pricedState : FlashblocksState :=
  { FlashblocksState.new (Reference.nodeAt 0 fun _ => 0).client 0 with
    inclusionFee := some {
      inclusionFee := { priorityFee := 11 }
      blockNumber := 1
      flashblockIndex := 0
      receivedAt := 0 }
    subscriber := .priced pricedFlashblock }

theorem pricedState_stored :
    LastStored Reference.processor (some (pricedFlashblock, 0)) pricedState := by
  have opened : LastStored Reference.processor none
      (FlashblocksState.new (Reference.nodeAt 0 fun _ => 0).client 0) := .never ⟨_, _, rfl⟩
  have received := opened.other (.subscriber (.receive pricedFlashblock rfl)) (by simp [Stores])
  have synced := received.other (.subscriber (.synced rfl rfl)) (by simp [Stores])
  have fresh := synced.other (.subscriber (.fresh rfl (by decide))) (by simp [Stores])
  have taken := @SubscriberStep.store
    { FlashblocksState.new (Reference.nodeAt 0 fun _ => 0).client 0 with
      subscriber := .fresh pricedFlashblock } pricedFlashblock rfl
  exact fresh.stored (.subscriber taken) ⟨rfl, rfl⟩

def plainApi : EthgasApiExt Unit (TransactionRequest Unit) String where
  ethApi := {
    suggestedPriorityFee := .ok 1
    baseFee := .ok (some 7)
    gasPrice := .ok 8
    pendingTransactionCount := fun _ => .ok 0
    fillTransaction := .ok }
  maxAge := 15000000000
  ceiling := 1000000000000

theorem fee_served_everywhere_priced :
    plainApi.gasPrice pricedState = .ok 18 ∧
      ((∃ flashblock received fee, some (pricedFlashblock, 0) = some (flashblock, received) ∧
          Current Reference.processor plainApi pricedState flashblock received fee ∧
          ServesBuilder plainApi pricedState
            (builderFeeOf pricedState flashblock received fee)) ∨
        (∀ flashblock received fee, some (pricedFlashblock, 0) = some (flashblock, received) →
          ¬ Current Reference.processor plainApi pricedState flashblock received fee) ∧
        ServesNode plainApi pricedState) :=
  ⟨by decide, fee_served_everywhere plainApi pricedState_stored (by decide)⟩

end Served

end EthgasReth.Rpc.InclusionFee
