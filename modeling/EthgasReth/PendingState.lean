import EthgasReth.Processor

/-!
# The pending state that is served

The overlay that the node's `eth` API reads `pending` from, with the cache it is kept in, and
the gates that decide whether it is served: `pending_state.rs` of `flashblocks-node` and of
`runner`, and `served_overlay` and `local_pending_state` of `runner/src/eth_api.rs`.
-/

set_option autoImplicit false

namespace EthgasReth.PendingState

open EthgasReth.Primitives
open EthgasReth.Execution
open EthgasReth.Pending
open EthgasReth.Processor

/-! ## The overlay -/

structure PendingOverlay where
  anchor : SealedHeader
  latestHeader : SealedHeader
  bundle : BundleState

def PendingOverlay.fromBundle (anchor latest : SealedHeader) (bundle : BundleState) :
    PendingOverlay where
  anchor := anchor
  latestHeader := { header := latest.header, hash := latest.hash }
  bundle := bundle

abbrev Cached := Option (Arc PendingBlocks × PendingOverlay)

/-- `pending_overlay`, with the cache as it leaves it. -/
def pendingOverlay (published : Option (Arc PendingBlocks)) (cached : Cached) :
    Option PendingOverlay × Cached :=
  match published with
  | none => (none, none)
  | some pending =>
      match pending.value.anchor with
      | none => (none, none)
      | some anchor =>
          match cached.filter fun entry => entry.1.ptrEq pending with
          | some (_, overlay) => (some overlay, cached)
          | none =>
              let overlay := PendingOverlay.fromBundle anchor pending.value.latestHeader
                pending.value.bundleState
              (some overlay, some (pending, overlay))

def overlayOf (published : Option (Arc PendingBlocks)) : Option PendingOverlay :=
  published.bind fun pending => pending.value.anchor.map fun anchor =>
    .fromBundle anchor pending.value.latestHeader pending.value.bundleState

def Keeps (cached : Cached) (pending : Arc PendingBlocks) : Prop :=
  ∀ snapshot overlay, cached = some (snapshot, overlay) → snapshot.ptrEq pending = true →
    overlayOf (some pending) = some overlay

theorem pendingOverlay_fst {published : Option (Arc PendingBlocks)} {cached : Cached}
    (keeps : ∀ pending, published = some pending → Keeps cached pending) :
    (pendingOverlay published cached).1 = overlayOf published := by
  cases published with
  | none => rfl
  | some pending =>
      cases anchored : pending.value.anchor with
      | none => simp [pendingOverlay, overlayOf, anchored]
      | some anchor =>
          cases hit : cached.filter fun entry => entry.1.ptrEq pending with
          | none => simp [pendingOverlay, overlayOf, anchored, hit]
          | some entry =>
              obtain ⟨inCache, same⟩ := Option.filter_eq_some_iff.mp hit
              have isOverlay := keeps pending rfl entry.1 entry.2 inCache same
              simp only [pendingOverlay, anchored, hit]
              exact isOverlay.symm

/-! ## The gates -/

structure BlockNumHash where
  number : Nat
  hash : B256

structure Provider where
  pendingBlockNumHash : Except String (Option BlockNumHash)
  blockNumber : B256 → Except String (Option Nat)
  stateByBlockHash : B256 → Except String View

namespace Provider

variable (provider : Provider)

/-- The first gate: the engine has executed a block at least as new.  A failed read is none. -/
def engineAtLeast (number : Nat) : Bool :=
  match provider.pendingBlockNumHash with
  | .ok (some enginePending) => number ≤ enginePending.number
  | _ => false

/-- `overlay` is the source's answer, none without a source. -/
def servedOverlay (overlay : Option PendingOverlay) : Except String (Option PendingOverlay) :=
  match overlay with
  | none => .ok none
  | some overlay =>
      if provider.engineAtLeast overlay.latestHeader.header.number then .ok none
      else do
        let canonical ← provider.blockNumber overlay.anchor.hash
        if canonical.isNone then .ok none
        else .ok (some overlay)

def localPendingState (overlay : Option PendingOverlay) :
    Except String (Option PendingStateProvider) := do
  match ← provider.servedOverlay overlay with
  | none => return none
  | some overlay =>
      let anchor ← provider.stateByBlockHash overlay.anchor.hash
      return some { anchor := anchor, bundle := overlay.bundle }

end Provider

section Gates

variable {provider : Provider} {overlay : Option PendingOverlay} {found : PendingOverlay}

theorem engineAtLeast_eq_false {number : Nat} :
    provider.engineAtLeast number = false ↔
      ∀ enginePending, provider.pendingBlockNumHash = .ok (some enginePending) →
        enginePending.number < number := by
  unfold Provider.engineAtLeast
  cases provider.pendingBlockNumHash with
  | error failure => simp
  | ok found => cases found <;> simp

/-- The second gate: what is served is the overlay itself, with its anchor on the chain. -/
theorem servedOverlay_ok (served : provider.servedOverlay overlay = .ok (some found)) :
    overlay = some found ∧ ∃ number, provider.blockNumber found.anchor.hash = .ok (some number) := by
  cases overlay with
  | none => cases served
  | some overlay =>
      simp only [Provider.servedOverlay] at served
      split at served
      · cases served
      · cases canonical : provider.blockNumber overlay.anchor.hash with
        | error failure => simp [canonical, bind, Except.bind] at served
        | ok known =>
            cases known with
            | none => simp [canonical, bind, Except.bind] at served
            | some number =>
                simp only [canonical, bind, Except.bind, Option.isNone_some, Bool.false_eq_true,
                  if_false, Except.ok.injEq, Option.some.injEq] at served
                subst served
                exact ⟨rfl, number, canonical⟩

theorem localPendingState_served (served : provider.servedOverlay overlay = .ok (some found)) :
    provider.localPendingState overlay =
      (provider.stateByBlockHash found.anchor.hash).map fun view =>
        some { anchor := view, bundle := found.bundle } := by
  simp only [Provider.localPendingState, served, bind, Except.bind]
  cases provider.stateByBlockHash found.anchor.hash <;> rfl

end Gates

end EthgasReth.PendingState
