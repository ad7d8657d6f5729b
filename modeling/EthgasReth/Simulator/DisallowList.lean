import EthgasReth.Lib.System
import EthgasReth.Simulator.BlockValidation

/-!
# The disallow list and its refresh

`blacklist.rs` and the refresh task of `validation/mod.rs`, beside the lookups that
validations make of the shared set.  A refresh empties the set and inserts the fetched
addresses one at a time, while a validation asks whether the set is empty before its
own addresses and again before those that its execution touched.  On a set that stays
as it is, these lookups are the two checks of the validation.
-/

set_option autoImplicit false

namespace EthgasReth.Simulator.DisallowList

open EthgasReth.Primitives
open EthgasReth.Lib

/-! ## The fetched list -/

inductive DisallowListPayload where
  | bare (list : List String)
  | wrapped (items : List String)

def stripHexPrefix (hex : String) : String :=
  match hex.toList with
  | '0' :: 'x' :: rest => String.ofList rest
  | _ => hex

section Parsing

variable (parseAddress : String → Option Address)

/-- Entries that are not addresses are left out. -/
def parseDisallowList (list : List String) : List Address :=
  list.filterMap fun hex => parseAddress (stripHexPrefix hex)

def DisallowListPayload.intoAddresses : DisallowListPayload → List Address
  | .bare list => parseDisallowList parseAddress list
  | .wrapped items => parseDisallowList parseAddress items

inductive Fetch where
  | sendFailed
  | httpStatus (status : Nat)
  | unreadable
  | payload (list : DisallowListPayload)

def Fetch.addresses : Fetch → Option (List Address)
  | .payload list => some (list.intoAddresses parseAddress)
  | _ => none

end Parsing

/-! ## Lookups of a validation -/

inductive Lookup where
  | isEmpty
  | contains (address : Address)

def Lookup.on (lookup : Lookup) (disallow : Finset Address) : Bool :=
  match lookup with
  | .isEmpty => disallow = ∅
  | .contains address => address ∈ disallow

/-- The addresses of a submission: the block's beneficiary, the fee recipient, each
sender with the recipient of its transaction, and the accounts its execution
touches. -/
structure Submission where
  beneficiary : Address
  proposerFeeRecipient : Address
  transfers : List (Address × Option Address)
  accessed : List Address

def Submission.named (submission : Submission) : List Address :=
  submission.beneficiary :: submission.proposerFeeRecipient ::
    submission.transfers.flatMap fun transfer => transfer.1 :: transfer.2.toList

inductive Phase where
  | received
  | screening (rest : List Address)
  | executing
  | scanning (rest : List Address) (accessedBlacklisted : Option Address)
  | rejected (address : Address)
  | passed

def Phase.lookup : Phase → Option Lookup
  | .received => some .isEmpty
  | .screening (address :: _) => some (.contains address)
  | .executing => some .isEmpty
  | .scanning (address :: _) _ => some (.contains address)
  | _ => none

/-- How the validation goes on with the answer.  The first scan stops at a hit, the
second keeps the last one. -/
def Phase.answered (submission : Submission) : Phase → Bool → Phase
  | .received, isEmpty => if isEmpty then .executing else .screening submission.named
  | .screening (address :: rest), hit => if hit then .rejected address else .screening rest
  | .executing, isEmpty => if isEmpty then .passed else .scanning submission.accessed none
  | .scanning (address :: rest) found, hit => .scanning rest (if hit then some address else found)
  | phase, _ => phase

def Phase.continued : Phase → Phase
  | .screening [] => .executing
  | .scanning [] (some address) => .rejected address
  | .scanning [] none => .passed
  | phase => phase

/-! ## One refresh beside the validations -/

inductive Refresh where
  | fetched
  | inserting (rest : List Address)

structure Shared where
  disallow : Finset Address
  refresh : Refresh
  phase : Nat → Phase
  answers : List (Lookup × Bool)

section Steps

variable (submissions : Nat → Submission) (fetched : Option (List Address))

inductive Step : Shared → Shared → Prop
  | clear {shared : Shared} {list : List Address} (waiting : shared.refresh = .fetched)
      (success : fetched = some list) :
      Step shared { shared with disallow := ∅, refresh := .inserting list }
  | insert {shared : Shared} {address : Address} {rest : List Address}
      (inserting : shared.refresh = .inserting (address :: rest)) :
      Step shared { shared with
        disallow := insert address shared.disallow
        refresh := .inserting rest }
  | look {shared : Shared} {validation : Nat} {lookup : Lookup}
      (next : (shared.phase validation).lookup = some lookup) :
      Step shared { shared with
        phase := Function.update shared.phase validation
          ((shared.phase validation).answered (submissions validation) (lookup.on shared.disallow))
        answers := shared.answers ++ [(lookup, lookup.on shared.disallow)] }
  | proceed {shared : Shared} {validation : Nat} :
      Step shared { shared with
        phase := Function.update shared.phase validation (shared.phase validation).continued }

def refreshing (old : Finset Address) : System Shared where
  Init := fun shared => shared = ⟨old, .fetched, fun _ => .received, []⟩
  Step := Step submissions fetched

end Steps

/-- The filter stays closed: a failed fetch leaves the set alone, and during a refresh
every lookup answers as for the old or as for the new list, so that an address of
both is in the set all the time. -/
def StaysClosed (submissions : Nat → Submission) (old : Finset Address)
    (fetched : Option (List Address)) : Prop :=
  ∀ shared, (refreshing submissions fetched old).Reachable shared →
    match fetched with
    | none => shared.disallow = old
    | some list =>
        (∀ made ∈ shared.answers,
          made.2 = made.1.on old ∨ made.2 = made.1.on list.toFinset) ∧
        ∀ address ∈ old, address ∈ list → address ∈ shared.disallow

/-! ## The set during a refresh -/

/-- The set is the old one until it is cleared, and then what has been inserted. -/
def Refreshed (old : Finset Address) (fetched : Option (List Address)) (shared : Shared) : Prop :=
  (shared.refresh = .fetched ∧ shared.disallow = old) ∨
    ∃ inserted rest, fetched = some (inserted ++ rest) ∧ shared.refresh = .inserting rest ∧
      shared.disallow = inserted.toFinset

section Refresh

variable {submissions : Nat → Submission} {fetched : Option (List Address)} {old : Finset Address}

theorem step_refreshed {shared next : Shared} (refreshed : Refreshed old fetched shared)
    (step : Step submissions fetched shared next) : Refreshed old fetched next := by
  cases step with
  | clear waiting success => exact Or.inr ⟨[], _, success, rfl, rfl⟩
  | @insert address rest inserting =>
      rcases refreshed with ⟨waiting, -⟩ | ⟨inserted, others, success, isInserting, isDisallow⟩
      · rw [waiting] at inserting
        cases inserting
      · rw [isInserting] at inserting
        cases inserting
        refine Or.inr ⟨inserted ++ [address], rest, ?_, rfl, ?_⟩
        · rw [success, List.append_assoc]
          rfl
        · ext other
          simp [isDisallow]
  | look next => exact refreshed
  | proceed => exact refreshed

theorem reachable_refreshed {shared : Shared}
    (reached : (refreshing submissions fetched old).Reachable shared) :
    Refreshed old fetched shared := by
  refine System.Reachable.invariant ?_ ?_ reached
  · rintro state rfl
    exact Or.inl ⟨rfl, rfl⟩
  · intro state next _ refreshed step
    exact step_refreshed refreshed step

theorem Refreshed.answers {list : List Address} {shared : Shared}
    (refreshed : Refreshed old (some list) shared) (empty : old = ∅ ∨ list = []) (lookup : Lookup) :
    lookup.on shared.disallow = lookup.on old ∨
      lookup.on shared.disallow = lookup.on list.toFinset := by
  rcases refreshed with ⟨-, isOld⟩ | ⟨inserted, rest, isList, -, isInserted⟩
  · left
    rw [isOld]
  · have shape : list = inserted ++ rest := Option.some.inj isList
    rcases empty with noOld | noList
    · -- A hit or a non-empty set comes from the new list, all else is as for the old.
      rw [isInserted, shape, noOld]
      cases lookup with
      | isEmpty =>
          cases inserted with
          | nil => exact Or.inl rfl
          | cons address inserted => simp [Lookup.on]
      | contains address =>
          by_cases present : address ∈ inserted
          · right
            simp [Lookup.on, present]
          · left
            simp [Lookup.on, present]
    · right
      rw [noList] at shape
      have nothing : inserted = [] := (List.append_eq_nil_iff.mp shape.symm).1
      rw [isInserted, nothing, noList]

theorem closed_of_empty (empty : fetched = none ∨ old = ∅ ∨ fetched = some []) :
    StaysClosed submissions old fetched := by
  intro shared reached
  have refreshed := reachable_refreshed reached
  cases fetched with
  | none =>
      rcases refreshed with ⟨-, isOld⟩ | ⟨inserted, rest, impossible, -⟩
      · exact isOld
      · cases impossible
  | some list =>
      have oneEmpty : old = ∅ ∨ list = [] := by simpa using empty
      refine ⟨?_, ?_⟩
      · -- Each answer was given in an earlier state of the run.
        refine @System.Reachable.invariant _ _ (fun shared => ∀ made ∈ shared.answers,
          made.2 = made.1.on old ∨ made.2 = made.1.on list.toFinset) ?_ ?_ shared reached
        · rintro state rfl made member
          cases member
        · intro state next before answered step made member
          have stateRefreshed := reachable_refreshed before
          cases step with
          | clear | insert | proceed => exact answered made member
          | look next =>
              rcases List.mem_append.mp member with member | member
              · exact answered made member
              · rw [List.mem_singleton.mp member]
                exact stateRefreshed.answers oneEmpty _
      · intro address inOld inList
        rcases oneEmpty with noOld | noList
        · rw [noOld] at inOld
          cases inOld
        · rw [noList] at inList
          cases inList

/-- Between the clearing and the first insertion a validation finds the set empty. -/
theorem opened_by_refresh {list : List Address} (someOld : old ≠ ∅) (someNew : list ≠ []) :
    ¬ StaysClosed submissions old (some list) := by
  intro closed
  let start : Shared := ⟨old, .fetched, fun _ => .received, []⟩
  let cleared : Shared := { start with disallow := ∅, refresh := .inserting list }
  have isCleared : (refreshing submissions (some list) old).Reachable cleared :=
    .step (.init rfl) (.clear rfl rfl)
  have looked := System.Reachable.step isCleared
    (@Step.look submissions (some list) cleared 0 .isEmpty rfl)
  obtain ⟨answers, -⟩ := closed _ looked
  rcases answers (.isEmpty, true) (List.mem_singleton_self _) with asOld | asNew
  · exact someOld (of_decide_eq_true asOld.symm)
  · have noNew : list.toFinset = ∅ := of_decide_eq_true asNew.symm
    exact someNew (List.toFinset_eq_empty_iff list |>.mp noNew)

end Refresh

/-- A refresh keeps the filter closed exactly when it has nothing to replace: the fetch
fails, the old list is empty, or the new one is. -/
theorem refresh_stays_closed_iff (parseAddress : String → Option Address)
    (submissions : Nat → Submission) (old : Finset Address) (fetch : Fetch) :
    StaysClosed submissions old (fetch.addresses parseAddress) ↔
      fetch.addresses parseAddress = none ∨ old = ∅ ∨ fetch.addresses parseAddress = some [] := by
  constructor
  · intro closed
    cases fetched : fetch.addresses parseAddress with
    | none => exact Or.inl rfl
    | some list =>
        right
        by_contra neither
        rw [not_or] at neither
        rw [fetched] at closed
        refine opened_by_refresh neither.1 ?_ closed
        intro noNew
        exact neither.2 (by rw [noNew])
  · exact closed_of_empty

/-- The list is fetched again unchanged, with one address: at the moment of the
clearing it is not in the set, and a validation finds no list at all. -/
theorem refresh_opens_filter :
    ¬ ∀ (parseAddress : String → Option Address) (submissions : Nat → Submission)
      (old : Finset Address) (fetch : Fetch),
      StaysClosed submissions old (fetch.addresses parseAddress) := by
  intro claim
  let sanctioned : Address := 0xdead
  let submission : Submission := ⟨0, 0, [(sanctioned, none)], [sanctioned]⟩
  have closed := claim (fun _ => some sanctioned) (fun _ => submission) {sanctioned}
    (.payload (.bare ["0x000000000000000000000000000000000000dead"]))
  refine opened_by_refresh ?_ ?_ closed
  · exact Finset.singleton_ne_empty sanctioned
  · exact List.cons_ne_nil _ _

/-! ## A validation on a set that stays as it is -/

section Unchanged

open EthgasReth.Simulator.BlockValidation

def submissionOf (request : Request) (accessed : List Address) : Submission where
  beneficiary := request.block.block.header.beneficiary
  proposerFeeRecipient := request.message.proposerFeeRecipient
  transfers := (request.block.senders.zip request.block.block.transactions).map fun transfer =>
    (transfer.1, transfer.2.toAddress)
  accessed := accessed

variable (submission : Submission) (disallow : Finset Address)

def Phase.advanced (phase : Phase) : Phase :=
  match phase.lookup with
  | some lookup => phase.answered submission (lookup.on disallow)
  | none => phase.continued

def Advance (phase next : Phase) : Prop := phase.advanced submission disallow = next

abbrev Advances : Phase → Phase → Prop := Relation.ReflTransGen (Advance submission disallow)

def screened (addresses : List Address) : Phase :=
  match addresses.find? fun address => address ∈ disallow with
  | some address => .rejected address
  | none => .executing

def scanned : Option Address → Phase
  | some address => .rejected address
  | none => .passed

theorem screening_advances (addresses : List Address) :
    Advances submission disallow (.screening addresses) (screened disallow addresses) := by
  induction addresses with
  | nil => exact .single rfl
  | cons address rest ih =>
      by_cases hit : address ∈ disallow
      · refine .single ?_
        simp [Advance, screened, Phase.advanced, Phase.lookup, Phase.answered, Lookup.on, hit]
      · have step : Advance submission disallow (.screening (address :: rest)) (.screening rest) := by
          simp [Advance, Phase.advanced, Phase.lookup, Phase.answered, Lookup.on, hit]
        have same : screened disallow (address :: rest) = screened disallow rest := by
          simp [screened, hit]
        rw [same]
        exact .head step ih

theorem scanning_advances (addresses : List Address) (found : Option Address) :
    Advances submission disallow (.scanning addresses found)
      (scanned (addresses.foldl (fun found address =>
        if address ∈ disallow then some address else found) found)) := by
  induction addresses generalizing found with
  | nil =>
      cases found with
      | none => exact .single rfl
      | some address => exact .single rfl
  | cons address rest ih =>
      have step : Advance submission disallow (.scanning (address :: rest) found)
          (.scanning rest (if address ∈ disallow then some address else found)) := by
        simp [Advance, Phase.advanced, Phase.lookup, Phase.answered, Lookup.on]
      exact .head step (ih _)

theorem none_listed {disallow : Finset Address} (noList : disallow = ∅) (addresses : List Address) :
    addresses.find? (fun address => address ∈ disallow) = none := by
  simp [noList]

variable (api : ValidationApi)

theorem screenTransfers_find (transfers : List (Address × TransactionSigned)) :
    api.screenTransfers transfers =
      match (transfers.flatMap fun transfer => transfer.1 :: transfer.2.toAddress.toList).find?
          fun address => address ∈ api.disallow with
      | some address => .error (.blacklist address)
      | none => .ok () := by
  induction transfers with
  | nil => rfl
  | cons transfer rest ih =>
      obtain ⟨sender, tx⟩ := transfer
      rw [ValidationApi.screenTransfers, ih]
      by_cases fromListed : sender ∈ api.disallow
      · simp [fromListed]
      · cases isTo : tx.toAddress with
        | none => simp [fromListed, isTo]
        | some recipient =>
            by_cases toListed : recipient ∈ api.disallow
            · simp [fromListed, isTo, toListed]
            · simp [fromListed, isTo, toListed]

theorem screen_find (request : Request) (accessed : List Address) :
    api.screen request.block request.message true =
      match (submissionOf request accessed).named.find? fun address => address ∈ api.disallow with
      | some address => .error (.blacklist address)
      | none => .ok () := by
  unfold ValidationApi.screen
  by_cases noList : api.disallow = ∅
  · rw [none_listed noList]
    simp [noList]
  · rw [if_pos ⟨noList, rfl⟩, screenTransfers_find]
    simp only [Submission.named, submissionOf, List.flatMap_map]
    by_cases isBeneficiary : request.block.block.header.beneficiary ∈ api.disallow
    · simp [isBeneficiary]
    · by_cases isRecipient : request.message.proposerFeeRecipient ∈ api.disallow
      · simp [isBeneficiary, isRecipient]
      · simp [isBeneficiary, isRecipient]

/-- On a set that stays as it is, the lookups come to the two checks of the validation. -/
theorem phases_agree_with_checks (request : Request) (accessed : List Address) :
    (∀ address, api.screen request.block request.message true = .error (.blacklist address) →
      Advances (submissionOf request accessed) api.disallow .received (.rejected address)) ∧
    (api.screen request.block request.message true = .ok () →
      Advances (submissionOf request accessed) api.disallow .received
        (scanned (api.accessedBlacklisted accessed true))) := by
  rw [screen_find api request accessed]
  by_cases noList : api.disallow = ∅
  · have received : Advance (submissionOf request accessed) api.disallow .received .executing := by
      simp [Advance, Phase.advanced, Phase.lookup, Phase.answered, Lookup.on, noList]
    have executing : Advance (submissionOf request accessed) api.disallow .executing .passed := by
      simp [Advance, Phase.advanced, Phase.lookup, Phase.answered, Lookup.on, noList]
    have passes : scanned (api.accessedBlacklisted accessed true) = .passed := by
      simp [ValidationApi.accessedBlacklisted, noList, scanned]
    rw [none_listed noList, passes]
    exact ⟨fun _ impossible => (nomatch impossible), fun _ => .head received (.single executing)⟩
  · have received : Advance (submissionOf request accessed) api.disallow .received
        (.screening (submissionOf request accessed).named) := by
      simp [Advance, Phase.advanced, Phase.lookup, Phase.answered, Lookup.on, noList]
    have executing : Advance (submissionOf request accessed) api.disallow .executing
        (.scanning accessed none) := by
      simp [Advance, Phase.advanced, Phase.lookup, Phase.answered, Lookup.on, noList, submissionOf]
    have found : api.accessedBlacklisted accessed true =
        accessed.foldl (fun found account =>
          if account ∈ api.disallow then some account else found) none := by
      simp [ValidationApi.accessedBlacklisted, noList]
    have first := Relation.ReflTransGen.head received
      (screening_advances (submissionOf request accessed) api.disallow
        (submissionOf request accessed).named)
    have second := Relation.ReflTransGen.head executing
      (scanning_advances (submissionOf request accessed) api.disallow accessed none)
    rw [found]
    rw [screened] at first
    cases hit : (submissionOf request accessed).named.find? fun address =>
        address ∈ api.disallow with
    | some address =>
        rw [hit] at first
        refine ⟨fun other isOther => ?_, fun impossible => (nomatch impossible)⟩
        cases isOther
        exact first
    | none =>
        rw [hit] at first
        exact ⟨fun _ impossible => (nomatch impossible), fun _ => first.trans second⟩

end Unchanged

end EthgasReth.Simulator.DisallowList
