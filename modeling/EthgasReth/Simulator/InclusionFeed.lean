import EthgasReth.Lib.Watch
import EthgasReth.Simulator.InclusionList

/-!
# Serving the inclusion list

`inclusion/api.rs` beside the producer: the method that returns the current list and the
subscription that sends each list it finds.  The lists go through a watch channel, so a
subscriber that is slow skips some; it is sent those it does not skip in order and once each,
and none that it could still be sent is the last.  Every list is one that a commit selected
from the transactions the pool had reported.
-/

set_option autoImplicit false

namespace EthgasReth.Simulator.InclusionFeed

open EthgasReth.Primitives
open EthgasReth.Lib
open EthgasReth.Simulator.InclusionProducer
open EthgasReth.Simulator.InclusionList

/-! ## The pool's reports -/

section Reports

variable (externals : Externals)

def Concerns (hash : B256) : Input → Prop
  | .txEvent pool _ (.pending txHash) =>
      ∃ tx, accepted pool txHash = some tx ∧ externals.hash tx = hash
  | .txEvent _ _ (.queued txHash) | .txEvent _ _ (.mined txHash _)
  | .txEvent _ _ (.discarded txHash) | .txEvent _ _ (.invalid txHash) => txHash = hash
  | .txEvent _ _ (.replaced transaction _) => externals.hash transaction = hash
  | _ => False

/-- The last report about the hash was that this transaction, without blobs, is pending. -/
def Stands (inputs : List Input) (hash : B256) (tx : ValidPoolTransaction) : Prop :=
  ∃ before pool now txHash after,
    inputs = before ++ .txEvent pool now (.pending txHash) :: after ∧
    accepted pool txHash = some tx ∧ externals.hash tx = hash ∧
    ∀ input ∈ after, ¬ Concerns externals hash input

def Selected (inputs : List Input) (list : List Bytes) : Prop :=
  ∃ before after, inputs = before ++ .commit :: after ∧
    ∃ taken : List (OrderedTx × ValidPoolTransaction),
      list = (taken.map fun pair => pair.2.encoded) ∧
      (taken.map fun pair => pair.2.encodedLength).sum ≤ maxListBytes ∧
      (taken.map Prod.fst).Pairwise (fun a b => b.score < a.score) ∧
      ∀ pair ∈ taken, Stands externals before pair.1.txHash pair.2

variable {externals} {inputs : List Input} {state : ProducerState}

theorem Stands.later {hash : B256} {tx : ValidPoolTransaction} {input : Input}
    (stands : Stands externals inputs hash tx) (silent : ¬ Concerns externals hash input) :
    Stands externals (inputs ++ [input]) hash tx := by
  obtain ⟨before, pool, now, txHash, after, rfl, isAccepted, isHash, quiet⟩ := stands
  refine ⟨before, pool, now, txHash, after ++ [input], by simp, isAccepted, isHash, ?_⟩
  intro other member
  rcases List.mem_append.mp member with member | member
  · exact quiet other member
  · rw [List.mem_singleton.mp member]
    exact silent

theorem Selected.later {list : List Bytes} (selected : Selected externals inputs list)
    (input : Input) : Selected externals (inputs ++ [input]) list := by
  obtain ⟨before, after, rfl, taken⟩ := selected
  exact ⟨before, after ++ [input], by simp, taken⟩

theorem step_published (input : Input) :
    (state.step externals input).published = state.published ∨
      input = .commit ∧ (state.step externals input).published =
        state.published ++ [(buildInclusionList state.orderedTxs state.pendingTxs).1] := by
  cases input with
  | txEvent pool now event => exact Or.inl rfl
  | commit => exact Or.inr ⟨rfl, rfl⟩
  | reorg => exact Or.inl rfl

theorem step_stands
    (stands : ∀ hash tx, state.pendingTxs.lookup hash = some tx → Stands externals inputs hash tx)
    (input : Input) {hash : B256} {tx : ValidPoolTransaction}
    (found : (state.step externals input).pendingTxs.lookup hash = some tx) :
    Stands externals (inputs ++ [input]) hash tx := by
  have erased : ∀ {gone : B256} {input : Input},
      (∀ hash, hash ≠ gone → ¬ Concerns externals hash input) →
      (state.pendingTxs.erase gone).lookup hash = some tx →
      Stands externals (inputs ++ [input]) hash tx := by
    intro gone input silent present
    by_cases same : hash = gone
    · subst same
      rw [AList.lookup_erase] at present
      cases present
    · rw [AList.lookup_erase_ne same] at present
      exact (stands hash tx present).later (silent hash same)
  cases input with
  | commit => exact (stands hash tx found).later (by simp [Concerns])
  | reorg => exact (stands hash tx found).later (by simp [Concerns])
  | txEvent pool now event =>
      cases event with
      | pending txHash =>
          simp only [ProducerState.step, handleTxEvent] at found
          cases isAccepted : accepted pool txHash with
          | none =>
              rw [isAccepted] at found
              exact (stands hash tx found).later (by simp [Concerns, isAccepted])
          | some reported =>
              rw [isAccepted] at found
              by_cases same : hash = externals.hash reported
              · subst same
                rw [AList.lookup_insert] at found
                cases found
                exact ⟨inputs, pool, now, txHash, [], rfl, isAccepted, rfl, by simp⟩
              · rw [AList.lookup_insert_ne same] at found
                refine (stands hash tx found).later ?_
                intro concerns
                obtain ⟨other, isOther, isHash⟩ := concerns
                cases isAccepted.symm.trans isOther
                exact same isHash.symm
      | queued txHash => exact erased (fun _ other same => other same.symm) found
      | mined txHash _ => exact erased (fun _ other same => other same.symm) found
      | discarded txHash => exact erased (fun _ other same => other same.symm) found
      | invalid txHash => exact erased (fun _ other same => other same.symm) found
      | replaced transaction _ => exact erased (fun _ other same => other same.symm) found
      | propagated => exact (stands hash tx found).later (by simp [Concerns])

theorem commit_selected
    (stands : ∀ hash tx, state.pendingTxs.lookup hash = some tx → Stands externals inputs hash tx) :
    Selected externals (inputs ++ [.commit])
      (buildInclusionList state.orderedTxs state.pendingTxs).1 := by
  obtain ⟨taken, selects⟩ := selectTxs_selects state.orderedTxs state.pendingTxs
  refine ⟨inputs, [], rfl, taken, selects.list, ?_, ?_, ?_⟩
  · rw [← selects.size]
    exact selects.bounded
  · exact state.orderedTxs.sorted.sublist selects.ordered
  · intro pair member
    exact stands _ _ (selects.pending pair member)

end Reports

/-! ## The method and the subscriptions -/

section Serving

variable (externals : Externals) {Message : Type} (subscriptionMessage : List Bytes → Option Message)

/-- One subscription's task.  `accepted` is the client's side of the handshake, `gone` that its
connection has closed, and `messages` what has been queued for it. -/
structure Subscription (Message : Type) where
  accepted : Option Bool
  reader : Watch.Reader (Option (List Bytes))
  gone : Bool
  messages : List Message

structure Feed (Message : Type) where
  producer : ProducerState
  inputs : List Input
  closed : Bool
  subscriptions : Nat → Option (Subscription Message)

def Feed.published (feed : Feed Message) : Watch (Option (List Bytes)) where
  initial := none
  sent := feed.producer.published.map some
  closed := feed.closed

def inclusionList (published : Watch (Option (List Bytes))) : Except String (List Bytes) :=
  match published.value with
  | some list => .ok list
  | none => .error "list not ready"

/-- The receiver is cloned from one that has read nothing yet. -/
def Subscription.new : Subscription Message where
  accepted := none
  reader := .start 0
  gone := false
  messages := []

/-- The message of the value that was borrowed last, if it has one. -/
def Subscription.held (subscription : Subscription Message) : Option Message :=
  subscription.reader.taken.getLast?.join.bind subscriptionMessage

/-- The result of `sink.send` is dropped: the loop goes on when the client has gone. -/
def Subscription.send (subscription : Subscription Message) : Subscription Message where
  accepted := subscription.accepted
  reader := { subscription.reader with phase := .waiting }
  gone := subscription.gone
  messages := if subscription.gone then subscription.messages
    else subscription.messages ++ (subscription.held subscriptionMessage).toList

def Feed.put (feed : Feed Message) (who : Nat) (subscription : Subscription Message) :
    Feed Message :=
  { feed with subscriptions := Function.update feed.subscriptions who (some subscription) }

inductive Step : Feed Message → Feed Message → Prop
  | input {feed : Feed Message} (input : Input) (opened : feed.closed = false) :
      Step feed { feed with
        producer := feed.producer.step externals input
        inputs := feed.inputs ++ [input] }
  | close {feed : Feed Message} : Step feed { feed with closed := true }
  | subscribe {feed : Feed Message} {who : Nat} (unused : feed.subscriptions who = none) :
      Step feed (feed.put who .new)
  | answer {feed : Feed Message} {who : Nat} {subscription : Subscription Message}
      (accepted : Bool) (found : feed.subscriptions who = some subscription)
      (pending : subscription.accepted = none) :
      Step feed (feed.put who { subscription with accepted := some accepted })
  | read {feed : Feed Message} {who : Nat} {subscription : Subscription Message}
      {reader : Watch.Reader (Option (List Bytes))}
      (found : feed.subscriptions who = some subscription)
      (accepted : subscription.accepted = some true)
      (free : subscription.reader.phase ≠ .holding)
      (taken : Watch.Reader.Step feed.published subscription.reader reader) :
      Step feed (feed.put who { subscription with reader := reader })
  | send {feed : Feed Message} {who : Nat} {subscription : Subscription Message}
      (found : feed.subscriptions who = some subscription)
      (holding : subscription.reader.phase = .holding) :
      Step feed (feed.put who (subscription.send subscriptionMessage))
  | leave {feed : Feed Message} {who : Nat} {subscription : Subscription Message}
      (found : feed.subscriptions who = some subscription) :
      Step feed (feed.put who { subscription with gone := true })

def serving : System (Feed Message) where
  Init := fun feed => feed =
    { producer := .initial, inputs := [], closed := false, subscriptions := fun _ => none }
  Step := Step externals subscriptionMessage

/-! ## What subscribers are sent -/

def made (values : List (Option (List Bytes))) : List Message :=
  values.filterMap fun value => value.bind subscriptionMessage

def Subscription.done (subscription : Subscription Message) : List (Option (List Bytes)) :=
  if subscription.reader.phase = .holding then subscription.reader.taken.dropLast
  else subscription.reader.taken

structure Serves (published : Watch (Option (List Bytes))) (subscription : Subscription Message) :
    Prop where
  follows : ∃ last, Watch.Follows 0 published subscription.reader last
  queued : subscription.messages <+: made subscriptionMessage subscription.done
  whole : subscription.gone = false →
    subscription.messages = made subscriptionMessage subscription.done

structure Sound (feed : Feed Message) : Prop where
  stands : ∀ hash tx, feed.producer.pendingTxs.lookup hash = some tx →
    Stands externals feed.inputs hash tx
  selected : ∀ list ∈ feed.producer.published, Selected externals feed.inputs list
  serves : ∀ who subscription, feed.subscriptions who = some subscription →
    Serves subscriptionMessage feed.published subscription

end Serving

section Served

variable {externals : Externals} {Message : Type}
  {subscriptionMessage : List Bytes → Option Message} {feed : Feed Message}
  {published : Watch (Option (List Bytes))} {subscription : Subscription Message}

theorem inclusionList_latest :
    inclusionList feed.published =
      feed.producer.published.getLast?.elim (.error "list not ready") .ok := by
  unfold inclusionList Watch.value Feed.published
  rw [List.getLast?_map]
  cases feed.producer.published.getLast? <;> rfl

theorem serves_new : Serves subscriptionMessage published (.new : Subscription Message) where
  follows := ⟨0, Watch.follows_start published (Nat.zero_le _)⟩
  queued := by simp [Subscription.new]
  whole := by simp [Subscription.new, made, Subscription.done, Watch.Reader.start]

theorem Serves.read (serves : Serves subscriptionMessage published subscription)
    {reader : Watch.Reader (Option (List Bytes))} (free : subscription.reader.phase ≠ .holding)
    (taken : Watch.Reader.Step published subscription.reader reader) :
    Serves subscriptionMessage published { subscription with reader := reader } := by
  obtain ⟨last, follows⟩ := serves.follows
  have same : Subscription.done { subscription with reader := reader } = subscription.done := by
    unfold Subscription.done
    rw [if_neg free]
    cases taken with
    | changed | hangUp => simp
    | borrowAndUpdate => simp
    | release holding => exact absurd holding free
  refine ⟨follows.step taken, ?_, ?_⟩
  · rw [same]
    exact serves.queued
  · intro present
    rw [same]
    exact serves.whole present

theorem Serves.send (serves : Serves subscriptionMessage published subscription)
    (holding : subscription.reader.phase = .holding) :
    Serves subscriptionMessage published (subscription.send subscriptionMessage) := by
  obtain ⟨last, follows⟩ := serves.follows
  have doneAfter : (subscription.send subscriptionMessage).done = subscription.reader.taken := by
    simp [Subscription.done, Subscription.send]
  have split : made subscriptionMessage subscription.reader.taken =
      made subscriptionMessage subscription.done ++
        (subscription.held subscriptionMessage).toList := by
    unfold Subscription.done Subscription.held made
    rw [if_pos holding]
    rcases List.eq_nil_or_concat subscription.reader.taken with taken | ⟨earlier, value, taken⟩
    · rw [taken]
      rfl
    · rw [taken, List.concat_eq_append, List.filterMap_append, List.dropLast_concat, List.getLast?_concat]
      cases value with
      | none => rfl
      | some list => cases isMessage : subscriptionMessage list <;> simp [isMessage]
  refine ⟨follows.step (.release holding), ?_, ?_⟩
  · rw [doneAfter, split]
    simp only [Subscription.send]
    split
    · exact serves.queued.trans (List.prefix_append _ _)
    · rename_i present
      rw [serves.whole (by simpa using present)]
  · intro present
    rw [doneAfter, split]
    simp only [Subscription.send] at present ⊢
    rw [if_neg (by simp [present]), serves.whole present]

theorem Serves.sent {next : Watch (Option (List Bytes))}
    (serves : Serves subscriptionMessage published subscription)
    (kept : ∀ last, Watch.Follows 0 published subscription.reader last →
      Watch.Follows 0 next subscription.reader last) :
    Serves subscriptionMessage next subscription := by
  obtain ⟨last, follows⟩ := serves.follows
  exact ⟨⟨last, kept last follows⟩, serves.queued, serves.whole⟩

theorem Sound.put (sound : Sound externals subscriptionMessage feed) {who : Nat}
    (serves : Serves subscriptionMessage feed.published subscription) :
    Sound externals subscriptionMessage (feed.put who subscription) := by
  refine ⟨sound.stands, sound.selected, ?_⟩
  intro other found isFound
  by_cases same : other = who
  · subst same
    simp only [Feed.put, Function.update_self, Option.some.injEq] at isFound
    subst isFound
    exact serves
  · simp only [Feed.put, Function.update_of_ne same] at isFound
    exact sound.serves other found isFound

theorem Sound.input (sound : Sound externals subscriptionMessage feed) (input : Input)
    (opened : feed.closed = false) :
    Sound externals subscriptionMessage { feed with
      producer := feed.producer.step externals input
      inputs := feed.inputs ++ [input] } := by
  have stands : ∀ hash tx, (feed.producer.step externals input).pendingTxs.lookup hash = some tx →
      Stands externals (feed.inputs ++ [input]) hash tx :=
    fun hash tx found => step_stands sound.stands input found
  rcases @step_published externals feed.producer input with same | ⟨rfl, isCommit⟩
  · refine ⟨stands, ?_, ?_⟩
    · intro list member
      simp only [same] at member
      exact (sound.selected list member).later input
    · intro who subscription found
      simp only [Feed.published, same]
      exact sound.serves who subscription found
  · refine ⟨stands, ?_, ?_⟩
    · intro list member
      simp only [isCommit] at member
      rcases List.mem_append.mp member with member | member
      · exact (sound.selected list member).later .commit
      · rw [List.mem_singleton.mp member]
        exact commit_selected sound.stands
    · intro who subscription found
      refine (sound.serves who subscription found).sent ?_
      intro last follows
      have sends := follows.send
        (some (buildInclusionList feed.producer.orderedTxs feed.producer.pendingTxs).1) opened
      simp only [Feed.published, isCommit, List.map_append]
      exact sends

theorem reachable_sound
    (reached : (serving externals subscriptionMessage).Reachable feed) :
    Sound externals subscriptionMessage feed := by
  apply reached.invariant
  · intro feed initial
    cases initial
    refine ⟨?_, by simp [ProducerState.initial], by simp⟩
    intro hash tx found
    cases found
  · intro feed next _ sound taken
    cases taken with
    | input input opened => exact sound.input input opened
    | close =>
        refine ⟨sound.stands, sound.selected, ?_⟩
        intro who subscription found
        exact (sound.serves who subscription found).sent fun last follows => follows.close
    | subscribe unused => exact sound.put serves_new
    | answer accepted found pending =>
        have serves := sound.serves _ _ found
        exact sound.put ⟨serves.follows, serves.queued, serves.whole⟩
    | read found accepted free taken => exact sound.put ((sound.serves _ _ found).read free taken)
    | send found holding => exact sound.put ((sound.serves _ _ found).send holding)
    | leave found =>
        have serves := sound.serves _ _ found
        exact sound.put ⟨serves.follows, serves.queued, by simp⟩

/-- In every run of the producer with any subscribers: a subscriber is sent messages of a
selection of the published lists, in order and once each, all of them while it is there; each
list is one that a commit selected from what the pool had reported; and a subscriber that waits
with nothing new, or whose task has ended, has taken the last list. -/
theorem lists_delivered (reached : (serving externals subscriptionMessage).Reachable feed)
    {who : Nat} (found : feed.subscriptions who = some subscription) :
    ∃ lists : List (List Bytes), lists.Sublist feed.producer.published ∧
      (∀ list ∈ lists, Selected externals feed.inputs list) ∧
      subscription.messages <+: lists.filterMap subscriptionMessage ∧
      (subscription.gone = false → subscription.reader.phase ≠ .holding →
        subscription.messages = lists.filterMap subscriptionMessage) ∧
      (subscription.reader.phase = .waiting →
        subscription.reader.seen = feed.producer.published.length →
        lists.getLast? = feed.producer.published.getLast?) ∧
      (subscription.reader.phase = .ended → feed.closed = true ∧
        lists.getLast? = feed.producer.published.getLast?) := by
  have sound := reachable_sound reached
  have serves := sound.serves who subscription found
  obtain ⟨last, follows⟩ := serves.follows
  have inOrder : subscription.reader.taken.Sublist (feed.producer.published.map some) := by
    refine follows.inOrder.trans ?_
    rw [List.drop_zero]
    exact List.take_sublist _ _
  obtain ⟨lists, sublist, isTaken⟩ := List.sublist_map_iff.mp inOrder
  have messages : made subscriptionMessage subscription.reader.taken =
      lists.filterMap subscriptionMessage := by
    rw [isTaken, made, List.filterMap_map]
    rfl
  have idle : subscription.reader.phase ≠ .notified →
      subscription.reader.seen = feed.producer.published.length →
      lists.getLast? = feed.producer.published.getLast? := by
    intro unnotified same
    have isLast := follows.idle unnotified (by
      rw [same, Watch.version, Feed.published, List.length_map])
    rw [isTaken, List.drop_zero] at isLast
    simp only [Feed.published, List.getLast?_map] at isLast
    exact Option.map_injective (Option.some_injective _) isLast
  refine ⟨lists, sublist, fun list member => sound.selected list (sublist.subset member), ?_, ?_,
    fun waiting => idle (by simp [waiting]), ?_⟩
  · refine serves.queued.trans ?_
    rw [← messages]
    unfold Subscription.done
    split
    · exact (List.dropLast_prefix _).filterMap _
    · exact List.prefix_rfl
  · intro present free
    rw [serves.whole present, Subscription.done, if_neg free, messages]
  · intro ended
    obtain ⟨closed, same⟩ := follows.ended ended
    refine ⟨closed, idle (by simp [ended]) ?_⟩
    rw [same, Watch.version, Feed.published, List.length_map]

end Served

/-- Two commits pass before the client subscribes: it is sent the second list at once, and the
first one never. -/
theorem lists_delivered_late :
    ∃ (feed : Feed (List Bytes)) (subscription : Subscription (List Bytes)),
      feed.producer.published = [[[7]], [[8], [7]]] ∧ feed.subscriptions 0 = some subscription ∧
      subscription.messages = [[[8], [7]]] ∧
      ∃ lists : List (List Bytes), lists.Sublist feed.producer.published ∧
        (∀ list ∈ lists, Selected exactExternals feed.inputs list) ∧
        lists.getLast? = some [[8], [7]] := by
  have start : (serving exactExternals (some : List Bytes → Option (List Bytes))).Reachable
      { producer := .initial, inputs := [], closed := false, subscriptions := fun _ => none } :=
    .init rfl
  have first := (start.step (.input (becomesPending 1 (poolTx 1 [7])) rfl)).step
    (.input .commit rfl)
  have second := (first.step (.input (becomesPending 2 (poolTx 1 [8])) rfl)).step
    (.input .commit rfl)
  have asked := second.step (@Step.subscribe exactExternals _ some _ 0 rfl)
  have accepted := asked.step (@Step.answer exactExternals _ some _ 0 _ true rfl rfl)
  have notified := accepted.step
    (@Step.read exactExternals _ some _ 0 _ _ rfl rfl (by simp [Subscription.new, Watch.Reader.start])
      (.changed rfl (by decide)))
  have taken := notified.step
    (@Step.read exactExternals _ some _ 0 _ _ rfl rfl (by simp) (.borrowAndUpdate rfl))
  have sent := taken.step (@Step.send exactExternals _ some _ 0 _ rfl rfl)
  obtain ⟨lists, sublist, selected, -, -, idle, -⟩ := @lists_delivered exactExternals _ some _ _ sent 0 rfl
  exact ⟨_, _, rfl, rfl, rfl, lists, sublist, selected, idle rfl rfl⟩

end EthgasReth.Simulator.InclusionFeed
