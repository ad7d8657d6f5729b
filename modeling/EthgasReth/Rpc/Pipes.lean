import EthgasReth.Lib.BroadcastRing
import EthgasReth.Lib.Trace
import EthgasReth.Rpc.PipeLatest

/-!
# What a subscription sends of what is broadcast

The two pipes of `pubsub.rs` behind a receiver of the broadcast channel, for any values,
messages and client.  `pipe_from_stream` sends every message that the values make, or holds it
back until the connection has drained; `pipe_latest` sends a value or skips it.
-/

set_option autoImplicit false

namespace EthgasReth.Rpc.Pipes

open EthgasReth.Lib
open EthgasReth.Rpc.PipeLatest (hasLeft)

/-! ## The surroundings of a pipe -/

/-- What a subscription does when its client does not read; milliseconds. -/
structure SlowSubscriberLimits where
  maxQueued : Nat
  timeout : Nat

/-- How long `wait_for_room` sleeps between two looks at the connection; milliseconds. -/
def drainPollInterval : Nat := 1

def SlowSubscriberLimits.default : SlowSubscriberLimits where
  maxQueued := 32
  timeout := 10000

/-- All that has been broadcast, and the connection: what it holds and has not written, the
count of all that was ever queued on it, and whether the client is gone. -/
structure Surroundings (Value : Type) where
  sent : List Value
  queued : Nat
  queuedTotal : Nat
  maxCapacity : Nat
  closed : Bool
  now : Nat

/-- What a run logs: a broadcast, what the receiver is told, an item taken up, how many messages
`wait_for_room` finds on the connection, a message queued there, a value skipped, the end for
want of room, and the remaining steps. -/
inductive Event (Value Message : Type) where
  | broadcast (value : Value)
  | passed (passed : Passed Value)
  | picked (now : Nat)
  | found (held : Nat)
  | queued (message : Message)
  | skipped (value : Value) (now : Nat)
  | gaveUp (now : Nat)
  | closed
  | other

variable {Value Message : Type}

/-- What changes outside: a broadcast, the client leaving, time passing, and other messages
queued or written. -/
inductive Surroundings.Step : Surroundings Value → Event Value Message → Surroundings Value → Prop
  | broadcast {outside : Surroundings Value} (value : Value) :
      Step outside (.broadcast value) { outside with sent := outside.sent ++ [value] }
  | close {outside : Surroundings Value} : Step outside .closed { outside with closed := true }
  | tick {outside : Surroundings Value} (elapsed : Nat) :
      Step outside .other { outside with now := outside.now + elapsed }
  | connection {outside : Surroundings Value} (queued queuedTotal : Nat)
      (counted : outside.queuedTotal ≤ queuedTotal) :
      Step outside .other { outside with queued := queued, queuedTotal := queuedTotal }

def Surroundings.enqueue (outside : Surroundings Value) : Surroundings Value :=
  { outside with queued := outside.queued + 1, queuedTotal := outside.queuedTotal + 1 }

/-! ## The two pipes -/

/-- `waiting` and `crowded` are `wait_for_room`, with its deadline: before it looks at the
connection, which it does at `wakes` at the earliest, and after it has found too much there. -/
inductive Phase (Message : Type) where
  | selecting
  | waiting (item : Message) (deadline wakes : Nat)
  | crowded (item : Message) (deadline : Nat)
  | sending (item : Message)
  | ended (unsent : Option Message)

/-- `rest` is what the stream has left of the value it received last. -/
structure FromStream (Value Message : Type) where
  outside : Surroundings Value
  next : Nat
  rest : List Message
  phase : Phase Message

section Steps

variable (room : Nat) (limits : SlowSubscriberLimits)

/-- A lag is logged and the stream goes on.  A message that is counted and then not taken by the
connection stays counted. -/
inductive FromStream.Step (items : Value → List Message) (serializes : Message → Bool) :
    FromStream Value Message → Event Value Message → FromStream Value Message → Prop
  | outside {pipe : FromStream Value Message} {event : Event Value Message}
      {after : Surroundings Value} (changed : Surroundings.Step pipe.outside event after) :
      Step items serializes pipe event { pipe with outside := after }
  | poll {pipe : FromStream Value Message} {passed : Passed Value} {after : Nat}
      (selecting : pipe.phase = .selecting) (empty : pipe.rest = [])
      (received : BroadcastRing.recv room pipe.outside.sent pipe.next = some (passed, after)) :
      Step items serializes pipe (.passed passed) { pipe with
        next := after
        rest := ((BroadcastRing.valueOf passed).map items).getD [] }
  | pick {pipe : FromStream Value Message} {item : Message} {rest : List Message}
      (selecting : pipe.phase = .selecting) (head : pipe.rest = item :: rest) :
      Step items serializes pipe (.picked pipe.outside.now) { pipe with
        rest := rest
        phase := .waiting item (pipe.outside.now + limits.timeout) pipe.outside.now }
  | drained {pipe : FromStream Value Message} {item : Message} {deadline wakes : Nat}
      (waiting : pipe.phase = .waiting item deadline wakes) (awake : wakes ≤ pipe.outside.now)
      (few : pipe.outside.queued ≤ limits.maxQueued) :
      Step items serializes pipe (.found pipe.outside.queued) { pipe with phase := .sending item }
  | crowded {pipe : FromStream Value Message} {item : Message} {deadline wakes : Nat}
      (waiting : pipe.phase = .waiting item deadline wakes) (awake : wakes ≤ pipe.outside.now)
      (many : limits.maxQueued < pipe.outside.queued) :
      Step items serializes pipe (.found pipe.outside.queued) { pipe with
        phase := .crowded item deadline }
  | sleep {pipe : FromStream Value Message} {item : Message} {deadline : Nat}
      (crowded : pipe.phase = .crowded item deadline) (connected : pipe.outside.closed = false)
      (early : pipe.outside.now < deadline) :
      Step items serializes pipe .other { pipe with
        phase := .waiting item deadline (pipe.outside.now + drainPollInterval) }
  | giveUp {pipe : FromStream Value Message} {item : Message} {deadline : Nat}
      (crowded : pipe.phase = .crowded item deadline)
      (expired : pipe.outside.closed = true ∨ deadline ≤ pipe.outside.now) :
      Step items serializes pipe (.gaveUp pipe.outside.now) { pipe with
        phase := .ended (some item) }
  | unserializable {pipe : FromStream Value Message} {item : Message}
      (sending : pipe.phase = .sending item) (failing : serializes item = false) :
      Step items serializes pipe .other { pipe with phase := .ended (some item) }
  | send {pipe : FromStream Value Message} {item : Message} (sending : pipe.phase = .sending item)
      (serialized : serializes item = true) (connected : pipe.outside.closed = false)
      (fits : pipe.outside.queued < pipe.outside.maxCapacity) :
      Step items serializes pipe (.queued item) { pipe with
        outside := pipe.outside.enqueue
        phase := .selecting }
  | disconnected {pipe : FromStream Value Message} {item : Message}
      (sending : pipe.phase = .sending item) (serialized : serializes item = true)
      (gone : pipe.outside.closed = true) :
      Step items serializes pipe .other { pipe with
        outside := { pipe.outside with queuedTotal := pipe.outside.queuedTotal + 1 }
        phase := .ended (some item) }
  | leave {pipe : FromStream Value Message} (selecting : pipe.phase = .selecting)
      (gone : pipe.outside.closed = true) :
      Step items serializes pipe .other { pipe with phase := .ended none }

/-- `measured` is between the two reads of the decision. -/
inductive LatestPhase (Value : Type) where
  | selecting
  | deciding (item : Value)
  | measured (item : Value) (previousAt held : Nat)
  | sending (item : Value)
  | ended (unsent : Option Value)

structure Latest (Value : Type) where
  outside : Surroundings Value
  next : Nat
  skippingSince : Option Nat
  previousAt : Option Nat
  phase : LatestPhase Value

def Latest.since (pipe : Latest Value) : Nat := pipe.skippingSince.getD pipe.outside.now

inductive Latest.Step : Latest Value → Event Value Value → Latest Value → Prop
  | outside {pipe : Latest Value} {event : Event Value Value} {after : Surroundings Value}
      (changed : Surroundings.Step pipe.outside event after) :
      Step pipe event { pipe with outside := after }
  | lag {pipe : Latest Value} {missed after : Nat} (selecting : pipe.phase = .selecting)
      (received : BroadcastRing.recv room pipe.outside.sent pipe.next =
        some (.lagged missed, after)) :
      Step pipe (.passed (.lagged missed)) { pipe with next := after }
  | poll {pipe : Latest Value} {item : Value} {after : Nat} (selecting : pipe.phase = .selecting)
      (received : BroadcastRing.recv room pipe.outside.sent pipe.next =
        some (.value item, after)) :
      Step pipe (.passed (.value item)) { pipe with next := after, phase := .deciding item }
  | first {pipe : Latest Value} {item : Value} (deciding : pipe.phase = .deciding item)
      (nothing : pipe.previousAt = none) :
      Step pipe .other { pipe with skippingSince := none, phase := .sending item }
  | measure {pipe : Latest Value} {item : Value} {previousAt : Nat}
      (deciding : pipe.phase = .deciding item) (previous : pipe.previousAt = some previousAt) :
      Step pipe .other { pipe with phase := .measured item previousAt pipe.outside.queued }
  | skip {pipe : Latest Value} {item : Value} {previousAt held : Nat}
      (measured : pipe.phase = .measured item previousAt held)
      (buffered : hasLeft held (pipe.outside.queuedTotal - previousAt) = false)
      (early : pipe.outside.now - pipe.since < limits.timeout) :
      Step pipe (.skipped item pipe.outside.now) { pipe with
        skippingSince := some pipe.since
        phase := .selecting }
  | giveUp {pipe : Latest Value} {item : Value} {previousAt held : Nat}
      (measured : pipe.phase = .measured item previousAt held)
      (buffered : hasLeft held (pipe.outside.queuedTotal - previousAt) = false)
      (late : limits.timeout ≤ pipe.outside.now - pipe.since) :
      Step pipe (.gaveUp pipe.outside.now) { pipe with phase := .ended (some item) }
  | written {pipe : Latest Value} {item : Value} {previousAt held : Nat}
      (measured : pipe.phase = .measured item previousAt held)
      (left : hasLeft held (pipe.outside.queuedTotal - previousAt) = true) :
      Step pipe .other { pipe with skippingSince := none, phase := .sending item }
  | send {pipe : Latest Value} {item : Value} (sending : pipe.phase = .sending item)
      (connected : pipe.outside.closed = false)
      (fits : pipe.outside.queued < pipe.outside.maxCapacity) :
      Step pipe (.queued item) { pipe with
        outside := pipe.outside.enqueue
        previousAt := some pipe.outside.enqueue.queuedTotal
        phase := .selecting }
  | fail {pipe : Latest Value} {item : Value} (sending : pipe.phase = .sending item) :
      Step pipe .other { pipe with phase := .ended (some item) }
  | leave {pipe : Latest Value} (selecting : pipe.phase = .selecting)
      (gone : pipe.outside.closed = true) :
      Step pipe .other { pipe with phase := .ended none }

end Steps

def FromStream.subscribed (outside : Surroundings Value) : FromStream Value Message where
  outside := outside
  next := outside.sent.length
  rest := []
  phase := .selecting

def Latest.subscribed (outside : Surroundings Value) : Latest Value where
  outside := outside
  next := outside.sent.length
  skippingSince := none
  previousAt := none
  phase := .selecting

/-! ## What a log tells -/

def broadcastOf : Event Value Message → Option Value
  | .broadcast value => some value
  | _ => none

def passedOf : Event Value Message → Option (Passed Value)
  | .passed passed => some passed
  | _ => none

def queuedOf : Event Value Message → Option Message
  | .queued message => some message
  | _ => none

def foundOf : Event Value Message → Option Nat
  | .found held => some held
  | _ => none

theorem filterMap_concat {Picked : Type} (pick : Event Value Message → Option Picked)
    (log : List (Event Value Message)) (event : Event Value Message) :
    (log ++ [event]).filterMap pick = log.filterMap pick ++ (pick event).toList := by
  rw [List.filterMap_append]
  cases picked : pick event <;> simp [picked]

def broadcasts (log : List (Event Value Message)) : List Value := log.filterMap broadcastOf

def passes (log : List (Event Value Message)) : List (Passed Value) := log.filterMap passedOf

def received (log : List (Event Value Message)) : List Value := BroadcastRing.values (passes log)

def missed (log : List (Event Value Message)) : Nat := BroadcastRing.missed (passes log)

def messages (log : List (Event Value Message)) : List Message := log.filterMap queuedOf

/-- What the receiver was told accounts for the broadcasts up to its position. -/
structure Follows (outside start : Surroundings Value) (next : Nat)
    (log : List (Event Value Message)) : Prop where
  sent : outside.sent = start.sent ++ broadcasts log
  accounts : BroadcastRing.Accounts outside.sent start.sent.length (passes log) next

section Follows

variable {outside start : Surroundings Value} {next : Nat} {log : List (Event Value Message)}

theorem Follows.initial : Follows start start start.sent.length ([] : List (Event Value Message)) :=
  ⟨by simp [broadcasts], .nil (Nat.le_refl _)⟩

theorem Follows.quiet (follows : Follows outside start next log) {after : Surroundings Value}
    {event : Event Value Message} (same : after.sent = outside.sent)
    (noBroadcast : broadcastOf event = none) (notPassed : passedOf event = none) :
    Follows after start next (log ++ [event]) := by
  constructor
  · rw [same, follows.sent, broadcasts, broadcasts, filterMap_concat, noBroadcast]
    simp
  · rw [same, passes, filterMap_concat, notPassed, Option.toList_none, List.append_nil]
    exact follows.accounts

theorem Follows.change (follows : Follows outside start next log) {after : Surroundings Value}
    {event : Event Value Message} (changed : Surroundings.Step outside event after) :
    Follows after start next (log ++ [event]) := by
  cases changed with
  | broadcast value =>
      constructor
      · rw [follows.sent, broadcasts, broadcasts, filterMap_concat]
        simp [broadcastOf]
      · have same : passes (log ++ [.broadcast value]) = passes log := by
          simp [passes, passedOf]
        rw [same]
        exact follows.accounts.send value
  | close => exact follows.quiet rfl rfl rfl
  | tick elapsed => exact follows.quiet rfl rfl rfl
  | connection queued queuedTotal counted => exact follows.quiet rfl rfl rfl

theorem Follows.recv (follows : Follows outside start next log) {room after : Nat}
    {passed : Passed Value}
    (received : BroadcastRing.recv room outside.sent next = some (passed, after)) :
    Follows outside start after (log ++ [.passed passed]) := by
  constructor
  · rw [follows.sent, broadcasts, broadcasts, filterMap_concat]
    simp [broadcastOf]
  · rw [passes, filterMap_concat]
    exact follows.accounts.recv received

/-- The subscription receives broadcasts in their order, all but those it was told it had
missed, and all of them when there were none. -/
theorem Follows.received (follows : Follows outside start next log) :
    ((received log).Sublist (broadcasts log)) ∧
      (received log).length + missed log = next - start.sent.length ∧
      (missed log = 0 → received log = (broadcasts log).take (next - start.sent.length)) := by
  have counted := follows.accounts.count
  have dropped : (outside.sent.take next).drop start.sent.length =
      (broadcasts log).take (next - start.sent.length) := by
    rw [follows.sent, List.drop_take, List.drop_left]
  refine ⟨?_, ?_, ?_⟩
  · have sublist := follows.accounts.sublist
    rw [dropped] at sublist
    exact sublist.trans (List.take_sublist _ _)
  · simp only [Pipes.received, missed]
    omega
  · intro kept
    have complete := follows.accounts.complete kept
    rw [dropped] at complete
    exact complete

/-- The lag is exactly what the channel no longer keeps. -/
theorem Follows.lag (follows : Follows outside start next log) {room missed after : Nat}
    (lagged : BroadcastRing.recv room outside.sent next = some (.lagged missed, after)) :
    0 < missed ∧ (broadcasts log).length =
      (Pipes.received log).length + Pipes.missed log + missed + room := by
  have counted := follows.accounts.count
  have length := congrArg List.length follows.sent
  rw [List.length_append] at length
  rcases BroadcastRing.recv_cases lagged with ⟨other, same, positive, -, behind⟩ | ⟨value, same, -⟩
  · cases same
    simp only [Pipes.received, Pipes.missed]
    omega
  · cases same

/-- A value is the first one that is not accounted for yet, and the channel keeps all that
follow it. -/
theorem Follows.value (follows : Follows outside start next log) {room after : Nat} {value : Value}
    (isValue : BroadcastRing.recv room outside.sent next = some (.value value, after)) :
    (broadcasts log)[(Pipes.received log).length + Pipes.missed log]? = some value ∧
      (broadcasts log).length ≤ (Pipes.received log).length + Pipes.missed log + room := by
  have counted := follows.accounts.count
  have length := congrArg List.length follows.sent
  rw [List.length_append] at length
  rcases BroadcastRing.recv_cases isValue with ⟨other, same, -⟩ | ⟨other, same, -, found, near⟩
  · cases same
  · cases same
    have place : next - start.sent.length = (Pipes.received log).length + Pipes.missed log := by
      simp only [Pipes.received, Pipes.missed]
      omega
    rw [follows.sent, List.getElem?_append_right (by omega), place] at found
    exact ⟨found, by omega⟩

end Follows

/-! ## Every message of every value -/

def Phase.held : Phase Message → List Message
  | .selecting => []
  | .waiting item _ _ => [item]
  | .crowded item _ => [item]
  | .sending item => [item]
  | .ended unsent => unsent.toList

/-- An event since which nothing was queued. -/
def Since (log : List (Event Value Message)) (event : Event Value Message) : Prop :=
  ∃ earlier middle, log = earlier ++ event :: middle ∧ ∀ message, .queued message ∉ middle

theorem Since.now (log : List (Event Value Message)) (event : Event Value Message) :
    Since (log ++ [event]) event :=
  ⟨log, [], by simp, by simp⟩

theorem Since.later {log : List (Event Value Message)} {event next : Event Value Message}
    (since : Since log event) (quiet : queuedOf next = none) : Since (log ++ [next]) event := by
  obtain ⟨earlier, middle, rfl, unsent⟩ := since
  refine ⟨earlier, middle ++ [next], by simp, ?_⟩
  intro message member
  rcases List.mem_append.mp member with inMiddle | isNext
  · exact unsent message inMiddle
  · rw [← List.mem_singleton.mp isNext] at quiet
    cases quiet

theorem messages_quiet {log : List (Event Value Message)} {event : Event Value Message}
    (quiet : queuedOf event = none) : messages (log ++ [event]) = messages log := by
  rw [messages, filterMap_concat, quiet, Option.toList_none, List.append_nil, messages]

theorem received_quiet {log : List (Event Value Message)} {event : Event Value Message}
    (notPassed : passedOf event = none) : received (log ++ [event]) = received log := by
  rw [received, passes, filterMap_concat, notPassed, Option.toList_none, List.append_nil, received,
    passes]

theorem received_passed (log : List (Event Value Message)) (passed : Passed Value) :
    received (log ++ [.passed passed]) =
      received log ++ (BroadcastRing.valueOf passed).toList := by
  rw [received, passes, filterMap_concat, BroadcastRing.values, List.filterMap_append, received,
    BroadcastRing.values, passes]
  cases valueIs : BroadcastRing.valueOf passed <;> simp [passedOf, valueIs]

section FromStream

variable {room : Nat} {limits : SlowSubscriberLimits} {items : Value → List Message}
  {serializes : Message → Bool} {start : Surroundings Value} {log : List (Event Value Message)}
  {pipe next : FromStream Value Message} {event : Event Value Message}

/-- Since the item was taken up nothing was queued, and `wait_for_room` has found too much on
the connection every time it looked. -/
def Crowds (limits : SlowSubscriberLimits) (log : List (Event Value Message)) (picked : Nat)
    (looks : List Nat) : Prop :=
  ∃ earlier during, log = earlier ++ .picked picked :: during ∧
    (∀ message, .queued message ∉ during) ∧ during.filterMap foundOf = looks ∧
    ∀ held ∈ looks, limits.maxQueued < held

theorem Crowds.now (log : List (Event Value Message)) (picked : Nat) :
    Crowds limits (log ++ [.picked picked]) picked [] :=
  ⟨log, [], by simp, by simp, rfl, by simp⟩

theorem Crowds.later {picked : Nat} {looks : List Nat} (crowds : Crowds limits log picked looks)
    (quiet : queuedOf event = none) (unseen : foundOf event = none) :
    Crowds limits (log ++ [event]) picked looks := by
  obtain ⟨earlier, during, rfl, unsent, seen, many⟩ := crowds
  refine ⟨earlier, during ++ [event], by simp, ?_, ?_, many⟩
  · intro message member
    rcases List.mem_append.mp member with inDuring | isEvent
    · exact unsent message inDuring
    · rw [← List.mem_singleton.mp isEvent] at quiet
      cases quiet
  · rw [filterMap_concat, unseen, Option.toList_none, List.append_nil]
    exact seen

theorem Crowds.look {picked held : Nat} {looks : List Nat}
    (crowds : Crowds limits log picked looks) (crowded : limits.maxQueued < held) :
    Crowds limits (log ++ [.found held]) picked (looks ++ [held]) := by
  obtain ⟨earlier, during, rfl, unsent, seen, many⟩ := crowds
  refine ⟨earlier, during ++ [.found held], by simp, by simpa using unsent, ?_, ?_⟩
  · rw [filterMap_concat, seen]
    rfl
  · intro other member
    rcases List.mem_append.mp member with earlier | isLast
    · exact many other earlier
    · rw [List.mem_singleton.mp isLast]
      exact crowded

/-- The task has given an item up, no sooner than the time allowed after it was taken up. -/
def Stalls (limits : SlowSubscriberLimits) (log : List (Event Value Message)) : Prop :=
  ∃ before picked looks now after, log = before ++ .gaveUp now :: after ∧ looks ≠ [] ∧
    Crowds limits before picked looks ∧ picked + limits.timeout ≤ now

theorem Stalls.later (stalls : Stalls limits log) (event : Event Value Message) :
    Stalls limits (log ++ [event]) := by
  obtain ⟨before, picked, looks, now, after, rfl, looked, crowds, late⟩ := stalls
  exact ⟨before, picked, looks, now, after ++ [event], by simp, looked, crowds, late⟩

def Leads (limits : SlowSubscriberLimits) (serializes : Message → Bool)
    (outside : Surroundings Value) (log : List (Event Value Message)) : Phase Message → Prop
  | .selecting => True
  | .waiting _ deadline _ => ∃ picked looks, Crowds limits log picked looks ∧
      deadline = picked + limits.timeout
  | .crowded _ deadline => ∃ picked looks, looks ≠ [] ∧ Crowds limits log picked looks ∧
      deadline = picked + limits.timeout
  | .sending _ => True
  | .ended unsent => outside.closed = true ∨
      ∃ item, unsent = some item ∧ (serializes item = false ∨ Stalls limits log)

structure Delivers (limits : SlowSubscriberLimits) (items : Value → List Message)
    (serializes : Message → Bool) (start : Surroundings Value) (log : List (Event Value Message))
    (pipe : FromStream Value Message) : Prop where
  follows : Follows pipe.outside start pipe.next log
  order : messages log ++ pipe.phase.held ++ pipe.rest = (received log).flatMap items
  leads : Leads limits serializes pipe.outside log pipe.phase
  closed : pipe.outside.closed = true → start.closed = true ∨ .closed ∈ log

theorem closed_later (closed : start.closed = true ∨ .closed ∈ log)
    (event : Event Value Message) : start.closed = true ∨ .closed ∈ log ++ [event] := by
  rcases closed with before | member
  · exact Or.inl before
  · exact Or.inr (List.mem_append_left _ member)

theorem Delivers.move (delivers : Delivers limits items serializes start log pipe)
    {after : Surroundings Value} {phase : Phase Message} {rest : List Message}
    (sameSent : after.sent = pipe.outside.sent) (sameClosed : after.closed = pipe.outside.closed)
    (noBroadcast : broadcastOf event = none) (notPassed : passedOf event = none)
    (quiet : queuedOf event = none) (same : phase.held ++ rest = pipe.phase.held ++ pipe.rest)
    (leads : Leads limits serializes after (log ++ [event]) phase) :
    Delivers limits items serializes start (log ++ [event])
      { pipe with outside := after, rest := rest, phase := phase } where
  follows := delivers.follows.quiet sameSent noBroadcast notPassed
  order := by
    rw [messages_quiet quiet, received_quiet notPassed, List.append_assoc, same,
      ← List.append_assoc]
    exact delivers.order
  leads := leads
  closed := by
    intro gone
    exact closed_later (delivers.closed (sameClosed ▸ gone)) event

theorem Leads.change {outside after : Surroundings Value} {phase : Phase Message}
    (leads : Leads limits serializes outside log phase)
    (stays : outside.closed = true → after.closed = true)
    (quiet : queuedOf event = none) (unseen : foundOf event = none) :
    Leads limits serializes after (log ++ [event]) phase := by
  cases phase with
  | selecting | sending => trivial
  | waiting item deadline wakes =>
      obtain ⟨picked, looks, crowds, isDeadline⟩ := leads
      exact ⟨picked, looks, crowds.later quiet unseen, isDeadline⟩
  | crowded item deadline =>
      obtain ⟨picked, looks, looked, crowds, isDeadline⟩ := leads
      exact ⟨picked, looks, looked, crowds.later quiet unseen, isDeadline⟩
  | ended unsent =>
      rcases leads with gone | ⟨item, isUnsent, failing | stalls⟩
      · exact Or.inl (stays gone)
      · exact Or.inr ⟨item, isUnsent, Or.inl failing⟩
      · exact Or.inr ⟨item, isUnsent, Or.inr (stalls.later event)⟩

theorem Delivers.change (delivers : Delivers limits items serializes start log pipe)
    {after : Surroundings Value} (changed : Surroundings.Step pipe.outside event after) :
    Delivers limits items serializes start (log ++ [event]) { pipe with outside := after } := by
  have facts : queuedOf event = none ∧ passedOf event = none ∧ foundOf event = none ∧
      (pipe.outside.closed = true → after.closed = true) ∧
      (after.closed = true → pipe.outside.closed = true ∨ event = .closed) := by
    cases changed with
    | broadcast value => exact ⟨rfl, rfl, rfl, id, Or.inl⟩
    | close => exact ⟨rfl, rfl, rfl, fun _ => rfl, fun _ => Or.inr rfl⟩
    | tick elapsed => exact ⟨rfl, rfl, rfl, id, Or.inl⟩
    | connection queued queuedTotal counted => exact ⟨rfl, rfl, rfl, id, Or.inl⟩
  obtain ⟨quiet, notPassed, unseen, stays, closes⟩ := facts
  refine ⟨delivers.follows.change changed, ?_, delivers.leads.change stays quiet unseen, ?_⟩
  · rw [messages_quiet quiet, received_quiet notPassed]
    exact delivers.order
  · intro gone
    rcases closes gone with earlier | isClose
    · exact closed_later (delivers.closed earlier) event
    · subst isClose
      exact Or.inr (by simp)

theorem delivers_step (delivers : Delivers limits items serializes start log pipe)
    (taken : FromStream.Step room limits items serializes pipe event next) :
    Delivers limits items serializes start (log ++ [event]) next := by
  have leads := delivers.leads
  cases taken with
  | outside changed => exact delivers.change changed
  | @poll passed after selecting empty isReceived =>
      refine ⟨delivers.follows.recv isReceived, ?_, ?_, ?_⟩
      · have order := delivers.order
        rw [selecting, empty, Phase.held, List.append_nil, List.append_nil] at order
        rw [messages_quiet rfl, received_passed, List.flatMap_append, ← order, selecting]
        cases BroadcastRing.valueOf passed <;> simp [Phase.held]
      · rw [selecting]
        trivial
      · intro gone
        exact closed_later (delivers.closed gone) _
  | @pick item rest selecting head =>
      apply delivers.move rfl rfl rfl rfl rfl
      · simp [Phase.held, selecting, head]
      · exact ⟨pipe.outside.now, [], Crowds.now log _, rfl⟩
  | drained waiting awake few =>
      apply delivers.move rfl rfl rfl rfl rfl
      · simp [Phase.held, waiting]
      · trivial
  | crowded waiting awake many =>
      rw [waiting] at leads
      obtain ⟨picked, looks, crowds, isDeadline⟩ := leads
      apply delivers.move rfl rfl rfl rfl rfl
      · simp [Phase.held, waiting]
      · exact ⟨picked, looks ++ [pipe.outside.queued], by simp, crowds.look many, isDeadline⟩
  | sleep crowded connected early =>
      rw [crowded] at leads
      obtain ⟨picked, looks, -, crowds, isDeadline⟩ := leads
      apply delivers.move rfl rfl rfl rfl rfl
      · simp [Phase.held, crowded]
      · exact ⟨picked, looks, crowds.later rfl rfl, isDeadline⟩
  | @giveUp item deadline crowded expired =>
      rw [crowded] at leads
      obtain ⟨picked, looks, looked, crowds, isDeadline⟩ := leads
      apply delivers.move rfl rfl rfl rfl rfl
      · simp [Phase.held, crowded]
      · rcases expired with gone | late
        · exact Or.inl gone
        · exact Or.inr ⟨item, rfl, Or.inr
            ⟨log, picked, looks, pipe.outside.now, [], rfl, looked, crowds, by omega⟩⟩
  | @unserializable item sending failing =>
      apply delivers.move rfl rfl rfl rfl rfl
      · simp [Phase.held, sending]
      · exact Or.inr ⟨item, rfl, Or.inl failing⟩
  | @send item sending serialized connected fits =>
      refine ⟨delivers.follows.quiet rfl rfl rfl, ?_, trivial, ?_⟩
      · have order := delivers.order
        rw [sending, Phase.held] at order
        rw [messages, filterMap_concat, ← messages, received_quiet rfl, ← order]
        simp [queuedOf, Phase.held]
      · intro gone
        rw [Surroundings.enqueue, connected] at gone
        cases gone
  | disconnected sending serialized gone =>
      refine @Delivers.move _ _ _ _ _ _ _ _ _ delivers
        { pipe.outside with queuedTotal := pipe.outside.queuedTotal + 1 } _ _ rfl rfl rfl rfl rfl ?_ ?_
      · simp [Phase.held, sending]
      · exact Or.inl gone
  | leave selecting gone =>
      apply delivers.move rfl rfl rfl rfl rfl
      · simp [Phase.held, selecting]
      · exact Or.inl gone

theorem runs_deliver
    (run : Trace (FromStream.Step room limits items serializes) (.subscribed start) log pipe) :
    Delivers limits items serializes start log pipe :=
  @Trace.invariant _ _ _ _ (Delivers limits items serializes start)
    ⟨Follows.initial, by simp [messages, received, passes, BroadcastRing.values,
      FromStream.subscribed, Phase.held], by simp [FromStream.subscribed, Leads], Or.inl⟩
    (fun _ _ _ _ _ delivers taken => delivers_step delivers taken) _ _ run

/-- In every run the messages queued, the one in hand and those of the present value are all
the messages of the values received, in order and once each.  A value received is the first
broadcast that the receiver has not accounted for, and the receiver is told of a lag exactly
when more than the channel keeps are ahead of it.  The task ends when the client is gone, at an
item that cannot be serialized, or at one that has found too much on the connection for the
whole time allowed. -/
theorem pipe_from_stream_delivers
    (run : Trace (FromStream.Step room limits items serializes) (.subscribed start) log pipe) :
    messages log ++ pipe.phase.held ++ pipe.rest = (received log).flatMap items ∧
      (received log).Sublist (broadcasts log) ∧
      start.sent.length + (received log).length + missed log = pipe.next ∧
      (missed log = 0 → received log <+: broadcasts log) ∧
      (∀ before value after, log = before ++ .passed (.value value) :: after →
        (broadcasts before)[(received before).length + missed before]? = some value ∧
        (broadcasts before).length ≤ (received before).length + missed before + room) ∧
      (∀ before lag after, log = before ++ .passed (.lagged lag) :: after → 0 < lag ∧
        (broadcasts before).length = (received before).length + missed before + lag + room) ∧
      ∀ unsent, pipe.phase = .ended unsent → (start.closed = true ∨ .closed ∈ log) ∨
        ∃ item, unsent = some item ∧ (serializes item = false ∨ Stalls limits log) := by
  have delivers := runs_deliver run
  obtain ⟨sublist, -, complete⟩ := delivers.follows.received
  refine ⟨delivers.order, sublist, delivers.follows.accounts.count, ?_, ?_, ?_, ?_⟩
  · intro kept
    rw [complete kept]
    exact List.take_prefix _ _
  · intro before value after isLog
    subst isLog
    obtain ⟨state, next, reached, taken⟩ := run.cut
    cases taken with
    | outside changed => cases changed
    | poll selecting empty isReceived => exact (runs_deliver reached).follows.value isReceived
  · intro before lag after isLog
    subst isLog
    obtain ⟨state, next, reached, taken⟩ := run.cut
    cases taken with
    | outside changed => cases changed
    | poll selecting empty isReceived => exact (runs_deliver reached).follows.lag isReceived
  · intro unsent isEnded
    have leads := delivers.leads
    rw [isEnded] at leads
    rcases leads with gone | given
    · exact Or.inl (delivers.closed gone)
    · exact Or.inr given

end FromStream

def quietSurroundings : Surroundings Nat where
  sent := []
  queued := 0
  queuedTotal := 0
  maxCapacity := 8
  closed := false
  now := 0

/-- Three values on a channel that keeps two; the first message of the second one is queued. -/
theorem pipe_from_stream_delivers_lagging :
    ∃ (log : List (Event Nat Nat)) (pipe : FromStream Nat Nat),
      messages log = [2] ∧ missed log = 1 ∧ broadcasts log = [1, 2, 3] ∧
      messages log ++ pipe.phase.held ++ pipe.rest =
        ((received log).flatMap fun value => [value, 10 * value]) ∧
      (received log).length + missed log = pipe.next := by
  have one := Trace.nil.snoc (@FromStream.Step.outside Nat Nat 2 .default
    (fun value => [value, 10 * value]) (fun _ => true) (.subscribed quietSurroundings) _ _
    (.broadcast 1))
  have three := (one.snoc (.outside (.broadcast 2))).snoc (.outside (.broadcast 3))
  have lagged := three.snoc (.poll rfl rfl rfl)
  have polled := lagged.snoc (.poll rfl rfl rfl)
  have sent := ((polled.snoc (.pick rfl rfl)).snoc
    (.drained rfl (Nat.le_refl _) (by decide))).snoc (.send rfl rfl rfl (by decide))
  have delivers := pipe_from_stream_delivers sent
  refine ⟨_, _, rfl, rfl, rfl, delivers.1, ?_⟩
  have counted := delivers.2.2.1
  simpa [quietSurroundings] using counted

/-! ## The newest value -/

def LatestPhase.held : LatestPhase Value → List Value
  | .selecting => []
  | .deciding item => [item]
  | .measured item _ _ => [item]
  | .sending item => [item]
  | .ended unsent => unsent.toList

def decidedOf : Event Value Value → Option Value
  | .queued item => some item
  | .skipped item _ => some item
  | _ => none

def decided (log : List (Event Value Value)) : List Value := log.filterMap decidedOf

section Latest

variable {room : Nat} {limits : SlowSubscriberLimits} {start : Surroundings Value}
  {log : List (Event Value Value)} {pipe next : Latest Value} {event : Event Value Value}

theorem messages_sublist_decided (log : List (Event Value Value)) :
    (messages log).Sublist (decided log) := by
  induction log with
  | nil => exact .slnil
  | cons event rest ih =>
      cases event with
      | queued item => exact ih.cons_cons item
      | skipped item now => exact ih.cons item
      | broadcast | passed | picked | found | gaveUp | closed | other => exact ih

structure Chooses (start : Surroundings Value) (log : List (Event Value Value))
    (pipe : Latest Value) : Prop where
  follows : Follows pipe.outside start pipe.next log
  order : decided log ++ pipe.phase.held = received log
  previous : ∀ previousAt, (pipe.previousAt = some previousAt ∨
    ∃ item held, pipe.phase = .measured item previousAt held) → ∃ message, .queued message ∈ log
  sending : ∀ item, pipe.phase = .sending item → pipe.skippingSince = none
  skipping : ∀ since, pipe.skippingSince = some since →
    ∃ item, Since log (.skipped item since)

theorem Chooses.move (chooses : Chooses start log pipe) {phase : LatestPhase Value}
    {skippingSince : Option Nat} {event : Event Value Value}
    (noBroadcast : broadcastOf event = none) (notPassed : passedOf event = none)
    (quiet : queuedOf event = none) (undecided : decidedOf event = none)
    (same : phase.held = pipe.phase.held)
    (skipping : skippingSince = pipe.skippingSince ∨ skippingSince = none)
    (previous : ∀ item previousAt held, phase = .measured item previousAt held →
      pipe.previousAt = some previousAt)
    (sending : ∀ item, phase = .sending item → skippingSince = none) :
    Chooses start (log ++ [event])
      { pipe with skippingSince := skippingSince, phase := phase } where
  follows := chooses.follows.quiet rfl noBroadcast notPassed
  order := by
    rw [received_quiet notPassed, decided, filterMap_concat, undecided, Option.toList_none,
      List.append_nil, same]
    exact chooses.order
  previous := by
    intro previousAt known
    have isPrevious : pipe.previousAt = some previousAt := by
      rcases known with isPrevious | ⟨item, held, measured⟩
      · exact isPrevious
      · exact previous item previousAt held measured
    obtain ⟨message, member⟩ := chooses.previous previousAt (Or.inl isPrevious)
    exact ⟨message, List.mem_append_left _ member⟩
  sending := sending
  skipping := by
    intro since isSince
    rcases skipping with kept | none
    · obtain ⟨item, skipped⟩ := chooses.skipping since (kept ▸ isSince)
      exact ⟨item, skipped.later quiet⟩
    · cases none.symm.trans isSince

theorem Chooses.change (chooses : Chooses start log pipe) {after : Surroundings Value}
    (changed : Surroundings.Step pipe.outside event after) :
    Chooses start (log ++ [event]) { pipe with outside := after } := by
  have facts : queuedOf event = none ∧ passedOf event = none ∧ decidedOf event = none := by
    cases changed <;> exact ⟨rfl, rfl, rfl⟩
  obtain ⟨quiet, notPassed, undecided⟩ := facts
  refine ⟨chooses.follows.change changed, ?_, ?_, chooses.sending, ?_⟩
  · rw [received_quiet notPassed, decided, filterMap_concat, undecided, Option.toList_none,
      List.append_nil]
    exact chooses.order
  · intro previousAt known
    obtain ⟨message, member⟩ := chooses.previous previousAt known
    exact ⟨message, List.mem_append_left _ member⟩
  · intro since isSince
    obtain ⟨item, skipped⟩ := chooses.skipping since isSince
    exact ⟨item, skipped.later quiet⟩

theorem Chooses.recv (chooses : Chooses start log pipe) {passed : Passed Value} {after : Nat}
    {phase : LatestPhase Value} (selecting : pipe.phase = .selecting)
    (isReceived : BroadcastRing.recv room pipe.outside.sent pipe.next = some (passed, after))
    (takes : phase.held = (BroadcastRing.valueOf passed).toList)
    (unmeasured : ∀ item previousAt held, phase ≠ .measured item previousAt held)
    (unsent : ∀ item, phase ≠ .sending item) :
    Chooses start (log ++ [.passed passed]) { pipe with next := after, phase := phase } where
  follows := chooses.follows.recv isReceived
  order := by
    have order := chooses.order
    rw [selecting, LatestPhase.held, List.append_nil] at order
    rw [received_passed, ← order, takes, decided, filterMap_concat]
    simp [decidedOf, decided]
  previous := by
    intro previousAt known
    have isPrevious : pipe.previousAt = some previousAt := by
      rcases known with isPrevious | ⟨item, held, measured⟩
      · exact isPrevious
      · exact absurd measured (unmeasured item previousAt held)
    obtain ⟨message, member⟩ := chooses.previous previousAt (Or.inl isPrevious)
    exact ⟨message, List.mem_append_left _ member⟩
  sending := fun item sending => absurd sending (unsent item)
  skipping := by
    intro since isSince
    obtain ⟨item, skipped⟩ := chooses.skipping since isSince
    exact ⟨item, skipped.later rfl⟩

theorem chooses_step (chooses : Chooses start log pipe)
    (taken : Latest.Step room limits pipe event next) : Chooses start (log ++ [event]) next := by
  cases taken with
  | outside changed => exact chooses.change changed
  | lag selecting isReceived =>
      have same : pipe = { pipe with phase := .selecting } := by rw [← selecting]
      rw [same]
      exact chooses.recv selecting isReceived rfl (by simp) (by simp)
  | poll selecting isReceived => exact chooses.recv selecting isReceived rfl (by simp) (by simp)
  | first deciding nothing =>
      apply chooses.move rfl rfl rfl rfl
      · simp [LatestPhase.held, deciding]
      · exact Or.inr rfl
      · simp
      · simp
  | measure deciding previous =>
      apply chooses.move rfl rfl rfl rfl
      · simp [LatestPhase.held, deciding]
      · exact Or.inl rfl
      · intro item previousAt held measured
        cases measured
        exact previous
      · simp
  | @skip item previousAt held measured buffered early =>
      refine ⟨chooses.follows.quiet rfl rfl rfl, ?_, ?_, by simp, ?_⟩
      · have order := chooses.order
        rw [measured, LatestPhase.held] at order
        rw [received_quiet rfl, ← order, decided, filterMap_concat]
        simp [decidedOf, LatestPhase.held, decided]
      · intro other known
        have isPrevious : pipe.previousAt = some other := by simpa using known
        obtain ⟨message, member⟩ := chooses.previous other (Or.inl isPrevious)
        exact ⟨message, List.mem_append_left _ member⟩
      · intro since isSince
        cases skipping : pipe.skippingSince with
        | none =>
            have isNow : pipe.outside.now = since := by simpa [Latest.since, skipping] using isSince
            rw [← isNow]
            exact ⟨item, Since.now log _⟩
        | some earlier =>
            have isEarlier : earlier = since := by simpa [Latest.since, skipping] using isSince
            rw [← isEarlier]
            obtain ⟨other, skipped⟩ := chooses.skipping earlier skipping
            exact ⟨other, skipped.later rfl⟩
  | giveUp measured buffered late =>
      apply chooses.move rfl rfl rfl rfl
      · simp [LatestPhase.held, measured]
      · exact Or.inl rfl
      · simp
      · simp
  | written measured left =>
      apply chooses.move rfl rfl rfl rfl
      · simp [LatestPhase.held, measured]
      · exact Or.inr rfl
      · simp
      · simp
  | @send item sending connected fits =>
      refine ⟨chooses.follows.quiet rfl rfl rfl, ?_, ?_, by simp, ?_⟩
      · have order := chooses.order
        rw [sending, LatestPhase.held] at order
        rw [received_quiet rfl, ← order, decided, filterMap_concat]
        simp [decidedOf, LatestPhase.held, decided]
      · intro _ _
        exact ⟨item, by simp⟩
      · intro since isSince
        cases (chooses.sending item sending).symm.trans isSince
  | fail sending =>
      apply chooses.move rfl rfl rfl rfl
      · simp [LatestPhase.held, sending]
      · exact Or.inl rfl
      · simp
      · simp
  | leave selecting gone =>
      apply chooses.move rfl rfl rfl rfl
      · simp [LatestPhase.held, selecting]
      · exact Or.inl rfl
      · simp
      · simp

theorem runs_choose (run : Trace (Latest.Step room limits) (.subscribed start) log pipe) :
    Chooses start log pipe :=
  @Trace.invariant _ _ _ _ (Chooses start)
    ⟨Follows.initial, by simp [decided, received, passes, BroadcastRing.values,
      Latest.subscribed, LatestPhase.held], by simp [Latest.subscribed],
      by simp [Latest.subscribed], by simp [Latest.subscribed]⟩
    (fun _ _ _ _ _ chooses taken => chooses_step chooses taken) _ _ run

/-- In every run each value received is queued or skipped, in order, but for the one in hand; a
value is skipped only behind a queued one; and the task ends for want of room only when it has
skipped since the last one queued for the whole time allowed. -/
theorem pipe_latest_chooses (run : Trace (Latest.Step room limits) (.subscribed start) log pipe) :
    decided log ++ pipe.phase.held = received log ∧ (messages log).Sublist (received log) ∧
      (received log).Sublist (broadcasts log) ∧
      (missed log = 0 → received log <+: broadcasts log) ∧
      (∀ before item now after, log = before ++ .skipped item now :: after →
        ∃ message, .queued message ∈ before) ∧
      ∀ before now after, log = before ++ .gaveUp now :: after →
        limits.timeout = 0 ∨ ∃ item since, Since before (.skipped item since) ∧
          since + limits.timeout ≤ now := by
  have chooses := runs_choose run
  obtain ⟨sublist, -, complete⟩ := chooses.follows.received
  refine ⟨chooses.order, ?_, sublist, ?_, ?_, ?_⟩
  · rw [← chooses.order]
    exact (messages_sublist_decided log).trans (List.sublist_append_left _ _)
  · intro kept
    rw [complete kept]
    exact List.take_prefix _ _
  · intro before item now after isLog
    subst isLog
    obtain ⟨state, next, reached, taken⟩ := run.cut
    cases taken with
    | outside changed => cases changed
    | @skip _ previousAt held measured buffered early =>
        exact (runs_choose reached).previous previousAt (Or.inr ⟨item, held, measured⟩)
  · intro before now after isLog
    subst isLog
    obtain ⟨state, next, reached, taken⟩ := run.cut
    cases taken with
    | outside changed => cases changed
    | giveUp measured buffered late =>
        cases skipping : state.skippingSince with
        | none =>
            rw [Latest.since, skipping, Option.getD_none] at late
            exact Or.inl (by omega)
        | some since =>
            rw [Latest.since, skipping, Option.getD_some] at late
            obtain ⟨item, skipped⟩ := (runs_choose reached).skipping since skipping
            by_cases instant : limits.timeout = 0
            · exact Or.inl instant
            · exact Or.inr ⟨item, since, skipped, by omega⟩

end Latest

/-- The client reads nothing: of two values the second is skipped. -/
theorem pipe_latest_chooses_skipping :
    ∃ (log : List (Event Nat Nat)) (pipe : Latest Nat),
      messages log = [1] ∧ decided log = [1, 2] ∧
      decided log ++ pipe.phase.held = received log := by
  have one := Trace.nil.snoc (@Latest.Step.outside Nat 2 .default
    (.subscribed quietSurroundings) _ _ (.broadcast 1))
  have both := one.snoc (.outside (.broadcast 2))
  have sent := ((both.snoc (.poll rfl rfl)).snoc (.first rfl rfl)).snoc (.send rfl rfl (by decide))
  have skipped := ((sent.snoc (.poll rfl rfl)).snoc (.measure rfl rfl)).snoc
    (.skip rfl rfl (by decide))
  exact ⟨_, _, rfl, rfl, (pipe_latest_chooses skipped).1⟩

end EthgasReth.Rpc.Pipes
