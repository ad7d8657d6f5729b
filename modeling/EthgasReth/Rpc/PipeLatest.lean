import EthgasReth.Lib.System

/-!
# The flashblocks subscriptions of one connection

`send`, `has_left`, `wait_for_room`, `pipe_from_stream` and `pipe_latest` of
`pubsub.rs`, as tasks that share the connection's bounded buffer and its counter.
Counting a message and queueing it are two steps.  A `newFlashblocks` subscription
decides from the buffer's length and the counter whether its previous message is
still buffered.  That is right as long as no message is queued behind one that was
counted after it.
-/

set_option autoImplicit false

namespace EthgasReth.Rpc.PipeLatest

open EthgasReth.Lib

/-! ## The tasks of a connection -/

/-- `pipe_from_stream` queues every item, `pipe_latest` only the newest. -/
inductive Pipe where
  | fromStream
  | latest
  deriving DecidableEq

/-- Where a subscription's task stands.  `measured` is between the two reads of the
decision; it remembers what the buffer held when its length was read. -/
inductive Phase where
  | idle (previousAt : Option Nat)
  | measured (queuedAt : Nat) (held : List Nat)
  | ready
  | counted (total : Nat)
  | ended
  deriving DecidableEq

def Phase.previousAt : Phase → Option Nat
  | .idle previousAt => previousAt
  | .measured queuedAt _ => some queuedAt
  | _ => none

structure Limits where
  maxCapacity : Nat
  maxQueued : Nat

structure Connection where
  buffer : List Nat
  queuedTotal : Nat
  phase : Nat → Phase

def Connection.queued (connection : Connection) : Nat := connection.buffer.length

def hasLeft (queuedNow queuedAfter : Nat) : Bool := queuedNow ≤ queuedAfter

def Connection.previousQueued (connection : Connection) (queuedAt : Nat) (held : List Nat) : Bool :=
  !hasLeft held.length (connection.queuedTotal - queuedAt)

def Connection.become (connection : Connection) (subscription : Nat) (phase : Phase) : Connection :=
  { connection with phase := Function.update connection.phase subscription phase }

def Pipe.afterSend (pipe : Pipe) (total : Nat) : Phase :=
  match pipe with
  | .fromStream => .idle none
  | .latest => .idle (some total)

section Steps

variable (limits : Limits) (pipe : Nat → Pipe) (meets : Connection → Nat → Prop)

/-- One step of a task, or a read of the client.  `meets` is a condition on queueing a
message. -/
inductive Step : Connection → Connection → Prop
  | hasRoom {connection : Connection} {subscription : Nat} {previousAt : Option Nat}
      (isPipe : pipe subscription = .fromStream)
      (idle : connection.phase subscription = .idle previousAt)
      (room : connection.queued ≤ limits.maxQueued) :
      Step connection (connection.become subscription .ready)
  | first {connection : Connection} {subscription : Nat} (isPipe : pipe subscription = .latest)
      (idle : connection.phase subscription = .idle none) :
      Step connection (connection.become subscription .ready)
  | measure {connection : Connection} {subscription queuedAt : Nat}
      (isPipe : pipe subscription = .latest)
      (idle : connection.phase subscription = .idle (some queuedAt)) :
      Step connection (connection.become subscription (.measured queuedAt connection.buffer))
  | skip {connection : Connection} {subscription queuedAt : Nat} {held : List Nat}
      (measured : connection.phase subscription = .measured queuedAt held)
      (judged : connection.previousQueued queuedAt held = true) :
      Step connection (connection.become subscription (.idle (some queuedAt)))
  | proceed {connection : Connection} {subscription queuedAt : Nat} {held : List Nat}
      (measured : connection.phase subscription = .measured queuedAt held)
      (judged : connection.previousQueued queuedAt held = false) :
      Step connection (connection.become subscription .ready)
  | count {connection : Connection} {subscription : Nat}
      (ready : connection.phase subscription = .ready) :
      Step connection { connection.become subscription (.counted (connection.queuedTotal + 1)) with
        queuedTotal := connection.queuedTotal + 1 }
  | enqueue {connection : Connection} {subscription total : Nat}
      (counted : connection.phase subscription = .counted total)
      (room : connection.queued < limits.maxCapacity) (met : meets connection total) :
      Step connection { connection.become subscription ((pipe subscription).afterSend total) with
        buffer := connection.buffer ++ [total] }
  | finish {connection : Connection} {subscription : Nat} :
      Step connection (connection.become subscription .ended)
  | read {connection : Connection} {message : Nat} {rest : List Nat}
      (front : connection.buffer = message :: rest) :
      Step connection { connection with buffer := rest }

def Connection.opened : Connection := ⟨[], 0, fun _ => .idle none⟩

def connections : System Connection where
  Init := fun connection => connection = Connection.opened
  Step := Step limits pipe meets

end Steps

/-! ## The invariant -/

/-- Whatever stands behind the message in the buffer was counted after it; once it has
been read, everything was. -/
def InPlace (queuedAt : Nat) (buffer : List Nat) : Prop :=
  (∃ before after, buffer = before ++ queuedAt :: after ∧ ∀ message ∈ after, queuedAt < message) ∨
    ∀ message ∈ buffer, queuedAt < message

theorem InPlace.append {queuedAt : Nat} {buffer : List Nat} (inPlace : InPlace queuedAt buffer)
    {message : Nat} (later : queuedAt < message) : InPlace queuedAt (buffer ++ [message]) := by
  have extended : ∀ {messages : List Nat}, (∀ other ∈ messages, queuedAt < other) →
      ∀ other ∈ messages ++ [message], queuedAt < other := by
    intro messages all other member
    rcases List.mem_append.mp member with member | member
    · exact all other member
    · rw [List.mem_singleton.mp member]
      exact later
  rcases inPlace with ⟨before, after, shape, behind⟩ | gone
  · exact Or.inl ⟨before, after ++ [message], by simp [shape], extended behind⟩
  · exact Or.inr (extended gone)

theorem InPlace.read {queuedAt message : Nat} {rest : List Nat}
    (inPlace : InPlace queuedAt (message :: rest)) : InPlace queuedAt rest := by
  rcases inPlace with ⟨before, after, shape, behind⟩ | gone
  · cases before with
    | nil =>
        simp only [List.nil_append, List.cons.injEq] at shape
        rw [shape.2]
        exact Or.inr behind
    | cons head before =>
        simp only [List.cons_append, List.cons.injEq] at shape
        exact Or.inl ⟨before, after, shape.2, behind⟩
  · exact Or.inr fun other member => gone other (List.mem_cons_of_mem _ member)

theorem length_le_counted {queuedAt total : Nat} {messages : List Nat} (nodup : messages.Nodup)
    (within : ∀ message ∈ messages, queuedAt < message ∧ message ≤ total) :
    messages.length ≤ total - queuedAt := by
  have inside : messages.toFinset ⊆ Finset.Ioc queuedAt total := by
    intro message member
    exact Finset.mem_Ioc.mpr (within message (List.mem_toFinset.mp member))
  calc messages.length
      = messages.toFinset.card := (List.toFinset_card_of_nodup nodup).symm
    _ ≤ (Finset.Ioc queuedAt total).card := Finset.card_le_card inside
    _ = total - queuedAt := Nat.card_Ioc queuedAt total

/-- Messages are counted before they are queued and queued once, and the previous
message of a subscription is in its place. -/
structure Consistent (connection : Connection) : Prop where
  buffered : ∀ message ∈ connection.buffer, message ≤ connection.queuedTotal
  nodup : connection.buffer.Nodup
  sending : ∀ subscription total, connection.phase subscription = .counted total →
    total ≤ connection.queuedTotal ∧ total ∉ connection.buffer
  apart : ∀ a b total, connection.phase a = .counted total → connection.phase b = .counted total →
    a = b
  placed : ∀ subscription queuedAt, (connection.phase subscription).previousAt = some queuedAt →
    InPlace queuedAt connection.buffer
  measured : ∀ subscription queuedAt held,
    connection.phase subscription = .measured queuedAt held →
    queuedAt ∈ held ∨ held.length ≤ connection.queuedTotal - queuedAt

theorem opened_consistent : Consistent Connection.opened where
  buffered := by simp [Connection.opened]
  nodup := List.nodup_nil
  sending := by simp [Connection.opened]
  apart := by simp [Connection.opened]
  placed := by simp [Connection.opened, Phase.previousAt]
  measured := by simp [Connection.opened]

section Kept

variable {connection : Connection} {subscription : Nat}

theorem become_phase {phase : Phase} {other : Nat} {P : Phase → Prop} (here : P phase)
    (elsewhere : other ≠ subscription → P (connection.phase other)) :
    P ((connection.become subscription phase).phase other) := by
  by_cases same : other = subscription
  · subst same
    simpa [Connection.become] using here
  · simpa [Connection.become, Function.update_of_ne same] using elsewhere same

theorem Consistent.become (consistent : Consistent connection) {phase : Phase}
    (uncounted : ∀ total, phase ≠ .counted total)
    (placed : ∀ queuedAt, phase.previousAt = some queuedAt → InPlace queuedAt connection.buffer)
    (measured : ∀ queuedAt held, phase = .measured queuedAt held →
      queuedAt ∈ held ∨ held.length ≤ connection.queuedTotal - queuedAt) :
    Consistent (connection.become subscription phase) where
  buffered := consistent.buffered
  nodup := consistent.nodup
  sending := by
    intro other total
    refine become_phase (P := fun phase => phase = .counted total → _) ?_ ?_
    · exact fun isCounted => absurd isCounted (uncounted total)
    · exact fun _ => consistent.sending other total
  apart := by
    intro a b total
    refine become_phase (P := fun phase => phase = .counted total → _) ?_ ?_
    · exact fun isCounted => absurd isCounted (uncounted total)
    · intro _ countedA
      refine become_phase (P := fun phase => phase = .counted total → _) ?_ ?_
      · exact fun isCounted => absurd isCounted (uncounted total)
      · exact fun _ => consistent.apart a b total countedA
  placed := by
    intro other queuedAt
    refine become_phase (P := fun phase => phase.previousAt = some queuedAt → _) ?_ ?_
    · exact placed queuedAt
    · exact fun _ => consistent.placed other queuedAt
  measured := by
    intro other queuedAt held
    refine become_phase (P := fun phase => phase = .measured queuedAt held → _) ?_ ?_
    · exact measured queuedAt held
    · exact fun _ => consistent.measured other queuedAt held

theorem Consistent.count (consistent : Consistent connection) :
    Consistent { connection.become subscription (.counted (connection.queuedTotal + 1)) with
      queuedTotal := connection.queuedTotal + 1 } where
  buffered := fun message member => Nat.le_succ_of_le (consistent.buffered message member)
  nodup := consistent.nodup
  sending := by
    intro other total
    refine become_phase (P := fun phase => phase = .counted total → _) ?_ ?_
    · rintro ⟨⟩
      refine ⟨Nat.le_refl _, fun member => ?_⟩
      have old := consistent.buffered _ member
      omega
    · intro _ isCounted
      obtain ⟨bound, absent⟩ := consistent.sending other total isCounted
      exact ⟨Nat.le_succ_of_le bound, absent⟩
  apart := by
    -- The new count is above every earlier one.
    have fresh : ∀ other, connection.phase other ≠ .counted (connection.queuedTotal + 1) := by
      intro other isCounted
      have old := (consistent.sending other _ isCounted).1
      omega
    intro a b total countedA countedB
    by_cases isA : a = subscription
    · by_cases isB : b = subscription
      · exact isA.trans isB.symm
      · have isTotal : total = connection.queuedTotal + 1 := by
          simpa [Connection.become, isA] using countedA.symm
        have old : connection.phase b = .counted total := by
          simpa [Connection.become, Function.update_of_ne isB] using countedB
        exact absurd (isTotal ▸ old) (fresh b)
    · have old : connection.phase a = .counted total := by
        simpa [Connection.become, Function.update_of_ne isA] using countedA
      by_cases isB : b = subscription
      · have isTotal : total = connection.queuedTotal + 1 := by
          simpa [Connection.become, isB] using countedB.symm
        exact absurd (isTotal ▸ old) (fresh a)
      · refine consistent.apart a b total old ?_
        simpa [Connection.become, Function.update_of_ne isB] using countedB
  placed := by
    intro other queuedAt
    refine become_phase (P := fun phase => phase.previousAt = some queuedAt → _) ?_ ?_
    · exact fun none => nomatch none
    · exact fun _ => consistent.placed other queuedAt
  measured := by
    intro other queuedAt held
    refine become_phase (P := fun phase => phase = .measured queuedAt held → _) ?_ ?_
    · exact fun none => nomatch none
    · intro _ isMeasured
      rcases consistent.measured other queuedAt held isMeasured with inside | few
      · exact Or.inl inside
      · right
        dsimp only
        omega

theorem afterSend_uncounted (pipe : Pipe) (queued total : Nat) :
    pipe.afterSend queued ≠ .counted total := by
  cases pipe <;> exact nofun

theorem afterSend_unmeasured (pipe : Pipe) (queued queuedAt : Nat) (held : List Nat) :
    pipe.afterSend queued ≠ .measured queuedAt held := by
  cases pipe <;> exact nofun

theorem afterSend_previousAt {pipe : Pipe} {queued queuedAt : Nat}
    (previous : (pipe.afterSend queued).previousAt = some queuedAt) : queued = queuedAt := by
  cases pipe with
  | fromStream => cases previous
  | latest => exact Option.some.inj previous

theorem Consistent.enqueue (consistent : Consistent connection) {total : Nat} (pipe : Pipe)
    (counted : connection.phase subscription = .counted total)
    (inOrder : ∀ other queuedAt, (connection.phase other).previousAt = some queuedAt →
      queuedAt < total) :
    Consistent { connection.become subscription (pipe.afterSend total) with
      buffer := connection.buffer ++ [total] } where
  buffered := by
    intro message member
    rcases List.mem_append.mp member with member | member
    · exact consistent.buffered message member
    · rw [List.mem_singleton.mp member]
      exact (consistent.sending subscription total counted).1
  nodup := by
    have absent := (consistent.sending subscription total counted).2
    rw [List.nodup_append]
    refine ⟨consistent.nodup, List.nodup_singleton total, ?_⟩
    intro message member other isOther same
    rw [List.mem_singleton.mp isOther] at same
    exact absent (same ▸ member)
  sending := by
    intro other message
    refine become_phase (P := fun phase => phase = .counted message → _) ?_ ?_
    · exact fun isCounted => absurd isCounted (afterSend_uncounted pipe total message)
    · intro different isCounted
      obtain ⟨bound, absent⟩ := consistent.sending other message isCounted
      refine ⟨bound, fun member => ?_⟩
      rcases List.mem_append.mp member with member | member
      · exact absent member
      · rw [List.mem_singleton.mp member] at isCounted
        exact different (consistent.apart other subscription total isCounted counted)
  apart := by
    intro a b message
    refine become_phase (P := fun phase => phase = .counted message → _) ?_ ?_
    · exact fun isCounted => absurd isCounted (afterSend_uncounted pipe total message)
    · intro _ countedA
      refine become_phase (P := fun phase => phase = .counted message → _) ?_ ?_
      · exact fun isCounted => absurd isCounted (afterSend_uncounted pipe total message)
      · exact fun _ => consistent.apart a b message countedA
  placed := by
    intro other queuedAt
    refine become_phase (P := fun phase => phase.previousAt = some queuedAt → _) ?_ ?_
    · intro previous
      have own := afterSend_previousAt previous
      subst own
      exact Or.inl ⟨connection.buffer, [], rfl, by simp⟩
    · intro _ previous
      exact (consistent.placed other queuedAt previous).append (inOrder other queuedAt previous)
  measured := by
    intro other queuedAt held
    refine become_phase (P := fun phase => phase = .measured queuedAt held → _) ?_ ?_
    · exact fun isMeasured => absurd isMeasured (afterSend_unmeasured pipe total queuedAt held)
    · exact fun _ => consistent.measured other queuedAt held

theorem Consistent.measure (consistent : Consistent connection) {queuedAt : Nat}
    (idle : connection.phase subscription = .idle (some queuedAt)) :
    Consistent (connection.become subscription (.measured queuedAt connection.buffer)) := by
  have inPlace : InPlace queuedAt connection.buffer :=
    consistent.placed subscription queuedAt (by rw [idle]; rfl)
  refine consistent.become nofun ?_ ?_
  · rintro other ⟨⟩
    exact inPlace
  · rintro other held ⟨⟩
    rcases inPlace with ⟨before, after, shape, -⟩ | gone
    · left
      simp [shape]
    · right
      exact length_le_counted consistent.nodup fun message member =>
        ⟨gone message member, consistent.buffered message member⟩

theorem Consistent.read (consistent : Consistent connection) {message : Nat} {rest : List Nat}
    (front : connection.buffer = message :: rest) :
    Consistent { connection with buffer := rest } where
  buffered := by
    intro other member
    apply consistent.buffered
    rw [front]
    exact List.mem_cons_of_mem _ member
  nodup := by
    have nodup := consistent.nodup
    rw [front] at nodup
    exact nodup.of_cons
  sending := by
    intro other total isCounted
    obtain ⟨bound, absent⟩ := consistent.sending other total isCounted
    refine ⟨bound, fun member => absent ?_⟩
    rw [front]
    exact List.mem_cons_of_mem _ member
  apart := consistent.apart
  placed := by
    intro other queuedAt previous
    have inPlace := consistent.placed other queuedAt previous
    rw [front] at inPlace
    exact inPlace.read
  measured := consistent.measured

end Kept

/-! ## The decision -/

/-- No subscription's previous message was counted after the one that is queued. -/
def InOrder (connection : Connection) (total : Nat) : Prop :=
  ∀ subscription queuedAt, (connection.phase subscription).previousAt = some queuedAt →
    queuedAt < total

theorem step_consistent {limits : Limits} {pipe : Nat → Pipe} {connection next : Connection}
    (consistent : Consistent connection) (step : Step limits pipe InOrder connection next) :
    Consistent next := by
  cases step with
  | hasRoom | first | proceed | finish => exact consistent.become nofun nofun nofun
  | measure isPipe idle => exact consistent.measure idle
  | skip measured judged =>
      refine consistent.become nofun ?_ nofun
      rintro other ⟨⟩
      exact consistent.placed _ _ (by rw [measured]; rfl)
  | count ready => exact consistent.count
  | enqueue counted room met => exact consistent.enqueue _ counted met
  | read front => exact consistent.read front

/-- In every run in which no message is queued behind a later-counted previous message
of a `newFlashblocks` subscription, an item is skipped only if the subscription's
previous message was in the buffer when its length was read. -/
theorem skips_only_while_buffered {limits : Limits} {pipe : Nat → Pipe} {connection : Connection}
    (reached : (connections limits pipe InOrder).Reachable connection)
    {subscription queuedAt : Nat} {held : List Nat}
    (measured : connection.phase subscription = .measured queuedAt held)
    (judged : connection.previousQueued queuedAt held = true) : queuedAt ∈ held := by
  have consistent : Consistent connection := by
    refine System.Reachable.invariant ?_ ?_ reached
    · rintro state rfl
      exact opened_consistent
    · intro state next _ consistent step
      exact step_consistent consistent step
  rcases consistent.measured subscription queuedAt held measured with inside | few
  · exact inside
  · have left : hasLeft held.length (connection.queuedTotal - queuedAt) = true :=
      decide_eq_true few
    rw [Connection.previousQueued, left] at judged
    cases judged

def twoPipes : Nat → Pipe := fun subscription => if subscription = 0 then .latest else .fromStream

def smallLimits : Limits := ⟨2, 1⟩

def Connection.afterCount (connection : Connection) (subscription : Nat) : Connection :=
  { connection.become subscription (.counted (connection.queuedTotal + 1)) with
    queuedTotal := connection.queuedTotal + 1 }

def Connection.afterEnqueue (connection : Connection) (subscription total : Nat) : Connection :=
  { connection.become subscription ((twoPipes subscription).afterSend total) with
    buffer := connection.buffer ++ [total] }

/-- Subscription 0 sends its first message and finds it unread. -/
theorem skips_only_while_buffered_unread :
    ∃ connection, (connections smallLimits twoPipes InOrder).Reachable connection ∧
      connection.phase 0 = .measured 1 [1] ∧ connection.previousQueued 1 [1] = true ∧
      1 ∈ [1] := by
  let ready := Connection.opened.become 0 .ready
  let counted := ready.afterCount 0
  let sent := counted.afterEnqueue 0 1
  let measured := sent.become 0 (.measured 1 [1])
  have isReady : (connections smallLimits twoPipes InOrder).Reachable ready :=
    .step (.init rfl) (.first rfl rfl)
  have isCounted : (connections smallLimits twoPipes InOrder).Reachable counted :=
    .step isReady (.count rfl)
  have isSent : (connections smallLimits twoPipes InOrder).Reachable sent := by
    refine .step isCounted (.enqueue rfl (by decide) ?_)
    intro subscription queuedAt
    refine become_phase (P := fun phase => phase.previousAt = some queuedAt → _) nofun ?_
    intro _
    exact become_phase (P := fun phase => phase.previousAt = some queuedAt → _) nofun fun _ => nofun
  have reached : (connections smallLimits twoPipes InOrder).Reachable measured :=
    .step isSent (.measure rfl rfl)
  have isMeasured : measured.phase 0 = .measured 1 [1] := by decide
  have judged : measured.previousQueued 1 [1] = true := by decide
  exact ⟨measured, reached, isMeasured, judged, skips_only_while_buffered reached isMeasured judged⟩

/-- Subscription 1 counts its message first and queues it second.  Once the client has
read the message of subscription 0, the one behind it makes it look unread. -/
theorem overtaken_message_looks_buffered :
    ¬ ∀ (limits : Limits) (pipe : Nat → Pipe) (connection : Connection) (subscription queuedAt : Nat)
      (held : List Nat), (connections limits pipe fun _ _ => True).Reachable connection →
      connection.phase subscription = .measured queuedAt held →
      connection.previousQueued queuedAt held = true → queuedAt ∈ held := by
  intro claim
  let otherReady := Connection.opened.become 1 .ready
  let otherCounted := otherReady.afterCount 1
  let ready := otherCounted.become 0 .ready
  let counted := ready.afterCount 0
  let sent := counted.afterEnqueue 0 2
  let otherSent := sent.afterEnqueue 1 1
  let read : Connection := { otherSent with buffer := [1] }
  let measured := read.become 0 (.measured 2 [1])
  let system := connections smallLimits twoPipes fun _ _ => True
  have isOtherReady : system.Reachable otherReady :=
    .step (.init rfl) (.hasRoom rfl rfl (by decide))
  have isOtherCounted : system.Reachable otherCounted := .step isOtherReady (.count rfl)
  have isReady : system.Reachable ready := .step isOtherCounted (.first rfl rfl)
  have isCounted : system.Reachable counted := .step isReady (.count rfl)
  have isSent : system.Reachable sent := .step isCounted (.enqueue rfl (by decide) trivial)
  have isOtherSent : system.Reachable otherSent := .step isSent (.enqueue rfl (by decide) trivial)
  have isRead : system.Reachable read := .step isOtherSent (.read rfl)
  have reached : system.Reachable measured := .step isRead (.measure rfl rfl)
  have inside := claim smallLimits twoPipes measured 0 2 [1] reached (by decide) (by decide)
  exact absurd inside (by decide)

end EthgasReth.Rpc.PipeLatest
